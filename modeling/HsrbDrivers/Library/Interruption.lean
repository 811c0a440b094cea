import HsrbDrivers.Library.WriteLoop

-- What a signal does to a sleep that reports it by its result and leaves `errno` alone.
namespace HsrbDrivers.WriteLoop
open Session

def Posix : DeviceEvent → Prop
  | .sleepFailed _ _ errno _ => errno = none
  | _ => True

def Interrupts : DeviceEvent → Prop
  | .sleepFailed result _ _ _ => result = eintr
  | _ => False

def Resumes (trace : List DeviceEvent) : Prop :=
  ∀ before left errno set after, trace = before ++ .sleepFailed eintr left errno set :: after → ∃ rest, after = .sleep left :: rest

def Calm (trace : List DeviceEvent) : Prop := (∀ event ∈ trace, Posix event) → ∀ event ∈ trace, ¬ Interrupts event

def Settled (trace : List DeviceEvent) : Prop :=
  (∀ event ∈ trace, Posix event) → (∀ event ∈ trace, ¬ Interrupts event) ∨ ∃ front last, trace = front ++ [last] ∧ Interrupts last

def Resumed (trace : List DeviceEvent) : Prop := (∀ event ∈ trace, Posix event) → Resumes trace

theorem Calm.append {trace : List DeviceEvent} (calm : Calm trace) {event : DeviceEvent} (other : ¬ Interrupts event) : Calm (trace ++ [event]) := by
  intro posix one member
  rcases List.mem_append.mp member with old | new
  · exact calm (fun event old => posix event (List.mem_append_left _ old)) one old
  · exact List.mem_singleton.mp new ▸ other

theorem Calm.settled {trace : List DeviceEvent} (calm : Calm trace) : Settled trace := fun posix => .inl (calm posix)

theorem resumes_of_calm {trace : List DeviceEvent} (calm : ∀ event ∈ trace, ¬ Interrupts event) : Resumes trace := by
  rintro before left errno set after rfl
  exact absurd rfl (calm (.sleepFailed eintr left errno set) (by simp))

theorem resumes_append {trace : List DeviceEvent} (resumes : Resumes trace) {event : DeviceEvent} (other : ¬ Interrupts event) :
    Resumes (trace ++ [event]) := by
  intro before left errno set after split
  rcases extended_split split with ⟨rfl,rfl,_⟩ | ⟨rest,rfl,same⟩
  · exact absurd rfl other
  · obtain ⟨later,rfl⟩ := resumes before left errno set rest same
    exact ⟨later ++ [event],rfl⟩

theorem resumes_again {trace : List DeviceEvent} (resumes : Resumes trace) {result left : Int} {errno : Option Int} {set : errno ≠ some 0} :
    Resumes (trace ++ [.sleepFailed result left errno set] ++ [.sleep left]) := by
  intro before other given also after split
  rcases extended_split split with ⟨_,slept,_⟩ | ⟨rest,rfl,earlier⟩
  · cases slept
  rcases extended_split earlier with ⟨_,failed,rfl⟩ | ⟨rest,rfl,oldest⟩
  · cases failed
    exact ⟨[],rfl⟩
  · obtain ⟨later,rfl⟩ := resumes before other given also rest oldest
    exact ⟨_,rfl⟩

theorem settled_resumes_iff {trace : List DeviceEvent} (settled : Settled trace) (posix : ∀ event ∈ trace, Posix event) :
    Resumes trace ↔ ∀ event ∈ trace, ¬ Interrupts event := by
  refine ⟨fun resumes => ?_,resumes_of_calm⟩
  rcases settled posix with calm | ⟨front,last,rfl,interrupts⟩
  · exact calm
  · cases last with
    | sleepFailed result left errno set =>
        cases interrupts
        obtain ⟨_,none⟩ := resumes front left errno set [] rfl
        cases none
    | _ => exact interrupts.elim

theorem now_calm : Keeps Calm Calm now fun _ => Calm := by
  refine Keeps.meet (fun _ => id) fun trace event time calm taken => ?_
  cases event with
  | clock now => exact calm.append id
  | _ => cases taken

theorem write_calm (bytes : List UInt8) : Keeps Calm Calm (write bytes) fun _ => Calm := by
  have asked : Keeps Calm Calm (emit (.write bytes)) fun _ => Calm := Keeps.emit fun _ calm => calm.append id
  refine Keeps.bind asked fun _ => Keeps.meet (fun _ => id) fun trace event result calm taken => ?_
  cases event with
  | wrote count => exact calm.append id
  | writeFailed errno set => exact calm.append id
  | _ => cases taken

theorem clockTurn_calm (p : Policy) (s : Progress) :
    Keeps Calm Calm (clockTurn p s) (Sum.elim (fun _ => Calm) fun _ => Settled) := by
  refine Keeps.bind now_calm fun elapsed => ?_
  split
  · exact Keeps.pure fun _ calm => calm.settled
  · exact Keeps.pure fun _ calm => calm

def Undisturbed (errno : Int) (trace : List DeviceEvent) : Prop :=
  (∀ event ∈ trace, Posix event) → errno ≠ eintr ∧ ∀ event ∈ trace, ¬ Interrupts event

theorem Undisturbed.calm {errno : Int} {trace : List DeviceEvent} (undisturbed : Undisturbed errno trace) : Calm trace :=
  fun posix => (undisturbed posix).2

theorem sleep_asks (nsec errno : Int) : Keeps Calm (Undisturbed errno) (emit (.sleep nsec)) fun _ => Undisturbed errno := by
  refine Keeps.emit fun trace undisturbed posix => ?_
  have earlier := undisturbed fun event member => posix event (List.mem_append_left _ member)
  exact ⟨earlier.1,undisturbed.calm.append id posix⟩

theorem wake_calm (errno : Int) :
    Keeps Calm (Undisturbed errno) (wake errno) fun failure trace => match failure with
      | none => Calm trace
      | some (_,errno) => Settled trace ∧ (errno = eintr → Undisturbed errno trace) := by
  refine Keeps.meet (fun _ undisturbed => undisturbed.calm) fun trace event failure undisturbed taken => ?_
  cases event with
  | slept =>
      cases taken
      exact undisturbed.calm.append id
  | sleepFailed result left given set =>
      cases taken
      refine ⟨?_,fun same posix => ?_⟩
      · by_cases interrupts : result = eintr
        · exact fun _ => .inr ⟨trace,_,rfl,interrupts⟩
        · exact (undisturbed.calm.append (show ¬ Interrupts (.sleepFailed result left given set) from interrupts)).settled
      · have kept : given = none := posix (.sleepFailed result left given set) (by simp)
        have earlier := undisturbed fun event member => posix event (List.mem_append_left _ member)
        rw [kept] at same
        exact absurd same earlier.1
  | _ => cases taken

theorem sleepAll_calm (nsec : Int) {errno : Int} (other : errno ≠ eintr) :
    Keeps Calm Calm (sleepAll nsec errno) fun failure trace => match failure with
      | none => Calm trace
      | some _ => Settled trace := by
  have turn : ∀ errno, Keeps Calm (Undisturbed errno) (sleepTurn errno) (Sum.elim Undisturbed fun failure trace =>
      match failure with
      | none => Calm trace
      | some _ => Settled trace) := by
    intro errno
    refine Keeps.bind (wake_calm errno) fun failure => ?_
    match failure with
    | none => exact Keeps.pure fun _ calm => calm
    | some (left,errno) =>
        dsimp only
        split
        · rename_i same
          refine Keeps.bind ((sleep_asks left errno).before fun _ ended => ended.2 same) fun _ => ?_
          exact Keeps.pure fun _ undisturbed => undisturbed
        · exact Keeps.pure fun _ ended => ended.1
  refine Keeps.bind ((sleep_asks nsec errno).before fun _ calm posix => ⟨other,calm posix⟩) fun _ => ?_
  exact Keeps.loop (fun _ _ undisturbed => undisturbed.calm) turn errno

theorem writeTurn_calm (p : Policy) (frame : List UInt8) (start : Int) (s : Progress) :
    Keeps Calm Calm (writeTurn p frame start s) (Sum.elim (fun _ => Calm) fun _ => Settled) := by
  have ends : ∀ trace, Calm trace → Settled trace := fun _ calm => calm.settled
  refine @writeTurn_keeps p frame start s _ _ (fun _ => Calm) (fun _ => Calm) _ (fun _ => ends) (fun _ => write_calm _)
    (fun _ _ => ends) ?_ (fun _ _ => ends) (fun _ _ _ => ends) (fun _ _ _ => id) fun done => clockTurn_calm p _
  refine (sleepAll_calm p.sleepTick (by decide)).weaken (fun _ => id) fun failure trace ended => ?_
  cases failure with
  | none => exact ended
  | some errno => exact ended

theorem writeAll_calm (p : Policy) (frame : List UInt8) : Keeps Calm Calm (writeAll p frame) fun _ => Settled := by
  refine Keeps.bind now_calm fun start => ?_
  have turns := @Keeps.loop _ _ _ Calm _ _ (fun _ => Calm) (fun _ _ => id) (writeTurn_calm p frame start)
  exact turns ⟨start,0⟩

def Said : DeviceEvent → Prop
  | .write _ => True
  | .sleep _ => True
  | _ => False

theorem sleepAll_takes (nsec errno : Int) : Takes Said (sleepAll nsec errno) := by
  have turn : ∀ errno, Takes Said (sleepTurn errno) := by
    intro errno
    refine Takes.bind (Takes.meet _) fun failure => ?_
    match failure with
    | none => exact Takes.pure _
    | some (left,errno) =>
        dsimp only
        split
        · exact Takes.bind (Takes.emit trivial) fun _ => Takes.pure _
        · exact Takes.pure _
  exact Takes.bind (Takes.emit trivial) fun _ => Takes.loop turn errno

theorem clockTurn_takes (p : Policy) (s : Progress) : Takes Said (clockTurn p s) := by
  refine Takes.bind (Takes.meet _) fun elapsed => ?_
  split
  · exact Takes.pure _
  · exact Takes.pure _

theorem writeAll_takes (p : Policy) (frame : List UInt8) : Takes Said (writeAll p frame) := by
  have turn : ∀ start s, Takes Said (writeTurn p frame start s) := by
    intro start s
    unfold writeTurn
    split
    · refine Takes.bind (Takes.bind (Takes.emit trivial) fun _ => Takes.meet _) fun result => ?_
      cases result with
      | error errno =>
          dsimp only
          split
          · refine Takes.bind (sleepAll_takes _ _) fun failure => ?_
            cases failure with
            | none => exact clockTurn_takes p s
            | some errno => exact Takes.pure _
          · exact Takes.pure _
      | ok count =>
          dsimp only
          split
          · exact Takes.pure _
          · split
            · split
              · exact Takes.pure _
              · exact clockTurn_takes p _
            · exact clockTurn_takes p _
    · exact Takes.pure _
  exact Takes.bind (Takes.meet _) fun start => Takes.loop (turn start) _

theorem settled_iff {m : Session DeviceEvent α} (takes : Takes Said m) (keeps : Keeps Calm Calm m fun _ => Settled) {schedule : List DeviceEvent}
    (posix : ∀ event ∈ schedule, Posix event) (whole : (m ⟨[],schedule⟩).2.script = []) :
    Resumes (m ⟨[],schedule⟩).2.trace ↔ ∀ event ∈ schedule, ¬ Interrupts event := by
  obtain ⟨shown,told⟩ := takes.whole whole
  have own : ∀ {event}, Said event → Posix event ∧ ¬ Interrupts event := by
    intro event said
    cases event with
    | write bytes => exact ⟨trivial,id⟩
    | sleep nsec => exact ⟨trivial,id⟩
    | _ => exact said.elim
  have settled : Settled (m ⟨[],schedule⟩).2.trace := by
    obtain ⟨ended,cut⟩ := keeps ⟨[],schedule⟩ fun _ _ member => by cases member
    cases result : (m ⟨[],schedule⟩).1 with
    | ok a => exact ended a result
    | error reason => exact (cut reason result).settled
  rw [settled_resumes_iff settled fun event member => (told event member).elim (posix event) fun said => (own said).1]
  exact ⟨fun calm event member => calm event (shown event member),
    fun calm event member => (told event member).elim (calm event) fun said => (own said).2⟩

theorem Resumed.append {trace : List DeviceEvent} (resumed : Resumed trace) {event : DeviceEvent} (other : ¬ Interrupts event) :
    Resumed (trace ++ [event]) :=
  fun posix => resumes_append (resumed fun event member => posix event (List.mem_append_left _ member)) other

structure Enduring (errno : Int) (trace : List DeviceEvent) : Prop where
  resumed : Resumed trace
  kept : (∀ event ∈ trace, Posix event) → errno = eintr

theorem wake_resumed (errno : Int) :
    Keeps Resumed (Enduring errno) (wake errno) fun failure trace => match failure with
      | none => Resumed trace
      | some (left,errno) => (errno = eintr → Enduring errno (trace ++ [.sleep left])) ∧ (errno ≠ eintr → Resumed trace) := by
  refine Keeps.meet (fun _ enduring => enduring.resumed) fun trace event failure ⟨resumed,kept⟩ taken => ?_
  cases event with
  | slept =>
      cases taken
      exact resumed.append id
  | sleepFailed result left given set =>
      cases taken
      refine ⟨fun same => ⟨fun posix => ?_,fun _ => same⟩,fun other posix => ?_⟩
      · exact resumes_again (resumed fun event member => posix event (by simp [member]))
      · have alone : given = none := posix (.sleepFailed result left given set) (by simp)
        rw [alone] at other
        exact absurd (kept fun event member => posix event (List.mem_append_left _ member)) other
  | _ => cases taken

def interruption (left : Int) : List DeviceEvent := [.clock 0,.writeFailed eagain eagain_set,.sleepFailed eintr left none nofun]

theorem sleepAll_interrupted (nsec left : Int) {errno : Int} (other : errno ≠ eintr) :
    sleepAll nsec errno ⟨[],[.sleepFailed eintr left none nofun]⟩ =
      (.ok (some errno),⟨[.sleep nsec,.sleepFailed eintr left none nofun],[]⟩) := by
  have failed : wake errno ⟨[.sleep nsec],[.sleepFailed eintr left none nofun]⟩ =
      (.ok (some (left,errno)),⟨[.sleep nsec,.sleepFailed eintr left none nofun],[]⟩) := rfl
  have turn : sleepTurn errno ⟨[.sleep nsec],[.sleepFailed eintr left none nofun]⟩ =
      (.ok (.inr (some errno)),⟨[.sleep nsec,.sleepFailed eintr left none nofun],[]⟩) := by
    refine (bind_ok failed _).trans ?_
    dsimp only
    rw [if_neg other]
    rfl
  exact (bind_ok turn _).trans rfl

theorem writeAll_interrupted {p : Policy} (patient : 0 < p.timeout) (frame : List UInt8) (left : Int) :
    writeAll p frame ⟨[],interruption left⟩ = (.ok eagain,⟨[.clock 0,.write frame,.writeFailed eagain eagain_set,.sleep p.sleepTick,
      .sleepFailed eintr left none nofun],[]⟩) := by
  have early : (0 : Int) - 0 < p.timeout := patient
  have turn : writeTurn p frame 0 ⟨0,0⟩ ⟨[.clock 0],(interruption left).tail⟩ = (.ok (.inr eagain),
      ⟨[.clock 0,.write frame,.writeFailed eagain eagain_set,.sleep p.sleepTick,.sleepFailed eintr left none nofun],[]⟩) := by
    unfold writeTurn
    rw [if_pos early]
    rfl
  exact (bind_ok turn _).trans rfl

theorem sleepAll_resumed (nsec : Int) : Keeps Resumed Resumed (sleepAll nsec eintr) fun _ => Resumed := by
  have turn : ∀ errno, Keeps Resumed (Enduring errno) (sleepTurn errno) (Sum.elim Enduring fun _ => Resumed) := by
    intro errno
    refine Keeps.bind (wake_resumed errno) fun failure => ?_
    match failure with
    | none => exact Keeps.pure fun _ resumed => resumed
    | some (left,errno) =>
        dsimp only
        split
        · rename_i same
          have asked : Keeps Resumed (fun trace => (errno = eintr → Enduring errno (trace ++ [.sleep left])) ∧
              (errno ≠ eintr → Resumed trace)) (emit (.sleep left)) fun _ => Enduring errno :=
            Keeps.emit fun _ ended => ended.1 same
          exact Keeps.bind asked fun _ => Keeps.pure fun _ enduring => enduring
        · rename_i other
          exact Keeps.pure fun _ ended => ended.2 other
  have begun : Keeps Resumed Resumed (emit (.sleep nsec)) fun _ => Enduring eintr :=
    Keeps.emit fun _ resumed => ⟨resumed.append id,fun _ => rfl⟩
  exact Keeps.bind begun fun _ => Keeps.loop (fun _ _ enduring => enduring.resumed) turn eintr

theorem resumes_of_keeps {m : Session DeviceEvent α} (takes : Takes Said m) (keeps : Keeps Resumed Resumed m fun _ => Resumed)
    {schedule : List DeviceEvent} (posix : ∀ event ∈ schedule, Posix event) (whole : (m ⟨[],schedule⟩).2.script = []) :
    Resumes (m ⟨[],schedule⟩).2.trace := by
  have resumed : Resumed (m ⟨[],schedule⟩).2.trace := by
    obtain ⟨ended,cut⟩ := keeps ⟨[],schedule⟩ fun _ => resumes_of_calm nofun
    cases result : (m ⟨[],schedule⟩).1 with
    | ok a => exact ended a result
    | error reason => exact cut reason result
  refine resumed fun event member => ?_
  rcases (takes.whole whole).2 event member with given | said
  · exact posix event given
  · cases event with
    | sleepFailed => exact said.elim
    | _ => trivial

end HsrbDrivers.WriteLoop

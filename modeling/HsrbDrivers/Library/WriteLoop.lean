import HsrbDrivers.Library.Schedule
import Mathlib.Data.List.Infix

-- Writing all of a frame to a device that may be busy, before a deadline.
namespace HsrbDrivers.WriteLoop
open Session

-- The calls that the program makes are `write` and `sleep`; the others are what the system
-- answers. A sleep that fails leaves a duration behind, and may set `errno`.
inductive DeviceEvent where
  | clock (now : Int)
  | write (bytes : List UInt8)
  | wrote (count : Nat)
  | writeFailed (errno : Int) (set : errno ≠ 0)
  | sleep (nsec : Int)
  | slept
  | sleepFailed (result : Int) (left : Int) (errno : Option Int) (set : errno ≠ some 0)

def eintr : Int := 4
def eagain : Int := 11
def timedOut : Int := 110

theorem eagain_set : eagain ≠ 0 := by decide

def now : Session DeviceEvent Int := meet fun
  | .clock now => some now
  | _ => none

def write (bytes : List UInt8) : Session DeviceEvent (Except Int Nat) := do
  emit (.write bytes)
  meet fun
    | .wrote count => if count ≤ bytes.length then some (.ok count) else none
    | .writeFailed errno _ => some (.error errno)
    | _ => none

def wake (errno : Int) : Session DeviceEvent (Option (Int × Int)) := meet fun
  | .slept => some none
  | .sleepFailed _ left set _ => some (some (left,set.getD errno))
  | _ => none

-- The loop around `clock_nanosleep`, turned by half: a failure with the `errno` `eintr` is
-- followed by a sleep for what is left, and another one ends the loop with its `errno`.
def sleepTurn (errno : Int) : Session DeviceEvent (Int ⊕ Option Int) := do
  let failure ← wake errno
  match failure with
  | none => pure (.inr none)
  | some (left,errno) =>
    if errno = eintr then do
      emit (.sleep left)
      pure (.inl errno)
    else pure (.inr (some errno))

def sleepAll (nsec errno : Int) : Session DeviceEvent (Option Int) := do
  emit (.sleep nsec)
  loop sleepTurn errno

-- Where the copies of the loop differ: the error for more bytes than there are, if that is
-- one, and whether a clock that runs backwards ends the loop.
structure Policy where
  timeout : Int
  sleepTick : Int
  surplus : Option Int
  watchesClock : Bool

structure Progress where
  elapsed : Int
  done : Nat

def clockTurn (p : Policy) (s : Progress) : Session DeviceEvent (Progress ⊕ Int) := do
  let elapsed ← now
  if p.watchesClock ∧ elapsed < s.elapsed then pure (.inr timedOut) else pure (.inl {s with elapsed := elapsed})

def writeTurn (p : Policy) (frame : List UInt8) (start : Int) (s : Progress) : Session DeviceEvent (Progress ⊕ Int) :=
  if s.elapsed - start < p.timeout then do
    let result ← write (frame.drop s.done)
    match result with
    | .error errno =>
      if errno = eagain then do
        let failure ← sleepAll p.sleepTick errno
        match failure with
        | some errno => pure (.inr errno)
        | none => clockTurn p s
      else pure (.inr errno)
    | .ok count =>
      if s.done + count = frame.length then pure (.inr 0)
      else match p.surplus with
        | some error => if s.done + count > frame.length then pure (.inr error) else clockTurn p {s with done := s.done + count}
        | none => clockTurn p {s with done := s.done + count}
  else pure (.inr timedOut)

-- The loop from its first look at the clock, with the value of a system error, 0 for a success.
def writeAll (p : Policy) (frame : List UInt8) : Session DeviceEvent Int := do
  let start ← now
  loop (writeTurn p frame start) ⟨start,0⟩

-- What is to be known of a turn is what is known of its write, its sleep, its ends and its clock.
section Rule
variable {p : Policy} {frame : List UInt8} {start : Int} {s : Progress} {during before : List DeviceEvent → Prop}
  {written : Except Int Nat → List DeviceEvent → Prop} {timed : Progress → List DeviceEvent → Prop}
  {after : Progress ⊕ Int → List DeviceEvent → Prop}

theorem writeTurn_keeps
    (late : ¬ s.elapsed - start < p.timeout → ∀ trace, before trace → after (.inr timedOut) trace)
    (offered : s.elapsed - start < p.timeout → Keeps during before (write (frame.drop s.done)) written)
    (failed : ∀ errno, errno ≠ eagain → ∀ trace, written (.error errno) trace → after (.inr errno) trace)
    (slept : Keeps during (written (.error eagain)) (sleepAll p.sleepTick eagain) fun failure trace => match failure with
      | none => timed s trace
      | some errno => after (.inr errno) trace)
    (whole : ∀ count, s.done + count = frame.length → ∀ trace, written (.ok count) trace → after (.inr 0) trace)
    (surplus : ∀ count error, s.done + count > frame.length → ∀ trace, written (.ok count) trace → after (.inr error) trace)
    (onwards : ∀ count, s.done + count ≠ frame.length → ∀ trace, written (.ok count) trace →
      timed {s with done := s.done + count} trace)
    (clocked : ∀ done, Keeps during (timed {s with done := done}) (clockTurn p {s with done := done}) after) :
    Keeps during before (writeTurn p frame start s) after := by
  unfold writeTurn
  split
  · rename_i early
    refine Keeps.bind (offered early) fun result => ?_
    cases result with
    | error errno =>
        dsimp only
        split
        · rename_i busy
          subst busy
          refine Keeps.bind slept fun failure => ?_
          cases failure with
          | none => exact clocked s.done
          | some errno => exact Keeps.pure fun _ ended => ended
        · rename_i other
          exact Keeps.pure (failed errno other)
    | ok count =>
        dsimp only
        split
        · rename_i all
          exact Keeps.pure (whole count all)
        · rename_i part
          have more := (clocked (s.done + count)).before (onwards count part)
          split
          · split
            · rename_i beyond
              exact Keeps.pure (surplus count _ beyond)
            · exact more
          · exact more
  · rename_i passed
    exact Keeps.pure (late passed)

end Rule

def device (s : List UInt8 × List UInt8) : DeviceEvent → List UInt8 × List UInt8
  | .write bytes => (bytes,s.2)
  | .wrote count => ([],s.2 ++ s.1.take count)
  | _ => s

def accepted (trace : List DeviceEvent) : List UInt8 := (trace.foldl device ([],[])).2

def InOrder (frame : List UInt8) (trace : List DeviceEvent) : Prop := ∀ before, before <+: trace → accepted before <+: frame

def Complete (frame : List UInt8) (trace : List DeviceEvent) : Prop := (∃ count, .wrote count ∈ trace) ∧ accepted trace = frame

@[simp] theorem accepted_append (trace : List DeviceEvent) (event : DeviceEvent) :
    accepted (trace ++ [event]) = (device (trace.foldl device ([],[])) event).2 := by
  simp [accepted]

-- Where the loop stands: what the device has, in order, and that this is not yet all of the
-- frame behind a `write` that went through.
structure Stands (frame : List UInt8) (done : Nat) (trace : List DeviceEvent) : Prop where
  taken : accepted trace = frame.take done
  inside : done ≤ frame.length
  order : InOrder frame trace
  goesOn : (∃ count, .wrote count ∈ trace) → done < frame.length

theorem inOrder_append {frame : List UInt8} {trace : List DeviceEvent} {event : DeviceEvent} (order : InOrder frame trace)
    (fine : accepted (trace ++ [event]) <+: frame) : InOrder frame (trace ++ [event]) := by
  intro before isPrefix
  rcases List.prefix_concat_iff.mp isPrefix with rfl | earlier
  · exact fine
  · exact order before earlier

theorem Stands.quiet {frame : List UInt8} {done : Nat} {trace : List DeviceEvent} (stands : Stands frame done trace) {event : DeviceEvent}
    (same : accepted (trace ++ [event]) = accepted trace) (other : ∀ count, event ≠ .wrote count) :
    Stands frame done (trace ++ [event]) := by
  obtain ⟨taken,inside,order,goesOn⟩ := stands
  refine ⟨same.trans taken,inside,inOrder_append order ?_,?_⟩
  · rw [same,taken]
    exact List.take_prefix _ _
  · rintro ⟨count,member⟩
    refine goesOn ⟨count,?_⟩
    simpa [(other count).symm] using member

theorem stands_start (frame : List UInt8) : Stands frame 0 [] := by
  refine ⟨rfl,Nat.zero_le _,fun before isPrefix => ?_,fun ⟨_,member⟩ => by cases member⟩
  rw [List.prefix_nil.mp isPrefix]
  exact List.nil_prefix

theorem Stands.incomplete {frame : List UInt8} {done : Nat} {trace : List DeviceEvent} (stands : Stands frame done trace) :
    ¬ Complete frame trace := by
  rintro ⟨wrote,all⟩
  have less := stands.goesOn wrote
  have length := congrArg List.length (stands.taken.symm.trans all)
  rw [List.length_take] at length
  omega

section Transmission
variable {frame : List UInt8} {done : Nat}

def Underway (frame : List UInt8) (trace : List DeviceEvent) : Prop := InOrder frame trace ∧ ¬ Complete frame trace

theorem Stands.underway {trace : List DeviceEvent} (stands : Stands frame done trace) : Underway frame trace :=
  ⟨stands.order,stands.incomplete⟩

theorem now_stands : Keeps (Underway frame) (Stands frame done) now fun _ => Stands frame done := by
  refine Keeps.meet (fun _ stands => stands.underway) fun trace event time stands taken => ?_
  cases event with
  | clock now => exact stands.quiet (by simp [device,accepted]) nofun
  | _ => cases taken

theorem write_stands : Keeps (Underway frame) (Stands frame done) (write (frame.drop done)) fun result trace =>
    match result with
    | .error errno => Stands frame done trace ∧ errno ≠ 0
    | .ok count => (InOrder frame trace ∧ accepted trace = frame.take (done + count) ∧ ∃ count, .wrote count ∈ trace) ∧
        done + count ≤ frame.length := by
  have offered : Keeps (Underway frame) (Stands frame done) (emit (.write (frame.drop done))) fun _ trace =>
      Stands frame done trace ∧ (trace.foldl device ([],[])).1 = frame.drop done :=
    Keeps.emit fun trace stands => ⟨stands.quiet (by simp [device,accepted]) nofun,by simp [device]⟩
  refine Keeps.bind offered fun _ => Keeps.meet (fun _ stands => stands.1.underway) fun trace event result ⟨stands,waits⟩ taken => ?_
  cases event with
  | wrote count =>
      obtain ⟨few,same⟩ := Option.ite_none_right_eq_some.mp taken
      cases same
      have enough : done + count ≤ frame.length := by
        have inside := stands.inside
        rw [List.length_drop] at few
        omega
      have more : accepted (trace ++ [.wrote count]) = frame.take (done + count) := by
        rw [accepted_append,device,waits,List.take_add]
        exact congrArg (· ++ _) stands.taken
      exact ⟨⟨inOrder_append stands.order (more ▸ List.take_prefix _ _),more,count,by simp⟩,enough⟩
  | writeFailed errno set =>
      cases taken
      exact ⟨stands.quiet (by simp [device,accepted]) nofun,set⟩
  | _ => cases taken

theorem sleep_asked (nsec : Int) : Keeps (Underway frame) (Stands frame done) (emit (.sleep nsec)) fun _ => Stands frame done :=
  Keeps.emit fun _ stands => stands.quiet (by simp [device,accepted]) nofun

theorem wake_stands {errno : Int} (set : errno ≠ 0) :
    Keeps (Underway frame) (Stands frame done) (wake errno) fun failure trace =>
      Stands frame done trace ∧ ∀ left errno, failure = some (left,errno) → errno ≠ 0 := by
  refine Keeps.meet (fun _ stands => stands.underway) fun trace event failure stands taken => ?_
  cases event with
  | slept =>
      cases taken
      exact ⟨stands.quiet (by simp [device,accepted]) nofun,nofun⟩
  | sleepFailed result left given other =>
      cases taken
      refine ⟨stands.quiet (by simp [device,accepted]) nofun,fun _ _ same => ?_⟩
      cases same
      cases given with
      | none => exact set
      | some given => exact fun zero => other (congrArg some zero)
  | _ => cases taken

theorem sleepAll_stands (nsec : Int) {errno : Int} (set : errno ≠ 0) :
    Keeps (Underway frame) (Stands frame done) (sleepAll nsec errno) fun failure trace =>
      Stands frame done trace ∧ ∀ errno, failure = some errno → errno ≠ 0 := by
  have turn : ∀ errno : Int, Keeps (Underway frame) (fun trace => Stands frame done trace ∧ errno ≠ 0) (sleepTurn errno)
      (Sum.elim (fun errno trace => Stands frame done trace ∧ errno ≠ 0) fun failure trace =>
        Stands frame done trace ∧ ∀ errno, failure = some errno → errno ≠ 0) := by
    intro errno
    refine Keeps.of_and fun set => Keeps.bind (wake_stands set) fun failure => Keeps.of_and fun other => ?_
    match failure with
    | none => exact Keeps.pure fun trace stands => ⟨stands,nofun⟩
    | some (left,errno) =>
        dsimp only
        split
        · exact Keeps.bind (sleep_asked left) fun _ => Keeps.pure fun trace stands => ⟨stands,other left errno rfl⟩
        · exact Keeps.pure fun trace stands => ⟨stands,fun _ same => Option.some.inj same ▸ other left errno rfl⟩
  refine Keeps.bind (sleep_asked nsec) fun _ => ?_
  exact (Keeps.loop (fun _ _ stands => stands.1.underway) turn errno).weaken (fun _ stands => ⟨stands,set⟩) fun _ _ => id

theorem clockTurn_stands (p : Policy) (s : Progress) :
    Keeps (Underway frame) (Stands frame s.done) (clockTurn p s)
      (Sum.elim (fun s => Stands frame s.done) fun code trace => InOrder frame trace ∧ (code = 0 ↔ Complete frame trace)) := by
  refine Keeps.bind now_stands fun elapsed => ?_
  split
  · exact Keeps.pure fun trace stands => ⟨stands.order,iff_of_false (by decide) stands.incomplete⟩
  · exact Keeps.pure fun trace stands => stands

theorem writeTurn_stands (p : Policy) (start : Int) (s : Progress) :
    Keeps (Underway frame) (Stands frame s.done) (writeTurn p frame start s)
      (Sum.elim (fun s => Stands frame s.done) fun code trace => InOrder frame trace ∧ (code = 0 ↔ Complete frame trace)) := by
  have failing : ∀ {code : Int}, code ≠ 0 → ∀ trace, Stands frame s.done trace →
      InOrder frame trace ∧ (code = 0 ↔ Complete frame trace) :=
    fun other trace stands => ⟨stands.order,iff_of_false other stands.incomplete⟩
  refine @writeTurn_keeps p frame start s _ _ _ (fun s => Stands frame s.done) _ (fun _ => failing (by decide))
    (fun _ => write_stands) (fun errno _ trace failed => failing failed.2 trace failed.1) ?_ ?_ ?_ ?_ fun done => clockTurn_stands p _
  · refine ((sleepAll_stands p.sleepTick eagain_set).before fun trace failed => failed.1).weaken (fun _ => id) fun failure trace ended => ?_
    cases failure with
    | none => exact ended.1
    | some errno => exact failing (ended.2 errno rfl) trace ended.1
  · intro count whole trace ⟨⟨order,taken,wrote⟩,_⟩
    refine ⟨order,iff_of_true rfl ⟨wrote,?_⟩⟩
    rw [taken,whole,List.take_length]
  · exact fun count error beyond trace ⟨_,enough⟩ => absurd beyond (Nat.not_lt_of_le enough)
  · exact fun count short trace ⟨⟨order,taken,_⟩,enough⟩ =>
      ⟨taken,enough,order,fun _ => Nat.lt_of_le_of_ne enough short⟩

theorem writeAll_transmits (p : Policy) (frame : List UInt8) (schedule : List DeviceEvent) :
    InOrder frame (writeAll p frame ⟨[],schedule⟩).2.trace ∧
      ((writeAll p frame ⟨[],schedule⟩).1 = .ok 0 ↔ Complete frame (writeAll p frame ⟨[],schedule⟩).2.trace) := by
  have keeps : Keeps (Underway frame) (Stands frame 0) (writeAll p frame) fun code trace =>
      InOrder frame trace ∧ (code = 0 ↔ Complete frame trace) :=
    Keeps.bind now_stands fun start => Keeps.loop (fun _ _ stands => stands.underway) (writeTurn_stands p start) ⟨start,0⟩
  obtain ⟨ended,cut⟩ := keeps ⟨[],schedule⟩ (stands_start frame)
  cases result : (writeAll p frame ⟨[],schedule⟩).1 with
  | ok code =>
      obtain ⟨order,success⟩ := ended code result
      exact ⟨order,by simpa using success⟩
  | error reason =>
      obtain ⟨order,incomplete⟩ := cut reason result
      exact ⟨order,iff_of_false nofun incomplete⟩

end Transmission
end HsrbDrivers.WriteLoop

import HsrbDrivers.Servomotor.Xmodem

namespace HsrbDrivers.Servomotor
open Session ExxxReprograming

def Exchange.fatalErrno : Exchange → Option Int
  | .writeFailed errno _ => if errno = again then none else some errno
  | _ => none

def Exchange.reading : Exchange → Option Int
  | .clock now => some now
  | _ => none

def Exchange.count : Exchange → Nat
  | .written count => count
  | _ => 0

def clockReadings (events : List Exchange) : List Int := events.filterMap Exchange.reading

def writtenBytes (events : List Exchange) : Nat := (events.map Exchange.count).sum

-- From the first to the last reading of the clock the time limit went by.
def LimitElapsed (timeout : Int) (events : List Exchange) : Prop :=
  ∃ first last, (clockReadings events).head? = some first ∧ (clockReadings events).getLast? = some last ∧
    timeout ≤ last - first

-- What the code of a call is to say of the events in it.
structure Reports (timeout : Int) (dataBytes : Nat) (code : ErrorCode) (events : List Exchange) : Prop where
  success : code = .success ↔ writtenBytes events = dataBytes
  write : ∀ event ∈ events, ∀ errno, event.fatalErrno = some errno → code = .system errno
  sleep : ∀ nsec, .sleepFailed nsec ∈ events → code = .invalidArgument
  clock : ¬(clockReadings events).IsChain (· ≤ ·) → code = .valueTooLarge
  limit : code = .timedOut → LimitElapsed timeout events

structure Untroubled (events : List Exchange) : Prop where
  writes : ∀ event ∈ events, event.fatalErrno = none
  sleeps : ∀ nsec, .sleepFailed nsec ∉ events
  clock : (clockReadings events).IsChain (· ≤ ·)

def Since (base : List Exchange) (holds : List Exchange → Prop) (trace : List Exchange) : Prop :=
  ∃ events, trace = base ++ events ∧ holds events

structure Going (start : Int) (s : Sending) (events : List Exchange) : Prop where
  untroubled : Untroubled events
  error : s.error = .success
  written : writtenBytes events = s.numDone
  first : (clockReadings events).head? = some start
  last : (clockReadings events).getLast? = some s.elapsed

def Ended (timeout : Int) (dataBytes : Nat) (s : Sending) (events : List Exchange) : Prop :=
  writtenBytes events = s.numDone ∧
    (Untroubled events ∧ s.error = .success ∧ (s.numDone ≠ dataBytes → LimitElapsed timeout events) ∨
      ¬Untroubled events ∧ s.error ≠ .success ∧ ¬LimitElapsed timeout events)

theorem clockReadings_append (events : List Exchange) (event : Exchange) :
    clockReadings (events ++ [event]) = clockReadings events ++ event.reading.toList := by
  cases reads : event.reading <;> simp [clockReadings,reads]

theorem writtenBytes_append (events : List Exchange) (event : Exchange) :
    writtenBytes (events ++ [event]) = writtenBytes events + event.count := by
  simp [writtenBytes]

theorem limitElapsed_iff {timeout first last : Int} {events : List Exchange} (begun : (clockReadings events).head? = some first)
    (ended : (clockReadings events).getLast? = some last) : LimitElapsed timeout events ↔ timeout ≤ last - first := by
  simp [LimitElapsed,begun,ended]

theorem untroubled_other {events : List Exchange} {event : Exchange} (untroubled : Untroubled events)
    (write : event.fatalErrno = none) (sleep : ∀ nsec, event ≠ .sleepFailed nsec)
    (clock : ∀ last ∈ (clockReadings events).getLast?, ∀ elapsed ∈ event.reading, last ≤ elapsed) :
    Untroubled (events ++ [event]) := by
  refine ⟨fun other member => ?_,fun nsec member => ?_,?_⟩
  · rcases List.mem_append.mp member with old | new
    · exact untroubled.writes other old
    · exact List.mem_singleton.mp new ▸ write
  · rcases List.mem_append.mp member with old | new
    · exact untroubled.sleeps nsec old
    · exact sleep nsec (List.mem_singleton.mp new).symm
  · rw [clockReadings_append]
    refine List.isChain_append.mpr ⟨untroubled.clock,?_,fun last final elapsed next => ?_⟩
    · cases event.reading <;> simp
    · cases reads : event.reading <;> simp [reads] at next
      exact clock last final elapsed (next ▸ reads)

theorem Going.other {start : Int} {s : Sending} {events : List Exchange} {event : Exchange} (going : Going start s events)
    (write : event.fatalErrno = none) (sleep : ∀ nsec, event ≠ .sleepFailed nsec) (clock : event.reading = none) :
    Going start {s with numDone := s.numDone + event.count} (events ++ [event]) := by
  have same : clockReadings (events ++ [event]) = clockReadings events := by simp [clockReadings_append,clock]
  refine ⟨untroubled_other going.untroubled write sleep (by simp [clock]),going.error,?_,?_,?_⟩
  · rw [writtenBytes_append,going.written]
  · rw [same]
    exact going.first
  · rw [same]
    exact going.last

theorem Going.troubled {start timeout : Int} {dataBytes : Nat} {s : Sending} {events : List Exchange} {event : Exchange}
    {error : ErrorCode} {elapsed : Int} (going : Going start s events) (early : s.elapsed - start < timeout)
    (trouble : ¬Untroubled (events ++ [event])) (nothing : event.count = 0) (failed : error ≠ .success)
    (back : elapsed ≤ s.elapsed) (last : (clockReadings (events ++ [event])).getLast? = some elapsed) :
    Ended timeout dataBytes ⟨elapsed,error,s.numDone⟩ (events ++ [event]) := by
  have first : (clockReadings (events ++ [event])).head? = some start := by
    rw [clockReadings_append,List.head?_append,going.first]
    rfl
  refine ⟨?_,.inr ⟨trouble,failed,?_⟩⟩
  · rw [writtenBytes_append,nothing]
    exact going.written
  · rw [limitElapsed_iff first last]
    omega

section
variable (r : ExxxReprograming) {base : List Exchange} {start : Int} {dataBytes : Nat} {s : Sending}

def TurnEnds (base : List Exchange) (start timeout : Int) (dataBytes : Nat) : Sending ⊕ Sending → List Exchange → Prop :=
  Sum.elim (fun next => Since base (Going start next)) fun closed => Since base (Ended timeout dataBytes closed)

theorem sendClock_reports {timeout : Int} (early : s.elapsed - start < timeout) :
    Triple (fun _ _ => True) (Since base (Going start s)) (sendClock s) (TurnEnds base start timeout dataBytes) := by
  have clock : Triple (fun _ _ => True) (Since base (Going start s)) now fun elapsed =>
      Since base fun events => ∃ earlier, events = earlier ++ [.clock elapsed] ∧ Going start s earlier := by
    refine Triple.meet fun trace event elapsed holds answer => ⟨trivial,?_⟩
    obtain ⟨earlier,rfl,going⟩ := holds
    cases event <;> simp at answer
    subst answer
    exact ⟨_,List.append_assoc _ _ _,earlier,rfl,going⟩
  refine Triple.bind clock fun elapsed => ?_
  split
  · rename_i back
    refine Triple.pure ?_
    rintro _ ⟨_,rfl,earlier,rfl,going⟩
    refine ⟨_,rfl,going.troubled early (fun untroubled => ?_) rfl (by decide) (Int.le_of_lt back) ?_⟩
    · have chain := untroubled.clock
      rw [clockReadings_append] at chain
      exact Int.not_le.mpr back ((List.isChain_append.mp chain).2.2 _ going.last elapsed rfl)
    · rw [clockReadings_append]
      exact List.getLast?_concat
  · rename_i onward
    refine Triple.pure ?_
    rintro _ ⟨_,rfl,earlier,rfl,going⟩
    refine ⟨_,rfl,?_,going.error,?_,?_,?_⟩
    · refine untroubled_other going.untroubled rfl (fun _ same => by cases same) fun last final time reads => ?_
      cases going.last.symm.trans final
      cases reads
      exact Int.not_lt.mp onward
    · rw [writtenBytes_append]
      exact going.written
    · rw [clockReadings_append,List.head?_append,going.first]
      rfl
    · rw [clockReadings_append]
      exact List.getLast?_concat

theorem sleep_reports {timeout : Int} (dataBytes : Nat) (early : s.elapsed - start < timeout) (nsec : Int) :
    Triple (fun _ _ => True) (Since base (Going start s)) (waitNanoSec nsec) fun error trace =>
      if error.value ≠ 0 then Since base (Ended timeout dataBytes {s with error := error}) trace
      else Since base (Going start {s with error := error}) trace := by
  refine Triple.meet fun trace event error holds answer => ⟨trivial,?_⟩
  obtain ⟨earlier,rfl,going⟩ := holds
  cases event with
  | slept slept =>
      obtain ⟨_,same⟩ := Option.ite_none_right_eq_some.mp answer
      cases same
      have next := @Going.other _ _ _ (.slept slept) going rfl (fun _ same => by cases same) rfl
      exact ⟨_,List.append_assoc _ _ _,next.untroubled,rfl,next.written,next.first,next.last⟩
  | sleepFailed slept =>
      obtain ⟨_,same⟩ := Option.ite_none_right_eq_some.mp answer
      cases same
      refine ⟨_,List.append_assoc _ _ _,going.troubled early (fun untroubled => ?_) rfl (by decide) (Int.le_refl _) ?_⟩
      · exact untroubled.sleeps slept (List.mem_append_right _ List.mem_cons_self)
      · rw [clockReadings_append]
        simpa [Exchange.reading] using going.last
  | _ => cases answer

theorem write_reports (dataBytes : Nat) (early : s.elapsed - start < r.timeout) (bytes : Nat) :
    Triple (fun _ _ => True) (Since base (Going start s)) (write bytes) fun
      | .ok count => Since base (Going start {s with numDone := s.numDone + count})
      | .error errno => if errno ≠ again then Since base (Ended r.timeout dataBytes {s with error := .system errno})
        else Since base (Going start s) := by
  refine Triple.meet fun trace event result holds answer => ⟨trivial,?_⟩
  obtain ⟨earlier,rfl,going⟩ := holds
  cases event with
  | written count =>
      obtain ⟨_,same⟩ := Option.ite_none_right_eq_some.mp answer
      cases same
      exact ⟨_,List.append_assoc _ _ _,@Going.other _ _ _ (.written count) going rfl (fun _ same => by cases same) rfl⟩
  | writeFailed errno set =>
      cases answer
      dsimp only
      split
      · rename_i fatal
        refine ⟨_,List.append_assoc _ _ _,going.troubled early (fun untroubled => ?_) rfl ?_ (Int.le_refl _) ?_⟩
        · have fine := untroubled.writes (.writeFailed errno set) (List.mem_append_right _ List.mem_cons_self)
          simp [Exchange.fatalErrno,fatal] at fine
        · exact fun same => set (congrArg ErrorCode.value same)
        · rw [clockReadings_append]
          simpa [Exchange.reading] using going.last
      · rename_i same
        have retried : (Exchange.writeFailed errno set).fatalErrno = none := by simp [Exchange.fatalErrno,not_not.mp same]
        exact ⟨_,List.append_assoc _ _ _,going.other retried (fun _ same => by cases same) rfl⟩
  | _ => cases answer

theorem sendTurn_reports : Triple (fun _ _ => True) (Since base (Going start s)) (r.sendTurn dataBytes start s)
    (TurnEnds base start r.timeout dataBytes) := by
  unfold sendTurn
  split
  · rename_i early
    refine Triple.bind (write_reports r dataBytes early _) fun result => ?_
    cases result with
    | error errno =>
        dsimp only
        split
        · exact Triple.pure fun _ ended => ended
        · refine Triple.bind (sleep_reports dataBytes early _) fun error => ?_
          split
          · exact Triple.pure fun _ ended => ended
          · exact sendClock_reports early
    | ok count =>
        dsimp only
        split
        · rename_i all
          refine Triple.pure ?_
          rintro _ ⟨events,rfl,going⟩
          exact ⟨events,rfl,going.written,.inl ⟨going.untroubled,rfl,fun other => absurd all other⟩⟩
        · exact sendClock_reports early
  · rename_i late
    refine Triple.pure ?_
    rintro _ ⟨events,rfl,going⟩
    refine ⟨events,rfl,going.written,.inl ⟨going.untroubled,going.error,fun _ => ?_⟩⟩
    exact (limitElapsed_iff going.first going.last).mpr (Int.not_lt.mp late)

theorem ended_reports_iff {timeout : Int} {events : List Exchange} (ended : Ended timeout dataBytes s events) :
    Reports timeout dataBytes (if s.numDone ≠ dataBytes then .timedOut else s.error) events ↔ Untroubled events := by
  obtain ⟨written,⟨untroubled,success,late⟩ | ⟨troubled,failed,early⟩⟩ := ended
  · refine iff_of_true ?_ untroubled
    refine ⟨?_,fun event member errno fatal => ?_,fun nsec member => absurd member (untroubled.sleeps nsec),
      fun back => absurd untroubled.clock back,fun timedOut => ?_⟩
    · rw [written,success]
      split
      · rename_i short
        exact iff_of_false (by decide) short
      · rename_i all
        exact iff_of_true rfl (not_not.mp all)
    · rw [untroubled.writes event member] at fatal
      cases fatal
    · split at timedOut
      · rename_i short
        exact late short
      · rw [success] at timedOut
        cases timedOut
  · refine iff_of_false (fun reports => ?_) troubled
    by_cases short : s.numDone ≠ dataBytes
    · exact early (reports.limit (if_pos short))
    · rw [if_neg short] at reports
      exact failed (reports.success.mpr (written.trans (not_not.mp short)))

theorem clock_begins (base : List Exchange) : Triple (fun _ _ => True) (fun trace => trace = base) now fun start =>
    Since base (Going start ⟨start,.success,0⟩) := by
  refine Triple.meet fun trace event start same answer => ⟨trivial,?_⟩
  cases event <;> simp at answer
  subst same answer
  refine ⟨_,rfl,⟨?_,?_,?_⟩,rfl,rfl,rfl,rfl⟩
  · simp [Exchange.fatalErrno]
  · simp
  · simp [clockReadings,Exchange.reading]

theorem sendData_reports (data : List UInt8) {w next : World Exchange} {code : ErrorCode}
    (returned : r.sendData data w = (.ok code,next)) :
    ∃ events, next.trace = w.trace ++ .send data :: events ∧
      (Reports r.timeout data.length code events ↔ Untroubled events) := by
  have triple : Triple (fun _ _ => True) (fun trace => trace = w.trace) (r.sendData data) fun code =>
      Since (w.trace ++ [.send data]) fun events => Reports r.timeout data.length code events ↔ Untroubled events := by
    have called : Triple (fun _ _ => True) (fun trace => trace = w.trace) (emit (.send data)) fun _ trace =>
        trace = w.trace ++ [.send data] := Triple.emit fun trace same => ⟨trivial,by rw [same]⟩
    refine Triple.bind called fun _ => Triple.bind (clock_begins _) fun start => ?_
    refine Triple.bind (Triple.loop (fun s => sendTurn_reports r) _) fun s => Triple.pure ?_
    rintro _ ⟨events,rfl,ended⟩
    exact ⟨events,rfl,ended_reports_iff ended⟩
  obtain ⟨_,_,reached⟩ := triple w (fun _ _ _ _ => trivial) rfl
  rw [returned] at reached
  obtain ⟨events,same,reports⟩ := reached code rfl
  exact ⟨events,same.trans (List.append_assoc _ _ _),reports⟩

end

def FatalWrite (event : Exchange) : Prop := event.fatalErrno ≠ none

theorem listening_harmless {α : Type} {m : Session Exchange α} (listening : Composed Listening m) :
    Confined (fun event => ¬FatalWrite event) m := by
  refine listening.confined.weaken fun event listens fatal => ?_
  cases event <;> first | exact listens | exact fatal rfl

theorem resting_harmless {α : Type} {m : Session Exchange α} (resting : Composed Resting m) :
    Confined (fun event => ¬FatalWrite event) m := listening_harmless (resting.weaken resting_listening)

section
variable (r : ExxxReprograming)

theorem write_tells (bytes : Nat) :
    StopsAt FatalWrite (fun result => ∃ errno, result = .error errno ∧ errno ≠ again ∧ errno ≠ 0) (write bytes) := by
  refine StopsAt.meet fun event result answer fatal => ?_
  cases event with
  | writeFailed errno set =>
      cases answer
      exact ⟨errno,rfl,fun same => fatal (if_pos same),set⟩
  | written count => exact absurd rfl fatal
  | _ => cases answer

theorem sendTurn_stops (dataBytes : Nat) (start : Int) (s : Sending) :
    StopsAt FatalWrite (Sum.elim (fun _ => False) fun s => s.error.value ≠ 0) (r.sendTurn dataBytes start s) := by
  unfold sendTurn
  split
  · refine StopsAt.bind (write_tells _) (fun result => ?_) ?_
    · cases result with
      | error errno =>
          dsimp only
          split
          · exact StopsAt.confined (Confined.pure _)
          · refine StopsAt.after (resting_harmless (waitNanoSec_resting _)) fun error => ?_
            split
            · exact StopsAt.confined (Confined.pure _)
            · exact StopsAt.confined (resting_harmless (sendClock_resting _))
      | ok count =>
          dsimp only
          split
          · exact StopsAt.confined (Confined.pure _)
          · exact StopsAt.confined (resting_harmless (sendClock_resting _))
    · rintro _ ⟨errno,rfl,other,set⟩
      exact ⟨_,if_pos other,set⟩
  · exact StopsAt.confined (Confined.pure _)

theorem sendData_stops (data : List UInt8) : StopsAt FatalWrite (fun code => code.value ≠ 0) (r.sendData data) := by
  have called : Confined (fun event => ¬FatalWrite event) (emit (.send data)) := Confined.emit fun fatal => fatal rfl
  refine StopsAt.after called fun _ => StopsAt.after (resting_harmless now_resting) fun start => ?_
  refine StopsAt.bind (StopsAt.loop (sendTurn_stops r data.length start) _) (fun s => StopsAt.confined (Confined.pure _)) ?_
  refine fun s failed => ⟨_,rfl,?_⟩
  split
  · decide
  · exact failed

theorem waitBoot_stops (bootloaderVersion : Int) (id : UInt8) (bootTimeout : Int) :
    StopsAt FatalWrite (fun code => code.value ≠ 0) (r.waitBoot bootloaderVersion id bootTimeout) := by
  refine StopsAt.after (resting_harmless now_resting) fun bootStart => StopsAt.loop (fun s => ?_) _
  refine StopsAt.bind (sendData_stops r [id]) (fun sent => ?_) fun sent failed => ⟨_,if_pos failed,failed⟩
  split
  · exact StopsAt.confined (Confined.pure _)
  refine StopsAt.after (listening_harmless (Composed.loop (bootLine_listening r _ _) _)) fun heard => ?_
  split
  · exact StopsAt.confined (Confined.pure _)
  split
  · exact StopsAt.confined (Confined.pure _)
  · exact StopsAt.confined (resting_harmless (bootClock_resting _ _ _))

end

-- The code of `SendData` tells what happened just when nothing went wrong; `WaitBoot` is over
-- at a write that fails for good all the same.
theorem sendData_reports_iff (r : ExxxReprograming) :
    (∀ data w code next, r.sendData data w = (.ok code,next) → ∃ events, next.trace = w.trace ++ .send data :: events ∧
      (Reports r.timeout data.length code events ↔ Untroubled events)) ∧
    ∀ bootloaderVersion id bootTimeout w result next before event after,
      r.waitBoot bootloaderVersion id bootTimeout w = (result,next) → next.trace = w.trace ++ before ++ event :: after →
      event.fatalErrno ≠ none → after = [] ∧ ∃ code, result = .ok code ∧ code.value ≠ 0 := by
  refine ⟨fun data _ _ _ returned => sendData_reports r data returned,?_⟩
  intro bootloaderVersion id bootTimeout w result next before event after ended split fatal
  have stops := waitBoot_stops r bootloaderVersion id bootTimeout
  obtain rfl : next = (r.waitBoot bootloaderVersion id bootTimeout w).2 := (congrArg Prod.snd ended).symm
  obtain rfl : result = (r.waitBoot bootloaderVersion id bootTimeout w).1 := (congrArg Prod.fst ended).symm
  exact stops.last split fatal

theorem one_byte_reported :
    (∃ events, [.send [7],.clock 0,.written 1] = [] ++ Exchange.send [7] :: events ∧
      (Reports 1000 1 .success events ↔ Untroubled events)) ∧
    ∃ code, (host.waitBoot 0 0x31 0 ⟨[],[.clock 0,.clock 0,.writeFailed 5 (by decide)]⟩).1 = .ok code ∧ code.value ≠ 0 :=
  ⟨(sendData_reports_iff host).1 [7] ⟨[],[.clock 0,.written 1]⟩ .success ⟨[.send [7],.clock 0,.written 1],[]⟩ rfl,
    ((sendData_reports_iff host).2 0 0x31 0 ⟨[],[.clock 0,.clock 0,.writeFailed 5 (by decide)]⟩ _
      ⟨[.clock 0,.send [0x31],.clock 0,.writeFailed 5 (by decide)],[]⟩ [.clock 0,.send [0x31],.clock 0]
      (.writeFailed 5 (by decide)) [] rfl rfl (by decide)).2⟩

theorem write_error_lost : ¬ ∀ (r : ExxxReprograming) data w code next, r.sendData data w = (.ok code,next) →
    ∃ events, next.trace = w.trace ++ .send data :: events ∧ Reports r.timeout data.length code events := by
  intro every
  have failed : (5 : Int) ≠ 0 := by decide
  obtain ⟨events,same,reports⟩ := every host [7] ⟨[],[.clock 0,.writeFailed 5 failed]⟩ .timedOut
    ⟨[.send [7],.clock 0,.writeFailed 5 failed],[]⟩ rfl
  obtain rfl : [.clock 0,.writeFailed 5 failed] = events := (List.cons.inj same).2
  have lost : ErrorCode.timedOut = .system 5 := reports.write _ (List.mem_cons_of_mem _ List.mem_cons_self) 5 rfl
  exact absurd lost (by decide)

end HsrbDrivers.Servomotor

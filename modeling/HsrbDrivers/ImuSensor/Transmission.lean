import HsrbDrivers.ImuSensor.Sending
import HsrbDrivers.Library.Interruption

namespace HsrbDrivers.ImuSensor.Serial
open Session WriteLoop

def protocolError : Int := 71

-- `MPU9150Network::Send` answer by answer. More bytes than there are is an error.
def send (n : MPU9150Network) (sleepTick : Int) (instruction : UInt8) (data : List UInt8) : Session DeviceEvent Int :=
  if data.length > 1019 then pure ErrorCode.noBufferSpace.value
  else writeAll ⟨n.timeout,sleepTick,some protocolError,true⟩ (sentFrame instruction data)

theorem send_resumes_iff (n : MPU9150Network) (sleepTick : Int) (instruction : UInt8) (data : List UInt8) {schedule : List DeviceEvent}
    (posix : ∀ event ∈ schedule, Posix event) (whole : (send n sleepTick instruction data ⟨[],schedule⟩).2.script = []) :
    Resumes (send n sleepTick instruction data ⟨[],schedule⟩).2.trace ↔ ∀ event ∈ schedule, ¬ Interrupts event := by
  unfold send at whole ⊢
  split at whole
  · rename_i large
    rw [if_pos large]
    exact settled_iff (Takes.pure _) (Keeps.pure fun _ calm => calm.settled) posix whole
  · rename_i small
    rw [if_neg small]
    exact settled_iff (writeAll_takes _ _) (writeAll_calm _ _) posix whole

section Reports
open MPU9150Network
variable {timeout sleepTick start : Int} {frame : List UInt8}

def Reached (timeout start : Int) (frame : List UInt8) (s : Progress) : Prop :=
  ∃ turns, ∀ later, sendLoop timeout start frame start 0 (turns ++ later) = sendLoop timeout start frame s.elapsed s.done later

def Told (timeout start : Int) (frame : List UInt8) (code : Int) (trace : List DeviceEvent) : Prop :=
  ∃ turns, sendLoop timeout start frame start 0 turns = some (⟨code⟩,accepted trace)

theorem Reached.onwards {s next : Progress} (reached : Reached timeout start frame s) (turn : WriteTurn)
    (same : ∀ later, sendLoop timeout start frame s.elapsed s.done (turn :: later) =
      sendLoop timeout start frame next.elapsed next.done later) : Reached timeout start frame next := by
  obtain ⟨turns,taken⟩ := reached
  refine ⟨turns ++ [turn],fun later => ?_⟩
  rw [List.append_assoc,taken]
  exact same later

theorem Reached.told {s : Progress} (reached : Reached timeout start frame s) {code : Int} {trace : List DeviceEvent}
    (later : List WriteTurn) (ends : sendLoop timeout start frame s.elapsed s.done later = some (⟨code⟩,accepted trace)) :
    Told timeout start frame code trace := by
  obtain ⟨turns,taken⟩ := reached
  exact ⟨turns ++ later,(taken later).trans ends⟩

def Timed (timeout start : Int) (frame : List UInt8) (s next : Progress) (trace : List DeviceEvent) : Prop :=
  Stands frame next.done trace ∧ ∃ writing, ∀ now later, sendLoop timeout start frame s.elapsed s.done (⟨writing,now⟩ :: later) =
    if now < s.elapsed then some (.timedOut,frame.take next.done) else sendLoop timeout start frame now next.done later

theorem clockTurn_reported {s : Progress} (reached : Reached timeout start frame s) (done : Nat) :
    Keeps (Underway frame) (Timed timeout start frame s {s with done := done})
      (clockTurn ⟨timeout,sleepTick,some protocolError,true⟩ {s with done := done})
      (Sum.elim (fun s trace => Stands frame s.done trace ∧ Reached timeout start frame s) (Told timeout start frame)) := by
  refine Keeps.of_and fun ⟨writing,met⟩ => Keeps.bind now_stands fun elapsed => ?_
  split
  · rename_i backwards
    refine Keeps.pure fun trace stands => reached.told [⟨writing,elapsed⟩] ?_
    rw [met,if_pos backwards.2,stands.taken]
    rfl
  · rename_i forwards
    refine Keeps.pure fun trace stands => ⟨stands,reached.onwards ⟨writing,elapsed⟩ fun later => ?_⟩
    rw [met,if_neg fun less => forwards ⟨rfl,less⟩]

theorem writeTurn_reported (s : Progress) :
    Keeps (Underway frame) (fun trace => Stands frame s.done trace ∧ Reached timeout start frame s)
      (writeTurn ⟨timeout,sleepTick,some protocolError,true⟩ frame start s)
      (Sum.elim (fun s trace => Stands frame s.done trace ∧ Reached timeout start frame s) (Told timeout start frame)) := by
  refine Keeps.of_and fun reached => ?_
  by_cases early : s.elapsed - start < timeout
  · have failing : ∀ {errno : Int}, errno ≠ 0 → ∀ trace, Stands frame s.done trace → Told timeout start frame errno trace := by
      intro errno set trace stands
      refine reached.told [⟨.failed errno set,0⟩] ?_
      rw [sendLoop,if_neg (not_not.mpr early),stands.taken]
    refine @writeTurn_keeps _ frame start s _ _ _ (Timed timeout start frame s) _ (fun late => absurd early late)
      (fun _ => write_stands) (fun errno _ trace failed => failing failed.2 trace failed.1) ?_ ?_ ?_ ?_ (clockTurn_reported reached)
    · refine ((sleepAll_stands sleepTick eagain_set).before fun trace failed => failed.1).weaken (fun _ => id) fun failure trace ended => ?_
      cases failure with
      | none =>
          refine ⟨ended.1,.again,fun now later => ?_⟩
          rw [sendLoop,if_neg (not_not.mpr early)]
      | some errno => exact failing (ended.2 errno rfl) trace ended.1
    · intro count whole trace wrote
      refine reached.told [⟨.wrote count,0⟩] ?_
      rw [sendLoop,if_neg (not_not.mpr early),wrote.1.2.1]
      exact if_pos whole
    · exact fun count error beyond trace wrote => absurd beyond (Nat.not_lt_of_le wrote.2)
    · intro count short trace wrote
      refine ⟨⟨wrote.1.2.1,wrote.2,wrote.1.1,fun _ => Nat.lt_of_le_of_ne wrote.2 short⟩,.wrote count,fun now later => ?_⟩
      rw [sendLoop,if_neg (not_not.mpr early)]
      dsimp only
      rw [if_neg short,if_neg (Nat.not_lt_of_le wrote.2)]
  · unfold writeTurn
    rw [if_neg early]
    refine Keeps.pure fun trace stands => reached.told [] ?_
    rw [sendLoop,if_neg early,stands.taken]
    rfl

theorem send_reported {n : MPU9150Network} {instruction : UInt8} {data : List UInt8} {schedule : List DeviceEvent} {code : Int}
    {w : World DeviceEvent} (ended : send n sleepTick instruction data ⟨[],schedule⟩ = (.ok code,w)) :
    ∃ start turns, n.send instruction data start turns = some (⟨code⟩,accepted w.trace) := by
  unfold send at ended
  unfold MPU9150Network.send
  split at ended
  · rename_i large
    cases ended
    exact ⟨0,[],if_pos large⟩
  · rename_i small
    have keeps : Keeps (Underway (sentFrame instruction data)) (Stands (sentFrame instruction data) 0)
        (writeAll ⟨n.timeout,sleepTick,some protocolError,true⟩ (sentFrame instruction data))
        fun code trace => ∃ start, Told n.timeout start (sentFrame instruction data) code trace := by
      refine Keeps.bind now_stands fun start => ?_
      exact (Keeps.loop (fun _ _ stands => stands.1.underway) writeTurn_reported ⟨start,0⟩).weaken
        (fun trace stands => ⟨stands,[],fun later => rfl⟩) fun code trace told => ⟨start,told⟩
    obtain ⟨start,turns,told⟩ := (keeps ⟨[],schedule⟩ (stands_start _)).1 code (by rw [ended])
    rw [ended] at told
    exact ⟨start,turns,(if_neg small).trans told⟩

end Reports

end HsrbDrivers.ImuSensor.Serial

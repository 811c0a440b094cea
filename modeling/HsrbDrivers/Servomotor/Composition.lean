import HsrbDrivers.Servomotor.Reprograming

namespace HsrbDrivers.Servomotor
open Session ExxxReprograming

def Exchange.isSend : Exchange → Bool
  | .send _ => true
  | _ => false

def Exchange.byte : Exchange → Option UInt8
  | .received data => some data
  | _ => none

-- The events of the program's own work: nothing is sent or received.
def Working (event : Exchange) : Prop := event.isSend = false ∧ event.byte = none

def Listening : Exchange → Prop
  | .send _ | .written _ | .writeFailed _ _ => False
  | _ => True

def Resting : Exchange → Prop
  | .clock _ | .slept _ | .sleepFailed _ => True
  | _ => False

theorem resting_working (event : Exchange) (resting : Resting event) : Working event := by
  cases event <;> first | exact ⟨rfl,rfl⟩ | cases resting

theorem resting_listening (event : Exchange) (resting : Resting event) : Listening event := by
  cases event <;> trivial

theorem listening_silent {event : Exchange} (listening : Listening event) : event.isSend = false := by
  cases event <;> first | rfl | cases listening

theorem now_resting : Composed Resting now := by
  refine Composed.meet fun event a answer => ?_
  cases event <;> trivial

theorem waitNanoSec_resting (nsec : Int) : Composed Resting (waitNanoSec nsec) := by
  refine Composed.meet fun event a answer => ?_
  cases event <;> trivial

theorem write_working (bytes : Nat) : Composed Working (write bytes) := by
  refine Composed.meet fun event a answer => ?_
  cases event <;> first | exact ⟨rfl,rfl⟩ | cases answer

theorem receiveByte_listening : Composed Listening receiveByte := by
  refine Composed.meet fun event a answer => ?_
  cases event <;> trivial

theorem now_working : Composed Working now := now_resting.weaken resting_working

theorem now_listening : Composed Listening now := now_resting.weaken resting_listening

theorem waitNanoSec_working (nsec : Int) : Composed Working (waitNanoSec nsec) :=
  (waitNanoSec_resting nsec).weaken resting_working

theorem sendClock_resting (s : Sending) : Composed Resting (sendClock s) := by
  refine Composed.bind now_resting fun elapsed => ?_
  split <;> exact Composed.pure _

theorem lineClock_resting (s : Receiving) : Composed Resting (lineClock s) := by
  refine Composed.bind now_resting fun elapsed => ?_
  split <;> exact Composed.pure _

theorem drainTurn_listening (s : Unit) : Composed Listening (drainTurn s) := by
  refine Composed.bind receiveByte_listening fun result => ?_
  cases result with
  | error error => exact Composed.pure _
  | ok data => exact Composed.pure _

theorem bootClock_resting (bootTimeout bootStart : Int) (s : Booting) : Composed Resting (bootClock bootTimeout bootStart s) := by
  refine Composed.bind now_resting fun elapsed => ?_
  dsimp only
  split
  · exact Composed.pure _
  split
  · exact Composed.pure _
  refine Composed.bind (waitNanoSec_resting _) fun waited => ?_
  split <;> exact Composed.pure _

theorem waitTurn_listening (retryCount : Nat) : Composed Listening (waitTurn retryCount) := by
  refine Composed.bind receiveByte_listening fun result => ?_
  cases result with
  | error error =>
      dsimp only
      split
      · exact Composed.pure _
      · split <;> exact Composed.pure _
  | ok data =>
      dsimp only
      split
      · exact Composed.pure _
      · split <;> exact Composed.pure _

theorem transferEnd_resting (s : Transfer) (isFlushXmodem : Bool) (error : ErrorCode) :
    Composed Resting (transferEnd s isFlushXmodem error) := by
  unfold transferEnd
  split
  · exact Composed.pure _
  split
  · refine Composed.bind (waitNanoSec_resting _) fun waited => ?_
    split <;> exact Composed.pure _
  · exact Composed.pure _

section
variable (r : ExxxReprograming)

theorem sendTurn_working (dataBytes : Nat) (start : Int) (s : Sending) : Composed Working (r.sendTurn dataBytes start s) := by
  have clock : ∀ s, Composed Working (sendClock s) := fun s => (sendClock_resting s).weaken resting_working
  unfold sendTurn
  split
  · refine Composed.bind (write_working _) fun result => ?_
    cases result with
    | error errno =>
        dsimp only
        split
        · exact Composed.pure _
        · refine Composed.bind (waitNanoSec_working _) fun error => ?_
          split
          · exact Composed.pure _
          · exact clock _
    | ok count =>
        dsimp only
        split
        · exact Composed.pure _
        · exact clock _
  · exact Composed.pure _

theorem lineTurn_listening (start : Int) (s : Receiving) : Composed Listening (r.lineTurn start s) := by
  have clock : ∀ s, Composed Listening (lineClock s) := fun s => (lineClock_resting s).weaken resting_listening
  unfold lineTurn
  split
  · refine Composed.bind receiveByte_listening fun result => ?_
    cases result with
    | error error =>
        dsimp only
        split
        · exact clock _
        · exact Composed.pure _
    | ok data =>
        dsimp only
        split
        · exact Composed.pure _
        · exact clock _
  · exact Composed.pure _

theorem receiveLine_listening : Composed Listening r.receiveLine :=
  Composed.bind now_listening fun start => Composed.loop (lineTurn_listening r start) _

theorem bootLine_listening (bootVersion axisNumber bootMessage : List UInt8) :
    Composed Listening (r.bootLine bootVersion axisNumber bootMessage) := by
  refine Composed.bind (receiveLine_listening r) fun received => ?_
  dsimp only
  split
  · exact Composed.pure _
  split
  · split
    · exact Composed.pure _
    · exact Composed.bind (Composed.loop drainTurn_listening ()) fun error => Composed.pure _
  · exact Composed.pure _

theorem sendData_composed (data : List UInt8) : Composed (fun _ => True) (r.sendData data) := by
  refine Composed.bind (Composed.emit trivial) fun _ => Composed.bind (now_resting.weaken fun _ _ => trivial) fun start => ?_
  refine Composed.bind (Composed.loop (fun s => ?_) _) fun s => Composed.pure _
  exact (sendTurn_working r data.length start s).weaken fun _ _ => trivial

theorem checkReceivedMessage_composed (checkMessage : List UInt8) :
    Composed (fun _ => True) (r.checkReceivedMessage checkMessage) :=
  Composed.bind ((receiveLine_listening r).weaken fun _ _ => trivial) fun _ => Composed.pure _

theorem sendCommand_composed (command : UInt8) (checkMessage : List UInt8) :
    Composed (fun _ => True) (r.sendCommand command checkMessage) := by
  refine Composed.loop (fun retryCount => ?_) 0
  refine Composed.bind (sendData_composed r [command]) fun sent => ?_
  split
  · exact Composed.pure _
  refine Composed.bind (checkReceivedMessage_composed r checkMessage) fun error => ?_
  split
  · exact Composed.pure _
  split
  · exact Composed.pure _
  split
  · exact Composed.pure _
  refine Composed.bind ((waitNanoSec_resting _).weaken fun _ _ => trivial) fun waited => ?_
  split <;> exact Composed.pure _

end
end HsrbDrivers.Servomotor

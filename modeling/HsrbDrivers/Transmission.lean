import HsrbDrivers.ImuSensor.Transmission
import HsrbDrivers.PowerEcu.SerialNetwork
import HsrbDrivers.Servomotor.Transmission

-- The drivers' transmissions and waits under signals.
namespace HsrbDrivers.Transmission
open WriteLoop PowerEcu.Serial

-- A schedule that a program takes whole, up to where the program or the schedule ends.
def Taken (m : Session DeviceEvent Int) (schedule : List DeviceEvent) : Prop := (m ⟨[],schedule⟩).2.script = []

theorem serialNetwork_resumes_iff (n : SerialNetwork) (data : CircularBuffer UInt8 capacity) {schedule : List DeviceEvent}
    (posix : ∀ event ∈ schedule, Posix event) (taken : Taken (n.send data) schedule) :
    Resumes (n.send data ⟨[],schedule⟩).2.trace ↔ ∀ event ∈ schedule, ¬ Interrupts event := by
  unfold Taken at taken
  by_cases fits : data.size ≤ n.sendBuffer.length
  · rw [SerialNetwork.send_eq n data fits] at taken ⊢
    exact settled_iff (writeAll_takes _ _) (writeAll_calm _ _) posix taken
  · have refused : n.send data = pure invalidArgument := if_pos (Nat.not_le.mp fits)
    rw [refused] at taken ⊢
    exact settled_iff (Session.Takes.pure _) (Session.Keeps.pure fun _ calm => calm.settled) posix taken

-- The three transmissions resume their sleeps just along schedules that interrupt none, and
-- a wait does when, besides, the `errno` of an earlier interruption is left over.
theorem interruptions_resumed_iff {schedule : List DeviceEvent} (posix : ∀ event ∈ schedule, Posix event) :
    (∀ (n : SerialNetwork) (capacity : Nat) (data : CircularBuffer UInt8 capacity), Taken (n.send data) schedule →
      (Resumes (n.send data ⟨[],schedule⟩).2.trace ↔ ∀ event ∈ schedule, ¬ Interrupts event)) ∧
    (∀ (n : Servomotor.ExxxNetwork) (sleepTick : Int) (id inst : UInt8) (data : List UInt8),
      Taken (Servomotor.Serial.send n sleepTick id inst data) schedule →
        (Resumes (Servomotor.Serial.send n sleepTick id inst data ⟨[],schedule⟩).2.trace ↔ ∀ event ∈ schedule, ¬ Interrupts event)) ∧
    (∀ (n : ImuSensor.MPU9150Network) (sleepTick : Int) (instruction : UInt8) (data : List UInt8),
      Taken (ImuSensor.Serial.send n sleepTick instruction data) schedule →
        (Resumes (ImuSensor.Serial.send n sleepTick instruction data ⟨[],schedule⟩).2.trace ↔ ∀ event ∈ schedule, ¬ Interrupts event)) ∧
    ∀ errno nsec : Int, Taken (Servomotor.Serial.waitNanoSec errno nsec) schedule →
      (Resumes (Servomotor.Serial.waitNanoSec errno nsec ⟨[],schedule⟩).2.trace ↔
        errno = eintr ∨ ∀ event ∈ schedule, ¬ Interrupts event) := by
  refine ⟨fun n capacity data taken => ?_,fun n sleepTick id inst data taken => ?_,fun n sleepTick instruction data taken => ?_,
    fun errno nsec taken => ?_⟩
  · exact serialNetwork_resumes_iff n data posix taken
  · exact Servomotor.Serial.send_resumes_iff n sleepTick id inst data posix taken
  · exact ImuSensor.Serial.send_resumes_iff n sleepTick instruction data posix taken
  · exact Servomotor.Serial.waitNanoSec_resumes_iff errno nsec posix taken

def busy : List DeviceEvent := [.clock 0,.writeFailed eagain eagain_set,.slept,.clock 20]

theorem busy_resumed : Resumes (ImuSensor.Serial.send ⟨50000000,.initial 0⟩ 10000 0x72 [] ⟨[],busy⟩).2.trace ∧
    Resumes (Servomotor.Serial.waitNanoSec eintr 50 ⟨[],[.sleepFailed eintr 20 none nofun,.slept]⟩).2.trace := by
  have calm : (∀ event ∈ busy, Posix event) ∧ ∀ event ∈ busy, ¬ Interrupts event := by
    simp [busy,Posix,Interrupts]
  have interrupted : ∀ event ∈ [DeviceEvent.sleepFailed eintr 20 none nofun,.slept], Posix event := by
    simp [Posix]
  exact ⟨((interruptions_resumed_iff calm.1).2.2.1 ⟨50000000,.initial 0⟩ 10000 0x72 [] rfl).mpr calm.2,
    ((interruptions_resumed_iff interrupted).2.2.2 eintr 50 rfl).mpr (.inl rfl)⟩

-- What a first sleep that is interrupted comes to: the transmissions return the `errno` of the
-- write before it, and the wait takes its arguments to be at fault.
theorem first_interruption_returned (left : Int) :
    (∀ (n : SerialNetwork) (capacity : Nat) (data : CircularBuffer UInt8 capacity), 0 < n.timeoutNs.toNat →
      data.size ≤ n.sendBuffer.length → (n.send data ⟨[],interruption left⟩).1 = .ok eagain) ∧
    (∀ (n : Servomotor.ExxxNetwork) (sleepTick : Int) (id inst : UInt8) (data : List UInt8), 0 < n.timeout → data.length ≤ 251 →
      (Servomotor.Serial.send n sleepTick id inst data ⟨[],interruption left⟩).1 = .ok eagain) ∧
    (∀ (n : ImuSensor.MPU9150Network) (sleepTick : Int) (instruction : UInt8) (data : List UInt8), 0 < n.timeout →
      data.length ≤ 1019 → (ImuSensor.Serial.send n sleepTick instruction data ⟨[],interruption left⟩).1 = .ok eagain) ∧
    ∀ errno nsec : Int, errno ≠ eintr →
      (Servomotor.Serial.waitNanoSec errno nsec ⟨[],[.sleepFailed eintr left none nofun]⟩).1 =
        .ok Servomotor.ErrorCode.invalidArgument.value := by
  refine ⟨fun n capacity data patient fits => ?_,fun n sleepTick id inst data patient fits => ?_,
    fun n sleepTick instruction data patient fits => ?_,fun errno nsec other => ?_⟩
  · have positive : 0 < n.policy.timeout := Int.natCast_pos.mpr patient
    rw [SerialNetwork.send_eq n data fits,writeAll_interrupted positive]
  · rw [Servomotor.Serial.send_eq,if_pos fits,writeAll_interrupted patient]
  · rw [ImuSensor.Serial.send,if_neg (Nat.not_lt.mpr fits),writeAll_interrupted patient]
  · exact congrArg Prod.fst (Session.bind_ok (sleepAll_interrupted nsec left other) _)

theorem interruption_aborts : ¬ ∀ schedule : List DeviceEvent, (∀ event ∈ schedule, Posix event) →
    (∀ (n : SerialNetwork) (capacity : Nat) (data : CircularBuffer UInt8 capacity), Taken (n.send data) schedule →
      Resumes (n.send data ⟨[],schedule⟩).2.trace) ∧
    (∀ (n : Servomotor.ExxxNetwork) (sleepTick : Int) (id inst : UInt8) (data : List UInt8),
      Taken (Servomotor.Serial.send n sleepTick id inst data) schedule →
        Resumes (Servomotor.Serial.send n sleepTick id inst data ⟨[],schedule⟩).2.trace) ∧
    (∀ (n : ImuSensor.MPU9150Network) (sleepTick : Int) (instruction : UInt8) (data : List UInt8),
      Taken (ImuSensor.Serial.send n sleepTick instruction data) schedule →
        Resumes (ImuSensor.Serial.send n sleepTick instruction data ⟨[],schedule⟩).2.trace) ∧
    ∀ errno nsec : Int, Taken (Servomotor.Serial.waitNanoSec errno nsec) schedule →
      Resumes (Servomotor.Serial.waitNanoSec errno nsec ⟨[],schedule⟩).2.trace := by
  intro every
  have posix : ∀ event ∈ interruption 4000, Posix event := by
    simp [interruption,Posix]
  have resumes := (every (interruption 4000) posix).2.2.1 ⟨50000000,.initial 0⟩ 10000 0x72 [] rfl
  have calm := (ImuSensor.Serial.send_resumes_iff _ _ _ _ posix rfl).mp resumes
  exact calm (.sleepFailed eintr 4000 none nofun) (by simp [interruption]) rfl

end HsrbDrivers.Transmission

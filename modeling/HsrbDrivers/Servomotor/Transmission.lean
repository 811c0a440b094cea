import HsrbDrivers.Library.Interruption
import HsrbDrivers.Servomotor.Reprograming

namespace HsrbDrivers.Servomotor.Serial
open Session WriteLoop

-- `ExxxNetwork::Send` answer by answer. More bytes than there are would only be logged.
def send (n : ExxxNetwork) (sleepTick : Int) (id inst : UInt8) (data : List UInt8) : Session DeviceEvent Int :=
  let length := kHeaderBytes + kIdBytes + kInstructionBytes + kLengthBytes + data.length + kChecksumBytes + kFooterBytes
  match ExxxNetwork.fillBuffer n.buffer id inst data with
  | none => halt .fault
  | some buffer => writeAll ⟨n.timeout,sleepTick,none,true⟩ (buffer.take length)

-- `WaitNanoSec` with the `errno` at its call. Only an interruption is waited for again; all
-- other failures are taken for those of the arguments.
def waitNanoSec (errno nsec : Int) : Session DeviceEvent Int := do
  let failure ← sleepAll nsec errno
  match failure with
  | none => pure ErrorCode.success.value
  | some _ => pure ErrorCode.invalidArgument.value

theorem waitNanoSec_reported {errno nsec : Int} {schedule : List DeviceEvent} {code : Int} {w : World DeviceEvent}
    (ended : waitNanoSec errno nsec ⟨[],schedule⟩ = (.ok code,w)) :
    ∃ answer, Servomotor.waitNanoSec nsec ⟨[],[answer]⟩ = (.ok (.system code),⟨[answer],[]⟩) := by
  unfold waitNanoSec at ended
  rcases slept : sleepAll nsec errno ⟨[],schedule⟩ with ⟨result,next⟩
  cases result with
  | error reason =>
      rw [bind_error slept] at ended
      cases ended
  | ok failure =>
      rw [bind_ok slept] at ended
      cases failure with
      | none =>
          cases ended
          exact ⟨.slept nsec,by simp [Servomotor.waitNanoSec,Session.meet,ErrorCode.success,ErrorCode.system]⟩
      | some errno =>
          cases ended
          exact ⟨.sleepFailed nsec,by simp [Servomotor.waitNanoSec,Session.meet,ErrorCode.invalidArgument,ErrorCode.system]⟩

theorem send_eq (n : ExxxNetwork) (sleepTick : Int) (id inst : UInt8) (data : List UInt8) :
    send n sleepTick id inst data = if data.length ≤ 251 then
      writeAll ⟨n.timeout,sleepTick,none,true⟩ (ExxxNetwork.frame id inst data) else halt .fault := by
  have length : (ExxxNetwork.frame id inst data).length = data.length + 9 := by
    simp [ExxxNetwork.frame,ExxxNetwork.frameBody_length]
  unfold send
  rw [ExxxNetwork.fillBuffer_eq n.sized]
  by_cases small : data.length ≤ 251
  · rw [if_pos small,if_pos small]
    dsimp only
    rw [List.take_left' (by rw [length]; simp only [kHeaderBytes,kIdBytes,kInstructionBytes,kLengthBytes,kChecksumBytes,kFooterBytes]; omega)]
  · rw [if_neg small,if_neg small]

theorem send_resumes_iff (n : ExxxNetwork) (sleepTick : Int) (id inst : UInt8) (data : List UInt8) {schedule : List DeviceEvent}
    (posix : ∀ event ∈ schedule, Posix event) (whole : (send n sleepTick id inst data ⟨[],schedule⟩).2.script = []) :
    Resumes (send n sleepTick id inst data ⟨[],schedule⟩).2.trace ↔ ∀ event ∈ schedule, ¬ Interrupts event := by
  rw [send_eq] at whole ⊢
  split at whole
  · rename_i small
    rw [if_pos small]
    exact settled_iff (writeAll_takes _ _) (writeAll_calm _ _) posix whole
  · rename_i large
    rw [if_neg large]
    exact settled_iff (Takes.halt _) (Keeps.halt fun _ calm => calm) posix whole

theorem waitNanoSec_takes (errno nsec : Int) : Takes Said (waitNanoSec errno nsec) := by
  refine Takes.bind (sleepAll_takes nsec errno) fun failure => ?_
  cases failure with
  | none => exact Takes.pure _
  | some errno => exact Takes.pure _

theorem waitNanoSec_resumes_iff (errno nsec : Int) {schedule : List DeviceEvent} (posix : ∀ event ∈ schedule, Posix event)
    (whole : (waitNanoSec errno nsec ⟨[],schedule⟩).2.script = []) :
    Resumes (waitNanoSec errno nsec ⟨[],schedule⟩).2.trace ↔ errno = eintr ∨ ∀ event ∈ schedule, ¬ Interrupts event := by
  by_cases left : errno = eintr
  · subst left
    have keeps : Keeps Resumed Resumed (waitNanoSec eintr nsec) fun _ => Resumed := by
      refine Keeps.bind (sleepAll_resumed nsec) fun failure => ?_
      cases failure with
      | none => exact Keeps.pure fun _ => id
      | some errno => exact Keeps.pure fun _ => id
    exact iff_of_true (resumes_of_keeps (waitNanoSec_takes eintr nsec) keeps posix whole) (.inl rfl)
  · have keeps : Keeps Calm Calm (waitNanoSec errno nsec) fun _ => Settled := by
      refine Keeps.bind (sleepAll_calm nsec left) fun failure => ?_
      cases failure with
      | none => exact Keeps.pure fun _ calm => calm.settled
      | some errno => exact Keeps.pure fun _ => id
    rw [settled_iff (waitNanoSec_takes errno nsec) keeps posix whole,or_iff_right left]

end HsrbDrivers.Servomotor.Serial

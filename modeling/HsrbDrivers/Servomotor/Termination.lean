import HsrbDrivers.Library.Endless
import HsrbDrivers.Servomotor.Xmodem

namespace HsrbDrivers.Servomotor
open Session ExxxReprograming

inductive Call (r : ExxxReprograming) : {α : Type} → Session Exchange α → Prop where
  | receiveByte : Call r receiveByte
  | sendData (data : List UInt8) : Call r (r.sendData data)
  | waitNanoSec (nsec : Int) : Call r (waitNanoSec nsec)
  | sendCommand (command : UInt8) (checkMessage : List UInt8) : Call r (r.sendCommand command checkMessage)

section
variable (r : ExxxReprograming)

theorem call_steady {α : Type} {m : Session Exchange α} (call : Call r m) : Steady m := by
  cases call with
  | receiveByte => exact receiveByte_listening.steady
  | sendData data => exact (sendData_composed r data).steady
  | waitNanoSec nsec => exact (waitNanoSec_resting nsec).steady
  | sendCommand command checkMessage => exact (sendCommand_composed r command checkMessage).steady

theorem sendFlushBlockData_steady (flushData : List UInt8) (sendPos : Nat) (blockNumber : UInt8) :
    Steady (r.sendFlushBlockData flushData sendPos blockNumber) := by
  unfold sendFlushBlockData
  cases flushBlock flushData sendPos with
  | none => exact Steady.halt .fault
  | some block => exact (sendData_composed r _).steady

theorem waitTurn_consuming : Consuming waitTurn := by
  refine consuming_meet fun retryCount result => ?_
  cases result with
  | ok data =>
      dsimp only
      split
      · exact Steady.pure _
      · split <;> exact Steady.pure _
  | error error =>
      dsimp only
      split
      · exact Steady.pure _
      · split <;> exact Steady.pure _

theorem transferTurn_consuming (flushData : List UInt8) : Consuming (r.transferTurn flushData) := by
  have closing : ∀ s isFlushXmodem error, Steady (transferEnd s isFlushXmodem error) :=
    fun s isFlushXmodem error => (transferEnd_resting s isFlushXmodem error).steady
  refine consuming_meet fun s result => ?_
  cases result with
  | error error =>
      dsimp only
      split
      · exact closing _ _ _
      · exact Steady.pure _
  | ok data =>
      dsimp only
      split
      · unfold transferNext
        dsimp only
        split
        · exact Steady.halt .fault
        split
        · exact Steady.bind (call_steady r (.sendCommand _ _)) fun _ => closing _ _ _
        · exact Steady.bind (sendFlushBlockData_steady r _ _ _) fun _ => closing _ _ _
      split
      · unfold transferAgain
        dsimp only
        split
        · exact Steady.bind (sendFlushBlockData_steady r _ _ _) fun _ => closing _ _ _
        · exact closing _ _ _
      split
      · exact closing _ _ _
      · exact closing _ _ _

end

-- A retry that is left, or a block that is: the first for the wait, the second for the transfer.
def retriesLeft (retryCount : Nat) : Nat := kFlushXmodemMaxRetryCount - retryCount

def stepsLeft (flushData : List UInt8) (s : Transfer) : Nat :=
  kFlushXmodemMaxRetryCount * (max 1 (blocks flushData) - s.sendPos / 128) - s.retryCount

def Underway (flushData : List UInt8) (s : Transfer) : Prop :=
  s.retryCount < kFlushXmodemMaxRetryCount ∧ ∃ k < max 1 (blocks flushData), s.sendPos = 128 * k

theorem waitTurn_yields {retryCount : Nat} (_ : retryCount < kFlushXmodemMaxRetryCount) : Yields (waitTurn retryCount)
    (Sum.elim (fun next => next < kFlushXmodemMaxRetryCount ∧ retriesLeft next < retriesLeft retryCount) fun _ => True) := by
  have onward : Yields (if retryCount + 1 ≥ kFlushXmodemMaxRetryCount then pure (.inr .timedOut) else pure (.inl (retryCount + 1)) :
      Session Exchange (Nat ⊕ ErrorCode))
      (Sum.elim (fun next => next < kFlushXmodemMaxRetryCount ∧ retriesLeft next < retriesLeft retryCount) fun _ => True) := by
    split
    · exact Yields.pure trivial
    · refine Yields.pure ⟨Nat.not_le.mp ‹_›,?_⟩
      unfold retriesLeft
      omega
  refine Yields.bind (Yields.any _) fun result _ => ?_
  cases result with
  | ok data =>
      dsimp only
      split
      · exact Yields.pure trivial
      · exact onward
  | error error =>
      dsimp only
      split
      · exact Yields.pure trivial
      · exact onward

theorem transferEnd_yields {s : Transfer} {isFlushXmodem : Bool} {error : ErrorCode} {kind : Transfer → Prop}
    (onward : isFlushXmodem = true → s.retryCount < kFlushXmodemMaxRetryCount → kind s) :
    Yields (transferEnd s isFlushXmodem error) (Sum.elim kind fun _ => True) := by
  unfold transferEnd
  split
  · exact Yields.pure trivial
  rename_i left
  cases isFlushXmodem with
  | false => exact Yields.pure trivial
  | true =>
      refine Yields.bind (Yields.any _) fun waited _ => ?_
      split
      · exact Yields.pure trivial
      · exact Yields.pure (onward rfl (Nat.not_le.mp left))

theorem underway_first (flushData : List UInt8) : Underway flushData ⟨0,0,0,1⟩ :=
  ⟨by decide,0,Nat.lt_of_lt_of_le Nat.one_pos (Nat.le_max_left _ _),rfl⟩

section
variable (r : ExxxReprograming) {flushData : List UInt8} {s : Transfer}

theorem stepsLeft_pos (underway : Underway flushData s) : 0 < stepsLeft flushData s := by
  obtain ⟨few,k,inside,place⟩ := underway
  have block : s.sendPos / 128 = k := by omega
  unfold stepsLeft
  rw [block]
  unfold kFlushXmodemMaxRetryCount at few ⊢
  omega

theorem underway_retry (underway : Underway flushData s) (left : s.retryCount + 1 < kFlushXmodemMaxRetryCount) :
    Underway flushData {s with retryCount := s.retryCount + 1} ∧
      stepsLeft flushData {s with retryCount := s.retryCount + 1} < stepsLeft flushData s := by
  obtain ⟨few,k,inside,place⟩ := underway
  refine ⟨⟨left,k,inside,place⟩,?_⟩
  unfold stepsLeft
  have block : s.sendPos / 128 = k := by omega
  dsimp only
  rw [block]
  unfold kFlushXmodemMaxRetryCount at few ⊢
  omega

theorem underway_next (short : flushData.length < 2^32 - 128) (underway : Underway flushData s)
    (more : (s.sendPos + kXmodemDataSize) % 2^32 < flushData.length) (flushRatio : Nat) (blockNumber : UInt8) :
    Underway flushData ⟨0,(s.sendPos + kXmodemDataSize) % 2^32,flushRatio,blockNumber⟩ ∧
      stepsLeft flushData ⟨0,(s.sendPos + kXmodemDataSize) % 2^32,flushRatio,blockNumber⟩ < stepsLeft flushData s := by
  obtain ⟨few,k,inside,place⟩ := underway
  have within : 128 * k < 2^32 - 128 := by
    unfold blocks at inside
    omega
  have next : (s.sendPos + kXmodemDataSize) % 2^32 = 128 * (k + 1) := by
    rw [place]
    exact Nat.mod_eq_of_lt (by unfold kXmodemDataSize; omega)
  rw [next] at more ⊢
  have beyond : k + 1 < blocks flushData := lt_blocks.mpr more
  refine ⟨⟨(by decide : 0 < kFlushXmodemMaxRetryCount),k+1,Nat.lt_of_lt_of_le beyond (Nat.le_max_right _ _),rfl⟩,?_⟩
  have block : s.sendPos / 128 = k := by omega
  have after : 128 * (k + 1) / 128 = k + 1 := by omega
  unfold stepsLeft
  dsimp only
  rw [block,after]
  unfold kFlushXmodemMaxRetryCount at few ⊢
  omega

theorem transferTurn_yields (short : flushData.length < 2^32 - 128) (underway : Underway flushData s) :
    Yields (r.transferTurn flushData s)
      (Sum.elim (fun next => Underway flushData next ∧ stepsLeft flushData next < stepsLeft flushData s) fun _ => True) := by
  refine Yields.bind (Yields.any _) fun result _ => ?_
  cases result with
  | error error =>
      dsimp only
      split
      · exact transferEnd_yields fun _ left => underway_retry underway left
      · exact Yields.pure trivial
  | ok data =>
      dsimp only
      split
      · unfold transferNext
        dsimp only
        split
        · exact Yields.halt .fault
        split
        · exact Yields.bind (Yields.any _) fun error _ => transferEnd_yields fun off => by cases off
        · rename_i more
          refine Yields.bind (Yields.any _) fun error _ => transferEnd_yields fun _ _ => ?_
          exact underway_next short underway (Nat.not_le.mp more) _ _
      split
      · unfold transferAgain
        dsimp only
        split
        · exact Yields.bind (Yields.any _) fun error _ => transferEnd_yields fun _ left => underway_retry underway left
        · exact transferEnd_yields fun _ left => underway_retry underway left
      split
      · exact transferEnd_yields fun off => by cases off
      · exact transferEnd_yields fun _ left => underway_retry underway left

end

section
variable {r : ExxxReprograming} {answers : Nat → Exchange}

theorem settles_call {α : Type} {m : Session Exchange α} (call : Call r m) : Settles (Call r) answers m :=
  Settles.call call (call_steady r call)

theorem settles_after {α β : Type} {m : Session Exchange α} {f : α → Session Exchange β} (call : Call r m)
    (rest : ∀ a, Settles (Call r) answers (f a)) : Settles (Call r) answers (m >>= f) :=
  Settles.bind (settles_call call) (Yields.any m) fun a _ => rest a

theorem waitTurn_settles (retryCount : Nat) : Settles (Call r) answers (waitTurn retryCount) := by
  refine settles_after .receiveByte fun result => ?_
  cases result with
  | ok data =>
      dsimp only
      split
      · exact Settles.pure _
      · split <;> exact Settles.pure _
  | error error =>
      dsimp only
      split
      · exact Settles.pure _
      · split <;> exact Settles.pure _

theorem transferEnd_settles (s : Transfer) (isFlushXmodem : Bool) (error : ErrorCode) :
    Settles (Call r) answers (transferEnd s isFlushXmodem error) := by
  unfold transferEnd
  split
  · exact Settles.pure _
  split
  · refine settles_after (.waitNanoSec _) fun waited => ?_
    split <;> exact Settles.pure _
  · exact Settles.pure _

theorem sendFlushBlockData_settles (flushData : List UInt8) (sendPos : Nat) (blockNumber : UInt8) :
    Settles (Call r) answers (r.sendFlushBlockData flushData sendPos blockNumber) := by
  unfold sendFlushBlockData
  cases flushBlock flushData sendPos with
  | none => exact Settles.fault
  | some block => exact settles_call (.sendData _)

theorem sendBlock_settles (flushData : List UInt8) (sendPos : Nat) (blockNumber : UInt8) {β : Type}
    {f : ErrorCode → Session Exchange β} (rest : ∀ error, Settles (Call r) answers (f error)) :
    Settles (Call r) answers (r.sendFlushBlockData flushData sendPos blockNumber >>= f) :=
  Settles.bind (sendFlushBlockData_settles flushData sendPos blockNumber) (Yields.any _) fun error _ => rest error

theorem transferTurn_settles (flushData : List UInt8) (s : Transfer) :
    Settles (Call r) answers (r.transferTurn flushData s) := by
  refine settles_after .receiveByte fun result => ?_
  cases result with
  | error error =>
      dsimp only
      split
      · exact transferEnd_settles _ _ _
      · exact Settles.pure _
  | ok data =>
      dsimp only
      split
      · unfold transferNext
        dsimp only
        split
        · exact Settles.fault
        split
        · exact settles_after (.sendCommand _ _) fun error => transferEnd_settles _ _ _
        · exact sendBlock_settles _ _ _ fun error => transferEnd_settles _ _ _
      split
      · unfold transferAgain
        dsimp only
        split
        · exact sendBlock_settles _ _ _ fun error => transferEnd_settles _ _ _
        · exact transferEnd_settles _ _ _
      split
      · exact transferEnd_settles _ _ _
      · exact transferEnd_settles _ _ _

theorem flushXmodem_settles {flushData : List UInt8} (short : flushData.length < 2^32 - 128) :
    Settles (Call r) answers (r.flushXmodem flushData) := by
  have waits : Settles (Call r) answers (loop waitTurn 0) :=
    Settles.loop waitTurn_consuming (fun _ left => waitTurn_yields left) (fun s _ => waitTurn_settles s) (by decide)
  refine Settles.bind waits (Yields.any _) fun waited _ => ?_
  split
  · exact Settles.pure _
  refine sendBlock_settles _ _ _ fun sent => ?_
  split
  · exact Settles.pure _
  refine settles_after (.waitNanoSec _) fun slept => ?_
  split
  · exact Settles.pure _
  exact Settles.loop (transferTurn_consuming r flushData) (fun _ underway => transferTurn_yields r short underway)
    (fun s _ => transferTurn_settles flushData s) (underway_first flushData)

end

-- The wait takes at most 100 receives, the transfer 100 turns a block, and along any endless
-- sequence of answers the function is over or waits for one of its calls to be. With data it
-- is over by returning.
theorem flushXmodem_terminates (r : ExxxReprograming) {flushData : List UInt8} (short : flushData.length < 2^32 - 128)
    (answers : Nat → Exchange) :
    (∀ fuel w, turns waitTurn fuel 0 w ≤ kFlushXmodemMaxRetryCount) ∧
    (flushData ≠ [] → ∀ fuel w, turns (r.transferTurn flushData) fuel ⟨0,0,0,1⟩ w ≤ kFlushXmodemMaxRetryCount * blocks flushData) ∧
    (Ends answers (r.flushXmodem flushData) [] 0 ∨ Blocks (Call r) answers (r.flushXmodem flushData) [] 0) ∧
    (flushData ≠ [] → ∀ script, (r.flushXmodem flushData ⟨[],script⟩).1 ≠ .error .fault) := by
  refine ⟨fun fuel w => ?_,fun present fuel w => ?_,flushXmodem_settles short [] 0,fun present script => ?_⟩
  · exact turns_le (· < kFlushXmodemMaxRetryCount) retriesLeft (fun _ left => Nat.sub_pos_of_lt left)
      (fun _ left => waitTurn_yields left) fuel (by decide) w
  · have inside : 0 < blocks flushData := lt_blocks.mpr (List.length_pos_iff.mpr present)
    have most := turns_le (Underway flushData) (stepsLeft flushData) (fun _ => stepsLeft_pos)
      (fun _ underway => transferTurn_yields r short underway) fuel (underway_first flushData) w
    rwa [stepsLeft,Nat.zero_div,Nat.sub_zero,Nat.sub_zero,Nat.max_eq_right inside] at most
  · exact (flushXmodem_moves r present short ⟨[],script⟩ (orderly_nil _) fun _ member => by cases member).2.1

theorem silence_terminates : (∀ fuel w, turns waitTurn fuel 0 w ≤ kFlushXmodemMaxRetryCount) ∧
    (∀ fuel w, turns (host.transferTurn [7]) fuel ⟨0,0,0,1⟩ w ≤ kFlushXmodemMaxRetryCount * blocks [7]) ∧
    (Ends (fun _ => .silent) (host.flushXmodem [7]) [] 0 ∨ Blocks (Call host) (fun _ => .silent) (host.flushXmodem [7]) [] 0) := by
  obtain ⟨waits,transfers,closed,_⟩ := @flushXmodem_terminates host [7] (by decide) fun _ => .silent
  exact ⟨waits,transfers (by decide),closed⟩

end HsrbDrivers.Servomotor

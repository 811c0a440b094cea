import HsrbDrivers.Library.SlidingWindow
import Mathlib.Algebra.Order.Field.Basic
import Mathlib.Data.Rat.Cast.Order
import Mathlib.Data.UInt

namespace HsrbDrivers.PowerEcu
open SlidingWindow

-- The window has room for one result at least, so a full window has a front.
structure ErrorCounter where
  buffer : List Bool
  errorCount : UInt32
  bufferSize : Nat
  positive : 0 < bufferSize

namespace ErrorCounter

def construct (bufferSize : Nat) (positive : 0 < bufferSize) : ErrorCounter :=
  ⟨List.replicate bufferSize true,0,bufferSize,positive⟩

def register (c : ErrorCounter) (result : Bool) : ErrorCounter :=
  let errorCount := if result then c.errorCount else c.errorCount + 1
  if c.buffer.length = c.bufferSize then
    {c with
      buffer := c.buffer.tail ++ [result]
      errorCount := if c.buffer.headD true then errorCount else errorCount - 1}
  else {c with buffer := c.buffer ++ [result],errorCount := errorCount}

def getErrorCount (c : ErrorCounter) : UInt32 := c.errorCount

-- The quotient itself, where the code rounds it to a double.
def getErrorRate (c : ErrorCounter) : Rat := c.getErrorCount.toNat / c.buffer.length

def registerAll (c : ErrorCounter) (results : List Bool) : ErrorCounter := results.foldl register c

structure Counts (c : ErrorCounter) (results : List Bool) : Prop where
  buffer : c.buffer = window c.bufferSize true results
  count : c.errorCount.toNat = c.buffer.countP (!·)

def Moves (c : ErrorCounter) (result : Bool) : Prop :=
  (c.register result).errorCount.toNat + (if c.buffer.head? = some false then 1 else 0) =
    c.errorCount.toNat + if result then 0 else 1

theorem construct_counts (bufferSize : Nat) (positive : 0 < bufferSize) : (construct bufferSize positive).Counts [] := by
  refine ⟨(window_nil _ _).symm,(List.countP_eq_zero.mpr fun result member => ?_).symm⟩
  rw [List.eq_of_mem_replicate member]
  exact Bool.false_ne_true

section
variable {c : ErrorCounter} {results : List Bool}

theorem Counts.length (counts : c.Counts results) : c.buffer.length = c.bufferSize := by
  rw [counts.buffer,window_length]

theorem register_bufferSize (c : ErrorCounter) (result : Bool) : (c.register result).bufferSize = c.bufferSize := by
  unfold register
  dsimp only
  split <;> rfl

theorem counter_moved (errorCount : UInt32) (result front : Bool) {n : Nat} (small : n < 2^32)
    (moved : n + (if front then 0 else 1) = errorCount.toNat + if result then 0 else 1) :
    ((if result then errorCount else errorCount + 1) - if front then 0 else 1 : UInt32).toNat = n := by
  have width := errorCount.toNat_lt
  cases front <;> cases result <;> simp [UInt32.toNat_sub,UInt32.toNat_add] at moved ⊢ <;> omega

theorem register_full (full : c.buffer.length = c.bufferSize) (result : Bool) :
    ∃ front, c.buffer.head? = some front ∧ (c.register result).buffer = (c.buffer ++ [result]).tail ∧
      (c.register result).errorCount = (if result then c.errorCount else c.errorCount + 1) - if front then 0 else 1 := by
  have positive := c.positive
  unfold register
  dsimp only
  rw [if_pos full]
  cases held : c.buffer with
  | nil =>
      rw [held] at full
      exact absurd full positive.ne
  | cons front rest => exact ⟨front,rfl,rfl,by cases front <;> simp⟩

theorem register_moves (width : c.bufferSize < 2^32) (counts : c.Counts results) (result : Bool) :
    (c.register result).Counts (results ++ [result]) ∧ c.Moves result := by
  have full := counts.length
  obtain ⟨front,first,buffer,count⟩ := register_full full result
  have most : ((c.buffer ++ [result]).tail).countP (!·) < 2^32 := by
    have size : ((c.buffer ++ [result]).tail).length = c.bufferSize := by simp [full]
    exact Nat.lt_of_le_of_lt (size ▸ List.countP_le_length) width
  have moved : ((c.buffer ++ [result]).tail).countP (!·) + (if front then 0 else 1) =
      c.errorCount.toNat + if result then 0 else 1 := by
    have window := @countP_moved _ (!·) _ _ first result
    rw [counts.count]
    cases front <;> cases result <;> exact window
  have counted := counter_moved c.errorCount result front most moved
  rw [← count] at counted
  refine ⟨⟨?_,?_⟩,?_⟩
  · rw [register_bufferSize,window_append,← counts.buffer,buffer]
  · rw [buffer,counted]
  · rw [Moves,counted,first]
    cases front <;> exact moved

theorem registerAll_counts (width : c.bufferSize < 2^32) {before : List Bool} (counts : c.Counts before) (results : List Bool) :
    (c.registerAll results).Counts (before ++ results) ∧ (c.registerAll results).bufferSize = c.bufferSize := by
  induction results generalizing c before with
  | nil => exact ⟨by rw [List.append_nil]; exact counts,rfl⟩
  | cons result results ih =>
      have size := register_bufferSize c result
      have next := ih (c := c.register result) (size ▸ width) (register_moves width counts result).1
      rw [List.append_assoc,List.singleton_append,size] at next
      exact next

end

theorem Counts.rate {c : ErrorCounter} {results : List Bool} (counts : c.Counts results) : 0 ≤ c.getErrorRate ∧ c.getErrorRate ≤ 1 := by
  have most : c.errorCount.toNat ≤ c.buffer.length := counts.count ▸ List.countP_le_length
  have size : (0 : ℚ) < c.buffer.length := by
    rw [counts.length]
    exact_mod_cast c.positive
  refine ⟨div_nonneg (Nat.cast_nonneg _) size.le,?_⟩
  rw [getErrorRate,getErrorCount,div_le_one size]
  exact_mod_cast most

theorem register_windowed (bufferSize : UInt32) (positive : 0 < bufferSize.toNat) (results : List Bool) :
    ((construct bufferSize.toNat positive).registerAll results).getErrorCount.toNat =
      (results.drop (results.length - bufferSize.toNat)).count false ∧
    ((construct bufferSize.toNat positive).registerAll results).buffer.length = bufferSize.toNat ∧
    (∀ result, ((construct bufferSize.toNat positive).registerAll results).Moves result) ∧
    ∀ round : ℚ → ℚ, Monotone round → round 0 = 0 → round 1 = 1 →
      0 ≤ round ((construct bufferSize.toNat positive).registerAll results).getErrorRate ∧
        round ((construct bufferSize.toNat positive).registerAll results).getErrorRate ≤ 1 := by
  obtain ⟨counts,size⟩ := registerAll_counts bufferSize.toNat_lt (construct_counts bufferSize.toNat positive) results
  rw [List.nil_append] at counts
  refine ⟨?_,counts.length.trans size,fun result => (register_moves (size ▸ bufferSize.toNat_lt) counts result).2,?_⟩
  · have missing : (!true) = false := rfl
    have falses : not = (· == false) := by funext result; cases result <;> rfl
    rw [getErrorCount,counts.count,counts.buffer,size,window_countP missing,falses]
    rfl
  · intro round monotone zero one
    obtain ⟨low,high⟩ := counts.rate
    exact ⟨zero ▸ monotone low,one ▸ monotone high⟩

theorem one_error_windowed : ((construct 2 (by decide)).registerAll [false,false,true]).getErrorCount = 1 ∧
    ((construct 2 (by decide)).registerAll [false,false,true]).buffer.length = 2 := by
  have windowed := register_windowed 2 (by decide) [false,false,true]
  exact ⟨UInt32.toNat_inj.mp windowed.1,windowed.2.1⟩

end ErrorCounter
end HsrbDrivers.PowerEcu

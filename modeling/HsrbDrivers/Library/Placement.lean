import Mathlib.Algebra.GroupWithZero.Nat
import Mathlib.Data.List.Basic

namespace HsrbDrivers

structure Block where
  first : Nat
  last : Nat
  size : Nat

namespace Placement

def total (blocks : List Block) : Nat := (blocks.map Block.size).sum

def Consecutive : Nat → List Block → Prop
  | _,[] => True
  | start,block :: rest => block.first = start ∧ block.last = start + block.size ∧ Consecutive (start + block.size) rest

-- The same with a cursor and an end that are counted modulo `modulus`.
def Wrapping (modulus : Nat) : Nat → List Block → Prop
  | _,[] => True
  | start,block :: rest => block.first = start ∧ block.last = (start + block.size) % modulus ∧
    Wrapping modulus ((start + block.size) % modulus) rest

theorem consecutive_iff {modulus start : Nat} {blocks : List Block} (wrapping : Wrapping modulus start blocks)
    (below : start < modulus) : Consecutive start blocks ↔ start + total blocks < modulus := by
  induction blocks generalizing start with
  | nil => exact iff_of_true trivial below
  | cons block rest ih =>
      obtain ⟨first,last,later⟩ := wrapping
      have whole : start + total (block :: rest) = start + block.size + total rest := by
        simp [total,Nat.add_assoc]
      rw [whole]
      by_cases wraps : start + block.size < modulus
      · rw [Nat.mod_eq_of_lt wraps] at last later
        constructor
        · rintro ⟨_,_,consecutive⟩
          exact (ih later wraps).mp consecutive
        · intro fits
          exact ⟨first,last,(ih later wraps).mpr fits⟩
      · constructor
        · rintro ⟨_,exact,_⟩
          have small := Nat.mod_lt (start + block.size) (Nat.zero_lt_of_lt below)
          rw [← last,exact] at small
          exact absurd small wraps
        · intro fits
          exact absurd (Nat.lt_of_le_of_lt (Nat.le_add_right _ _) fits) wraps

theorem consecutive_split {start : Nat} {before after : List Block} {block : Block}
    (consecutive : Consecutive start (before ++ block :: after)) :
    block.first = start + total before ∧ block.last = block.first + block.size := by
  induction before generalizing start with
  | nil =>
      obtain ⟨first,last,_⟩ := consecutive
      exact ⟨first,by rw [first]; exact last⟩
  | cons other before ih =>
      have later := ih consecutive.2.2
      rw [total,List.map_cons,List.sum_cons,← Nat.add_assoc]
      exact later

theorem consecutive_of_split {start : Nat} {blocks : List Block}
    (placed : ∀ before block after, blocks = before ++ block :: after →
      block.first = start + total before ∧ block.last = block.first + block.size) : Consecutive start blocks := by
  induction blocks generalizing start with
  | nil => trivial
  | cons block rest ih =>
      obtain ⟨first,last⟩ := placed [] block rest rfl
      refine ⟨first,by rw [last,first]; rfl,ih fun before other after split => ?_⟩
      have placed := placed (block :: before) other after (by rw [split]; rfl)
      rw [total,List.map_cons,List.sum_cons,← Nat.add_assoc] at placed
      exact placed

theorem consecutive_after {start : Nat} {blocks : List Block} (consecutive : Consecutive start blocks) :
    ∀ block ∈ blocks, start ≤ block.first := by
  induction blocks generalizing start with
  | nil => simp
  | cons block rest ih =>
      intro other member
      rcases List.mem_cons.mp member with rfl | later
      · exact Nat.le_of_eq consecutive.1.symm
      · exact Nat.le_trans (Nat.le_add_right _ _) (ih consecutive.2.2 other later)

theorem consecutive_disjoint {start : Nat} {blocks : List Block} (consecutive : Consecutive start blocks) :
    blocks.Pairwise fun one two => one.last ≤ two.first := by
  induction blocks generalizing start with
  | nil => exact .nil
  | cons block rest ih =>
      refine .cons (fun other member => ?_) (ih consecutive.2.2)
      rw [consecutive.2.1]
      exact consecutive_after consecutive.2.2 other member

theorem flatten_length_uniform {size : Nat} {blocks : List (List α)} (uniform : ∀ block ∈ blocks, block.length = size) :
    blocks.flatten.length = blocks.length * size := by
  induction blocks with
  | nil => exact (Nat.zero_mul size).symm
  | cons block blocks ih =>
      have later := ih fun other member => uniform other (List.mem_cons_of_mem _ member)
      rw [List.flatten_cons,List.length_append,uniform block List.mem_cons_self,later,List.length_cons,Nat.succ_mul,Nat.add_comm]

theorem flatten_drop_uniform {size : Nat} {blocks : List (List α)} (uniform : ∀ block ∈ blocks, block.length = size) (k : Nat) :
    blocks.flatten.drop (k * size) = (blocks.drop k).flatten := by
  induction k generalizing blocks with
  | zero => rw [Nat.zero_mul,List.drop_zero,List.drop_zero]
  | succ k ih =>
      cases blocks with
      | nil => exact List.drop_nil
      | cons block blocks =>
          have held : (k+1) * size = block.length + k * size := by
            rw [uniform block List.mem_cons_self,Nat.succ_mul,Nat.add_comm]
          rw [List.flatten_cons,held,List.drop_append,List.drop_of_length_le (Nat.le_add_right _ _),Nat.add_sub_cancel_left]
          exact ih fun other member => uniform other (List.mem_cons_of_mem _ member)

theorem flatten_block {size : Nat} {blocks : List (List α)} (uniform : ∀ block ∈ blocks, block.length = size) {k : Nat}
    {block : List α} (present : blocks[k]? = some block) : (blocks.flatten.drop (k * size)).take size = block := by
  obtain ⟨inside,same⟩ := List.getElem?_eq_some_iff.mp present
  have sized : block.length = size := uniform block (List.mem_of_getElem? present)
  rw [flatten_drop_uniform uniform,List.drop_eq_getElem_cons inside,same,List.flatten_cons,← sized]
  exact List.take_left

theorem flatten_inside {size : Nat} {blocks : List (List α)} (uniform : ∀ block ∈ blocks, block.length = size) {k : Nat}
    (positive : 0 < size) (there : k * size + size ≤ blocks.flatten.length) : k < blocks.length := by
  rw [flatten_length_uniform uniform,← Nat.succ_mul] at there
  exact Nat.le_of_mul_le_mul_right there positive

end Placement
end HsrbDrivers

import Mathlib.Data.List.Basic

namespace HsrbDrivers.Storage

-- A store into a block of memory. One outside the block has no defined result.
def store (memory : List α) (position : Nat) (x : α) : Option (List α) :=
  if position < memory.length then some (memory.set position x) else none

def storeAll (memory : List α) (position : Nat) : List α → Option (List α)
  | [] => some memory
  | x :: xs => (store memory position x).bind fun memory => storeAll memory (position+1) xs

theorem storeAll_append (memory : List α) (position : Nat) (xs ys : List α) :
    storeAll memory position (xs ++ ys) =
      (storeAll memory position xs).bind fun memory => storeAll memory (position+xs.length) ys := by
  induction xs generalizing memory position with
  | nil => rfl
  | cons x xs ih =>
      cases stored : store memory position x with
      | none => simp [storeAll,stored]
      | some next => simp [storeAll,stored,ih,Nat.add_right_comm,Nat.add_assoc]

theorem storeAll_eq (memory : List α) (position : Nat) (xs : List α) (inside : position ≤ memory.length) :
    storeAll memory position xs = if position + xs.length ≤ memory.length then
      some (memory.take position ++ xs ++ memory.drop (position+xs.length)) else none := by
  induction xs generalizing memory position with
  | nil => simp [storeAll,inside]
  | cons x xs ih =>
      by_cases room : position < memory.length
      · have next : storeAll memory position (x :: xs) = storeAll (memory.set position x) (position+1) xs := by
          simp [storeAll,store,room]
        have front : (memory.set position x).take (position+1) = memory.take position ++ [x] := by
          simp [List.take_succ_eq_append_getElem,room,List.take_set_of_le]
        have back : (memory.set position x).drop (position+1+xs.length) = memory.drop (position+(xs.length+1)) := by
          rw [List.drop_set_of_lt (by omega),Nat.add_assoc,Nat.add_comm 1]
        rw [next,ih _ _ (by rw [List.length_set]; exact room),front,back]
        simp [Nat.add_assoc,Nat.add_comm 1]
      · have outside : storeAll memory position (x :: xs) = none := by simp [storeAll,store,room]
        rw [outside,if_neg (by rw [List.length_cons]; omega)]

theorem storeAll_length {memory later : List α} {position : Nat} {xs : List α}
    (stored : storeAll memory position xs = some later) : later.length = memory.length := by
  induction xs generalizing memory position with
  | nil => cases stored; rfl
  | cons x xs ih =>
      simp only [storeAll,store] at stored
      split at stored
      · exact (ih stored).trans List.length_set
      · cases stored

def storeEach (memory : List α) : List (Nat × List α) → Option (List α)
  | [] => some memory
  | (position,xs) :: rest => (storeAll memory position xs).bind fun memory => storeEach memory rest

def Inside (size : Nat) (stores : List (Nat × List α)) : Prop := ∀ entry ∈ stores, entry.1 + entry.2.length ≤ size

def Follow : Nat → List (Nat × List α) → Prop
  | _,[] => True
  | position,(next,xs) :: rest => next = position ∧ Follow (position+xs.length) rest

theorem storeEach_follow {memory : List α} {position : Nat} {stores : List (Nat × List α)} (follow : Follow position stores) :
    storeEach memory stores = storeAll memory position (stores.flatMap Prod.snd) := by
  induction stores generalizing memory position with
  | nil => rfl
  | cons entry rest ih =>
      obtain ⟨rfl,later⟩ := follow
      simp only [storeEach,List.flatMap_cons,storeAll_append,ih later]

theorem follow_inside {position size : Nat} {stores : List (Nat × List α)} (follow : Follow position stores)
    (room : position + (stores.flatMap Prod.snd).length ≤ size) : Inside size stores := by
  induction stores generalizing position with
  | nil => exact fun _ member => nomatch member
  | cons entry rest ih =>
      obtain ⟨rfl,later⟩ := follow
      rw [List.flatMap_cons,List.length_append,← Nat.add_assoc] at room
      intro one member
      rcases List.mem_cons.mp member with rfl | other
      · exact Nat.le_trans (Nat.le_add_right _ _) room
      · exact ih later room one other

end HsrbDrivers.Storage

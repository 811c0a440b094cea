import Mathlib.Data.List.Rotate

namespace HsrbDrivers.SlidingWindow
variable {α : Type*}

-- The last `n` of a sequence, `fill` standing for those that are missing.
def window (n : Nat) (fill : α) (xs : List α) : List α := (List.replicate n fill ++ xs).drop xs.length

theorem window_nil (n : Nat) (fill : α) : window n fill [] = List.replicate n fill := List.append_nil _

theorem window_length (n : Nat) (fill : α) (xs : List α) : (window n fill xs).length = n := by
  rw [window,List.length_drop,List.length_append,List.length_replicate,Nat.add_sub_cancel]

theorem window_append (n : Nat) (fill : α) (xs : List α) (x : α) :
    window n fill (xs ++ [x]) = (window n fill xs ++ [x]).tail := by
  have inside : xs.length ≤ (List.replicate n fill ++ xs).length := by
    rw [List.length_append]
    exact Nat.le_add_left _ _
  unfold window
  rw [List.length_append,List.length_singleton,← List.drop_drop,← List.append_assoc,List.drop_append_of_le_length inside,
    List.drop_one]

theorem window_countP {n : Nat} {fill : α} {counted : α → Bool} (missing : counted fill = false) (xs : List α) :
    (window n fill xs).countP counted = (xs.drop (xs.length - n)).countP counted := by
  have none : ∀ k, ((List.replicate n fill).drop k).countP counted = 0 := by
    intro k
    rw [List.drop_replicate]
    refine List.countP_eq_zero.mpr fun x member => ?_
    rw [List.eq_of_mem_replicate member,missing]
    exact Bool.false_ne_true
  rw [window,List.drop_append,List.countP_append,none,Nat.zero_add,List.length_replicate]

theorem countP_moved {counted : α → Bool} {w : List α} {front : α} (first : w.head? = some front) (x : α) :
    ((w ++ [x]).tail).countP counted + (if counted front then 1 else 0) =
      w.countP counted + if counted x then 1 else 0 := by
  obtain ⟨rest,rfl⟩ := List.head?_eq_some_iff.mp first
  rw [List.cons_append,List.tail_cons,List.countP_append,List.countP_singleton,List.countP_cons]
  exact Nat.add_right_comm _ _ _

theorem rotate_set {ring : List α} {position : Nat} (inside : position < ring.length) (x : α) :
    (ring.set position x).rotate (position + 1) = (ring.rotate position ++ [x]).tail := by
  have size : (ring.set position x).length = ring.length := List.length_set
  have oldest : ring.rotate position = ring[position] :: (ring.drop (position + 1) ++ ring.take position) := by
    rw [List.rotate_eq_drop_append_take (Nat.le_of_lt inside),List.drop_eq_getElem_cons inside,List.cons_append]
  rw [List.rotate_eq_drop_append_take (by omega),oldest,List.cons_append,List.tail_cons,List.drop_set_of_lt (Nat.lt_succ_self _),
    List.take_succ_eq_append_getElem (by omega),List.getElem_set_self,List.take_set_of_le (Nat.le_refl _),List.append_assoc]

end HsrbDrivers.SlidingWindow

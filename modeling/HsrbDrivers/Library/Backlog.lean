import Mathlib.Data.List.Chain
import Mathlib.Data.List.Induction
import Mathlib.Order.Bounds.Basic
import Mathlib.Tactic.Common

-- A server that is visited now and then and hands out one item a visit at most, never an item that is not due yet.
namespace HsrbDrivers.Backlog

def visit (served due : Nat) : Nat := if served < due then served + 1 else served

def served (dues : List Nat) : Nat := dues.foldl visit 0

@[simp] theorem served_nil : served [] = 0 := rfl

@[simp] theorem served_snoc (dues : List Nat) (due : Nat) : served (dues ++ [due]) = visit (served dues) due := by
  simp [served]

theorem visit_le (served due : Nat) : visit served due ≤ served + 1 := by
  unfold visit
  split <;> omega

theorem visit_due {served due : Nat} (bounded : served ≤ due) : visit served due ≤ due := by
  unfold visit
  split <;> omega

theorem visit_caught {served due : Nat} (bounded : served ≤ due) (short : visit served due < due) : visit served due = served + 1 := by
  unfold visit at short ⊢
  grind

theorem served_length (dues : List Nat) : served dues ≤ dues.length := by
  induction dues using List.reverseRecOn with
  | nil => apply Nat.le_refl
  | append_singleton dues due ih =>
      have one := visit_le (served dues) due
      simp only [served_snoc,List.length_append,List.length_singleton]
      omega

def Growing (dues : List Nat) : Prop := dues.Pairwise (· ≤ ·)

theorem Growing.initial {dues : List Nat} {due : Nat} (growing : Growing (dues ++ [due])) : Growing dues :=
  (List.pairwise_append.mp growing).1

theorem Growing.last {dues : List Nat} {due : Nat} (growing : Growing (dues ++ [due])) {earlier : Nat} (member : earlier ∈ dues) :
    earlier ≤ due :=
  (List.pairwise_append.mp growing).2.2 earlier member due List.mem_cons_self

theorem served_bounded {dues : List Nat} (growing : Growing dues) {limit : Nat} (below : ∀ due ∈ dues, due ≤ limit) :
    served dues ≤ limit := by
  induction dues using List.reverseRecOn generalizing limit with
  | nil => apply Nat.zero_le
  | append_singleton dues due ih =>
      have before : served dues ≤ due := ih growing.initial fun _ member => growing.last member
      simpa using (visit_due before).trans (below due (by simp))

theorem served_after {before after : List Nat} {due : Nat} (growing : Growing (before ++ due :: after)) :
    served (before ++ due :: after) ≤ due + after.length := by
  induction after using List.reverseRecOn with
  | nil =>
      apply served_bounded growing
      intro earlier member
      rcases List.mem_append.mp member with early | same
      · exact growing.last early
      · exact (List.mem_singleton.mp same).le
  | append_singleton after last ih =>
      have split : before ++ due :: (after ++ [last]) = (before ++ due :: after) ++ [last] := by simp
      rw [split] at growing ⊢
      have one := visit_le (served (before ++ due :: after)) last
      have bounded := ih growing.initial
      simp only [served_snoc,List.length_append,List.length_singleton]
      omega

-- The bounds on what can be handed out: one item for each visit, and for each visit what was due at it with one item
-- for each visit behind it.
def Bounds (dues : List Nat) : Set Nat :=
  {bound | bound = dues.length ∨ ∃ before due after, dues = before ++ due :: after ∧ bound = due + after.length}

theorem bounds_snoc {dues : List Nat} {due bound : Nat} (held : bound ∈ Bounds dues) : bound + 1 ∈ Bounds (dues ++ [due]) := by
  rcases held with rfl | ⟨before,earlier,after,rfl,rfl⟩
  · exact .inl (by simp)
  · exact .inr ⟨before,earlier,after ++ [due],by simp,by simp [Nat.add_assoc]⟩

theorem served_least {dues : List Nat} (growing : Growing dues) : IsLeast (Bounds dues) (served dues) := by
  constructor
  · induction dues using List.reverseRecOn with
    | nil => exact .inl rfl
    | append_singleton dues due ih =>
        have before : served dues ≤ due := served_bounded growing.initial fun _ member => growing.last member
        have bounded := visit_due before
        rw [served_snoc]
        rcases bounded.lt_or_eq with short | level
        · rw [visit_caught before short]
          exact bounds_snoc (ih growing.initial)
        · exact .inr ⟨dues,due,[],rfl,level⟩
  · rintro bound (rfl | ⟨before,due,after,rfl,rfl⟩)
    · exact served_length dues
    · exact served_after growing

theorem served_steady {served : Nat} {dues : List Nat}
    (steady : List.IsChain (fun earlier due => earlier ≤ due ∧ due ≤ earlier + 1) (served :: dues)) :
    dues.foldl visit served = (served :: dues).getLast (List.cons_ne_nil _ _) := by
  induction dues generalizing served with
  | nil => rfl
  | cons due dues ih =>
      obtain ⟨⟨grown,soon⟩,later⟩ := List.isChain_cons_cons.mp steady
      have caught : visit served due = due := by
        unfold visit
        split <;> omega
      rw [List.foldl_cons,caught,ih later,List.getLast_cons_cons]

end HsrbDrivers.Backlog

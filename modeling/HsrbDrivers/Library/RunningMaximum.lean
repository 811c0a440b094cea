import Mathlib.Order.Lattice
import Mathlib.Data.List.Induction

namespace HsrbDrivers

structure RunningMaximum (α : Type) where
  value : α
  index : Nat
deriving DecidableEq,Repr

namespace RunningMaximum
variable {α : Type} [LinearOrder α]

def note (r : RunningMaximum α) (index : Nat) (value : α) : RunningMaximum α := if r.value < value then ⟨value,index⟩ else r

def noteAll (r : RunningMaximum α) (values : List α) : RunningMaximum α :=
  values.zipIdx.foldl (fun r found => r.note found.2 found.1) r

def IsFirstMaximum (values : List α) (index : Nat) : Prop :=
  ∃ greatest, values[index]? = some greatest ∧ (∀ v ∈ values, v ≤ greatest) ∧ ∀ v ∈ values.take index, v < greatest

theorem IsFirstMaximum.inside {values : List α} {index : Nat} (first : IsFirstMaximum values index) : index < values.length :=
  let ⟨_,present,_⟩ := first
  (List.getElem?_eq_some_iff.mp present).1

theorem noteAll_append (r : RunningMaximum α) (values : List α) (v : α) :
    r.noteAll (values ++ [v]) = (r.noteAll values).note values.length v := by
  unfold noteAll
  rw [List.zipIdx_append,List.foldl_append,Nat.zero_add]
  rfl

theorem noteAll_parts (r : RunningMaximum α) (values : List α) :
    ((∀ v ∈ values, v ≤ r.value) ∧ r.noteAll values = r) ∨
      (r.value < (r.noteAll values).value ∧ values[(r.noteAll values).index]? = some (r.noteAll values).value ∧
        (∀ v ∈ values, v ≤ (r.noteAll values).value) ∧
        ∀ v ∈ values.take (r.noteAll values).index, v < (r.noteAll values).value) := by
  induction values using List.reverseRecOn with
  | nil => exact .inl ⟨fun _ member => absurd member List.not_mem_nil,rfl⟩
  | append_singleton values v ih =>
      rw [noteAll_append]
      generalize r.noteAll values = s at ih
      have below : (∀ u ∈ values, u ≤ s.value) ∧ r.value ≤ s.value := by
        rcases ih with ⟨bounded,rfl⟩ | ⟨raised,_,bounded,_⟩
        · exact ⟨bounded,le_refl _⟩
        · exact ⟨bounded,le_of_lt raised⟩
      by_cases exceeds : s.value < v
      · have moved : s.note values.length v = ⟨v,values.length⟩ := if_pos exceeds
        refine .inr ?_
        rw [moved]
        refine ⟨lt_of_le_of_lt below.2 exceeds,List.getElem?_concat_length,?_,?_⟩
        · intro u member
          rcases List.mem_append.mp member with old | last
          · exact le_of_lt (lt_of_le_of_lt (below.1 u old) exceeds)
          · exact le_of_eq (List.mem_singleton.mp last)
        · intro u member
          rw [List.take_left] at member
          exact lt_of_le_of_lt (below.1 u member) exceeds
      · have kept : s.note values.length v = s := if_neg exceeds
        rw [kept]
        have bounded : ∀ u ∈ values ++ [v], u ≤ s.value := by
          intro u member
          rcases List.mem_append.mp member with old | last
          · exact below.1 u old
          · exact List.mem_singleton.mp last ▸ not_lt.mp exceeds
        rcases ih with ⟨_,rfl⟩ | ⟨raised,present,_,before⟩
        · exact .inl ⟨bounded,rfl⟩
        · have inside := (List.getElem?_eq_some_iff.mp present).1
          refine .inr ⟨raised,(List.getElem?_append_left inside).trans present,bounded,?_⟩
          rw [List.take_append_of_le_length (Nat.le_of_lt inside)]
          exact before

-- What is held after a list is its first maximum exactly when the list raised the record
-- or the record pointed there by itself.
theorem noteAll_first_iff (r : RunningMaximum α) (values : List α) :
    IsFirstMaximum values (r.noteAll values).index ↔ (∃ v ∈ values, r.value < v) ∨ IsFirstMaximum values r.index := by
  rcases noteAll_parts r values with ⟨bounded,same⟩ | ⟨raised,present,bounded,before⟩
  · rw [same]
    refine ⟨.inr,fun held => held.resolve_left ?_⟩
    rintro ⟨v,member,above⟩
    exact not_lt.mpr (bounded v member) above
  · exact ⟨fun _ => .inl ⟨_,List.mem_of_getElem? present,raised⟩,fun _ => ⟨_,present,bounded,before⟩⟩

end RunningMaximum
end HsrbDrivers

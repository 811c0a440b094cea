import Mathlib.Data.List.Flatten

namespace HsrbDrivers

inductive Apart : List (List α) → List α → Prop where
  | none : Apart [] rest
  | next : Apart blocks rest → Apart (block :: blocks) (gap ++ (block ++ rest))

namespace Apart

theorem front {block : List α} {blocks : List (List α)} {rest : List α} (apart : Apart blocks rest) :
    Apart (block :: blocks) (block ++ rest) := by
  have behind : Apart (block :: blocks) ([] ++ (block ++ rest)) := .next apart
  exact behind

theorem skip {blocks : List (List α)} {rest : List α} (apart : Apart blocks rest) (gap : List α) : Apart blocks (gap ++ rest) := by
  cases apart with
  | none => exact .none
  | next inner =>
      rw [← List.append_assoc]
      exact .next inner

end Apart
end HsrbDrivers

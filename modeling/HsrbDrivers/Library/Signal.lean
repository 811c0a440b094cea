import Mathlib.Tactic.Common

namespace HsrbDrivers.Signal

-- How long a level has been high without a break behind `n` samples.
def streak (level : Nat → Bool) : Nat → Nat
  | 0 => 0
  | n + 1 => if level n then streak level n + 1 else 0

theorem le_streak_iff {level : Nat → Bool} {k n : Nat} :
    k ≤ streak level n ↔ k ≤ n ∧ ∀ j < n, n ≤ j + k → level j := by
  induction n generalizing k with
  | zero => simp [streak]
  | succ n ih =>
      cases k with
      | zero =>
          simp only [Nat.zero_le,true_and,true_iff]
          intro j less more
          omega
      | succ k =>
          cases high : level n with
          | false =>
              simp only [streak,high,Bool.false_eq_true,if_false,Nat.le_zero,reduceCtorEq,false_iff]
              rintro ⟨_,every⟩
              exact absurd (every n (Nat.lt_succ_self n) (by omega)) (by simp [high])
          | true =>
              simp only [streak,high,if_true,Nat.add_le_add_iff_right,ih]
              refine and_congr_right fun _ => ⟨fun every j less more => ?_,fun every j less more => ?_⟩
              · rcases Nat.lt_succ_iff_lt_or_eq.mp less with before | rfl
                · exact every j before (by omega)
                · exact high
              · exact every j (Nat.lt_succ_of_lt less) (by omega)

theorem streak_until (k n : Nat) : streak (fun j => decide (j < k)) n = if n ≤ k then n else 0 := by
  induction n with
  | zero => simp [streak]
  | succ n ih =>
      by_cases before : n < k
      · simp [streak,ih,before,Nat.le_of_lt before,Nat.succ_le_of_lt before]
      · rw [if_neg fun within => before (Nat.lt_of_succ_le within)]
        simp [streak,before]

-- From `m` on nothing happened before `n`.
def Since (quiet : Nat → Prop) (m n : Nat) : Prop := m ≤ n ∧ ∀ j, m ≤ j → j < n → quiet j

theorem since_succ {quiet : Nat → Prop} {m n : Nat} : Since quiet m (n + 1) ↔ m = n + 1 ∨ quiet n ∧ Since quiet m n := by
  constructor
  · rintro ⟨le,quietly⟩
    rcases Nat.lt_or_eq_of_le le with before | same
    · exact .inr ⟨quietly n (Nat.le_of_lt_succ before) (Nat.lt_succ_self n),Nat.le_of_lt_succ before,
        fun j from_m less => quietly j from_m (Nat.lt_succ_of_lt less)⟩
    · exact .inl same
  · rintro (rfl | ⟨last,le,quietly⟩)
    · exact ⟨Nat.le_refl _,fun j from_m less => absurd less (Nat.not_lt_of_le from_m)⟩
    · refine ⟨Nat.le_succ_of_le le,fun j from_m less => ?_⟩
      rcases Nat.lt_succ_iff_lt_or_eq.mp less with before | rfl
      · exact quietly j from_m before
      · exact last

def latch (set clear : Nat → Bool) : Nat → Bool
  | 0 => false
  | n + 1 => !clear n && (latch set clear n || set n)

theorem latch_iff {set clear : Nat → Bool} {n : Nat} :
    (latch set clear n || set n) = true ↔ ∃ m, Since (clear · = false) m n ∧ set m = true := by
  induction n with
  | zero =>
      simp only [latch,Bool.false_or,Since,Nat.le_zero]
      constructor
      · exact fun now => ⟨0,⟨rfl,fun j _ less => absurd less (Nat.not_lt_zero j)⟩,now⟩
      · rintro ⟨m,⟨rfl,_⟩,now⟩
        exact now
  | succ n ih =>
      simp only [since_succ,or_and_right,exists_or,exists_eq_left,and_assoc,exists_and_left,← ih,latch,Bool.or_eq_true,
        Bool.and_eq_true,Bool.not_eq_true']
      exact or_comm

end HsrbDrivers.Signal

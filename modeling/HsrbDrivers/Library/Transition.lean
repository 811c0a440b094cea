import Mathlib.Logic.Basic

namespace HsrbDrivers

-- Why a call has no result: the events it was given end before it does, or it touches
-- memory that is not its own.
inductive Halt where
  | unfinished
  | fault
deriving DecidableEq,Repr

theorem except_bind_ok {x : Except ε α} {f : α → Except ε β} {r : β} :
    x >>= f = .ok r ↔ ∃ a, x = .ok a ∧ f a = .ok r := by
  cases x with
  | error stopped => exact ⟨nofun,fun ⟨_,returned,_⟩ => nomatch returned⟩
  | ok a => exact ⟨fun continued => ⟨a,rfl,continued⟩,fun ⟨_,returned,continued⟩ => Except.ok.inj returned ▸ continued⟩

theorem except_bind_error {x : Except ε α} {f : α → Except ε β} {e : ε} :
    x >>= f = .error e ↔ x = .error e ∨ ∃ a, x = .ok a ∧ f a = .error e := by
  cases x with
  | error stopped => exact ⟨fun stop => .inl (congrArg _ (Except.error.inj stop)),
      fun | .inl same => congrArg _ (Except.error.inj same) | .inr ⟨_,returned,_⟩ => nomatch returned⟩
  | ok a => exact ⟨fun continued => .inr ⟨a,rfl,continued⟩,
      fun | .inr ⟨_,returned,continued⟩ => Except.ok.inj returned ▸ continued⟩

theorem foldlM_preserves {step : σ → α → Except ε σ} {invariant : σ → Prop}
    (preserved : ∀ s a t, invariant s → step s a = .ok t → invariant t) {items : List α} {s t : σ} (holds : invariant s)
    (returned : items.foldlM step s = .ok t) : invariant t := by
  induction items generalizing s with
  | nil => exact Except.ok.inj returned ▸ holds
  | cons a items ih =>
      rw [List.foldlM_cons] at returned
      obtain ⟨next,first,rest⟩ := except_bind_ok.mp returned
      exact ih (preserved s a next holds first) rest

theorem foldlM_option_preserves {step : σ → α → Option σ} {invariant : σ → Prop}
    (preserved : ∀ s a t, invariant s → step s a = some t → invariant t) {items : List α} {s t : σ} (holds : invariant s)
    (returned : items.foldlM step s = some t) : invariant t := by
  induction items generalizing s with
  | nil => exact Option.some.inj returned ▸ holds
  | cons a items ih =>
      rw [List.foldlM_cons] at returned
      obtain ⟨next,first,rest⟩ := Option.bind_eq_some_iff.mp returned
      exact ih (preserved s a next holds first) rest

inductive Reachable (initial : σ → Prop) (step : σ → σ → Prop) : σ → Prop where
  | initial : initial s → Reachable initial step s
  | step : Reachable initial step s → step s t → Reachable initial step t

namespace Reachable

theorem invariant {initial : σ → Prop} {step : σ → σ → Prop} {holds : σ → Prop} (established : ∀ s, initial s → holds s)
    (preserved : ∀ s t, holds s → step s t → holds t) (reached : Reachable initial step s) : holds s := by
  induction reached with
  | initial first => exact established _ first
  | step _ taken ih => exact preserved _ _ ih taken

end Reachable
end HsrbDrivers

import HsrbDrivers.Library.Schedule

namespace HsrbDrivers.Session
variable {ε α β σ : Type}

def Local (m : Session ε α) : Prop :=
  ∀ before w, m ⟨before ++ w.trace,w.script⟩ = ((m w).1,⟨before ++ (m w).2.trace,(m w).2.script⟩)

namespace Local

theorem pure (a : α) : Local (Pure.pure a : Session ε α) := fun _ _ => rfl

theorem halt (reason : Halt) : Local (Session.halt reason : Session ε α) := fun _ _ => rfl

theorem emit (event : ε) : Local (Session.emit event) := by
  intro before w
  simp only [Session.emit,List.append_assoc]

theorem meet (select : ε → Option α) : Local (Session.meet select) := by
  rintro before ⟨trace,script⟩
  cases script with
  | nil => rfl
  | cons event script =>
      cases taken : select event with
      | none => simp only [Session.meet,taken]
      | some a => simp only [Session.meet,taken,List.append_assoc]

theorem bind {m : Session ε α} {f : α → Session ε β} (first : Local m) (second : ∀ a, Local (f a)) : Local (m >>= f) := by
  intro before w
  have same := first before w
  rcases ended : m w with ⟨result,next⟩
  rw [ended] at same
  cases result with
  | ok a =>
      rw [bind_ok same,bind_ok ended]
      exact second a before next
  | error reason => rw [bind_error same,bind_error ended]

theorem iterate {body : σ → Session ε (σ ⊕ α)} (turn : ∀ s, Local (body s)) (fuel : Nat) (s : σ) :
    Local (Session.iterate body fuel s) := by
  induction fuel generalizing s with
  | zero => exact halt .unfinished
  | succ fuel ih =>
      refine bind (turn s) fun result => ?_
      cases result with
      | inl next => exact ih next
      | inr a => exact pure a

theorem loop {body : σ → Session ε (σ ⊕ α)} (turn : ∀ s, Local (body s)) (s : σ) : Local (Session.loop body s) :=
  fun before w => iterate turn (w.script.length + 1) s before w

end Local

theorem Composed.isLocal {kind : ε → Prop} {m : Session ε α} (composed : Composed kind m) : Local m := by
  induction composed with
  | pure a => exact Local.pure a
  | emit _ => exact Local.emit _
  | meet _ => exact Local.meet _
  | bind _ _ first second => exact Local.bind first second
  | loop _ s turn => exact Local.loop turn s

theorem Confined.keeps {kind : ε → Prop} {m : Session ε α} (confined : Confined kind m) {during holds : List ε → Prop}
    (cut : ∀ trace, holds trace → during trace) (stable : ∀ trace event, kind event → holds trace → holds (trace ++ [event])) :
    Keeps during holds m fun _ => holds := by
  have kept : ∀ added : List ε, (∀ event ∈ added, kind event) → ∀ trace, holds trace → holds (trace ++ added) := by
    intro added
    induction added with
    | nil => exact fun _ trace before => by rwa [List.append_nil]
    | cons event added ih =>
        intro fine trace before
        rw [List.append_cons]
        exact ih (fun other member => fine other (List.mem_cons_of_mem _ member)) _ (stable trace event (fine event List.mem_cons_self) before)
  intro w before
  obtain ⟨_,added,extended,fine⟩ := confined w
  rw [extended]
  exact ⟨fun _ _ => kept added fine _ before,fun _ _ => cut _ (kept added fine _ before)⟩

-- What a program does behind other events it does on a trace of its own, so a rule about that
-- trace becomes one about the whole.
theorem Triple.resumes {allowed : List ε → ε → Prop} {m : Session ε α} {start : List ε → Prop} {post : α → List ε → Prop}
    (isLocal : Local m) (triple : Triple allowed start m post) {base pre during : List ε → Prop} {after : α → List ε → Prop}
    (split : ∀ trace, pre trace → ∃ before own, trace = before ++ own ∧ base before ∧ Orderly allowed own ∧ start own)
    (cut : ∀ before own, base before → Orderly allowed own → during (before ++ own))
    (reached : ∀ before own a, base before → Orderly allowed own → post a own → after a (before ++ own)) :
    Keeps during pre m after := by
  rintro ⟨trace,script⟩ holds
  obtain ⟨before,own,rfl,based,orderly,begun⟩ := split trace holds
  obtain ⟨kept,_,ended⟩ := triple ⟨own,script⟩ orderly begun
  rw [isLocal before ⟨own,script⟩]
  exact ⟨fun a same => reached before _ a based kept (ended a same),fun _ _ => cut before _ based kept⟩

end HsrbDrivers.Session

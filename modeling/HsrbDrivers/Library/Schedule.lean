import HsrbDrivers.Library.Session

namespace HsrbDrivers.Session
variable {ε α β σ : Type}

-- Begun with `pre`, the program ends with `post`, and leaves `during` where its schedule is cut short.
def Keeps (during pre : List ε → Prop) (m : Session ε α) (post : α → List ε → Prop) : Prop :=
  ∀ w, pre w.trace → (∀ a, (m w).1 = .ok a → post a (m w).2.trace) ∧ ∀ reason, (m w).1 = .error reason → during (m w).2.trace

namespace Keeps
variable {during pre : List ε → Prop} {post : α → List ε → Prop}

theorem pure {a : α} (holds : ∀ trace, pre trace → post a trace) : Keeps during pre (Pure.pure a : Session ε α) post := by
  intro w before
  refine ⟨fun b same => ?_,nofun⟩
  cases same
  exact holds w.trace before

theorem halt {reason : Halt} (cut : ∀ trace, pre trace → during trace) : Keeps during pre (Session.halt reason : Session ε α) post :=
  fun w before => ⟨nofun,fun _ _ => cut w.trace before⟩

theorem bind {m : Session ε α} {f : α → Session ε β} {middle : α → List ε → Prop} {post : β → List ε → Prop}
    (first : Keeps during pre m middle) (second : ∀ a, Keeps during (middle a) (f a) post) :
    Keeps during pre (m >>= f) post := by
  intro w before
  obtain ⟨reached,cut⟩ := first w before
  rcases ended : m w with ⟨result,next⟩
  rw [ended] at reached cut
  cases result with
  | ok a =>
      rw [bind_ok ended]
      exact second a next (reached a rfl)
  | error reason =>
      rw [bind_error ended]
      exact ⟨nofun,fun _ _ => cut reason rfl⟩

theorem emit {event : ε} {post : Unit → List ε → Prop} (fine : ∀ trace, pre trace → post () (trace ++ [event])) :
    Keeps during pre (Session.emit event) post :=
  fun w before => ⟨fun _ _ => fine w.trace before,nofun⟩

theorem meet {select : ε → Option α} (cut : ∀ trace, pre trace → during trace)
    (fine : ∀ trace event a, pre trace → select event = some a → post a (trace ++ [event])) :
    Keeps during pre (Session.meet select) post := by
  intro w before
  unfold Session.meet
  split
  · exact ⟨nofun,fun _ _ => cut w.trace before⟩
  · rename_i event script _
    split
    · exact ⟨nofun,fun _ _ => cut w.trace before⟩
    · rename_i a taken
      refine ⟨fun b same => ?_,nofun⟩
      cases same
      exact fine w.trace event a before taken

theorem weaken {m : Session ε α} {weaker : List ε → Prop} {stronger : α → List ε → Prop}
    (keeps : Keeps during weaker m stronger) (before : ∀ trace, pre trace → weaker trace)
    (after : ∀ a trace, stronger a trace → post a trace) : Keeps during pre m post := by
  intro w holds
  obtain ⟨reached,cut⟩ := keeps w (before w.trace holds)
  exact ⟨fun a same => after a _ (reached a same),cut⟩

theorem before {m : Session ε α} {weaker : List ε → Prop} (keeps : Keeps during weaker m post)
    (holds : ∀ trace, pre trace → weaker trace) : Keeps during pre m post := keeps.weaken holds fun _ _ => id

theorem of_and {fixed : Prop} {m : Session ε α} (keeps : fixed → Keeps during pre m post) :
    Keeps during (fun trace => pre trace ∧ fixed) m post :=
  fun w ⟨before,holds⟩ => keeps holds w before

theorem loop {body : σ → Session ε (σ ⊕ α)} {invariant : σ → List ε → Prop} (cut : ∀ s trace, invariant s trace → during trace)
    (turn : ∀ s, Keeps during (invariant s) (body s) (Sum.elim invariant post)) (s : σ) :
    Keeps during (invariant s) (Session.loop body s) post := by
  have turns : ∀ fuel s, Keeps during (invariant s) (iterate body fuel s) post := by
    intro fuel
    induction fuel with
    | zero => exact fun s => halt (cut s)
    | succ fuel ih =>
        intro s
        refine bind (turn s) fun result => ?_
        cases result with
        | inl next => exact ih next
        | inr a => exact pure fun _ holds => holds
  exact fun w => turns _ s w

end Keeps

def Takes (said : ε → Prop) (m : Session ε α) : Prop :=
  ∀ w, ∃ added met, (m w).2.trace = w.trace ++ added ∧ w.script = met ++ (m w).2.script ∧
    (∀ event ∈ met, event ∈ added) ∧ ∀ event ∈ added, event ∈ met ∨ said event

namespace Takes
variable {said : ε → Prop}

theorem nothing (m : Session ε α) (same : ∀ w, (m w).2 = w) : Takes said m :=
  fun w => ⟨[],[],by rw [same,List.append_nil],by rw [same,List.nil_append],nofun,nofun⟩

theorem pure (a : α) : Takes said (Pure.pure a : Session ε α) := nothing _ fun _ => rfl

theorem halt (reason : Halt) : Takes said (Session.halt reason : Session ε α) := nothing _ fun _ => rfl

theorem emit {event : ε} (fine : said event) : Takes said (Session.emit event) :=
  fun _ => ⟨[event],[],rfl,rfl,nofun,fun _ member => .inr (List.mem_singleton.mp member ▸ fine)⟩

theorem meet (select : ε → Option α) : Takes said (Session.meet select) := by
  intro w
  unfold Session.meet
  split
  · exact nothing (Session.halt .unfinished : Session ε α) (fun _ => rfl) w
  · rename_i event script isScript
    split
    · exact nothing (Session.halt .unfinished : Session ε α) (fun _ => rfl) w
    · exact ⟨[event],[event],rfl,isScript,fun _ member => member,fun _ member => .inl member⟩

theorem bind {m : Session ε α} {f : α → Session ε β} (first : Takes said m) (second : ∀ a, Takes said (f a)) :
    Takes said (m >>= f) := by
  intro w
  obtain ⟨added,met,extended,taken,shown,told⟩ := first w
  rcases ended : m w with ⟨result,next⟩
  rw [ended] at extended taken
  cases result with
  | error reason =>
      rw [bind_error ended]
      exact ⟨added,met,extended,taken,shown,told⟩
  | ok a =>
      rw [bind_ok ended]
      obtain ⟨more,later,continued,also,alsoShown,alsoTold⟩ := second a next
      change w.script = met ++ next.script at taken
      refine ⟨added ++ more,met ++ later,?_,?_,?_,?_⟩
      · rw [continued,extended,List.append_assoc]
      · rw [taken,also,List.append_assoc]
      · intro event member
        rcases List.mem_append.mp member with old | new
        · exact List.mem_append_left _ (shown event old)
        · exact List.mem_append_right _ (alsoShown event new)
      · intro event member
        rcases List.mem_append.mp member with old | new
        · exact (told event old).imp_left (List.mem_append_left _)
        · exact (alsoTold event new).imp_left (List.mem_append_right _)

theorem loop {body : σ → Session ε (σ ⊕ α)} (turn : ∀ s, Takes said (body s)) (s : σ) : Takes said (Session.loop body s) := by
  have turns : ∀ fuel s, Takes said (iterate body fuel s) := by
    intro fuel
    induction fuel with
    | zero => exact fun _ => halt _
    | succ fuel ih =>
        intro s
        refine bind (turn s) fun result => ?_
        cases result with
        | inl next => exact ih next
        | inr a => exact pure a
  exact fun w => turns _ s w

theorem whole {m : Session ε α} (takes : Takes said m) {schedule : List ε} (taken : (m ⟨[],schedule⟩).2.script = []) :
    (∀ event ∈ schedule, event ∈ (m ⟨[],schedule⟩).2.trace) ∧
      ∀ event ∈ (m ⟨[],schedule⟩).2.trace, event ∈ schedule ∨ said event := by
  obtain ⟨added,met,extended,split,shown,told⟩ := takes ⟨[],schedule⟩
  rw [taken,List.append_nil] at split
  change schedule = met at split
  subst split
  rw [extended]
  exact ⟨shown,told⟩

end Takes
end HsrbDrivers.Session

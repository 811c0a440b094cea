import HsrbDrivers.Library.Transition

namespace HsrbDrivers

structure World (ε : Type) where
  trace : List ε
  script : List ε

-- A program in a world that answers it event by event. The world is kept when it halts.
def Session (ε α : Type) : Type := World ε → Except Halt α × World ε

namespace Session
variable {ε α β σ : Type}

def andThen (m : Session ε α) (f : α → Session ε β) : Session ε β := fun w =>
  match m w with
  | (.ok a,w) => f a w
  | (.error halt,w) => (.error halt,w)

instance : Monad (Session ε) where
  pure a := fun w => (.ok a,w)
  bind := andThen

def halt (reason : Halt) : Session ε α := fun w => (.error reason,w)

def emit (event : ε) : Session ε Unit := fun w => (.ok (),⟨w.trace ++ [event],w.script⟩)

def meet (select : ε → Option α) : Session ε α := fun w =>
  match w.script with
  | [] => (.error .unfinished,w)
  | event :: script => match select event with
    | none => (.error .unfinished,w)
    | some a => (.ok a,⟨w.trace ++ [event],script⟩)

def iterate (body : σ → Session ε (σ ⊕ α)) : Nat → σ → Session ε α
  | 0,_ => halt .unfinished
  | fuel+1,s => body s >>= fun
    | .inl next => iterate body fuel next
    | .inr a => pure a

-- A loop every turn of which meets an event: it cannot take more turns than events come.
def loop (body : σ → Session ε (σ ⊕ α)) (s : σ) : Session ε α := fun w => iterate body (w.script.length + 1) s w

theorem bind_ok {m : Session ε α} {w next : World ε} {a : α} (ended : m w = (.ok a,next)) (f : α → Session ε β) :
    (m >>= f) w = f a next := by
  change andThen m f w = f a next
  unfold andThen
  rw [ended]

theorem bind_error {m : Session ε α} {w next : World ε} {reason : Halt} (ended : m w = (.error reason,next))
    (f : α → Session ε β) : (m >>= f) w = (.error reason,next) := by
  change andThen m f w = (.error reason,next)
  unfold andThen
  rw [ended]

def Orderly (allowed : List ε → ε → Prop) (trace : List ε) : Prop :=
  ∀ before event after, trace = before ++ event :: after → allowed before event

theorem orderly_nil (allowed : List ε → ε → Prop) : Orderly allowed [] := by
  intro before event after split
  cases before <;> cases split

theorem extended_split {trace before after : List ε} {last event : ε} (split : trace ++ [last] = before ++ event :: after) :
    (trace = before ∧ last = event ∧ after = []) ∨ ∃ rest, after = rest ++ [last] ∧ trace = before ++ event :: rest := by
  rcases List.eq_nil_or_concat after with rfl | ⟨rest,other,rfl⟩
  · obtain ⟨same,equal⟩ := List.append_inj' split rfl
    exact .inl ⟨same,List.singleton_inj.mp equal,rfl⟩
  · rw [List.concat_eq_append,← List.cons_append,← List.append_assoc] at split
    obtain ⟨same,equal⟩ := List.append_inj' split rfl
    exact .inr ⟨rest,by rw [List.concat_eq_append,List.singleton_inj.mp equal],same⟩

theorem orderly_append {allowed : List ε → ε → Prop} {trace : List ε} {event : ε} (orderly : Orderly allowed trace)
    (fine : allowed trace event) : Orderly allowed (trace ++ [event]) := by
  intro before other after split
  rcases extended_split split with ⟨rfl,rfl,_⟩ | ⟨rest,_,same⟩
  · exact fine
  · exact orderly before other rest same

-- Begun on an orderly trace with `pre`, the program keeps it orderly to wherever it gets,
-- does nothing undefined on the way, and ends with `post` if it ends.
def Triple (allowed : List ε → ε → Prop) (pre : List ε → Prop) (m : Session ε α) (post : α → List ε → Prop) : Prop :=
  ∀ w, Orderly allowed w.trace → pre w.trace →
    Orderly allowed (m w).2.trace ∧ (m w).1 ≠ .error .fault ∧ ∀ a, (m w).1 = .ok a → post a (m w).2.trace

namespace Triple
variable {allowed : List ε → ε → Prop} {pre : List ε → Prop} {post : α → List ε → Prop}

theorem pure {a : α} (holds : ∀ trace, pre trace → post a trace) : Triple allowed pre (Pure.pure a : Session ε α) post := by
  intro w orderly before
  refine ⟨orderly,fun same => (by cases same),fun b same => ?_⟩
  cases same
  exact holds w.trace before

theorem unfinished : Triple allowed pre (Session.halt .unfinished : Session ε α) post :=
  fun _ orderly _ => ⟨orderly,fun same => (by cases same),fun _ same => by cases same⟩

theorem bind {m : Session ε α} {f : α → Session ε β} {middle : α → List ε → Prop} {post : β → List ε → Prop}
    (first : Triple allowed pre m middle) (second : ∀ a, Triple allowed (middle a) (f a) post) :
    Triple allowed pre (m >>= f) post := by
  intro w orderly before
  obtain ⟨kept,defined,reached⟩ := first w orderly before
  rcases ended : m w with ⟨result,next⟩
  rw [ended] at kept defined reached
  cases result with
  | ok a =>
      rw [bind_ok ended]
      exact second a next kept (reached a rfl)
  | error reason =>
      rw [bind_error ended]
      exact ⟨kept,fun same => defined (by cases same; rfl),fun _ same => by cases same⟩

theorem emit {event : ε} {post : Unit → List ε → Prop}
    (fine : ∀ trace, pre trace → allowed trace event ∧ post () (trace ++ [event])) :
    Triple allowed pre (Session.emit event) post := by
  intro w orderly before
  obtain ⟨permitted,holds⟩ := fine w.trace before
  exact ⟨orderly_append orderly permitted,fun same => (by cases same),fun _ _ => holds⟩

theorem meet {select : ε → Option α}
    (fine : ∀ trace event a, pre trace → select event = some a → allowed trace event ∧ post a (trace ++ [event])) :
    Triple allowed pre (Session.meet select) post := by
  intro w orderly before
  unfold Session.meet
  split
  · exact unfinished w orderly before
  · rename_i event script _
    split
    · exact unfinished w orderly before
    · rename_i a taken
      obtain ⟨permitted,holds⟩ := fine w.trace event a before taken
      refine ⟨orderly_append orderly permitted,fun same => (by cases same),fun b same => ?_⟩
      cases same
      exact holds

theorem weaken {m : Session ε α} {weaker : List ε → Prop} {stronger : α → List ε → Prop}
    (triple : Triple allowed weaker m stronger) (before : ∀ trace, pre trace → weaker trace)
    (after : ∀ a trace, stronger a trace → post a trace) : Triple allowed pre m post := by
  intro w orderly holds
  obtain ⟨kept,defined,reached⟩ := triple w orderly (before w.trace holds)
  exact ⟨kept,defined,fun a same => after a _ (reached a same)⟩

theorem of_exists {ι : Sort*} {m : Session ε α} {pre : ι → List ε → Prop} (each : ∀ i, Triple allowed (pre i) m post) :
    Triple allowed (fun trace => ∃ i, pre i trace) m post :=
  fun w orderly ⟨i,holds⟩ => each i w orderly holds

theorem loop {body : σ → Session ε (σ ⊕ α)} {invariant : σ → List ε → Prop}
    (turn : ∀ s, Triple allowed (invariant s) (body s) (Sum.elim invariant post)) (s : σ) :
    Triple allowed (invariant s) (Session.loop body s) post := by
  have turns : ∀ fuel s, Triple allowed (invariant s) (iterate body fuel s) post := by
    intro fuel
    induction fuel with
    | zero => exact fun _ => unfinished
    | succ fuel ih =>
        intro s
        refine bind (turn s) fun result => ?_
        cases result with
        | inl next => exact ih next
        | inr a => exact pure fun _ holds => holds
  exact fun w => turns _ s w

end Triple

def Confined (kind : ε → Prop) (m : Session ε α) : Prop :=
  ∀ w, (m w).1 ≠ .error .fault ∧ ∃ added, (m w).2.trace = w.trace ++ added ∧ ∀ event ∈ added, kind event

namespace Confined
variable {kind : ε → Prop}

theorem pure (a : α) : Confined kind (Pure.pure a : Session ε α) :=
  fun w => ⟨fun same => (by cases same),[],(List.append_nil w.trace).symm,fun _ member => by cases member⟩

theorem unfinished : Confined kind (Session.halt .unfinished : Session ε α) :=
  fun w => ⟨fun same => (by cases same),[],(List.append_nil w.trace).symm,fun _ member => by cases member⟩

theorem bind {m : Session ε α} {f : α → Session ε β} (first : Confined kind m) (second : ∀ a, Confined kind (f a)) :
    Confined kind (m >>= f) := by
  intro w
  obtain ⟨defined,added,extended,fine⟩ := first w
  rcases ended : m w with ⟨result,next⟩
  rw [ended] at defined extended
  cases result with
  | error reason =>
      rw [bind_error ended]
      exact ⟨fun same => defined (by cases same; rfl),added,extended,fine⟩
  | ok a =>
      rw [bind_ok ended]
      obtain ⟨alsoDefined,more,continued,alsoFine⟩ := second a next
      refine ⟨alsoDefined,added ++ more,?_,?_⟩
      · rw [← List.append_assoc,← extended]
        exact continued
      · intro event member
        rcases List.mem_append.mp member with old | new
        · exact fine event old
        · exact alsoFine event new

theorem meet {select : ε → Option α} (fine : ∀ event a, select event = some a → kind event) :
    Confined kind (Session.meet select) := by
  intro w
  unfold Session.meet
  split
  · exact unfinished w
  · split
    · exact unfinished w
    · rename_i event script _ _ a taken
      refine ⟨fun same => (by cases same),[event],rfl,fun other member => ?_⟩
      rw [List.mem_singleton.mp member]
      exact fine event a taken

theorem emit {event : ε} (fine : kind event) : Confined kind (Session.emit event) :=
  fun _ => ⟨fun same => (by cases same),[event],rfl,fun _ member => List.mem_singleton.mp member ▸ fine⟩

theorem weaken {m : Session ε α} {stronger : ε → Prop} (confined : Confined stronger m) (fine : ∀ event, stronger event → kind event) :
    Confined kind m := by
  intro w
  obtain ⟨defined,added,extended,all⟩ := confined w
  exact ⟨defined,added,extended,fun event member => fine event (all event member)⟩

theorem loop {body : σ → Session ε (σ ⊕ α)} (turn : ∀ s, Confined kind (body s)) (s : σ) :
    Confined kind (Session.loop body s) := by
  have turns : ∀ fuel s, Confined kind (iterate body fuel s) := by
    intro fuel
    induction fuel with
    | zero => exact fun _ => unfinished
    | succ fuel ih =>
        intro s
        refine bind (turn s) fun result => ?_
        cases result with
        | inl next => exact ih next
        | inr a => exact pure a
  exact fun w => turns _ s w

theorem triple {allowed : List ε → ε → Prop} {m : Session ε α} (confined : Confined kind m)
    (harmless : ∀ trace event, kind event → allowed trace event) {holds : List ε → Prop}
    (stable : ∀ trace event, kind event → holds trace → holds (trace ++ [event])) :
    Triple allowed holds m fun _ => holds := by
  intro w orderly before
  obtain ⟨defined,added,extended,fine⟩ := confined w
  have kept : ∀ added : List ε, (∀ event ∈ added, kind event) → ∀ trace, Orderly allowed trace → holds trace →
      Orderly allowed (trace ++ added) ∧ holds (trace ++ added) := by
    intro added
    induction added with
    | nil => exact fun _ trace orderly before => by rw [List.append_nil]; exact ⟨orderly,before⟩
    | cons event added ih =>
        intro fine trace orderly before
        have first := fine event List.mem_cons_self
        rw [List.append_cons]
        exact ih (fun other member => fine other (List.mem_cons_of_mem _ member)) (trace ++ [event])
          (orderly_append orderly (harmless trace event first)) (stable trace event first before)
  obtain ⟨stillOrderly,after⟩ := kept added fine w.trace orderly before
  rw [extended]
  exact ⟨stillOrderly,defined,fun _ _ => after⟩

end Confined

-- A program put together of steps whose events are all of a kind. What holds of each step and is
-- kept by sequence and loop holds of it, so that its cases are gone through once.
inductive Composed (kind : ε → Prop) : {α : Type} → Session ε α → Prop where
  | pure {α : Type} (a : α) : Composed kind (Pure.pure a)
  | emit {event : ε} (fine : kind event) : Composed kind (Session.emit event)
  | meet {α : Type} {select : ε → Option α} (fine : ∀ event a, select event = some a → kind event) :
      Composed kind (Session.meet select)
  | bind {α β : Type} {m : Session ε α} {f : α → Session ε β} (first : Composed kind m) (second : ∀ a, Composed kind (f a)) :
      Composed kind (m >>= f)
  | loop {σ α : Type} {body : σ → Session ε (σ ⊕ α)} (turn : ∀ s, Composed kind (body s)) (s : σ) :
      Composed kind (Session.loop body s)

namespace Composed
variable {kind : ε → Prop} {m : Session ε α}

theorem weaken {stronger : ε → Prop} (composed : Composed stronger m) (fine : ∀ event, stronger event → kind event) :
    Composed kind m := by
  induction composed with
  | pure a => exact pure a
  | emit strong => exact emit (fine _ strong)
  | meet strong => exact meet fun event a taken => fine event (strong event a taken)
  | bind _ _ first second => exact bind first second
  | loop _ s turn => exact loop turn s

theorem confined (composed : Composed kind m) : Confined kind m := by
  induction composed with
  | pure a => exact Confined.pure a
  | emit fine => exact Confined.emit fine
  | meet fine => exact Confined.meet fine
  | bind _ _ first second => exact Confined.bind first second
  | loop _ s turn => exact Confined.loop turn s

end Composed

def StopsAt (fatal : ε → Prop) (told : α → Prop) (m : Session ε α) : Prop :=
  ∀ w, ∃ added, (m w).2.trace = w.trace ++ added ∧ ((∀ event ∈ added, ¬fatal event) ∨
    ∃ front last a, added = front ++ [last] ∧ (∀ event ∈ front, ¬fatal event) ∧ fatal last ∧ (m w).1 = .ok a ∧ told a)

namespace StopsAt
variable {fatal : ε → Prop} {told : α → Prop}

theorem confined {m : Session ε α} (harmless : Confined (fun event => ¬fatal event) m) : StopsAt fatal told m := by
  intro w
  obtain ⟨_,added,extended,fine⟩ := harmless w
  exact ⟨added,extended,.inl fine⟩

theorem meet {select : ε → Option α} (tells : ∀ event a, select event = some a → fatal event → told a) :
    StopsAt fatal told (Session.meet select) := by
  intro w
  unfold Session.meet
  split
  · exact ⟨[],(List.append_nil w.trace).symm,.inl fun _ member => by cases member⟩
  · rename_i event script _
    split
    · exact ⟨[],(List.append_nil w.trace).symm,.inl fun _ member => by cases member⟩
    · rename_i a taken
      refine ⟨[event],rfl,?_⟩
      by_cases last : fatal event
      · exact .inr ⟨[],event,a,rfl,(fun _ member => by cases member),last,rfl,tells event a taken last⟩
      · exact .inl fun other member => List.mem_singleton.mp member ▸ last

theorem bind {m : Session ε α} {f : α → Session ε β} {after : β → Prop} (first : StopsAt fatal told m)
    (second : ∀ a, StopsAt fatal after (f a)) (passed : ∀ a, told a → ∃ b, f a = pure b ∧ after b) :
    StopsAt fatal after (m >>= f) := by
  intro w
  obtain ⟨added,extended,fine | ⟨front,last,a,split,fine,ends,result,tells⟩⟩ := first w
  · rcases ended : m w with ⟨result,next⟩
    rw [ended] at extended
    cases result with
    | error reason =>
        rw [bind_error ended]
        exact ⟨added,extended,.inl fine⟩
    | ok a =>
        rw [bind_ok ended]
        obtain ⟨more,continued,also⟩ := second a next
        refine ⟨added ++ more,?_,?_⟩
        · rw [← List.append_assoc,← extended]
          exact continued
        rcases also with also | ⟨front,last,b,split,also,rest⟩
        · exact .inl fun event member => (List.mem_append.mp member).elim (fine event) (also event)
        · refine .inr ⟨added ++ front,last,b,?_,?_,rest⟩
          · rw [split,List.append_assoc]
          · exact fun event member => (List.mem_append.mp member).elim (fine event) (also event)
  · rcases ended : m w with ⟨same,next⟩
    rw [ended] at extended result
    change same = _ at result
    subst result
    obtain ⟨b,closed,tellsAlso⟩ := passed a tells
    rw [bind_ok ended,closed]
    exact ⟨added,extended,.inr ⟨front,last,b,split,fine,ends,rfl,tellsAlso⟩⟩

theorem after {m : Session ε α} {f : α → Session ε β} {told : β → Prop} (harmless : Confined (fun event => ¬fatal event) m)
    (second : ∀ a, StopsAt fatal told (f a)) : StopsAt fatal told (m >>= f) := by
  have first : StopsAt fatal (fun _ => False) m := confined harmless
  exact bind first second fun _ => False.elim

theorem loop {body : σ → Session ε (σ ⊕ α)} (turn : ∀ s, StopsAt fatal (Sum.elim (fun _ => False) told) (body s)) (s : σ) :
    StopsAt fatal told (Session.loop body s) := by
  have turns : ∀ fuel s, StopsAt fatal told (iterate body fuel s) := by
    intro fuel
    induction fuel with
    | zero => exact fun _ => confined Confined.unfinished
    | succ fuel ih =>
        intro s
        refine bind (turn s) (fun result => ?_) fun result tells => ?_
        · cases result with
          | inl next => exact ih next
          | inr a => exact confined (Confined.pure a)
        · cases result with
          | inl next => exact tells.elim
          | inr a => exact ⟨a,rfl,tells⟩
  exact fun w => turns _ s w

theorem last {m : Session ε α} (stops : StopsAt fatal told m) {w : World ε} {before after : List ε} {event : ε}
    (split : (m w).2.trace = w.trace ++ before ++ event :: after) (ends : fatal event) :
    after = [] ∧ ∃ a, (m w).1 = .ok a ∧ told a := by
  obtain ⟨added,extended,stop⟩ := stops w
  rw [split,List.append_assoc] at extended
  obtain rfl := List.append_cancel_left extended
  rcases stop with fine | ⟨front,final,a,same,fine,_,result⟩
  · exact absurd ends (fine event (List.mem_append_right _ List.mem_cons_self))
  · rcases extended_split same.symm with ⟨_,_,nothing⟩ | ⟨rest,_,inFront⟩
    · exact ⟨nothing,a,result⟩
    · exact absurd ends (fine event (inFront ▸ List.mem_append_right _ List.mem_cons_self))

end StopsAt
end Session
end HsrbDrivers

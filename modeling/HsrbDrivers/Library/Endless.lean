import HsrbDrivers.Library.Session

namespace HsrbDrivers.Session
variable {ε α β σ : Type}

def between (answers : Nat → ε) (p n : Nat) : List ε := (List.range' p (n-p)).map answers

def turns (body : σ → Session ε (σ ⊕ α)) : Nat → σ → World ε → Nat
  | 0,_,_ => 0
  | fuel+1,s,w => match body s w with
    | (.ok (.inl next),w) => turns body fuel next w + 1
    | _ => 1

def Yields (m : Session ε α) (kind : α → Prop) : Prop := ∀ w a next, m w = (.ok a,next) → kind a

def Steady (m : Session ε α) : Prop :=
  ∀ w result next, m w = (result,next) → result ≠ .error .unfinished →
    (∃ used, w.script = used ++ next.script) ∧
    ∀ more, m ⟨w.trace,w.script ++ more⟩ = (result,⟨next.trace,next.script ++ more⟩)

def Consuming (body : σ → Session ε (σ ⊕ α)) : Prop :=
  ∀ s w s' next, body s w = (.ok (.inl s'),next) → next.script.length < w.script.length

-- From some place of the sequence on it does not matter how much of it there is: the program
-- is over, or has come to one of its calls, which never is.
def Ends (answers : Nat → ε) (m : Session ε α) (trace : List ε) (p : Nat) : Prop :=
  ∃ result next q place, result ≠ .error .unfinished ∧
    ∀ n ≥ place, m ⟨trace,between answers p n⟩ = (result,⟨next,between answers q n⟩)

def Blocks (calls : {γ : Type} → Session ε γ → Prop) (answers : Nat → ε) (m : Session ε α) (trace : List ε) (p : Nat) : Prop :=
  ∃ (γ : Type) (call : Session ε γ) (rest : γ → Session ε α) (next : List ε) (q place : Nat), calls call ∧
    (∀ n ≥ place, m ⟨trace,between answers p n⟩ = (call >>= rest) ⟨next,between answers q n⟩) ∧
    ∀ n, (call ⟨next,between answers q n⟩).1 = .error .unfinished

def Settles (calls : {γ : Type} → Session ε γ → Prop) (answers : Nat → ε) (m : Session ε α) : Prop :=
  ∀ trace p, Ends answers m trace p ∨ Blocks calls answers m trace p

theorem bind_assoc (m : Session ε α) (f : α → Session ε β) {γ : Type} (g : β → Session ε γ) :
    ((m >>= f) >>= g) = m >>= fun a => f a >>= g := by
  funext w
  rcases ended : m w with ⟨result,next⟩
  cases result with
  | ok a =>
      rw [bind_ok ended]
      rcases again : f a next with ⟨other,last⟩
      cases other with
      | ok b => rw [bind_ok ((bind_ok ended f).trans again),bind_ok again]
      | error reason => rw [bind_error ((bind_ok ended f).trans again),bind_error again]
  | error reason => rw [bind_error ((bind_error ended f)),bind_error ended]

theorem bind_ok_inv {m : Session ε α} {f : α → Session ε β} {w next : World ε} {b : β} (ended : (m >>= f) w = (.ok b,next)) :
    ∃ a middle, m w = (.ok a,middle) ∧ f a middle = (.ok b,next) := by
  rcases first : m w with ⟨result,middle⟩
  cases result with
  | ok a => exact ⟨a,middle,rfl,(bind_ok first f).symm.trans ended⟩
  | error reason =>
      rw [bind_error first] at ended
      cases ended

namespace Yields

theorem pure {kind : α → Prop} {a : α} (fine : kind a) : Yields (Pure.pure a : Session ε α) kind := by
  intro w b next ended
  cases ended
  exact fine

theorem halt {kind : α → Prop} (reason : Halt) : Yields (Session.halt reason : Session ε α) kind :=
  fun _ _ _ ended => by cases ended

theorem any (m : Session ε α) : Yields m fun _ => True := fun _ _ _ _ => trivial

theorem bind {m : Session ε α} {f : α → Session ε β} {kind : α → Prop} {last : β → Prop} (first : Yields m kind)
    (second : ∀ a, kind a → Yields (f a) last) : Yields (m >>= f) last := by
  intro w b next ended
  obtain ⟨a,middle,begun,finished⟩ := bind_ok_inv ended
  exact second a (first w a middle begun) middle b next finished

end Yields

namespace Steady

theorem pure (a : α) : Steady (Pure.pure a : Session ε α) := by
  intro w result next ended _
  cases ended
  exact ⟨⟨[],rfl⟩,fun _ => rfl⟩

theorem emit (event : ε) : Steady (Session.emit event) := by
  intro w result next ended _
  cases ended
  exact ⟨⟨[],rfl⟩,fun _ => rfl⟩

theorem halt (reason : Halt) : Steady (Session.halt reason : Session ε α) := by
  intro w result next ended _
  cases ended
  exact ⟨⟨[],rfl⟩,fun _ => rfl⟩

theorem meet (select : ε → Option α) : Steady (Session.meet select) := by
  rintro ⟨trace,script⟩ result next ended finished
  cases script with
  | nil =>
      cases ended
      exact absurd rfl finished
  | cons event script =>
      cases chosen : select event with
      | none =>
          simp only [Session.meet,chosen] at ended
          cases ended
          exact absurd rfl finished
      | some a =>
          simp only [Session.meet,chosen] at ended
          cases ended
          exact ⟨⟨[event],rfl⟩,fun more => by simp [Session.meet,chosen]⟩

theorem bind {m : Session ε α} {f : α → Session ε β} (first : Steady m) (second : ∀ a, Steady (f a)) : Steady (m >>= f) := by
  intro w result next ended finished
  rcases begun : m w with ⟨answer,middle⟩
  cases answer with
  | error reason =>
      rw [bind_error begun] at ended
      cases ended
      have going : (.error reason : Except Halt α) ≠ .error .unfinished := fun same => finished (by cases same; rfl)
      obtain ⟨used,same⟩ := first w _ _ begun going
      exact ⟨used,fun more => bind_error (same more) f⟩
  | ok a =>
      rw [bind_ok begun] at ended
      obtain ⟨⟨used,split⟩,same⟩ := first w _ _ begun (fun same => by cases same)
      obtain ⟨⟨also,behind⟩,again⟩ := second a middle _ _ ended finished
      refine ⟨⟨used ++ also,by rw [split,behind,List.append_assoc]⟩,fun more => ?_⟩
      exact (bind_ok (same more) f).trans (again more)

theorem iterate {body : σ → Session ε (σ ⊕ α)} (turn : ∀ s, Steady (body s)) (fuel : Nat) (s : σ) :
    Steady (Session.iterate body fuel s) := by
  induction fuel generalizing s with
  | zero => exact halt .unfinished
  | succ fuel ih =>
      refine bind (turn s) fun result => ?_
      cases result with
      | inl next => exact ih next
      | inr a => exact pure a

end Steady

theorem iterate_more {body : σ → Session ε (σ ⊕ α)} {fuel : Nat} {s : σ} {w next : World ε} {result : Except Halt α}
    (ended : iterate body fuel s w = (result,next)) (finished : result ≠ .error .unfinished) (extra : Nat) :
    iterate body (fuel + extra) s w = (result,next) := by
  induction fuel generalizing s w with
  | zero =>
      cases ended
      exact absurd rfl finished
  | succ fuel ih =>
      rw [Nat.add_right_comm]
      unfold iterate at ended ⊢
      rcases begun : body s w with ⟨answer,middle⟩
      cases answer with
      | error reason =>
          rw [bind_error begun] at ended ⊢
          exact ended
      | ok a =>
          rw [bind_ok begun] at ended ⊢
          cases a with
          | inl next => exact ih ended
          | inr a => exact ended

theorem Steady.loop {body : σ → Session ε (σ ⊕ α)} (turn : ∀ s, Steady (body s)) (s : σ) : Steady (Session.loop body s) := by
  intro w result next ended finished
  obtain ⟨split,same⟩ := iterate turn (w.script.length + 1) s w result next ended finished
  refine ⟨split,fun more => ?_⟩
  have longer : (w.script ++ more).length + 1 = w.script.length + 1 + more.length := by
    rw [List.length_append]
    omega
  unfold Session.loop
  rw [longer]
  exact iterate_more (same more) finished more.length

theorem Composed.steady {kind : ε → Prop} {m : Session ε α} (composed : Composed kind m) : Steady m := by
  induction composed with
  | pure a => exact Steady.pure a
  | emit _ => exact Steady.emit _
  | meet _ => exact Steady.meet _
  | bind _ _ first second => exact Steady.bind first second
  | loop _ s turn => exact Steady.loop turn s

theorem Steady.shrinks {m : Session ε α} (steady : Steady m) {w next : World ε} {a : α} (ended : m w = (.ok a,next)) :
    next.script.length ≤ w.script.length := by
  obtain ⟨⟨used,split⟩,_⟩ := steady w _ _ ended (fun same => by cases same)
  rw [split,List.length_append]
  exact Nat.le_add_left _ _

theorem consuming_meet {select : ε → Option β} {f : σ → β → Session ε (σ ⊕ α)} (rest : ∀ s b, Steady (f s b)) :
    Consuming fun s => meet select >>= f s := by
  rintro s ⟨trace,script⟩ s' next ended
  obtain ⟨b,middle,met,finished⟩ := bind_ok_inv ended
  cases script with
  | nil => cases met
  | cons event script =>
      cases chosen : select event with
      | none =>
          simp only [meet,chosen] at met
          cases met
      | some a =>
          simp only [meet,chosen] at met
          cases met
          exact Nat.lt_succ_of_le ((rest s b).shrinks finished)

section
variable {body : σ → Session ε (σ ⊕ α)}

theorem iterate_enough (consuming : Consuming body) {one two : Nat} {s : σ} {w : World ε} (enough : w.script.length < one)
    (also : w.script.length < two) : iterate body one s w = iterate body two s w := by
  induction one generalizing two s w with
  | zero => exact absurd enough (Nat.not_lt_zero _)
  | succ one ih =>
      cases two with
      | zero => exact absurd also (Nat.not_lt_zero _)
      | succ two =>
          unfold iterate
          rcases begun : body s w with ⟨answer,middle⟩
          cases answer with
          | error reason => rw [bind_error begun,bind_error begun]
          | ok a =>
              rw [bind_ok begun,bind_ok begun]
              cases a with
              | inl next =>
                  have fewer := consuming s w next middle begun
                  exact ih (Nat.lt_of_lt_of_le fewer (Nat.le_of_lt_succ enough)) (Nat.lt_of_lt_of_le fewer (Nat.le_of_lt_succ also))
              | inr a => rfl

theorem loop_unrolled (consuming : Consuming body) (s : σ) : loop body s = body s >>= fun
    | .inl next => loop body next
    | .inr a => pure a := by
  funext w
  change (body s >>= _) w = _
  rcases begun : body s w with ⟨answer,middle⟩
  cases answer with
  | error reason => rw [bind_error begun,bind_error begun]
  | ok a =>
      rw [bind_ok begun,bind_ok begun]
      cases a with
      | inl next => exact iterate_enough consuming (consuming s w next middle begun) (Nat.lt_succ_self _)
      | inr a => rfl

theorem turns_le (invariant : σ → Prop) (measure : σ → Nat) (positive : ∀ s, invariant s → 0 < measure s)
    (turn : ∀ s, invariant s → Yields (body s) (Sum.elim (fun next => invariant next ∧ measure next < measure s) fun _ => True))
    (fuel : Nat) {s : σ} (start : invariant s) (w : World ε) : turns body fuel s w ≤ measure s := by
  induction fuel generalizing s w with
  | zero => exact Nat.zero_le _
  | succ fuel ih =>
      unfold turns
      split
      · rename_i next middle begun
        obtain ⟨kept,less⟩ := turn s start w _ _ begun
        exact Nat.lt_of_le_of_lt (ih kept middle) less
      · exact positive s start

end

theorem between_append {answers : Nat → ε} {p n m : Nat} (first : p ≤ n) (second : n ≤ m) :
    between answers p m = between answers p n ++ between answers n m := by
  have sum : m - p = (n - p) + (m - n) := by omega
  have place : n = p + (n - p) := by omega
  unfold between
  rw [sum,← List.range'_append_1,List.map_append,← place]

theorem between_behind {answers : Nat → ε} {p n : Nat} {used rest : List ε} (inside : p ≤ n)
    (split : between answers p n = used ++ rest) : p + used.length ≤ n ∧ rest = between answers (p + used.length) n := by
  have size := congrArg List.length split
  simp only [between,List.length_map,List.length_range',List.length_append] at size
  have within : p + used.length ≤ n := by omega
  have whole := split.symm.trans (between_append (Nat.le_add_right p used.length) within)
  have same : used.length = (between answers p (p + used.length)).length := by simp [between]
  exact ⟨within,(List.append_inj whole same).2⟩

theorem bind_congr {m : Session ε α} {other : Session ε α} {w v : World ε} (same : m w = other v) (f : α → Session ε β) :
    (m >>= f) w = (other >>= f) v := by
  change andThen m f w = andThen other f v
  unfold andThen
  rw [same]

namespace Settles
variable {calls : {γ : Type} → Session ε γ → Prop} {answers : Nat → ε}

theorem pure (a : α) : Settles calls answers (Pure.pure a : Session ε α) :=
  fun trace p => .inl ⟨.ok a,trace,p,0,fun same => (by cases same),fun _ _ => rfl⟩

theorem fault : Settles calls answers (halt .fault : Session ε α) :=
  fun trace p => .inl ⟨.error .fault,trace,p,0,fun same => (by cases same),fun _ _ => rfl⟩

theorem call {m : Session ε α} (known : calls m) (steady : Steady m) : Settles calls answers m := by
  intro trace p
  by_cases never : ∀ n, (m ⟨trace,between answers p n⟩).1 = .error .unfinished
  · have whole : m = m >>= Pure.pure := by
      funext w
      rcases ended : m w with ⟨result,next⟩
      cases result with
      | ok a => rw [bind_ok ended]; rfl
      | error reason => rw [bind_error ended]
    exact .inr ⟨α,m,Pure.pure,trace,p,0,known,fun n _ => congrFun whole _,never⟩
  · obtain ⟨n,finished⟩ := not_forall.mp never
    rcases ended : m ⟨trace,between answers p n⟩ with ⟨result,next⟩
    rw [ended] at finished
    obtain ⟨⟨used,split⟩,same⟩ := steady _ _ _ ended finished
    by_cases inside : p ≤ n
    · obtain ⟨within,behind⟩ := between_behind inside split
      refine .inl ⟨result,next.trace,p + used.length,n,finished,fun more enough => ?_⟩
      rw [between_append inside enough,between_append within enough,same,behind]
    · have none : between answers p n = [] := by simp [between,Nat.sub_eq_zero_of_le (Nat.le_of_not_le inside)]
      rw [none] at split same
      have empty : next.script = [] := (List.append_eq_nil_iff.mp split.symm).2
      refine .inl ⟨result,next.trace,p,0,finished,fun more _ => ?_⟩
      have answer := same (between answers p more)
      rwa [List.nil_append,empty,List.nil_append] at answer

theorem bind {m : Session ε α} {f : α → Session ε β} {kind : α → Prop} (first : Settles calls answers m) (yields : Yields m kind)
    (second : ∀ a, kind a → Settles calls answers (f a)) : Settles calls answers (m >>= f) := by
  intro trace p
  rcases first trace p with ⟨result,next,q,place,finished,same⟩ | ⟨γ,called,rest,next,q,place,known,same,never⟩
  · cases result with
    | error reason =>
        refine .inl ⟨.error reason,next,q,place,fun other => finished (by cases other; rfl),fun n enough => ?_⟩
        exact bind_error (same n enough) f
    | ok a =>
        have fine := yields _ _ _ (same place (Nat.le_refl place))
        have reached : ∀ n ≥ place, (m >>= f) ⟨trace,between answers p n⟩ = f a ⟨next,between answers q n⟩ :=
          fun n enough => bind_ok (same n enough) f
        rcases second a fine next q with ⟨result,last,r,later,closed,ends⟩ | ⟨γ,called,rest,last,r,later,known,comes,never⟩
        · refine .inl ⟨result,last,r,max place later,closed,fun n enough => ?_⟩
          rw [reached n (Nat.le_trans (Nat.le_max_left _ _) enough)]
          exact ends n (Nat.le_trans (Nat.le_max_right _ _) enough)
        · refine .inr ⟨γ,called,rest,last,r,max place later,known,fun n enough => ?_,never⟩
          rw [reached n (Nat.le_trans (Nat.le_max_left _ _) enough)]
          exact comes n (Nat.le_trans (Nat.le_max_right _ _) enough)
  · refine .inr ⟨γ,called,fun x => rest x >>= f,next,q,place,known,fun n enough => ?_,never⟩
    rw [← bind_assoc]
    exact bind_congr (same n enough) f

theorem loop {body : σ → Session ε (σ ⊕ α)} (consuming : Consuming body) {invariant : σ → Prop} {measure : σ → Nat}
    (turn : ∀ s, invariant s → Yields (body s) (Sum.elim (fun next => invariant next ∧ measure next < measure s) fun _ => True))
    (settles : ∀ s, invariant s → Settles calls answers (body s)) {s : σ} (start : invariant s) :
    Settles calls answers (Session.loop body s) := by
  induction bound : measure s using Nat.strongRecOn generalizing s with
  | ind n ih =>
      subst bound
      rw [loop_unrolled consuming]
      refine bind (settles s start) (turn s start) fun result fine => ?_
      cases result with
      | inl next => exact ih _ fine.2 fine.1 rfl
      | inr a => exact pure a

end Settles
end HsrbDrivers.Session

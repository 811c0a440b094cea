import Mathlib.Data.List.Basic

namespace HsrbDrivers.Reassembly

-- What one call of an incremental decoder decides about the symbols it is shown.
-- `emit` settles everything before `rest`; `wait` keeps `rest` for a later call.
inductive Verdict (σ ρ α : Type*) where
  | emit (report : ρ) (state : σ) (rest : List α)
  | wait (rest : List α)

variable {σ ρ α : Type*}

-- What a decoder must satisfy for the stream, and not its cuts, to decide.
structure Incremental (decoder : σ → List α → Verdict σ ρ α) : Prop where
  productive : decoder s xs = .emit r t rest → rest <:+ xs ∧ rest.length < xs.length
  emitted : decoder s xs = .emit r t rest → ∀ more, decoder s (xs ++ more) = .emit r t (rest ++ more)
  waiting : decoder s xs = .wait rest → ∀ more, decoder s (xs ++ more) = decoder s (rest ++ more)
  bounded : decoder s xs = .wait rest → rest <:+ xs

def drain (decoder : σ → List α → Verdict σ ρ α) : Nat → σ → List α → Option (List ρ × σ × List α)
  | 0,_,_ => none
  | fuel+1,s,xs => match decoder s xs with
    | .wait rest => some ([],s,rest)
    | .emit r t rest => (drain decoder fuel t rest).map fun (rs,u,left) => (r :: rs,u,left)

theorem drain_succ (decoder : σ → List α → Verdict σ ρ α) (drained : drain decoder fuel s xs = some result) :
    drain decoder (fuel+1) s xs = some result := by
  induction fuel generalizing s xs result with
  | zero => cases drained
  | succ fuel ih =>
      cases verdict : decoder s xs with
      | wait rest => rw [drain,verdict] at drained ⊢; exact drained
      | emit r t rest =>
          rw [drain,verdict] at drained
          obtain ⟨tail,tailDrained,rfl⟩ := Option.map_eq_some_iff.mp drained
          rw [drain,verdict]
          simp only [ih tailDrained,Option.map_some]

theorem drain_mono (decoder : σ → List α → Verdict σ ρ α) (drained : drain decoder fuel s xs = some result)
    (more : fuel ≤ fuel') : drain decoder fuel' s xs = some result := by
  induction more with
  | refl => exact drained
  | step _ ih => exact drain_succ decoder ih

theorem drain_unique (decoder : σ → List α → Verdict σ ρ α) (one : drain decoder fuel s xs = some first)
    (two : drain decoder fuel' s xs = some second) : first = second := by
  have left := drain_mono decoder one (Nat.le_max_left fuel fuel')
  have right := drain_mono decoder two (Nat.le_max_right fuel fuel')
  exact Option.some.inj (left.symm.trans right)

theorem drain_total {decoder : σ → List α → Verdict σ ρ α} (sound : Incremental decoder) (s : σ) (xs : List α)
    (enough : xs.length < fuel) : ∃ rs t kept, drain decoder fuel s xs = some (rs,t,kept) ∧ kept <:+ xs := by
  induction fuel generalizing s xs with
  | zero => omega
  | succ fuel ih =>
      cases verdict : decoder s xs with
      | wait rest => exact ⟨[],s,rest,by rw [drain,verdict],sound.bounded verdict⟩
      | emit r t rest =>
          obtain ⟨suffix,shorter⟩ := sound.productive verdict
          obtain ⟨rs,u,kept,drained,inside⟩ := ih t rest (by omega)
          refine ⟨r :: rs,u,kept,?_,inside.trans suffix⟩
          rw [drain,verdict]
          simp only [drained,Option.map_some]

theorem drain_suffix {decoder : σ → List α → Verdict σ ρ α} (sound : Incremental decoder)
    {fuel : Nat} {s t : σ} {xs kept : List α} {rs : List ρ} (drained : drain decoder fuel s xs = some (rs,t,kept)) :
    kept <:+ xs := by
  obtain ⟨_,_,_,total,suffix⟩ := drain_total sound s xs (Nat.lt_succ_self xs.length)
  cases drain_unique decoder drained total
  exact suffix

theorem drain_length {decoder : σ → List α → Verdict σ ρ α} (sound : Incremental decoder)
    {fuel : Nat} {s t : σ} {xs kept : List α} {rs : List ρ} (drained : drain decoder fuel s xs = some (rs,t,kept)) :
    rs.length + kept.length ≤ xs.length := by
  induction fuel generalizing s xs rs with
  | zero => cases drained
  | succ fuel ih =>
      cases verdict : decoder s xs with
      | wait rest =>
          rw [drain,verdict] at drained
          cases drained
          rw [List.length_nil,Nat.zero_add]
          exact (sound.bounded verdict).length_le
      | emit r next rest =>
          rw [drain,verdict] at drained
          obtain ⟨⟨tail,u,left⟩,tailDrained,equal⟩ := Option.map_eq_some_iff.mp drained
          cases equal
          have bound := ih tailDrained
          have shorter := (sound.productive verdict).2
          rw [List.length_cons]
          omega

theorem drain_stuck {decoder : σ → List α → Verdict σ ρ α} (sound : Incremental decoder)
    {fuel : Nat} {s t : σ} {xs kept : List α} {rs : List ρ} (drained : drain decoder fuel s xs = some (rs,t,kept)) :
    kept.length < xs.length ↔ decoder s xs ≠ .wait xs := by
  cases fuel with
  | zero => cases drained
  | succ fuel =>
      cases verdict : decoder s xs with
      | wait rest =>
          rw [drain,verdict] at drained
          cases drained
          have inside := sound.bounded verdict
          have bound := inside.length_le
          constructor
          · rintro shorter same
            cases same
            exact absurd shorter (Nat.lt_irrefl _)
          · intro differ
            have unequal : kept.length ≠ xs.length := fun same => differ (congrArg _ (inside.eq_of_length same))
            omega
      | emit r next rest =>
          rw [drain,verdict] at drained
          obtain ⟨⟨rest',t',left⟩,tailDrained,equal⟩ := Option.map_eq_some_iff.mp drained
          cases equal
          have shorter := (sound.productive verdict).2
          have bound := (drain_suffix sound tailDrained).length_le
          exact ⟨fun _ => nofun,fun _ => by omega⟩

theorem drain_append {decoder : σ → List α → Verdict σ ρ α} (sound : Incremental decoder)
    {fuel fuel' : Nat} {s t u : σ} {xs left left' more : List α} {rs rs' : List ρ}
    (early : drain decoder fuel s xs = some (rs,t,left))
    (later : drain decoder fuel' t (left ++ more) = some (rs',u,left')) :
    drain decoder (fuel+fuel') s (xs ++ more) = some (rs ++ rs',u,left') := by
  induction fuel generalizing s xs rs with
  | zero => cases early
  | succ fuel ih =>
      cases verdict : decoder s xs with
      | wait rest =>
          rw [drain,verdict] at early
          obtain ⟨rfl,rfl,rfl⟩ : [] = rs ∧ s = t ∧ rest = left := by simpa using early
          have same : drain decoder fuel' s (xs ++ more) = drain decoder fuel' s (rest ++ more) := by
            cases fuel' with
            | zero => rfl
            | succ fuel' => rw [drain,drain,sound.waiting verdict]
          exact drain_mono decoder (same.trans later) (Nat.le_add_left fuel' (fuel+1))
      | emit r next rest =>
          rw [drain,verdict] at early
          obtain ⟨⟨rest',t',left⟩,tailDrained,equal⟩ := Option.map_eq_some_iff.mp early
          cases equal
          have joined := ih tailDrained
          rw [Nat.add_right_comm,drain,sound.emitted verdict]
          simp only [joined,Option.map_some,List.cons_append]

theorem drain_settled {decoder : σ → List α → Verdict σ ρ α} (sound : Incremental decoder)
    {fuel : Nat} {s t : σ} {xs kept : List α} {rs : List ρ} (drained : drain decoder fuel s xs = some (rs,t,kept)) :
    decoder t kept = .wait kept := by
  induction fuel generalizing s xs rs with
  | zero => cases drained
  | succ fuel ih =>
      cases verdict : decoder s xs with
      | wait rest =>
          rw [drain,verdict] at drained
          cases drained
          have again := sound.waiting verdict []
          rw [List.append_nil,List.append_nil,verdict] at again
          exact again.symm
      | emit r next rest =>
          rw [drain,verdict] at drained
          obtain ⟨⟨rest',t',left⟩,tailDrained,equal⟩ := Option.map_eq_some_iff.mp drained
          cases equal
          exact ih tailDrained

inductive Feeds (decoder : σ → List α → Verdict σ ρ α) : σ → List α → List (List α) → List ρ → σ → List α → Prop where
  | nil : Feeds decoder s left [] [] s left
  | chunk : drain decoder fuel s (left ++ first) = some (rs,t,kept) → Feeds decoder t kept chunks rs' u left' →
      Feeds decoder s left (first :: chunks) (rs ++ rs') u left'

theorem Feeds.whole {decoder : σ → List α → Verdict σ ρ α} (sound : Incremental decoder)
    {s t : σ} {left kept : List α} {chunks : List (List α)} {rs : List ρ}
    (fed : Feeds decoder s left chunks rs t kept) (settled : decoder s left = .wait left) :
    ∃ fuel, drain decoder fuel s (left ++ chunks.flatten) = some (rs,t,kept) := by
  induction fed with
  | @nil s left => exact ⟨1,by simp [drain,settled]⟩
  | @chunk fuel s left first rs t kept chunks rs' u left' drained _ ih =>
      obtain ⟨later,rest⟩ := ih (drain_settled sound drained)
      refine ⟨fuel+later,?_⟩
      rw [List.flatten_cons,← List.append_assoc]
      exact drain_append sound drained rest

theorem Feeds.same {decoder : σ → List α → Verdict σ ρ α} (sound : Incremental decoder)
    {s t t' : σ} {left kept kept' : List α} {chunks chunks' : List (List α)} {rs rs' : List ρ}
    (one : Feeds decoder s left chunks rs t kept) (two : Feeds decoder s left chunks' rs' t' kept')
    (settled : decoder s left = .wait left) (stream : chunks.flatten = chunks'.flatten) :
    (rs,t,kept) = (rs',t',kept') := by
  obtain ⟨_,first⟩ := one.whole sound settled
  obtain ⟨_,second⟩ := two.whole sound settled
  rw [stream] at first
  exact drain_unique decoder first second

structure Framed (decoder : σ → List α → Verdict σ ρ α) (bytes : μ → List α) (reported : μ → ρ → Prop) : Prop where
  emits : ∀ s m rest, ∃ r t, decoder s (bytes m ++ rest) = .emit r t rest ∧ reported m r
  waits : ∀ s m start missing, bytes m = start ++ missing → missing ≠ [] → decoder s start = .wait start

def complete (bytes : μ → List α) : Nat → List μ → List μ
  | _,[] => []
  | count,m :: messages =>
    if (bytes m).length ≤ count then m :: complete bytes (count - (bytes m).length) messages else []

theorem complete_begins (bytes : μ → List α) (count : Nat) (messages : List μ) : complete bytes count messages <+: messages := by
  induction messages generalizing count with
  | nil => exact List.prefix_refl []
  | cons m messages ih =>
      rw [complete]
      split
      · exact (List.prefix_cons_inj m).mpr (ih _)
      · exact List.nil_prefix

theorem drain_messages {decoder : σ → List α → Verdict σ ρ α} {bytes : μ → List α} {reported : μ → ρ → Prop}
    (sound : Incremental decoder) (framed : Framed decoder bytes reported) {fuel : Nat} {s t : σ} {start left rest : List α}
    {rs : List ρ} {messages : List μ} (stream : start ++ rest = messages.flatMap bytes)
    (drained : drain decoder fuel s start = some (rs,t,left)) :
    List.Forall₂ reported (complete bytes start.length messages) rs ∧
      left ++ rest = (messages.drop rs.length).flatMap bytes := by
  induction fuel generalizing s start rs messages with
  | zero => cases drained
  | succ fuel ih =>
      cases messages with
      | nil =>
          obtain ⟨rfl,rfl⟩ := List.append_eq_nil_iff.mp stream
          cases verdict : decoder s [] with
          | emit r next later =>
              have shorter := (sound.productive verdict).2
              exact absurd shorter (Nat.not_lt_zero _)
          | wait kept =>
              rw [drain,verdict] at drained
              cases drained
              cases List.suffix_nil.mp (sound.bounded verdict)
              exact ⟨.nil,rfl⟩
      | cons m messages =>
          rw [List.flatMap_cons] at stream
          have begins : start <+: bytes m ++ messages.flatMap bytes := ⟨rest,stream⟩
          have message : bytes m <+: bytes m ++ messages.flatMap bytes := List.prefix_append _ _
          by_cases enough : (bytes m).length ≤ start.length
          · obtain ⟨more,rfl⟩ := List.prefix_of_prefix_length_le message begins enough
            rw [List.append_assoc] at stream
            obtain ⟨r,next,verdict,report⟩ := framed.emits s m more
            rw [drain,verdict] at drained
            obtain ⟨⟨rest',t',left'⟩,tailDrained,equal⟩ := Option.map_eq_some_iff.mp drained
            cases equal
            obtain ⟨reports,kept⟩ := ih (List.append_cancel_left stream) tailDrained
            refine ⟨?_,kept⟩
            rw [complete,List.length_append,if_pos (Nat.le_add_right _ _),Nat.add_sub_cancel_left]
            exact .cons report reports
          · obtain ⟨missing,whole⟩ := List.prefix_of_prefix_length_le begins message (Nat.le_of_not_le enough)
            have lacking : missing ≠ [] := by
              rintro rfl
              rw [List.append_nil] at whole
              exact enough (whole ▸ Nat.le_refl _)
            have verdict := framed.waits s m start missing whole.symm lacking
            rw [drain,verdict] at drained
            cases drained
            rw [complete,if_neg enough]
            exact ⟨.nil,stream.trans List.flatMap_cons.symm⟩

end HsrbDrivers.Reassembly

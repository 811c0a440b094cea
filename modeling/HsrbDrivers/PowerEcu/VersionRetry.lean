import HsrbDrivers.PowerEcu.ProtocolRuns

namespace HsrbDrivers.PowerEcu.PowerEcuProtocol

def cleared (p : PowerEcuProtocol) : PowerEcuProtocol :=
  {p with received := {p.received with ver := {p.received.ver with isReceiveVersion := false}}}

def Requests (p : PowerEcuProtocol) (outcomes : Nat → ErrorCode) (n : Nat) (requested : Bool) : Prop :=
  (∃ q, requestVersions ((List.range n).map outcomes) 0 p.cleared = .ok (requested,q)) ∧
    ∀ m < n, requestVersions ((List.range m).map outcomes) 0 p.cleared = .error .unfinished

structure RetriesSending (p : PowerEcuProtocol) (outcomes : Nat → ErrorCode) : Prop where
  ends : ∃ n requested, Requests p outcomes n requested
  few : ∀ n requested, Requests p outcomes n requested →
    ((List.range n).filter fun i => outcomes i ≠ .success).length ≤ kRetryCount + 1
  late : ∀ n, Requests p outcomes n false → kRetryCount < n ∧ ∀ i < n, outcomes i ≠ .success
  goesOn : (∃ i ≤ kRetryCount, outcomes i = .success) → ∃ n q, Requests p outcomes n true ∧
    ∀ startTime arrivals, p.getPowerEcuVersions startTime ((List.range n).map outcomes) arrivals =
      awaitVersions startTime arrivals q

theorem requestVersions_once {p : PowerEcuProtocol} (valid : Consistent p) (outcome : ErrorCode) (outcomes : List ErrorCode) :
    requestVersions (outcome :: outcomes) 0 p =
      .ok (if outcome = .success then (true,p.dropAck) else (false,p)) := by
  obtain ⟨getv,mapped⟩ := getCommandState_returns valid.getv
  have sent := sendCommand_eq outcome (valid.encodable _ valid.getv)
  rw [requestVersions,mapped]
  simp only [bind,Except.bind,getCommandState_name mapped]
  rw [sent]
  by_cases taken : outcome = .success
  · simp only [if_pos taken]
    rfl
  · simp only [if_neg taken]
    rfl

theorem cleared_consistent {p : PowerEcuProtocol} (valid : Consistent p) : Consistent p.cleared :=
  ⟨valid.toEquipped,valid.toSettled⟩

theorem requests_iff {p : PowerEcuProtocol} (valid : Consistent p) {outcomes : Nat → ErrorCode} {n : Nat} {requested : Bool} :
    Requests p outcomes n requested ↔ n = 1 ∧ requested = decide (outcomes 0 = .success) := by
  have once : ∀ n, requestVersions ((List.range (n + 1)).map outcomes) 0 p.cleared =
      .ok (if outcomes 0 = .success then (true,p.cleared.dropAck) else (false,p.cleared)) := by
    intro n
    rw [List.range_succ_eq_map,List.map_cons]
    exact requestVersions_once (cleared_consistent valid) (outcomes 0) _
  constructor
  · rintro ⟨⟨q,ended⟩,before⟩
    rcases n with _ | _ | n
    · cases ended
    · rw [once] at ended
      refine ⟨rfl,?_⟩
      by_cases first : outcomes 0 = .success
      · rw [if_pos first] at ended
        cases ended
        exact (decide_eq_true first).symm
      · rw [if_neg first] at ended
        cases ended
        exact (decide_eq_false first).symm
    · have unfinished := before 1 (by omega)
      rw [once] at unfinished
      cases unfinished
  · rintro ⟨rfl,rfl⟩
    refine ⟨?_,fun m less => ?_⟩
    · by_cases first : outcomes 0 = .success
      · exact ⟨_,(once 0).trans (by rw [if_pos first,decide_eq_true first])⟩
      · exact ⟨_,(once 0).trans (by rw [if_neg first,decide_eq_false first])⟩
    · obtain rfl := Nat.lt_one_iff.mp less
      rfl

theorem retries_sending_iff {p : PowerEcuProtocol} (reached : Reachable Constructed Step p) (outcomes : Nat → ErrorCode) :
    RetriesSending p outcomes ↔ outcomes 0 = .success := by
  have valid := reached_consistent reached
  constructor
  · intro retries
    by_contra failed
    have given := retries.late 1 ((requests_iff valid).mpr ⟨rfl,(decide_eq_false failed).symm⟩)
    exact absurd given.1 (by decide)
  · intro taken
    refine ⟨⟨1,_,(requests_iff valid).mpr ⟨rfl,rfl⟩⟩,?_,?_,fun _ => ⟨1,p.cleared.dropAck,?_,?_⟩⟩
    · intro n requested requests
      obtain ⟨rfl,_⟩ := (requests_iff valid).mp requests
      exact Nat.le_trans (List.length_filter_le _ _) (by decide)
    · intro n requests
      obtain ⟨_,other⟩ := (requests_iff valid).mp requests
      rw [decide_eq_true taken] at other
      cases other
    · exact (requests_iff valid).mpr ⟨rfl,(decide_eq_true taken).symm⟩
    · intro startTime arrivals
      have sent := requestVersions_once (cleared_consistent valid) (outcomes 0) []
      rw [if_pos taken] at sent
      change (requestVersions [outcomes 0] 0 p.cleared >>= fun result =>
        if result.1 then awaitVersions startTime arrivals result.2 else .ok (none,[],result.2)) = _
      rw [sent]
      rfl

theorem sent_at_once_retries : ∃ p, Reachable Constructed Step p ∧ RetriesSending p fun _ => .success := by
  obtain ⟨p,constructed,_⟩ := construct_parts 0
  have start : Reachable Constructed Step p := .initial ⟨0,constructed⟩
  exact ⟨p,start,(retries_sending_iff start fun _ => .success).mpr rfl⟩

theorem first_failure_given_up : ¬ ∀ p, Reachable Constructed Step p → ∀ outcomes, RetriesSending p outcomes := by
  intro every
  obtain ⟨p,constructed,_⟩ := construct_parts 0
  have start : Reachable Constructed Step p := .initial ⟨0,constructed⟩
  have valid := construct_consistent ⟨0,constructed⟩
  obtain ⟨n,q,requests,_⟩ := (every p start fun i => if i = 0 then .networkDown else .success).goesOn ⟨1,by decide,rfl⟩
  obtain ⟨_,other⟩ := (requests_iff valid).mp requests
  cases other

end HsrbDrivers.PowerEcu.PowerEcuProtocol

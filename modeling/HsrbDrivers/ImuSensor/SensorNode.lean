import HsrbDrivers.ImuSensor.ResetRetry

namespace HsrbDrivers.ImuSensor

def kRetryCount : Nat := 3

-- The members of `MPU9150Node` that its cycle works on. Without an IMU there is no protocol.
structure ImuNode where
  mpu9150Protocol : Option MPU9150Protocol
  resetImu : Bool
  imuOutput : ImuState

structure Cycle where
  start : Int
  turns : List Turn
  uninitialised : MPU9150State
  free : Bool
  reset : MPU9150Protocol.ResetCall

-- What happens at the node: the calibration service is called, something happens in the protocol, or
-- the orientation, the angular velocity and the linear acceleration of a message are published.
inductive NodeEvent where
  | requested
  | reset (event : ResetEvent)
  | published (state : ImuState)

namespace NodeEvent

def isRequest : NodeEvent → Bool
  | requested => true
  | _ => false

def toReset : NodeEvent → Option ResetEvent
  | reset event => some event
  | _ => none

def toPublished : NodeEvent → Option ImuState
  | published state => some state
  | _ => none

end NodeEvent

def tryWithRetry (func : σ → α → Except Halt (ErrorCode × σ)) : Nat → List α → σ → Except Halt (ErrorCode × σ)
  | _,[],_ => .error .unfinished
  | retry,attempt :: attempts,s => do
    let (error,s) ← func s attempt
    if error = .success then return (error,s) else
    match retry with
    | 0 => return (error,s)
    | retry + 1 => tryWithRetry func retry attempts s

def MPU9150Protocol.configure (p : MPU9150Protocol) (attempts : List (Int × List ResetTurn)) : Except Halt (Bool × MPU9150Protocol) := do
  let (error,p) ← tryWithRetry (fun p (start,turns) => reset p start kImuResetTimeout turns) kRetryCount attempts p
  return (error = .success,p)

namespace ImuNode

def resetImuCallback (n : ImuNode) : ImuNode := {n with resetImu := true}

def read (n : ImuNode) (cycle : Cycle) : Except Halt (ImuNode × List NodeEvent) :=
  match n.mpu9150Protocol with
  | none => .ok (n,[])
  | some p => do
    let (_,p,imuOutput) ← p.readState cycle.start cycle.turns cycle.uninitialised n.imuOutput
    return ({n with mpu9150Protocol := some p,imuOutput := imuOutput},[.reset (.read n.imuOutput imuOutput)])

def publish (n : ImuNode) : List NodeEvent := [.published n.imuOutput]

def write (n : ImuNode) (cycle : Cycle) : Except Halt (ImuNode × List NodeEvent) :=
  match n.mpu9150Protocol with
  | none => .ok (n,[])
  | some p =>
    if cycle.free = true ∧ n.resetImu = true then do
      let (_,result,q) ← p.tryReset cycle.reset
      return ({n with mpu9150Protocol := some q,resetImu := decide (result = .more)},
        (p.resetEvents cycle.reset ++ [ResetEvent.returned result]).map .reset)
    else .ok (n,[])

end ImuNode

inductive NodeCall where
  | resetImuCallback
  | cycle (cycle : Cycle)

namespace ImuNode

def advance (s : ImuNode × List NodeEvent) : NodeCall → Except Halt (ImuNode × List NodeEvent)
  | .resetImuCallback => .ok (s.1.resetImuCallback,s.2 ++ [.requested])
  | .cycle cycle => do
    let (n,events) ← s.1.read cycle
    let (m,more) ← n.write cycle
    return (m,s.2 ++ (events ++ (n.publish ++ more)))

def run (n : ImuNode) (calls : List NodeCall) : Except Halt (ImuNode × List NodeEvent) :=
  calls.foldlM advance (n,[])

end ImuNode

namespace Calibrating
open NodeEvent Resetting

def resets (history : List NodeEvent) : List ResetEvent := history.filterMap toReset

def shown (history : List NodeEvent) : Option ImuState := (history.filterMap toPublished).getLast?

-- A calibration was asked for, and since then no reset has come to its end.
def Pending (history : List NodeEvent) : Prop :=
  ∃ earlier later, history = earlier ++ .requested :: later ∧ ∀ event ∈ resets later, event.ends = false

-- A reset command is sent for a calibration that was asked for, and while its result is to come the same is
-- published as before.
def NodeAllowed (before : List NodeEvent) : NodeEvent → Prop
  | .requested => True
  | .reset event => Allowed (resets before) event ∧ ∀ error now, event = .send error now → Pending before
  | .published state => Outstanding (resets before) → shown before = some state

theorem outstanding_iff {p : MPU9150Protocol} {history : List ResetEvent} (tracks : Tracks p history) :
    Outstanding history ↔ p.status ≠ .waiting := by
  unfold Tracks at tracks
  cases status : p.status with
  | waiting =>
      rw [status] at tracks
      simpa using tracks.1
  | waitForReset =>
      rw [status] at tracks
      obtain ⟨earlier,now,later,split,quiet,_⟩ := tracks
      refine iff_of_true ⟨earlier,now,later,split,?_⟩ (by decide)
      exact fun event member => (quiet event member).2
  | receiveResetReturn =>
      rw [status] at tracks
      obtain ⟨earlier,now,first,observed,second,split,quiet,still,_⟩ := tracks
      refine iff_of_true ⟨earlier,now,_,split,?_⟩ (by decide)
      intro event member
      rcases List.mem_append.mp member with before | behind
      · exact (quiet event before).2
      rcases List.mem_cons.mp behind with rfl | after
      · rfl
      · exact (still event after).2

theorem tryReset_more_iff {p q : MPU9150Protocol} {call : MPU9150Protocol.ResetCall} {error : ErrorCode} {result : ResetResult}
    (returned : p.tryReset call = .ok (error,result,q)) : result = .more ↔ q.status ≠ .waiting := by
  unfold MPU9150Protocol.tryReset at returned
  cases status : p.status with
  | waiting =>
      rw [status] at returned
      dsimp only at returned
      split at returned
      · cases returned
        simp [status]
      · cases returned
        simp
  | waitForReset =>
      rw [status] at returned
      dsimp only at returned
      split at returned
      · cases returned
        simp
      · cases returned
        simp [status]
  | receiveResetReturn =>
      rw [status] at returned
      dsimp only at returned
      split at returned
      · cases returned
      · split at returned
        · split at returned
          · cases returned
            simp
          · cases returned
            simp
        · cases returned
          simp

theorem resetEvents_one {p q : MPU9150Protocol} {call : MPU9150Protocol.ResetCall} {error : ErrorCode} {result : ResetResult}
    (returned : p.tryReset call = .ok (error,result,q)) : ∃ event, p.resetEvents call = [event] ∧ event.ends = false ∧
      (event.sends = true → p.status = .waiting ∧ result = .more) := by
  unfold MPU9150Protocol.tryReset at returned
  unfold MPU9150Protocol.resetEvents
  cases status : p.status with
  | waiting =>
      rw [status] at returned
      dsimp only at returned
      refine ⟨_,rfl,rfl,fun sent => ?_⟩
      have success : call.sent = .success := by simpa [ResetEvent.sends] using sent
      rw [if_neg (not_not.mpr success)] at returned
      cases returned
      exact ⟨rfl,rfl⟩
  | waitForReset => exact ⟨_,rfl,rfl,fun sent => by cases sent⟩
  | receiveResetReturn =>
      rw [status] at returned
      dsimp only at returned ⊢
      cases received : p.network.receive call.start call.turns with
      | none =>
          rw [received] at returned
          cases returned
      | some answer => exact ⟨_,rfl,rfl,fun sent => by cases sent⟩

section
variable {history : List NodeEvent}

@[simp] theorem resets_append (one other : List NodeEvent) : resets (one ++ other) = resets one ++ resets other :=
  List.filterMap_append

@[simp] theorem resets_reset (event : ResetEvent) : resets [.reset event] = [event] := rfl
@[simp] theorem resets_published (state : ImuState) : resets [.published state] = [] := rfl
@[simp] theorem resets_requested : resets [.requested] = [] := rfl

@[simp] theorem shown_published (state : ImuState) : shown (history ++ [.published state]) = some state := by
  simp [shown,toPublished]

@[simp] theorem shown_reset (event : ResetEvent) : shown (history ++ [.reset event]) = shown history := by
  simp [shown,toPublished]

@[simp] theorem shown_requested : shown (history ++ [.requested]) = shown history := by
  simp [shown,toPublished]

theorem pending_requested : Pending (history ++ [.requested]) :=
  ⟨history,[],rfl,fun _ member => by cases member⟩

theorem pending_append {event : NodeEvent} (other : event ≠ .requested) (going : ∀ reset ∈ resets [event], reset.ends = false) :
    Pending (history ++ [event]) ↔ Pending history := by
  constructor
  · rintro ⟨earlier,later,split,rest⟩
    rcases Session.extended_split split with ⟨_,same,_⟩ | ⟨before,rfl,same⟩
    · exact absurd same other
    · refine ⟨earlier,before,same,fun reset member => rest reset ?_⟩
      rw [resets_append]
      exact List.mem_append_left _ member
  · rintro ⟨earlier,later,rfl,rest⟩
    refine ⟨earlier,later ++ [event],by simp,fun reset member => ?_⟩
    rw [resets_append] at member
    exact (List.mem_append.mp member).elim (rest reset) (going reset)

theorem pending_ended {event : ResetEvent} (ended : event.ends = true) : ¬ Pending (history ++ [.reset event]) := by
  rintro ⟨earlier,later,split,rest⟩
  rcases Session.extended_split split with ⟨_,same,_⟩ | ⟨before,rfl,_⟩
  · cases same
  · have still := rest event (by simp)
    rw [ended] at still
    cases still

end

structure Tracking (n : ImuNode) (p : MPU9150Protocol) (history : List NodeEvent) : Prop where
  protocol : n.mpu9150Protocol = some p
  held : Held p (resets history)
  orderly : Session.Orderly NodeAllowed history
  pending : n.resetImu = true ↔ Pending history
  busy : p.status ≠ .waiting → n.resetImu = true
  latest : p.status ≠ .waiting → shown history = some n.imuOutput
  counted : (resets history).countP ResetEvent.sends + (if n.resetImu = true ∧ p.status = .waiting then 1 else 0) ≤
    history.countP isRequest

section
variable {n m : ImuNode} {p : MPU9150Protocol} {history events : List NodeEvent} {cycle : Cycle}

theorem requested_tracking (tracking : Tracking n p history) : Tracking n.resetImuCallback p (history ++ [.requested]) := by
  refine ⟨tracking.protocol,?_,Session.orderly_append tracking.orderly trivial,?_,fun _ => rfl,?_,?_⟩
  · simpa using tracking.held
  · exact iff_of_true rfl pending_requested
  · rw [shown_requested]
    exact tracking.latest
  · have counted := tracking.counted
    have one : (if n.resetImuCallback.resetImu = true ∧ p.status = .waiting then 1 else 0) ≤ 1 := by split <;> decide
    simp only [resets_append,resets_requested,List.append_nil,List.countP_append,List.countP_singleton,isRequest,if_true]
    omega

theorem read_tracking (tracking : Tracking n p history) (returned : n.read cycle = .ok (m,events)) :
    ∃ q, Tracking m q (history ++ events) := by
  unfold ImuNode.read at returned
  rw [tracking.protocol] at returned
  obtain ⟨⟨error,q,state⟩,received,returned⟩ := except_bind_ok.mp returned
  cases returned
  obtain ⟨status,_,untouched⟩ := readState_frame received
  have held := readState_step tracking.held.tracks tracking.held.orderly received
  refine ⟨q,rfl,?_,Session.orderly_append tracking.orderly ⟨?_,?_⟩,?_,?_,?_,?_⟩
  · simpa using held
  · exact held.orderly _ _ [] rfl
  · exact fun _ _ same => by cases same
  · refine tracking.pending.trans (pending_append (fun same => by cases same) ?_).symm
    simp [ResetEvent.ends]
  · rw [status]
    exact tracking.busy
  · intro busy
    rw [status] at busy
    rw [shown_reset,tracking.latest busy,untouched busy]
  · simpa [ResetEvent.sends,isRequest,status] using tracking.counted

theorem publish_tracking (tracking : Tracking n p history) :
    Tracking n p (history ++ n.publish) ∧ shown (history ++ n.publish) = some n.imuOutput := by
  have allowed : NodeAllowed history (.published n.imuOutput) :=
    fun outstanding => tracking.latest ((outstanding_iff tracking.held.tracks).mp outstanding)
  refine ⟨⟨tracking.protocol,?_,Session.orderly_append tracking.orderly allowed,?_,tracking.busy,?_,?_⟩,shown_published _⟩
  · simpa [ImuNode.publish] using tracking.held
  · exact tracking.pending.trans (pending_append (fun same => by cases same) (by simp)).symm
  · exact fun _ => shown_published _
  · simpa [ImuNode.publish,isRequest] using tracking.counted

theorem write_tracking (tracking : Tracking n p history) (latest : shown history = some n.imuOutput)
    (returned : n.write cycle = .ok (m,events)) : ∃ q, Tracking m q (history ++ events) := by
  unfold ImuNode.write at returned
  rw [tracking.protocol] at returned
  dsimp only at returned
  split at returned
  case isFalse =>
    cases returned
    exact ⟨p,by rwa [List.append_nil]⟩
  rename_i asked
  obtain ⟨⟨error,result,q⟩,called,returned⟩ := except_bind_ok.mp returned
  cases returned
  have held := tryReset_step tracking.held.tracks tracking.held.orderly called
  have more := tryReset_more_iff called
  obtain ⟨event,one,going,sent⟩ := resetEvents_one called
  have pending := tracking.pending.mp asked.2
  have passed : Pending (history ++ [.reset event]) := (pending_append (fun same => by cases same) (by simpa using going)).mpr pending
  rw [one] at held ⊢
  have split : history ++ ([event] ++ [ResetEvent.returned result]).map NodeEvent.reset =
      (history ++ [.reset event]) ++ [.reset (.returned result)] := by simp
  have seen : resets (history ++ [.reset event] ++ [.reset (.returned result)]) = resets history ++ ([event] ++ [.returned result]) := by
    simp only [resets_append,resets_reset,List.append_assoc]
  rw [split]
  refine ⟨q,rfl,?_,?_,?_,?_,?_,?_⟩
  · rw [seen]
    exact held
  · refine Session.orderly_append (Session.orderly_append tracking.orderly ⟨?_,fun _ _ _ => pending⟩) ⟨?_,fun _ _ same => by cases same⟩
    · exact held.orderly _ _ [.returned result] rfl
    · rw [resets_append,resets_reset]
      exact held.orderly _ _ [] (by simp)
  · by_cases again : result = .more
    · refine iff_of_true (decide_eq_true again) ((pending_append (fun same => by cases same) ?_).mpr passed)
      simp [ResetEvent.ends,again]
    · exact iff_of_false (by simpa using again) (pending_ended (decide_eq_true again))
  · exact fun busy => decide_eq_true (more.mpr busy)
  · intro _
    rw [shown_reset,shown_reset,latest]
  · have counted := tracking.counted
    have closed : ¬ (decide (result = .more) = true ∧ q.status = .waiting) := fun both => more.mp (of_decide_eq_true both.1) both.2
    rw [seen]
    dsimp only
    rw [if_neg closed]
    have last : ResetEvent.sends (.returned result) = false := rfl
    simp only [List.countP_append,List.countP_singleton,isRequest,last,Bool.false_eq_true,if_false,Nat.add_zero]
    by_cases began : event.sends = true
    · rw [if_pos ⟨asked.2,(sent began).1⟩] at counted
      simpa [began] using counted
    · simpa [began] using Nat.le_of_add_right_le counted

theorem advance_tracking {s t : ImuNode × List NodeEvent} {call : NodeCall} (tracking : ∃ p, Tracking s.1 p s.2)
    (advanced : ImuNode.advance s call = .ok t) : ∃ p, Tracking t.1 p t.2 := by
  obtain ⟨p,tracking⟩ := tracking
  cases call with
  | resetImuCallback =>
      cases advanced
      exact ⟨p,requested_tracking tracking⟩
  | cycle cycle =>
      obtain ⟨⟨n,events⟩,read,advanced⟩ := except_bind_ok.mp advanced
      obtain ⟨⟨m,more⟩,written,advanced⟩ := except_bind_ok.mp advanced
      cases advanced
      obtain ⟨q,tracking⟩ := read_tracking tracking read
      obtain ⟨tracking,latest⟩ := publish_tracking tracking
      dsimp only
      rw [← List.append_assoc,← List.append_assoc]
      exact write_tracking tracking latest written

end

theorem tryWithRetry_success {func : σ → α → Except Halt (ErrorCode × σ)} {holds : σ → Prop}
    (succeeds : ∀ s attempt t, func s attempt = .ok (.success,t) → holds t) {retry : Nat} {attempts : List α} {s t : σ}
    (returned : tryWithRetry func retry attempts s = .ok (.success,t)) : holds t := by
  induction attempts generalizing retry s with
  | nil => simp [tryWithRetry] at returned
  | cons attempt attempts ih =>
      unfold tryWithRetry at returned
      obtain ⟨⟨error,next⟩,called,returned⟩ := except_bind_ok.mp returned
      dsimp only at returned
      split at returned
      · rename_i success
        cases returned
        exact succeeds s attempt t called
      · rename_i failed
        cases retry with
        | zero =>
            cases returned
            exact absurd rfl failed
        | succ retry => exact ih returned

theorem resetLoop_success {limit : Int} {p q : MPU9150Protocol} {turns : List MPU9150Protocol.ResetTurn}
    (returned : MPU9150Protocol.resetLoop limit p turns = .ok (.success,q)) : q.status = .waiting := by
  induction turns generalizing p with
  | nil => cases returned
  | cons turn turns ih =>
      unfold MPU9150Protocol.resetLoop at returned
      split at returned
      · cases called : p.tryReset turn.call with
        | error halt =>
            rw [called] at returned
            cases returned
        | ok result =>
            obtain ⟨error,result,r⟩ := result
            rw [called] at returned
            dsimp only at returned
            split at returned
            · rename_i failed
              cases returned
              exact absurd rfl failed
            · split at returned
              · rename_i closed
                cases returned
                by_contra busy
                exact absurd (closed.symm.trans ((tryReset_more_iff called).mpr busy)) (by decide)
              · exact ih returned
      · cases returned

theorem configure_waiting {p q : MPU9150Protocol} {attempts : List (Int × List MPU9150Protocol.ResetTurn)}
    (configured : p.configure attempts = .ok (true,q)) : q.status = .waiting := by
  obtain ⟨⟨error,r⟩,tried,configured⟩ := except_bind_ok.mp configured
  obtain ⟨success,rfl⟩ := Prod.mk.inj (Except.ok.inj configured)
  rw [of_decide_eq_true success] at tried
  exact tryWithRetry_success (fun _ _ _ returned => resetLoop_success returned) tried

-- In every run of a node whose `Configure` succeeded, whenever the calibration service is called: a reset
-- command is sent only for a call behind which no reset has ended, and at most one for each call; the node
-- still means to reset exactly while there is such a call; and what is published does not change between a
-- reset command and its result, which comes as the protocol has it.
theorem node_runs {p q : MPU9150Protocol} {attempts : List (Int × List MPU9150Protocol.ResetTurn)}
    (configured : p.configure attempts = .ok (true,q)) (imuOutput : ImuState) {calls : List NodeCall} {n : ImuNode}
    {history : List NodeEvent} (ran : ImuNode.run ⟨some q,false,imuOutput⟩ calls = .ok (n,history)) :
    Session.Orderly NodeAllowed history ∧ (n.resetImu = true ↔ Pending history) ∧
      (resets history).countP ResetEvent.sends ≤ history.countP isRequest := by
  have waiting := configure_waiting configured
  have quiet : ¬ Outstanding [] := by
    rintro ⟨earlier,now,later,split,_⟩
    simp at split
  have started : Tracking ⟨some q,false,imuOutput⟩ q [] := by
    refine ⟨rfl,⟨Session.orderly_nil _,?_⟩,Session.orderly_nil _,?_,fun busy => absurd waiting busy,fun busy => absurd waiting busy,
      by simp [resets]⟩
    · unfold Tracks
      rw [waiting]
      exact ⟨quiet,Nat.le_refl 0⟩
    · refine iff_of_false Bool.false_ne_true ?_
      rintro ⟨earlier,later,split,_⟩
      simp at split
  obtain ⟨r,tracking⟩ := @foldlM_preserves _ _ _ _ (fun s : ImuNode × List NodeEvent => ∃ p, Tracking s.1 p s.2)
    (fun _ _ _ holds advanced => advance_tracking holds advanced) _ _ _ ⟨q,started⟩ ran
  exact ⟨tracking.orderly,tracking.pending,Nat.le_of_add_right_le tracking.counted⟩

def unread : List Turn := [⟨.failed 5 (by decide),0⟩]

def calibration : List NodeCall := [.resetImuCallback,
  .cycle ⟨0,unread,sample [],true,⟨.success,0,0,0,[]⟩⟩,
  .cycle ⟨0,unread,sample [],true,⟨.success,3000000001,0,0,[]⟩⟩,
  .cycle ⟨0,unread,sample [],true,⟨.success,3000000002,0,0,[⟨.read ⟨_,MPU9150Protocol.answer_fits⟩,0⟩]⟩⟩]

def calibrated : Except Halt (Bool × ImuNode × List NodeEvent) := do
  let (ready,q) ← MPU9150Protocol.connected.configure [(0,MPU9150Protocol.answeredTurns)]
  let (n,history) ← ImuNode.run ⟨some q,false,⟨.replicate 4 0,.replicate 3 0,.replicate 3 0⟩⟩ calibration
  return (ready,n,history)

theorem calibrated_result : ∃ n history, calibrated = .ok (true,n,history) ∧ (resets history).getLast? = some (.returned .done) :=
  ⟨_,_,rfl,rfl⟩

theorem calibration_runs : ∃ q n history, MPU9150Protocol.connected.configure [(0,MPU9150Protocol.answeredTurns)] = .ok (true,q) ∧
    ImuNode.run ⟨some q,false,⟨.replicate 4 0,.replicate 3 0,.replicate 3 0⟩⟩ calibration = .ok (n,history) ∧
    (resets history).getLast? = some (.returned .done) ∧ Session.Orderly NodeAllowed history ∧
    (resets history).countP ResetEvent.sends ≤ history.countP isRequest := by
  obtain ⟨n,history,result,last⟩ := calibrated_result
  obtain ⟨⟨ready,q⟩,configured,result⟩ := except_bind_ok.mp result
  obtain ⟨⟨m,events⟩,ran,result⟩ := except_bind_ok.mp result
  cases result
  obtain ⟨orderly,_,counted⟩ := node_runs configured _ ran
  exact ⟨q,n,history,configured,ran,last,orderly,counted⟩

-- The time by which the result of a reset comes that is under way, or that is begun in a call.
def deadline (p : MPU9150Protocol) (call : MPU9150Protocol.ResetCall) : Int :=
  match p.status with
  | .waiting => max (call.now + kMPU9150ResetDuration) (call.later + kMPU9150InstructionTimeout)
  | _ => max p.instructionEndTime p.instructionTimeout

def overdue (limit : Int) : NodeCall → Bool
  | .cycle cycle => cycle.free && limit < cycle.reset.now
  | _ => false

-- How many calls of `TryReset` behind the deadline a reset takes at most.
def remaining (p : MPU9150Protocol) : Nat :=
  match p.status with
  | .receiveResetReturn => 1
  | _ => 2

theorem tryReset_nearer {p q : MPU9150Protocol} {call : MPU9150Protocol.ResetCall} {error : ErrorCode} (busy : p.status ≠ .waiting)
    (returned : p.tryReset call = .ok (error,.more,q)) :
    q.instructionEndTime = p.instructionEndTime ∧ q.instructionTimeout = p.instructionTimeout ∧
      remaining q + (if max p.instructionEndTime p.instructionTimeout < call.now then 1 else 0) ≤ remaining p := by
  unfold MPU9150Protocol.tryReset at returned
  unfold remaining
  cases status : p.status with
  | waiting => exact absurd status busy
  | waitForReset =>
      rw [status] at returned
      dsimp only at returned ⊢
      split at returned
      · cases returned
        refine ⟨rfl,rfl,?_⟩
        dsimp only
        split <;> decide
      · rename_i early
        cases returned
        refine ⟨rfl,rfl,?_⟩
        rw [if_neg (fun late => early (lt_of_le_of_lt (le_max_left _ _) late)),status]
  | receiveResetReturn =>
      rw [status] at returned
      dsimp only at returned ⊢
      split at returned
      · cases returned
      split at returned
      · split at returned
        · cases returned
        · rename_i early
          cases returned
          refine ⟨rfl,rfl,?_⟩
          rw [if_neg (fun late => early (lt_of_le_of_lt (le_max_right _ _) late))]
      · cases returned

theorem tryReset_deadline {p q : MPU9150Protocol} {call : MPU9150Protocol.ResetCall} {error : ErrorCode}
    (returned : p.tryReset call = .ok (error,.more,q)) : deadline p call = max q.instructionEndTime q.instructionTimeout := by
  by_cases waiting : p.status = .waiting
  · unfold MPU9150Protocol.tryReset at returned
    rw [waiting] at returned
    dsimp only at returned
    split at returned
    · cases returned
    · cases returned
      simp [deadline,waiting]
  · obtain ⟨endTime,timeout,_⟩ := tryReset_nearer waiting returned
    rw [endTime,timeout,deadline]
    split
    · rename_i same
      exact absurd same waiting
    · rfl

theorem advance_extends {s t : ImuNode × List NodeEvent} {call : NodeCall} (advanced : ImuNode.advance s call = .ok t) :
    ∃ added, t.2 = s.2 ++ added := by
  cases call with
  | resetImuCallback =>
      cases advanced
      exact ⟨_,rfl⟩
  | cycle cycle =>
      obtain ⟨⟨n,events⟩,_,advanced⟩ := except_bind_ok.mp advanced
      obtain ⟨⟨m,more⟩,_,advanced⟩ := except_bind_ok.mp advanced
      cases advanced
      exact ⟨_,rfl⟩

theorem foldlM_extends {s t : ImuNode × List NodeEvent} {calls : List NodeCall} (ran : calls.foldlM ImuNode.advance s = .ok t) :
    ∃ added, t.2 = s.2 ++ added := by
  refine @foldlM_preserves _ _ _ _ (fun t : ImuNode × List NodeEvent => ∃ added, t.2 = s.2 ++ added) ?_ _ _ _ ⟨[],by simp⟩ ran
  rintro u call v ⟨before,same⟩ advanced
  obtain ⟨added,extended⟩ := advance_extends advanced
  exact ⟨before ++ added,by rw [extended,same,List.append_assoc]⟩

section
variable {s t : ImuNode × List NodeEvent} {p : MPU9150Protocol} {cycle : Cycle}

theorem cycle_resets (protocol : s.1.mpu9150Protocol = some p) (pending : s.1.resetImu = true) (free : cycle.free = true)
    (advanced : ImuNode.advance s (.cycle cycle) = .ok t) :
    ∃ added, t.2 = s.2 ++ added ∧ ((∃ event ∈ resets added, event.ends = true) ∨
      ∃ r q error, t.1.mpu9150Protocol = some q ∧ t.1.resetImu = true ∧ r.status = p.status ∧ (p.status ≠ .waiting → r = p) ∧
        r.tryReset cycle.reset = .ok (error,.more,q)) := by
  obtain ⟨⟨n,events⟩,read,advanced⟩ := except_bind_ok.mp advanced
  obtain ⟨⟨m,more⟩,written,advanced⟩ := except_bind_ok.mp advanced
  cases advanced
  refine ⟨_,rfl,?_⟩
  unfold ImuNode.read at read
  rw [protocol] at read
  obtain ⟨⟨code,r,state⟩,received,read⟩ := except_bind_ok.mp read
  cases read
  obtain ⟨error,result,q,called,node,written⟩ : ∃ error result q, r.tryReset cycle.reset = .ok (error,result,q) ∧
      m = {s.1 with mpu9150Protocol := some q,resetImu := decide (result = .more),imuOutput := state} ∧
      more = (r.resetEvents cycle.reset ++ [ResetEvent.returned result]).map .reset := by
    unfold ImuNode.write at written
    dsimp only at written
    rw [if_pos ⟨free,pending⟩] at written
    obtain ⟨⟨error,result,q⟩,called,written⟩ := except_bind_ok.mp written
    cases written
    exact ⟨error,result,q,called,rfl,rfl⟩
  by_cases again : result = .more
  · subst again
    refine .inr ⟨r,q,error,by rw [node],by rw [node]; rfl,(readState_frame received).1,?_,called⟩
    intro busy
    rw [MPU9150Protocol.readState_busy busy] at received
    cases received
    rfl
  · refine .inl ⟨.returned result,?_,decide_eq_true again⟩
    simp [written,resets,toReset,ImuNode.publish]

theorem cycle_held (protocol : s.1.mpu9150Protocol = some p) (pending : s.1.resetImu = true) (busy : p.status ≠ .waiting)
    (taken : cycle.free ≠ true) (advanced : ImuNode.advance s (.cycle cycle) = .ok t) :
    (∃ added, t.2 = s.2 ++ added) ∧ t.1.mpu9150Protocol = some p ∧ t.1.resetImu = true := by
  have extended := advance_extends advanced
  obtain ⟨⟨n,events⟩,read,advanced⟩ := except_bind_ok.mp advanced
  obtain ⟨⟨m,more⟩,written,advanced⟩ := except_bind_ok.mp advanced
  cases advanced
  refine ⟨extended,?_⟩
  unfold ImuNode.read at read
  rw [protocol] at read
  dsimp only at read
  rw [MPU9150Protocol.readState_busy busy] at read
  cases read
  unfold ImuNode.write at written
  dsimp only at written
  rw [if_neg (fun both => taken both.1)] at written
  cases written
  exact ⟨rfl,pending⟩

theorem underway_ends {calls : List NodeCall} (protocol : s.1.mpu9150Protocol = some p) (pending : s.1.resetImu = true)
    (busy : p.status ≠ .waiting)
    (late : remaining p ≤ calls.countP (overdue (max p.instructionEndTime p.instructionTimeout)))
    (ran : calls.foldlM ImuNode.advance s = .ok t) : ∃ added, t.2 = s.2 ++ added ∧ ∃ event ∈ resets added, event.ends = true := by
  induction calls generalizing s p with
  | nil =>
      have some : 0 < remaining p := by
        unfold remaining
        split <;> decide
      exact absurd (lt_of_lt_of_le some late) (by simp)
  | cons call calls ih =>
      rw [List.foldlM_cons] at ran
      obtain ⟨next,advanced,rest⟩ := except_bind_ok.mp ran
      cases call with
      | resetImuCallback =>
          cases advanced
          obtain ⟨added,extended,ended⟩ := ih (s := (s.1.resetImuCallback,s.2 ++ [.requested])) protocol rfl busy
            (by simpa [overdue] using late) rest
          refine ⟨.requested :: added,by simp [extended],?_⟩
          simpa [resets,toReset] using ended
      | cycle cycle =>
          by_cases free : cycle.free = true
          case neg =>
            obtain ⟨⟨first,extended⟩,held,again⟩ := cycle_held protocol pending busy free advanced
            obtain ⟨added,longer,event,member,ends⟩ := ih held again busy (by simpa [overdue,free] using late) rest
            refine ⟨first ++ added,by rw [longer,extended,List.append_assoc],event,?_,ends⟩
            rw [resets_append]
            exact List.mem_append_right _ member
          obtain ⟨first,extended,closed | ⟨r,q,error,held,again,_,same,called⟩⟩ := cycle_resets protocol pending free advanced
          · obtain ⟨event,member,ends⟩ := closed
            obtain ⟨added,longer⟩ := foldlM_extends rest
            refine ⟨first ++ added,by rw [longer,extended,List.append_assoc],event,?_,ends⟩
            rw [resets_append]
            exact List.mem_append_left _ member
          · rw [same busy] at called
            obtain ⟨endTime,timeout,nearer⟩ := tryReset_nearer busy called
            rw [← endTime,← timeout] at nearer late
            have fewer : remaining q ≤ calls.countP (overdue (max q.instructionEndTime q.instructionTimeout)) := by
              simp only [List.countP_cons,overdue,free,Bool.true_and,decide_eq_true_eq] at late
              omega
            obtain ⟨added,longer,event,member,ends⟩ := ih held again ((tryReset_more_iff called).mp rfl) fewer rest
            refine ⟨first ++ added,by rw [longer,extended,List.append_assoc],event,?_,ends⟩
            rw [resets_append]
            exact List.mem_append_right _ member

end

-- A node that means to reset its IMU comes to a result: at the latest in the second cycle behind the time set for
-- it that has the mutex, whatever the IMU answers, whether the reset is to begin or under way, and however often
-- the calibration service is called.
theorem calibration_ends {n m : ImuNode} {p : MPU9150Protocol} {first : Cycle} {calls : List NodeCall} {history : List NodeEvent}
    (protocol : n.mpu9150Protocol = some p) (pending : n.resetImu = true)
    (free : first.free = true) (late : 2 ≤ calls.countP (overdue (deadline p first.reset)))
    (ran : n.run (.cycle first :: calls) = .ok (m,history)) : ∃ event ∈ resets history, event.ends = true := by
  unfold ImuNode.run at ran
  rw [List.foldlM_cons] at ran
  obtain ⟨next,advanced,rest⟩ := except_bind_ok.mp ran
  obtain ⟨front,extended,closed | ⟨r,q,error,held,again,status,same,called⟩⟩ :=
    cycle_resets (s := (n,[])) protocol pending free advanced
  · obtain ⟨event,member,ends⟩ := closed
    obtain ⟨added,longer⟩ := foldlM_extends rest
    dsimp only at longer extended
    refine ⟨event,?_,ends⟩
    rw [longer,extended]
    simp [member]
  · have limit : deadline p first.reset = max q.instructionEndTime q.instructionTimeout := by
      rw [← tryReset_deadline called]
      by_cases waiting : p.status = .waiting
      · simp [deadline,waiting,status]
      · rw [same waiting]
    have most : remaining q ≤ 2 := by
      unfold remaining
      split <;> decide
    rw [limit] at late
    obtain ⟨added,longer,event,member,ends⟩ := underway_ends held again ((tryReset_more_iff called).mp rfl)
      (le_trans most late) rest
    refine ⟨event,?_,ends⟩
    dsimp only at longer
    rw [longer]
    simp [member]

def unanswered : List NodeCall := [.cycle ⟨0,unread,sample [],false,⟨.success,1,0,0,[]⟩⟩,
  .cycle ⟨0,unread,sample [],true,⟨.success,5000000001,0,0,[]⟩⟩,
  .cycle ⟨0,unread,sample [],true,⟨.success,5000000002,0,0,unread⟩⟩,.cycle ⟨0,unread,sample [],false,⟨.success,5000000003,0,0,[]⟩⟩]

theorem unanswered_ends : ∃ m history, ImuNode.run ⟨some .connected,true,⟨.replicate 4 0,.replicate 3 0,.replicate 3 0⟩⟩
      (.cycle ⟨0,unread,sample [],true,⟨.success,0,0,0,[]⟩⟩ :: unanswered) = .ok (m,history) ∧
    ∃ event ∈ resets history, event.ends = true := by
  obtain ⟨⟨m,history⟩,ran⟩ : ∃ result, ImuNode.run ⟨some .connected,true,⟨.replicate 4 0,.replicate 3 0,.replicate 3 0⟩⟩
    (.cycle ⟨0,unread,sample [],true,⟨.success,0,0,0,[]⟩⟩ :: unanswered) = .ok result := ⟨_,rfl⟩
  exact ⟨m,history,ran,calibration_ends rfl rfl rfl (by decide) ran⟩

end Calibrating
end HsrbDrivers.ImuSensor

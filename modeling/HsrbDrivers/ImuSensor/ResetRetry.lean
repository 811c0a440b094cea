import HsrbDrivers.ImuSensor.ResetRuns

namespace HsrbDrivers.ImuSensor
namespace MPU9150Protocol

def kImuResetTimeout : Int := 5000000000

-- A turn of the loop of `Reset`: the clock that its condition reads, and what its call meets.
structure ResetTurn where
  check : Int
  call : ResetCall

def resetLoop (limit : Int) : MPU9150Protocol → List ResetTurn → Except Halt (ErrorCode × MPU9150Protocol)
  | _,[] => .error .unfinished
  | p,turn :: turns =>
    if turn.check < limit then
      match p.tryReset turn.call with
      | .error halt => .error halt
      | .ok (error,result,q) =>
        if error ≠ .success then .ok (error,q) else
        if result = .done then .ok (.success,q) else resetLoop limit q turns
    else .ok (.timedOut,p)

def reset (p : MPU9150Protocol) (start timeout : Int) (turns : List ResetTurn) : Except Halt (ErrorCode × MPU9150Protocol) :=
  resetLoop (start + timeout) p turns

structure Ready (p : MPU9150Protocol) : Prop where
  waiting : p.status = .waiting
  sends : ∀ call, p.resetEvents call = [.send call.sent call.now]
  reads : ∀ start turns code network, p.network.receive start turns = some (code,network) → code ≠ .success →
    ∀ uninitialised state, p.readState start turns uninitialised state = .ok (code,{p with network := network},state)

def begun (limit : Int) (turns : List ResetTurn) : List ResetCall :=
  (turns.takeWhile (·.check < limit)).map (·.call)

-- One of the calls receives a reply, or comes to its end behind the time that it may take.
def Resolved (timeout : Int) : MPU9150Network → List ResetCall → Prop
  | _,[] => False
  | network,call :: calls => match network.receive call.start call.turns with
    | none => False
    | some (code,network) => (code = .success ∧ network.parser.isReplyPacket) ∨ timeout < call.now ∨ Resolved timeout network calls

def Settles (network : MPU9150Network) : List ResetCall → Prop
  | [] => True
  | first :: calls => first.sent ≠ .success ∨ ∃ passing late receiving, calls = passing ++ late :: receiving ∧
      (∀ call ∈ passing, call.now ≤ first.now + kMPU9150ResetDuration) ∧ first.now + kMPU9150ResetDuration < late.now ∧
      Resolved (first.later + kMPU9150InstructionTimeout) network receiving

theorem ready_iff (p : MPU9150Protocol) : p.Ready ↔ p.status = .waiting := by
  refine ⟨Ready.waiting,fun waiting => ⟨waiting,?_,?_⟩⟩
  · intro call
    simp [resetEvents,waiting]
  · intro start turns code network received failed uninitialised state
    simp [readState,waiting,received,failed]

theorem begun_early {limit : Int} {turn : ResetTurn} (early : turn.check < limit) (turns : List ResetTurn) :
    begun limit (turn :: turns) = turn.call :: begun limit turns := by
  simp [begun,early]

theorem begun_late {limit : Int} {turn : ResetTurn} (late : ¬ turn.check < limit) (turns : List ResetTurn) :
    begun limit (turn :: turns) = [] := by
  simp [begun,late]

theorem resetLoop_late {limit : Int} {turn : ResetTurn} (late : ¬ turn.check < limit) (p : MPU9150Protocol)
    (turns : List ResetTurn) : resetLoop limit p (turn :: turns) = .ok (.timedOut,p) := by
  simp [resetLoop,late]

theorem resetLoop_more {limit : Int} {turn : ResetTurn} (early : turn.check < limit) {p q : MPU9150Protocol}
    (more : p.tryReset turn.call = .ok (.success,.more,q)) (turns : List ResetTurn) :
    resetLoop limit p (turn :: turns) = resetLoop limit q turns := by
  simp [resetLoop,early,more]

theorem resetLoop_over {limit : Int} {turn : ResetTurn} (early : turn.check < limit) {p q : MPU9150Protocol}
    {code : ErrorCode} {result : ResetResult} (closed : p.tryReset turn.call = .ok (code,result,q))
    (last : code ≠ .success ∨ result = .done) (turns : List ResetTurn) :
    resetLoop limit p (turn :: turns) = .ok (code,q) := by
  by_cases failed : code = .success
  · have done := last.resolve_left (not_not.mpr failed)
    simp [resetLoop,early,closed,failed,done]
  · simp [resetLoop,early,closed,failed]

section
variable {limit : Int} {p q : MPU9150Protocol} {turns : List ResetTurn} {code : ErrorCode}

theorem resetLoop_receives (status : p.status = .receiveResetReturn) (returned : resetLoop limit p turns = .ok (code,q)) :
    q.status = .waiting ↔ Resolved p.instructionTimeout p.network (begun limit turns) := by
  induction turns generalizing p with
  | nil => cases returned
  | cons turn turns ih =>
      by_cases early : turn.check < limit
      case neg =>
        rw [resetLoop_late early] at returned
        cases returned
        simp [begun_late early,Resolved,status]
      rw [begun_early early]
      cases received : p.network.receive turn.call.start turn.call.turns with
      | none => simp [resetLoop,early,tryReset,status,received] at returned
      | some answer =>
          rcases answer with ⟨answered,network⟩
          simp only [Resolved,received]
          by_cases reply : answered = .success ∧ network.parser.isReplyPacket
          · have done : p.tryReset turn.call = .ok (.success,.done,{p with network := network,status := .waiting}) := by
              simp [tryReset,status,received,reply]
            rw [resetLoop_over early done (.inr rfl)] at returned
            cases returned
            exact iff_of_true rfl (.inl reply)
          have unanswered : answered ≠ .success ∨ ¬ network.parser.isReplyPacket := Decidable.not_and_iff_not_or_not.mp reply
          by_cases late : p.instructionTimeout < turn.call.now
          · have closed : p.tryReset turn.call = .ok (.timedOut,.error,{p with network := network,status := .waiting}) := by
              simp only [tryReset,status,received,if_pos unanswered,gt_iff_lt,if_pos late]
            rw [resetLoop_over early closed (.inl (by decide))] at returned
            cases returned
            exact iff_of_true rfl (.inr (.inl late))
          · have more : p.tryReset turn.call = .ok (.success,.more,{p with network := network}) := by
              simp only [tryReset,status,received,if_pos unanswered,gt_iff_lt,if_neg late]
            rw [resetLoop_more early more] at returned
            simpa [reply,late] using ih (p := {p with network := network}) status returned

theorem resetLoop_waits (status : p.status = .waitForReset) (returned : resetLoop limit p turns = .ok (code,q)) :
    q.status = .waiting ↔ ∃ passing late receiving, begun limit turns = passing ++ late :: receiving ∧
      (∀ call ∈ passing, call.now ≤ p.instructionEndTime) ∧ p.instructionEndTime < late.now ∧
      Resolved p.instructionTimeout p.network receiving := by
  induction turns with
  | nil => cases returned
  | cons turn turns ih =>
      by_cases early : turn.check < limit
      case neg =>
        rw [resetLoop_late early] at returned
        cases returned
        simp [begun_late early,status]
      rw [begun_early early]
      by_cases late : p.instructionEndTime < turn.call.now
      · have more : p.tryReset turn.call = .ok (.success,.more,{p with status := .receiveResetReturn}) := by
          simp [tryReset,status,late]
        rw [resetLoop_more early more] at returned
        refine (resetLoop_receives rfl returned).trans ⟨fun resolved => ⟨[],_,_,rfl,by simp,late,resolved⟩,?_⟩
        rintro ⟨passing,behind,receiving,split,before,_,resolved⟩
        cases passing with
        | nil =>
            cases split
            exact resolved
        | cons one passing =>
            obtain ⟨rfl,_⟩ := List.cons.inj split
            exact absurd late (Int.not_lt.mpr (before _ List.mem_cons_self))
      · have more : p.tryReset turn.call = .ok (.success,.more,p) := by simp [tryReset,status,late]
        rw [resetLoop_more early more] at returned
        refine (ih returned).trans ⟨?_,?_⟩
        · rintro ⟨passing,behind,receiving,split,before,after,resolved⟩
          refine ⟨turn.call :: passing,behind,receiving,by rw [split,List.cons_append],?_,after,resolved⟩
          exact List.forall_mem_cons.mpr ⟨Int.not_lt.mp late,before⟩
        · rintro ⟨passing,behind,receiving,split,before,after,resolved⟩
          cases passing with
          | nil =>
              cases split
              exact absurd after late
          | cons one passing =>
              exact ⟨passing,behind,receiving,(List.cons.inj split).2,(List.forall_mem_cons.mp before).2,after,resolved⟩

end

-- `Reset` leaves a reset half done exactly when the limit of its caller comes before the
-- answer to the command it has sent and before the end of the time that is set for it.
theorem reset_ready_iff {p q : MPU9150Protocol} {start timeout : Int} {turns : List ResetTurn} {code : ErrorCode}
    (waiting : p.status = .waiting) (returned : p.reset start timeout turns = .ok (code,q)) :
    q.Ready ↔ Settles p.network (begun (start + timeout) turns) := by
  rw [ready_iff]
  unfold reset at returned
  cases turns with
  | nil => cases returned
  | cons turn turns =>
      by_cases early : turn.check < start + timeout
      case neg =>
        rw [resetLoop_late early] at returned
        cases returned
        simp [begun_late early,Settles,waiting]
      rw [begun_early early]
      by_cases sent : turn.call.sent = .success
      · have more : p.tryReset turn.call = .ok (.success,.more,{p with
            instructionEndTime := turn.call.now + kMPU9150ResetDuration
            instructionTimeout := turn.call.later + kMPU9150InstructionTimeout
            status := .waitForReset}) := by
          simp [tryReset,waiting,sent]
        rw [resetLoop_more early more] at returned
        simpa [Settles,sent] using resetLoop_waits rfl returned
      · have failed : p.tryReset turn.call = .ok (turn.call.sent,.error,p) := by simp [tryReset,waiting,sent]
        rw [resetLoop_over early failed (.inl sent)] at returned
        cases returned
        exact iff_of_true waiting (.inl sent)

theorem answer_fits : ([0x40,0x47,0x01,0x77] : List UInt8).length ≤ kBufferSize := by decide

def answeredTurns : List ResetTurn := [⟨0,⟨.success,0,0,0,[]⟩⟩,⟨3000000001,⟨.success,3000000001,0,0,[]⟩⟩,
  ⟨3000000002,⟨.success,3000000002,0,0,[⟨.read ⟨_,answer_fits⟩,0⟩]⟩⟩]

theorem answered_ready : ∃ q, connected.reset 0 kImuResetTimeout answeredTurns = .ok (.success,q) ∧ q.Ready := by
  have returned : ∃ q, connected.reset 0 kImuResetTimeout answeredTurns = .ok (.success,q) := ⟨_,rfl⟩
  obtain ⟨q,returned⟩ := returned
  refine ⟨q,returned,(reset_ready_iff rfl returned).mpr (.inr ⟨[],_,_,rfl,by simp,by decide,?_⟩)⟩
  exact .inl ⟨rfl,rfl⟩

theorem unanswered_unready : ¬ ∀ (p q : MPU9150Protocol) start timeout turns code, p.status = .waiting →
    p.reset start timeout turns = .ok (code,q) → q.Ready := by
  intro every
  have left := every connected _ 0 kImuResetTimeout [⟨0,⟨.success,0,0,0,[]⟩⟩,⟨kImuResetTimeout,⟨.success,0,0,0,[]⟩⟩] .timedOut rfl rfl
  cases left.waiting

end MPU9150Protocol
end HsrbDrivers.ImuSensor

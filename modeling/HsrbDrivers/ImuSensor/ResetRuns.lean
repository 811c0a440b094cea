import HsrbDrivers.ImuSensor.Protocol
import HsrbDrivers.Library.Session

namespace HsrbDrivers.ImuSensor

-- What happens in a run: a reset command is sent with some result at some time, the clock is
-- looked at while the reset goes on, the reply is waited for, `TryReset` returns a result,
-- or `ReadState` finds one state at its caller and leaves another.
inductive ResetEvent where
  | send (error : ErrorCode) (now : Int)
  | observe (now : Int)
  | delivery (reply : Bool)
  | returned (result : ResetResult)
  | read (state state' : ImuState)

namespace ResetEvent

def sends : ResetEvent → Bool
  | send error _ => error = .success
  | _ => false

def ends : ResetEvent → Bool
  | returned result => result ≠ .more
  | _ => false

end ResetEvent

inductive Call where
  | readState (start : Int) (turns : List Turn) (uninitialised : MPU9150State) (state : ImuState)
  | tryReset (call : MPU9150Protocol.ResetCall)

namespace MPU9150Protocol

def resetEvents (p : MPU9150Protocol) (call : ResetCall) : List ResetEvent :=
  match p.status with
  | .waiting => [.send call.sent call.now]
  | .waitForReset => [.observe call.now]
  | .receiveResetReturn => match p.network.receive call.start call.turns with
    | none => []
    | some (error,network) => [.delivery (decide (error = .success) && network.parser.isReplyPacket)]

def advance (s : MPU9150Protocol × List ResetEvent) : Call → Except Halt (MPU9150Protocol × List ResetEvent)
  | .readState start turns uninitialised state => do
    let (_,q,state') ← s.1.readState start turns uninitialised state
    return (q,s.2 ++ [.read state state'])
  | .tryReset call => do
    let (_,result,q) ← s.1.tryReset call
    return (q,s.2 ++ (s.1.resetEvents call ++ [.returned result]))

def run (p : MPU9150Protocol) (calls : List Call) : Except Halt (MPU9150Protocol × List ResetEvent) :=
  calls.foldlM advance (p,[])

end MPU9150Protocol

namespace Resetting
open ResetEvent

def Quiet (history : List ResetEvent) : Prop := ∀ event ∈ history, event.sends = false ∧ event.ends = false

-- A reset command was sent and `kDone` or `kError` is still to come.
def Outstanding (history : List ResetEvent) : Prop :=
  ∃ earlier now later, history = earlier ++ .send .success now :: later ∧ ∀ event ∈ later, event.ends = false

-- Behind the latest reset command sent a time more than the reset duration later was
-- observed, and then a reply was delivered.
def Completed (history : List ResetEvent) : Prop :=
  ∃ earlier now first observed second third,
    history = earlier ++ .send .success now :: (first ++ .observe observed :: (second ++ .delivery true :: third)) ∧
      now + kMPU9150ResetDuration < observed ∧ ∀ event ∈ first ++ second ++ third, event.sends = false

def Allowed (before : List ResetEvent) : ResetEvent → Prop
  | .returned .done => Completed before
  | .read state state' => Outstanding before → state' = state
  | .send _ _ => ¬ Outstanding before
  | _ => True

theorem quiet_append {history : List ResetEvent} {event : ResetEvent} (quiet : Quiet history) (silent : event.sends = false)
    (going : event.ends = false) : Quiet (history ++ [event]) := by
  intro one member
  rcases List.mem_append.mp member with old | new
  · exact quiet one old
  · rw [List.mem_singleton.mp new]
    exact ⟨silent,going⟩

theorem ended_closed {history : List ResetEvent} {event : ResetEvent} (ended : event.ends = true) :
    ¬ Outstanding (history ++ [event]) := by
  rintro ⟨earlier,now,later,split,going⟩
  rcases Session.extended_split split with ⟨_,rfl,_⟩ | ⟨rest,rfl,_⟩
  · cases ended
  · have still := going event (by simp)
    rw [ended] at still
    cases still

theorem closed_append {history : List ResetEvent} {event : ResetEvent} (closed : ¬ Outstanding history)
    (silent : event.sends = false) : ¬ Outstanding (history ++ [event]) := by
  rintro ⟨earlier,now,later,split,going⟩
  rcases Session.extended_split split with ⟨_,rfl,_⟩ | ⟨rest,rfl,same⟩
  · cases silent
  · exact closed ⟨earlier,now,rest,same,fun one member => going one (List.mem_append_left _ member)⟩

def Tracks (p : MPU9150Protocol) (history : List ResetEvent) : Prop :=
  match p.status with
  | .waiting => ¬ Outstanding history ∧ history.countP sends ≤ history.countP ends
  | .waitForReset => ∃ earlier now later, history = earlier ++ .send .success now :: later ∧ Quiet later ∧
      p.instructionEndTime = now + kMPU9150ResetDuration ∧ history.countP sends ≤ history.countP ends + 1
  | .receiveResetReturn => ∃ earlier now first observed second,
      history = earlier ++ .send .success now :: (first ++ .observe observed :: second) ∧ Quiet first ∧ Quiet second ∧
      now + kMPU9150ResetDuration < observed ∧ history.countP sends ≤ history.countP ends + 1

theorem tracks_same {p q : MPU9150Protocol} {history : List ResetEvent} (status : q.status = p.status)
    (endTime : q.instructionEndTime = p.instructionEndTime) (tracks : Tracks p history) : Tracks q history := by
  unfold Tracks at tracks ⊢
  rwa [status,endTime]

theorem tracks_append {p : MPU9150Protocol} {history : List ResetEvent} {event : ResetEvent} (tracks : Tracks p history)
    (silent : event.sends = false) (going : event.ends = false) : Tracks p (history ++ [event]) := by
  have sent : (history ++ [event]).countP sends = history.countP sends := by simp [silent]
  have ended : (history ++ [event]).countP ends = history.countP ends := by simp [going]
  unfold Tracks at tracks ⊢
  rw [sent,ended]
  cases status : p.status with
  | waiting =>
      rw [status] at tracks
      exact ⟨closed_append tracks.1 silent,tracks.2⟩
  | waitForReset =>
      rw [status] at tracks
      obtain ⟨earlier,now,later,rfl,quiet,deadline,counted⟩ := tracks
      exact ⟨earlier,now,later ++ [event],by simp,quiet_append quiet silent going,deadline,counted⟩
  | receiveResetReturn =>
      rw [status] at tracks
      obtain ⟨earlier,now,first,observed,second,rfl,quiet,still,late,counted⟩ := tracks
      exact ⟨earlier,now,first,observed,second ++ [event],by simp,quiet,quiet_append still silent going,late,counted⟩

theorem readState_frame {p q : MPU9150Protocol} {start : Int} {turns : List Turn} {uninitialised : MPU9150State}
    {state state' : ImuState} {error : ErrorCode} (returned : p.readState start turns uninitialised state = .ok (error,q,state')) :
    q.status = p.status ∧ q.instructionEndTime = p.instructionEndTime ∧ (p.status ≠ .waiting → state' = state) := by
  by_cases waiting : p.status = .waiting
  · unfold MPU9150Protocol.readState at returned
    rw [if_pos waiting] at returned
    split at returned
    · cases returned
    · split at returned
      · cases returned
        exact ⟨rfl,rfl,fun busy => absurd waiting busy⟩
      · split at returned
        · cases returned
        · cases returned
          exact ⟨rfl,rfl,fun busy => absurd waiting busy⟩
  · rw [MPU9150Protocol.readState_busy waiting] at returned
    cases returned
    exact ⟨rfl,rfl,fun _ => rfl⟩

structure Held (p : MPU9150Protocol) (history : List ResetEvent) : Prop where
  orderly : Session.Orderly Allowed history
  tracks : Tracks p history

theorem readState_step {p q : MPU9150Protocol} {history : List ResetEvent} (tracks : Tracks p history)
    (orderly : Session.Orderly Allowed history) {start : Int} {turns : List Turn} {uninitialised : MPU9150State}
    {state state' : ImuState} {error : ErrorCode} (returned : p.readState start turns uninitialised state = .ok (error,q,state')) :
    Held q (history ++ [ResetEvent.read state state']) := by
  obtain ⟨status,endTime,untouched⟩ := readState_frame returned
  constructor
  · refine Session.orderly_append orderly fun outstanding => untouched fun waiting => ?_
    unfold Tracks at tracks
    rw [waiting] at tracks
    exact tracks.1 outstanding
  · exact tracks_same status endTime (tracks_append tracks rfl rfl)

theorem tracks_ended {p : MPU9150Protocol} {history : List ResetEvent} {result : ResetResult} (waiting : p.status = .waiting)
    (ended : result ≠ .more) (counted : history.countP sends ≤ history.countP ends + 1) : Tracks p (history ++ [.returned result]) := by
  unfold Tracks
  rw [waiting]
  refine ⟨ended_closed (decide_eq_true ended),?_⟩
  simpa [sends,ends,ended] using counted

theorem tryReset_sends {p q : MPU9150Protocol} {history : List ResetEvent} (tracks : Tracks p history)
    (orderly : Session.Orderly Allowed history) (status : p.status = .waiting) {call : MPU9150Protocol.ResetCall} {error : ErrorCode}
    {result : ResetResult} (returned : p.tryReset call = .ok (error,result,q)) :
    Held q (history ++ [ResetEvent.send call.sent call.now] ++ [ResetEvent.returned result]) := by
  have closed := tracks
  unfold Tracks at closed
  rw [status] at closed
  have sent : Session.Orderly Allowed (history ++ [.send call.sent call.now]) := Session.orderly_append orderly closed.1
  unfold MPU9150Protocol.tryReset at returned
  rw [status] at returned
  dsimp only at returned
  split at returned
  · rename_i failed
    cases returned
    refine ⟨Session.orderly_append sent trivial,tracks_ended status (by decide) ?_⟩
    simpa [sends,ends,failed] using Nat.le_succ_of_le closed.2
  · rename_i succeeded
    have success := not_not.mp succeeded
    cases returned
    refine ⟨Session.orderly_append sent trivial,⟨history,call.now,[.returned .more],?_,?_,rfl,?_⟩⟩
    · simp [success]
    · simp [Quiet,sends,ends]
    · simpa [sends,ends,success] using closed.2

theorem tryReset_observes {p q : MPU9150Protocol} {history : List ResetEvent} (tracks : Tracks p history)
    (orderly : Session.Orderly Allowed history) (status : p.status = .waitForReset) {call : MPU9150Protocol.ResetCall}
    {error : ErrorCode} {result : ResetResult} (returned : p.tryReset call = .ok (error,result,q)) :
    Held q (history ++ [ResetEvent.observe call.now] ++ [ResetEvent.returned result]) := by
  have observed : Tracks p (history ++ [.observe call.now]) := tracks_append tracks rfl rfl
  have seen : Session.Orderly Allowed (history ++ [.observe call.now]) := Session.orderly_append orderly trivial
  unfold MPU9150Protocol.tryReset at returned
  rw [status] at returned
  dsimp only at returned
  split at returned
  · rename_i late
    cases returned
    refine ⟨Session.orderly_append seen trivial,?_⟩
    unfold Tracks at tracks
    rw [status] at tracks
    obtain ⟨earlier,now,later,rfl,quiet,deadline,counted⟩ := tracks
    refine ⟨earlier,now,later,call.now,[.returned .more],by simp,quiet,?_,?_,?_⟩
    · simp [Quiet,sends,ends]
    · rw [← deadline]
      exact late
    · simpa [sends,ends] using counted
  · cases returned
    exact ⟨Session.orderly_append seen trivial,tracks_append observed rfl rfl⟩

theorem tracks_completed {p : MPU9150Protocol} {history : List ResetEvent} (tracks : Tracks p history)
    (status : p.status = .receiveResetReturn) : Completed (history ++ [ResetEvent.delivery true]) := by
  unfold Tracks at tracks
  rw [status] at tracks
  obtain ⟨earlier,now,first,observed,second,rfl,quiet,still,late,_⟩ := tracks
  refine ⟨earlier,now,first,observed,second,[],by simp,late,?_⟩
  intro event member
  rw [List.append_nil] at member
  rcases List.mem_append.mp member with before | after
  · exact (quiet event before).1
  · exact (still event after).1

theorem tryReset_receives {p q : MPU9150Protocol} {history : List ResetEvent} (tracks : Tracks p history)
    (orderly : Session.Orderly Allowed history) (status : p.status = .receiveResetReturn) {call : MPU9150Protocol.ResetCall}
    {error : ErrorCode} {result : ResetResult} (returned : p.tryReset call = .ok (error,result,q)) {code : ErrorCode}
    {network : MPU9150Network} (received : p.network.receive call.start call.turns = some (code,network)) :
    Held q (history ++ [ResetEvent.delivery (decide (code = .success) && network.parser.isReplyPacket)] ++
      [ResetEvent.returned result]) := by
  unfold MPU9150Protocol.tryReset at returned
  rw [status] at returned
  dsimp only at returned
  rw [received] at returned
  dsimp only at returned
  generalize delivered : ResetEvent.delivery (decide (code = .success) && network.parser.isReplyPacket) = delivery
  have silent : delivery.sends = false := by rw [← delivered]; rfl
  have going : delivery.ends = false := by rw [← delivered]; rfl
  have waited : Session.Orderly Allowed (history ++ [delivery]) :=
    Session.orderly_append orderly (by rw [← delivered]; trivial)
  have counted : (history ++ [delivery]).countP sends ≤ (history ++ [delivery]).countP ends + 1 := by
    have whole := tracks
    unfold Tracks at whole
    rw [status] at whole
    obtain ⟨_,_,_,_,_,_,_,_,_,counted⟩ := whole
    simpa [silent,going] using counted
  split at returned
  · split at returned
    · cases returned
      exact ⟨Session.orderly_append waited trivial,tracks_ended rfl (by decide) counted⟩
    · cases returned
      have still := tracks_append (tracks_append tracks silent going) (rfl : (returned .more).sends = false) rfl
      exact ⟨Session.orderly_append waited trivial,tracks_same status.symm rfl still⟩
  · rename_i answered
    obtain ⟨success,reply⟩ := not_or.mp answered
    cases returned
    have completed : ResetEvent.delivery true = delivery := by simp [← delivered,not_not.mp success,not_not.mp reply]
    refine ⟨Session.orderly_append waited ?_,tracks_ended rfl (by decide) counted⟩
    rw [← completed]
    exact tracks_completed tracks status

theorem tryReset_step {p q : MPU9150Protocol} {history : List ResetEvent} (tracks : Tracks p history)
    (orderly : Session.Orderly Allowed history) {call : MPU9150Protocol.ResetCall} {error : ErrorCode} {result : ResetResult}
    (returned : p.tryReset call = .ok (error,result,q)) :
    Held q (history ++ (p.resetEvents call ++ [ResetEvent.returned result])) := by
  rw [← List.append_assoc,MPU9150Protocol.resetEvents]
  cases status : p.status with
  | waiting => exact tryReset_sends tracks orderly status returned
  | waitForReset => exact tryReset_observes tracks orderly status returned
  | receiveResetReturn =>
      cases received : p.network.receive call.start call.turns with
      | none =>
          unfold MPU9150Protocol.tryReset at returned
          rw [status] at returned
          dsimp only at returned
          rw [received] at returned
          cases returned
      | some answer => exact tryReset_receives tracks orderly status returned received

theorem advance_step {s t : MPU9150Protocol × List ResetEvent} {call : Call}
    (holds : Held s.1 s.2) (advanced : MPU9150Protocol.advance s call = .ok t) : Held t.1 t.2 := by
  obtain ⟨orderly,tracks⟩ := holds
  cases call with
  | readState start turns uninitialised state =>
      obtain ⟨⟨error,q,state'⟩,returned,advanced⟩ := except_bind_ok.mp advanced
      cases advanced
      exact readState_step tracks orderly returned
  | tryReset call =>
      obtain ⟨⟨error,result,q⟩,returned,advanced⟩ := except_bind_ok.mp advanced
      cases advanced
      exact tryReset_step tracks orderly returned

-- In every run `kDone` comes behind a completed reset, `ReadState` leaves its caller's state
-- alone during a reset, and a command is sent only when the one before it has its result.
theorem reset_runs {p q : MPU9150Protocol} (constructed : p.Constructed) {calls : List Call} {history : List ResetEvent}
    (ran : p.run calls = .ok (q,history)) :
    Session.Orderly Allowed history ∧ history.countP sends ≤ history.countP ends + 1 := by
  have started : Held p [] := by
    refine ⟨Session.orderly_nil Allowed,?_⟩
    unfold Tracks
    rw [constructed.1]
    refine ⟨?_,Nat.le_refl 0⟩
    rintro ⟨earlier,now,later,split,_⟩
    simp at split
  obtain ⟨orderly,tracks⟩ := foldlM_preserves (fun _ _ _ holds advanced => advance_step holds advanced) started ran
  refine ⟨orderly,?_⟩
  unfold Tracks at tracks
  cases status : q.status with
  | waiting =>
      rw [status] at tracks
      exact Nat.le_succ_of_le tracks.2
  | waitForReset =>
      rw [status] at tracks
      obtain ⟨_,_,_,_,_,_,counted⟩ := tracks
      exact counted
  | receiveResetReturn =>
      rw [status] at tracks
      obtain ⟨_,_,_,_,_,_,_,_,_,counted⟩ := tracks
      exact counted

def resetCalls : List Call := [.tryReset ⟨.success,0,0,0,[]⟩,.tryReset ⟨.success,3000000001,0,0,[]⟩,
  .tryReset ⟨.success,3000000002,0,0,[⟨.read ⟨[0x40,0x47,0x01,0x77],by decide⟩,0⟩]⟩]

theorem reset_completes : ∃ q history, MPU9150Protocol.connected.run resetCalls = .ok (q,history) ∧
    history.getLast? = some (.returned .done) ∧ Session.Orderly Allowed history ∧
    history.countP sends ≤ history.countP ends + 1 := by
  obtain ⟨⟨q,history⟩,ran,last⟩ : ∃ result, MPU9150Protocol.connected.run resetCalls = .ok result ∧
      result.2.getLast? = some (.returned .done) := ⟨_,rfl,rfl⟩
  exact ⟨q,history,ran,last,reset_runs ⟨rfl,rfl,0,rfl⟩ ran⟩

end Resetting
end HsrbDrivers.ImuSensor

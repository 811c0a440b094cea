import HsrbDrivers.PowerEcu.PowerEcuPeer

namespace HsrbDrivers.PowerEcu
open Reassembly

def kSendGap : Int := 10 * 10^6

-- What is called in a run. The network takes what `SendAll` hands it.
inductive Activity where
  | addCommandQueue (name : List UInt8)
  | receiveAll (time : Int) (outcome : ErrorCode) (chunk : List UInt8)
  | assign (parameters : Parameters)
  | sendAll (time : Int)

structure Clocked where
  protocol : PowerEcuProtocol
  called : Int

namespace Clocked
open PowerEcuProtocol

def advance (s : Clocked) : Activity → Except Stop Clocked
  | .addCommandQueue name => .ok {s with protocol := (s.protocol.addCommandQueue name).2}
  | .receiveAll time outcome chunk => do
    let (_,q) ← s.protocol.receiveAll time outcome chunk
    return {s with protocol := q}
  | .assign parameters => .ok {s with protocol := {s.protocol with parameters := parameters}}
  | .sendAll time => do
    let (_,_,q) ← s.protocol.sendAll time .success
    return ⟨q,time⟩

def Throughout (holds : Clocked → Int → Prop) : Clocked → List Activity → Prop
  | _,[] => True
  | s,activity :: activities => (∀ time, activity = .sendAll time → holds s time) ∧
      ∀ t, s.advance activity = .ok t → Throughout holds t activities

def Timely : Clocked → List Activity → Prop := Throughout fun s time => time ≤ s.called + kSendGap

def Kept : Clocked → List Activity → Prop := Throughout fun s time => time - s.protocol.lastHeartbeatTime < kCommandTimeout

-- At the last call that can be in time for a heartbeat, no command is to be sent.
def Spared : Clocked → List Activity → Prop := Throughout fun s time =>
  kCommandTimeout - kSendGap ≤ time - s.protocol.lastHeartbeatTime →
    s.protocol.commandQueue.data = [] ∨ s.protocol.isWaitingAck = true

def Fed (s : Clocked) : Prop := s.called + kSendGap - s.protocol.lastHeartbeatTime < kCommandTimeout

theorem sendCommand_sent {p q : PowerEcuProtocol} {command frame : List UInt8} {ret : ErrorCode}
    (sent : p.sendCommand command .success = .ok (ret,frame,q)) : ret = .success ∧ q = p.dropAck := by
  obtain ⟨_,⟨_,success,dropped⟩ | ⟨refused,_⟩⟩ := sendCommand_parts sent
  · exact ⟨success,dropped⟩
  · exact absurd rfl refused

theorem sendAll_heartbeatTime {p q : PowerEcuProtocol} {time : Int} {ret : ErrorCode} {transmission : Option Transmission}
    (sent : p.sendAll time .success = .ok (ret,transmission,q)) : q.lastHeartbeatTime =
      if p.commandQueue.size ≠ 0 ∧ p.isWaitingAck = false then p.lastHeartbeatTime
      else if time - p.lastHeartbeatTime > kHeartbeatDuration then p.lastHeartbeatTime + kHeartbeatDuration
      else p.lastHeartbeatTime := by
  unfold sendAll at sent
  by_cases ready : p.commandQueue.size ≠ 0 ∧ p.isWaitingAck = false
  · rw [if_pos ready] at sent ⊢
    obtain ⟨command,_,sent⟩ := except_bind_ok.mp sent
    obtain ⟨⟨code,frame,after⟩,commandSent,sent⟩ := except_bind_ok.mp sent
    obtain ⟨rfl,rfl⟩ := sendCommand_sent commandSent
    cases sent
    rfl
  rw [if_neg ready] at sent ⊢
  by_cases late : time - p.lastHeartbeatTime > kHeartbeatDuration
  · rw [if_pos late] at sent ⊢
    obtain ⟨heart,_,sent⟩ := except_bind_ok.mp sent
    obtain ⟨⟨code,frame,after⟩,commandSent,sent⟩ := except_bind_ok.mp sent
    obtain ⟨rfl,rfl⟩ := sendCommand_sent commandSent
    cases sent
    rfl
  · rw [if_neg late] at sent ⊢
    cases sent
    rfl

theorem addCommandQueue_heartbeatTime (p : PowerEcuProtocol) (name : List UInt8) :
    (p.addCommandQueue name).2.lastHeartbeatTime = p.lastHeartbeatTime := by
  unfold addCommandQueue
  split <;> rfl

theorem receiveAll_heartbeatTime {p q : PowerEcuProtocol} {time : Int} {outcome : ErrorCode} {chunk : List UInt8}
    {reception : Reception} (received : p.receiveAll time outcome chunk = .ok (reception,q)) :
    q.lastHeartbeatTime = p.lastHeartbeatTime := by
  rcases receiveAll_parts received with ⟨_,_,_,rfl⟩ | ⟨_,_,_,_,_,_,⟨_,_,rfl⟩ | ⟨_,_,_,_,_,_,rfl⟩⟩ <;> rfl

theorem advance_consistent {s t : Clocked} {activity : Activity} (valid : Consistent s.protocol)
    (advanced : s.advance activity = .ok t) : Consistent t.protocol := by
  cases activity with
  | addCommandQueue name =>
      cases advanced
      exact addCommandQueue_preserves valid rfl
  | receiveAll time outcome chunk =>
      obtain ⟨⟨reception,q⟩,received,advanced⟩ := except_bind_ok.mp advanced
      cases advanced
      exact receiveAll_preserves valid received
  | assign parameters =>
      cases advanced
      exact ⟨valid.toEquipped,valid.toSettled⟩
  | sendAll time =>
      obtain ⟨⟨ret,transmission,q⟩,sent,advanced⟩ := except_bind_ok.mp advanced
      cases advanced
      exact sendAll_preserves valid sent

theorem advance_fed {s t : Clocked} {activity : Activity} (fed : s.Fed) (other : ∀ time, activity ≠ .sendAll time)
    (advanced : s.advance activity = .ok t) : t.Fed := by
  unfold Fed at fed ⊢
  cases activity with
  | addCommandQueue name =>
      cases advanced
      dsimp only
      rwa [addCommandQueue_heartbeatTime]
  | receiveAll time outcome chunk =>
      obtain ⟨⟨reception,q⟩,received,advanced⟩ := except_bind_ok.mp advanced
      cases advanced
      dsimp only
      rwa [receiveAll_heartbeatTime received]
  | assign parameters =>
      cases advanced
      exact fed
  | sendAll time => exact absurd rfl (other time)

theorem sendAll_fed {s t : Clocked} {time : Int} (fed : s.Fed) (timely : time ≤ s.called + kSendGap)
    (advanced : s.advance (.sendAll time) = .ok t) : t.Fed ↔ (kCommandTimeout - kSendGap ≤ time - s.protocol.lastHeartbeatTime →
      s.protocol.commandQueue.data = [] ∨ s.protocol.isWaitingAck = true) := by
  obtain ⟨⟨ret,transmission,q⟩,sent,advanced⟩ := except_bind_ok.mp advanced
  cases advanced
  have beaten := sendAll_heartbeatTime sent
  unfold Fed at fed ⊢
  dsimp only
  unfold kCommandTimeout kSendGap at *
  unfold kHeartbeatDuration at beaten
  have none : s.protocol.commandQueue.size = 0 ↔ s.protocol.commandQueue.data = [] := List.length_eq_zero_iff
  by_cases ready : s.protocol.commandQueue.size ≠ 0 ∧ s.protocol.isWaitingAck = false
  · rw [if_pos ready] at beaten
    have blocked : ¬ (s.protocol.commandQueue.data = [] ∨ s.protocol.isWaitingAck = true) := by
      simp [← none,ready.1,ready.2]
    rw [beaten]
    constructor
    · intro short late
      omega
    · intro spared
      by_contra late
      exact blocked (spared (by omega))
  · rw [if_neg ready] at beaten
    have free : s.protocol.commandQueue.data = [] ∨ s.protocol.isWaitingAck = true := by
      by_contra blocked
      simp only [not_or,Bool.not_eq_true,← none] at blocked
      exact ready blocked
    refine ⟨fun _ _ => free,fun _ => ?_⟩
    split at beaten <;> omega

theorem advance_spared {s t : Clocked} {activity : Activity} (fed : s.Fed)
    (timely : ∀ time, activity = .sendAll time → time ≤ s.called + kSendGap)
    (spared : ∀ time, activity = .sendAll time → kCommandTimeout - kSendGap ≤ time - s.protocol.lastHeartbeatTime →
      s.protocol.commandQueue.data = [] ∨ s.protocol.isWaitingAck = true)
    (advanced : s.advance activity = .ok t) : t.Fed := by
  by_cases other : ∀ time, activity ≠ .sendAll time
  · exact advance_fed fed other advanced
  · simp only [not_forall,not_not] at other
    obtain ⟨time,rfl⟩ := other
    exact (sendAll_fed fed (timely time rfl) advanced).mpr (spared time rfl)

theorem kept_now {s : Clocked} {time : Int} (fed : s.Fed) (timely : time ≤ s.called + kSendGap) :
    time - s.protocol.lastHeartbeatTime < kCommandTimeout := by
  unfold Fed at fed
  omega

theorem kept_once {s : Clocked} (fed : s.Fed) {time : Int} (inTime : Timely s [.sendAll time]) : Kept s [.sendAll time] := by
  refine ⟨fun same equal => ?_,fun _ _ => trivial⟩
  cases equal
  exact kept_now fed (inTime.1 time rfl)

theorem kept_spared {s : Clocked} (valid : Consistent s.protocol) (fed : s.Fed) {activities : List Activity}
    (timely : Timely s activities) :
    (∀ before time, before <+: activities → Timely s (before ++ [.sendAll time]) → Kept s (before ++ [.sendAll time])) ↔
      Spared s activities := by
  induction activities generalizing s with
  | nil =>
      refine ⟨fun _ => trivial,fun _ before time start inTime => ?_⟩
      cases List.prefix_nil.mp start
      exact kept_once fed inTime
  | cons activity activities ih =>
      have next {t : Clocked} (advanced : s.advance activity = .ok t) (fedNext : t.Fed) :=
        ih (advance_consistent valid advanced) fedNext (timely.2 t advanced)
      constructor
      · intro all
        have spared : ∀ time, activity = .sendAll time → kCommandTimeout - kSendGap ≤ time - s.protocol.lastHeartbeatTime →
            s.protocol.commandQueue.data = [] ∨ s.protocol.isWaitingAck = true := by
          rintro time rfl
          obtain ⟨ret,transmission,q,sent⟩ := sendAll_returns time .success valid
          have advanced : s.advance (.sendAll time) = .ok ⟨q,time⟩ := except_bind_ok.mpr ⟨_,sent,rfl⟩
          -- the next call may come as late as allowed
          have inTime : Timely s ([.sendAll time] ++ [.sendAll (time + kSendGap)]) := by
            refine ⟨timely.1,fun t reached => ⟨fun same equal => ?_,fun _ _ => trivial⟩⟩
            cases equal
            cases advanced.symm.trans reached
            exact Int.le_refl _
          have kept := (all [.sendAll time] (time + kSendGap) (List.prefix_append [_] activities) inTime).2 _ advanced
          exact (sendAll_fed fed (timely.1 time rfl) advanced).mp (kept.1 _ rfl)
        refine ⟨spared,fun t advanced => (next advanced (advance_spared fed timely.1 spared advanced)).mp ?_⟩
        intro before time start inTime
        have whole : Timely s ((activity :: before) ++ [.sendAll time]) :=
          ⟨timely.1,fun t' reached => by cases advanced.symm.trans reached; exact inTime⟩
        exact (all (activity :: before) time (List.prefix_cons_inj _ |>.mpr start) whole).2 t advanced
      · intro spared before time start inTime
        cases before with
        | nil => exact kept_once fed inTime
        | cons first before =>
            obtain ⟨rfl,behind⟩ := List.cons_prefix_cons.mp start
            refine ⟨fun same equal => kept_now fed (timely.1 same equal),fun t advanced => ?_⟩
            exact (next advanced (advance_spared fed timely.1 spared.1 advanced)).mpr (spared.2 t advanced) before time behind
              (inTime.2 t advanced)

-- A run whose calls of `SendAll` come in time keeps the heartbeats coming, however its last
-- call is delayed within the gap and wherever the run is broken off, exactly when at none of
-- its calls at the last moment for a heartbeat a command is to be sent.
theorem heartbeat_kept_iff {s : Clocked} (reached : Reachable Constructed Step s.protocol)
    (recent : s.called - s.protocol.lastHeartbeatTime ≤ kHeartbeatDuration) {activities : List Activity}
    (timely : Timely s activities) :
    (∀ before time, before <+: activities → Timely s (before ++ [.sendAll time]) → Kept s (before ++ [.sendAll time])) ↔
      Spared s activities := by
  refine kept_spared (reached_consistent reached) ?_ timely
  unfold Fed
  unfold kHeartbeatDuration at recent
  unfold kCommandTimeout kSendGap
  omega

structure Served (s : Clocked) (beat called : Int) : Prop where
  valid : Consistent s.protocol
  idle : s.protocol.isWaitingAck = false
  empty : s.protocol.commandQueue.data = []
  drained : s.protocol.receiveBuffer.data = []
  beaten : s.protocol.lastHeartbeatTime = beat
  called : s.called = called

def round (time : Int) : List Activity :=
  [.addCommandQueue heartCommandName,.sendAll time,.receiveAll time .success (Message.bytes (.reply 0 0))]

theorem receiveChunk_reply {fd : FrameDecoder Received} (registered : Received.rxackDecoder ∈ fd.decoders)
    {buffer left : PacketBuffer} (drained : buffer.data = []) {memory : Received} {decoding : Decoding Received}
    (decoded : receiveChunk fd buffer memory (Message.bytes (.reply 0 0)) = .ok (left,decoding)) :
    acknowledgements decoding.reports ≠ [] ∧ left.data = [] := by
  have length : (Message.bytes (.reply 0 0)).length = 27 := by
    rw [Message.bytes,Frame.bytes_length]
    exact congrArg (· + 23) (ackData_length 0)
  have held : (buffer.pushBacks (Message.bytes (.reply 0 0))).data = Message.bytes (.reply 0 0) := by
    rw [CircularBuffer.data_pushBacks _ _ (by rw [drained,length]; decide),drained,List.nil_append]
  obtain ⟨reports,next,kept,drain,returned,_⟩ := decodeBuffer_drain fd (buffer.pushBacks (Message.bytes (.reply 0 0))) memory
  cases Except.ok.inj (decoded.symm.trans returned)
  rw [held] at drain
  have stream : Message.bytes (.reply 0 0) ++ [] = [Message.reply 0 0].flatMap Message.bytes := by simp
  obtain ⟨reported,behind⟩ := drain_messages (framer_incremental fd) (framer_framed registered) stream drain
  rw [complete,if_pos (Nat.le_refl _)] at reported
  cases reported with
  | cons first others =>
      cases others
      refine ⟨?_,by simpa using behind⟩
      have acked := Option.ne_none_iff_exists'.mpr ⟨_,first⟩
      simpa [acknowledgements,first] using acked

theorem receiveAll_reply {p : PowerEcuProtocol} (valid : Consistent p) (drained : p.receiveBuffer.data = []) (time : Int) :
    ∃ reception q, p.receiveAll time .success (Message.bytes (.reply 0 0)) = .ok (reception,q) ∧ q.isWaitingAck = false ∧
      q.receiveBuffer.data = [] ∧ (p.isWaitingAck = true → ∃ command, p.commandQueue.data = command :: q.commandQueue.data) ∧
      (p.isWaitingAck = false → q.commandQueue = p.commandQueue) := by
  obtain ⟨reception,q,received⟩ := receiveAll_returns time .success (Message.bytes (.reply 0 0)) valid.queued
  refine ⟨reception,q,received,?_⟩
  rcases receiveAll_parts received with ⟨refused,_⟩ | ⟨left,decoding,_,_,decoded,_,outcome⟩
  · exact absurd rfl refused
  obtain ⟨acked,nothing⟩ := receiveChunk_reply valid.rxack drained decoded
  have flag : decoding.memory.rxack.isReceiveAck = true := by
    rw [Received.receiveChunk_rxack valid.decoders decoded,absorb_isReceiveAck]
    exact .inr acked
  rcases outcome with ⟨_,unacked,rfl⟩ | ⟨_,commandQueue,waiting,_,popped,_,rfl⟩
  · have idle : p.isWaitingAck = false := by
      by_contra waiting
      rw [unacked (Bool.eq_true_of_not_eq_false waiting)] at flag
      cases flag
    refine ⟨idle,nothing,fun waiting => ?_,fun _ => rfl⟩
    rw [idle] at waiting
    cases waiting
  · refine ⟨rfl,nothing,fun _ => CircularBuffer.popFront_some popped,fun idle => ?_⟩
    rw [waiting] at idle
    cases idle

theorem throughout_append {holds : Clocked → Int → Prop} {s t : Clocked} {front : List Activity}
    (ran : front.foldlM advance s = .ok t) (activities : List Activity) :
    Throughout holds s (front ++ activities) ↔ Throughout holds s front ∧ Throughout holds t activities := by
  induction front generalizing s with
  | nil =>
      cases ran
      simp [Throughout]
  | cons activity front ih =>
      rw [List.foldlM_cons] at ran
      obtain ⟨u,advanced,ran⟩ := except_bind_ok.mp ran
      simp only [List.cons_append,Throughout,advanced,Except.ok.injEq,forall_eq',ih ran,and_assoc]

theorem throughout_call {holds : Clocked → Int → Prop} {s : Clocked} {time : Int} :
    Throughout holds s [.sendAll time] ↔ holds s time := by
  simp [Throughout]

theorem round_served {s : Clocked} {beat called : Int} (served : s.Served beat called) (time : Int) :
    ∃ t : Clocked, t.Served beat time ∧ (round time).foldlM advance s = .ok t ∧ ∀ holds : Clocked → Int → Prop,
      Throughout holds s (round time) ↔ holds {s with protocol := (s.protocol.addCommandQueue heartCommandName).2} time := by
  rcases addCommandQueue_parts s.protocol heartCommandName with ⟨_,unknown⟩ | ⟨commandMap,pushed,_,_⟩
  · exact absurd served.valid.heart unknown
  let added : PowerEcuProtocol := {s.protocol with
    commandMap := commandMap
    commandQueue := s.protocol.commandQueue.pushBack heartCommandName}
  have queued : Consistent added := addCommandQueue_preserves served.valid pushed
  have held : (s.protocol.commandQueue.pushBack heartCommandName).data = [heartCommandName] := by
    rw [CircularBuffer.data_pushBack _ _ (by rw [served.empty]; decide),served.empty,List.nil_append]
  have front : added.commandQueue.front? = some heartCommandName := by
    rw [CircularBuffer.front?,held,List.head?_cons]
  have sent := sendAll_queue time front served.idle (queued.encodable _ queued.heart)
  have waiting := sendAll_preserves queued sent
  obtain ⟨reception,q,received,idle,drained,popped,_⟩ := receiveAll_reply waiting served.drained time
  obtain ⟨_,removed⟩ := popped rfl
  have first : s.advance (.addCommandQueue heartCommandName) =
      .ok {s with protocol := (s.protocol.addCommandQueue heartCommandName).2} := rfl
  have second : Clocked.advance {s with protocol := (s.protocol.addCommandQueue heartCommandName).2} (.sendAll time) =
      .ok ⟨_,time⟩ := except_bind_ok.mpr ⟨_,by rw [pushed]; exact sent,rfl⟩
  have third : Clocked.advance ⟨_,time⟩ (.receiveAll time .success (Message.bytes (.reply 0 0))) = .ok ⟨q,time⟩ :=
    except_bind_ok.mpr ⟨_,received,rfl⟩
  refine ⟨⟨q,time⟩,⟨receiveAll_preserves waiting received,idle,?_,drained,?_,rfl⟩,?_,fun holds => ?_⟩
  · exact (List.cons.inj (held.symm.trans removed)).2.symm
  · rw [receiveAll_heartbeatTime received]
    exact served.beaten
  · exact except_bind_ok.mpr ⟨_,first,except_bind_ok.mpr ⟨_,second,except_bind_ok.mpr ⟨_,third,rfl⟩⟩⟩
  · simp [round,Throughout,first]

def beat (time : Int) : List Activity := [.sendAll time,.receiveAll time .success (Message.bytes (.reply 0 0))]

theorem beat_served {s : Clocked} {last called : Int} (served : s.Served last called) {time : Int}
    (due : time - last > kHeartbeatDuration) : ∃ t : Clocked, t.Served (last + kHeartbeatDuration) time ∧
      (beat time).foldlM advance s = .ok t ∧ ∀ holds : Clocked → Int → Prop, Throughout holds s (beat time) ↔ holds s time := by
  obtain ⟨parameters,sent⟩ := sendAll_heartbeat served.empty (by rwa [served.beaten]) served.valid
  have valid := sendAll_preserves served.valid sent
  obtain ⟨reception,q,received,idle,drained,_,kept⟩ := receiveAll_reply valid served.drained time
  have first : s.advance (.sendAll time) = .ok ⟨_,time⟩ := except_bind_ok.mpr ⟨_,sent,rfl⟩
  have second : Clocked.advance ⟨_,time⟩ (.receiveAll time .success (Message.bytes (.reply 0 0))) = .ok ⟨q,time⟩ :=
    except_bind_ok.mpr ⟨_,received,rfl⟩
  refine ⟨⟨q,time⟩,⟨receiveAll_preserves valid received,idle,?_,drained,?_,rfl⟩,?_,fun holds => ?_⟩
  · rw [kept served.idle]
    exact served.empty
  · rw [receiveAll_heartbeatTime received,← served.beaten]
  · exact except_bind_ok.mpr ⟨_,first,except_bind_ok.mpr ⟨_,second,rfl⟩⟩
  · simp [beat,Throughout]

def rounds (called : Int) : Nat → List Activity
  | 0 => []
  | n+1 => round (called + kSendGap) ++ rounds (called + kSendGap) n

theorem rounds_served {s : Clocked} {last called : Int} (served : s.Served last called) (n : Nat) :
    ∃ t : Clocked, t.Served last (called + n * kSendGap) ∧ (rounds called n).foldlM advance s = .ok t ∧
      Timely s (rounds called n) ∧
      (called + n * kSendGap - last < kCommandTimeout - kSendGap → Spared s (rounds called n)) := by
  induction n generalizing s called with
  | zero => exact ⟨s,by simpa using served,rfl,trivial,fun _ => trivial⟩
  | succ n ih =>
      obtain ⟨t,next,first,one⟩ := round_served served (called + kSendGap)
      obtain ⟨u,last,ran,timely,spared⟩ := ih next
      have sum : called + kSendGap + n * kSendGap = called + (n + 1 : Nat) * kSendGap := by
        push_cast
        ring
      rw [sum] at last spared
      have whole : (rounds called (n + 1)).foldlM advance s = .ok u := by
        rw [rounds,List.foldlM_append]
        exact except_bind_ok.mpr ⟨t,first,ran⟩
      refine ⟨u,last,whole,(throughout_append first _).mpr ⟨(one _).mpr ?_,timely⟩,fun early => ?_⟩
      · exact le_of_eq (congrArg (· + kSendGap) served.called.symm)
      · refine (throughout_append first _).mpr ⟨(one _).mpr fun late => ?_,spared early⟩
        rw [addCommandQueue_heartbeatTime,served.beaten] at late
        have gap : 0 ≤ n * kSendGap := mul_nonneg (Int.natCast_nonneg n) (by decide)
        omega

theorem exists_served : ∃ s : Clocked, Reachable Constructed Step s.protocol ∧ s.Served 0 0 := by
  obtain ⟨p,constructed,_⟩ := construct_parts 0
  have fresh := construct_fresh constructed
  refine ⟨⟨p,0⟩,.initial ⟨0,constructed⟩,construct_consistent ⟨0,constructed⟩,fresh.idle,?_,?_,fresh.heartbeat,rfl⟩
  · rw [fresh.queue]
    rfl
  · rw [fresh.buffer]
    rfl

-- Commands for 9.98 s, the heartbeat at the last call that is in time for it, and one more command.
def busy : List Activity := rounds 0 998 ++ (beat (999 * kSendGap) ++ round (1000 * kSendGap))

theorem busy_heartbeat_kept : ∃ s t : Clocked, Reachable Constructed Step s.protocol ∧ s.Served 0 0 ∧
    busy.foldlM advance s = .ok t ∧ t.Served kHeartbeatDuration (1000 * kSendGap) ∧
    Kept s (busy ++ [.sendAll (1001 * kSendGap)]) := by
  obtain ⟨s,reached,served⟩ := exists_served
  obtain ⟨t,commanded,ran,timely,spared⟩ := rounds_served served 998
  obtain ⟨u,beaten,sent,heart⟩ := @beat_served t 0 _ commanded (999 * kSendGap) (by decide)
  obtain ⟨v,ended,acked,command⟩ := round_served beaten (1000 * kSendGap)
  have behind : (beat (999 * kSendGap) ++ round (1000 * kSendGap)).foldlM advance t = .ok v := by
    rw [List.foldlM_append]
    exact except_bind_ok.mpr ⟨u,sent,acked⟩
  have whole : busy.foldlM advance s = .ok v := by
    rw [busy,List.foldlM_append]
    exact except_bind_ok.mpr ⟨t,ran,behind⟩
  have recent : s.called - s.protocol.lastHeartbeatTime ≤ kHeartbeatDuration := by
    rw [served.called,served.beaten]
    decide
  have inTime : Timely s busy := by
    refine (throughout_append ran _).mpr ⟨timely,(throughout_append sent _).mpr ⟨(heart _).mpr ?_,(command _).mpr ?_⟩⟩
    · rw [commanded.called]
      decide
    · rw [beaten.called]
      decide
  have last : Timely s (busy ++ [.sendAll (1001 * kSendGap)]) := by
    refine (throughout_append whole _).mpr ⟨inTime,throughout_call.mpr ?_⟩
    rw [ended.called]
    decide
  have free : Spared s busy := by
    refine (throughout_append ran _).mpr ⟨spared (by decide),(throughout_append sent _).mpr ⟨(heart _).mpr ?_,(command _).mpr ?_⟩⟩
    · exact fun _ => .inl commanded.empty
    · intro late
      rw [addCommandQueue_heartbeatTime,beaten.beaten] at late
      exact absurd late (by decide)
  exact ⟨s,v,reached,served,whole,by simpa using ended,
    (heartbeat_kept_iff reached recent inTime).mpr free busy _ List.prefix_rfl last⟩

theorem heartbeat_starved : ∃ (s : Clocked) (activities : List Activity), Reachable Constructed Step s.protocol ∧
    s.called - s.protocol.lastHeartbeatTime ≤ kHeartbeatDuration ∧ Timely s activities ∧ ¬ Kept s activities := by
  obtain ⟨s,reached,served⟩ := exists_served
  obtain ⟨t,commanded,ran,timely,_⟩ := rounds_served served 999
  refine ⟨s,rounds 0 999 ++ [.sendAll (1000 * kSendGap)],reached,?_,?_,fun kept => ?_⟩
  · rw [served.called,served.beaten]
    decide
  · refine (throughout_append ran _).mpr ⟨timely,throughout_call.mpr ?_⟩
    rw [commanded.called]
    decide
  · have late := throughout_call.mp ((throughout_append ran _).mp kept).2
    rw [commanded.beaten] at late
    exact absurd late (by decide)

end Clocked
end HsrbDrivers.PowerEcu

import HsrbDrivers.PowerEcu.EncodedFrames
import HsrbDrivers.PowerEcu.MainLoop
import HsrbDrivers.PowerEcu.PowerEcuPeer

namespace HsrbDrivers.PowerEcu

def DataEncoder.content (d : DataEncoder π) (m : π) : List UInt8 × List UInt8 := (d.getPacketSizeStr m,d.written m)

theorem content_counts {d : DataEncoder Parameters} (listed : d ∈ protocolEncoders) (other : d.packetName ≠ heartCommandName)
    (m : Parameters) (counts : UInt32) : d.content {m with counts := counts} = d.content m := by
  simp only [protocolEncoders,constructorEncoders,initEncoders,List.cons_append,List.nil_append,List.mem_cons,
    List.not_mem_nil,or_false] at listed
  rcases listed with rfl | rfl | rfl | rfl | rfl | rfl | rfl | rfl | rfl | rfl | rfl | rfl | rfl | rfl | rfl | rfl | rfl |
    rfl | rfl | rfl
  · exact absurd rfl other
  all_goals rfl

theorem FrameEncoder.encode_congr {fe : FrameEncoder π} {d : DataEncoder π} (registered : d ∈ fe.encoders) {m m' : π}
    (same : d.content m = d.content m') (buffer : CircularBuffer UInt8 n) :
    fe.encode m buffer d.packetName = fe.encode m' buffer d.packetName := by
  have found := FrameEncoder.find_eq_some.mpr ⟨registered,rfl⟩
  obtain ⟨size,written⟩ := Prod.mk.inj same
  unfold FrameEncoder.encode
  rw [found]
  dsimp only
  rw [d.encode_buffer,d.encode_buffer,size,written]

namespace Record

@[simp] theorem nothing_queued : nothing.queued = [] := rfl
@[simp] theorem received_queued (released : Option Release) : (received released).queued = [] := rfl
@[simp] theorem nothing_releases : nothing.releases = [] := rfl
@[simp] theorem sent_releases (transmission : Option Transmission) : (sent transmission).releases = [] := rfl
@[simp] theorem received_releases (released : Option Release) : (received released).releases = released.toList := rfl
@[simp] theorem and_releases (r s : Record) : (r.and s).releases = r.releases ++ s.releases := rfl
@[simp] theorem and_transmissions (r s : Record) : (r.and s).transmissions = r.transmissions ++ s.transmissions := rfl

@[simp] theorem and_queued (r s : Record) : (r.and s).queued = r.queued ++ s.queued := by
  simp [queued,Record.and,List.filter_append,List.map_append]

end Record

namespace PowerEcuProtocol

def commandFrame (p : PowerEcuProtocol) (name : List UInt8) : List UInt8 :=
  (p.frameEncoder.encode p.parameters (.empty : PacketBuffer) name).2.data

-- What of the queue is not transmitted yet.
def pending (p : PowerEcuProtocol) : List (List UInt8) :=
  if p.isWaitingAck then p.commandQueue.data.tail else p.commandQueue.data

-- The same encoders, over parameters that differ in the count of heartbeats at most.
structure Alike (p q : PowerEcuProtocol) : Prop where
  encoders : q.frameEncoder = p.frameEncoder
  commands : q.commandMap = p.commandMap
  parameters : q.parameters = {p.parameters with counts := q.parameters.counts}

theorem Alike.refl (p : PowerEcuProtocol) : Alike p p := ⟨rfl,rfl,rfl⟩

theorem Alike.trans {p q r : PowerEcuProtocol} (one : Alike p q) (other : Alike q r) : Alike p r := by
  refine ⟨other.encoders.trans one.encoders,other.commands.trans one.commands,?_⟩
  rw [other.parameters,one.parameters]

theorem Alike.commandFrame {p q : PowerEcuProtocol} (alike : Alike p q) {name : List UInt8}
    (listed : ∀ d ∈ p.frameEncoder.encoders, d ∈ protocolEncoders) (other : name ≠ heartCommandName) :
    q.commandFrame name = p.commandFrame name := by
  unfold PowerEcuProtocol.commandFrame
  rw [alike.encoders,alike.parameters]
  cases found : p.frameEncoder.find name with
  | none => simp only [FrameEncoder.encode,found]
  | some d =>
      obtain ⟨registered,rfl⟩ := FrameEncoder.find_eq_some.mp found
      rw [FrameEncoder.encode_congr registered (content_counts (listed d registered) other p.parameters _)]

structure Sends (p q : PowerEcuProtocol) (time : Int) (transmission : Option Transmission) : Prop where
  alike : Alike p q
  queue : q.commandQueue = p.commandQueue
  pending : (Record.sent transmission).queued ++ q.pending = p.pending
  awaited : q.isWaitingAck = true → (p.isWaitingAck = true ∧ q.lastSendCommandTime = p.lastSendCommandTime) ∨ q.lastSendCommandTime = time
  frame : ∀ t, transmission = some t → t.queued = true → t.frame = p.commandFrame t.command

theorem sendAll_sends {p q : PowerEcuProtocol} {time : Int} {outcome ret : ErrorCode} {transmission : Option Transmission}
    (sent : p.sendAll time outcome = .ok (ret,transmission,q)) : Sends p q time transmission := by
  unfold sendAll at sent
  by_cases ready : p.commandQueue.size ≠ 0 ∧ p.isWaitingAck = false
  · rw [if_pos ready] at sent
    obtain ⟨command,front,sent⟩ := except_bind_ok.mp sent
    obtain ⟨⟨code,frame,after⟩,commandSent,finished⟩ := except_bind_ok.mp sent
    obtain ⟨rest,held⟩ := CircularBuffer.front?_eq_some (frontCommand_ok front)
    obtain ⟨rfl,⟨_,rfl,rfl⟩ | ⟨_,rfl,rfl⟩⟩ := sendCommand_parts commandSent
    · cases finished
      refine ⟨⟨rfl,rfl,rfl⟩,rfl,?_,fun _ => .inr rfl,?_⟩
      · simp [pending,dropAck,ready.2,held,Record.sent,Record.queued]
      · intro t same _
        cases same
        rfl
    · cases finished
      exact ⟨⟨rfl,rfl,rfl⟩,rfl,rfl,fun waiting => .inl ⟨waiting,rfl⟩,nofun⟩
  rw [if_neg ready] at sent
  by_cases late : time - p.lastHeartbeatTime > kHeartbeatDuration
  · rw [if_pos late] at sent
    obtain ⟨heart,mapped,sent⟩ := except_bind_ok.mp sent
    obtain ⟨⟨code,frame,after⟩,commandSent,finished⟩ := except_bind_ok.mp sent
    obtain ⟨_,⟨_,rfl,rfl⟩ | ⟨_,rfl,rfl⟩⟩ := sendCommand_parts commandSent
    · cases finished
      refine ⟨⟨rfl,rfl,rfl⟩,rfl,rfl,fun waiting => .inl ⟨waiting,rfl⟩,?_⟩
      intro t same queued
      cases same
      cases queued
    · cases finished
      exact ⟨⟨rfl,rfl,rfl⟩,rfl,rfl,fun waiting => .inl ⟨waiting,rfl⟩,nofun⟩
  · rw [if_neg late] at sent
    cases sent
    exact ⟨⟨rfl,rfl,rfl⟩,rfl,rfl,fun waiting => .inl ⟨waiting,rfl⟩,nofun⟩

theorem confirmAck_unacked {p q : PowerEcuProtocol} {time : Int} {result ret : ErrorCode} {command : List UInt8}
    (confirmed : p.confirmAck time result = .ok (ret,some ⟨command,false⟩,q)) : time - p.lastSendCommandTime > kCommandTimeout := by
  unfold confirmAck at confirmed
  by_cases idle : p.isWaitingAck = false
  · rw [if_pos idle] at confirmed
    cases confirmed
  rw [if_neg idle] at confirmed
  split at confirmed
  · obtain ⟨_,_,_,_,released,_⟩ := release_ok confirmed
    cases released
  split at confirmed
  · rename_i late
    exact late
  · cases confirmed

structure Receives (p q : PowerEcuProtocol) (time : Int) (released : Option Release) : Prop where
  alike : Alike p q
  pending : q.pending = p.pending
  queue : (released.toList.map Release.command) ++ q.commandQueue.data = p.commandQueue.data
  awaited : q.isWaitingAck = true → p.isWaitingAck = true ∧ released = none
  sendTime : q.lastSendCommandTime = p.lastSendCommandTime
  late : ∀ command, released = some ⟨command,false⟩ → time - p.lastSendCommandTime > kCommandTimeout

theorem receiveAll_receives {p q : PowerEcuProtocol} {time : Int} {outcome : ErrorCode} {chunk : List UInt8} {reception : Reception}
    (received : p.receiveAll time outcome chunk = .ok (reception,q)) : Receives p q time reception.released := by
  have late : ∀ command, reception.released = some ⟨command,false⟩ → time - p.lastSendCommandTime > kCommandTimeout := by
    intro command given
    unfold receiveAll at received
    split at received
    · cases received
      cases given
    · obtain ⟨⟨left,decoding⟩,_,received⟩ := except_bind_ok.mp received
      obtain ⟨⟨result,released,after⟩,confirmed,received⟩ := except_bind_ok.mp received
      cases received
      cases given
      have expired := confirmAck_unacked confirmed
      exact expired
  rcases receiveAll_parts received with ⟨_,rfl,_,rfl⟩ | ⟨_,_,_,_,_,_,⟨none,_,rfl⟩ | ⟨command,commandQueue,waiting,front,popped,released,rfl⟩⟩
  · exact ⟨⟨rfl,rfl,rfl⟩,rfl,rfl,fun waiting => ⟨waiting,rfl⟩,rfl,late⟩
  · refine ⟨⟨rfl,rfl,rfl⟩,rfl,?_,fun waiting => ⟨waiting,none⟩,rfl,late⟩
    rw [none]
    rfl
  · obtain ⟨first,held⟩ := CircularBuffer.popFront_some popped
    obtain ⟨rest,same⟩ := CircularBuffer.front?_eq_some front
    cases held.symm.trans same
    refine ⟨⟨rfl,rfl,rfl⟩,?_,?_,nofun,rfl,late⟩
    · simp [pending,waiting,held]
    · rw [released,held]
      rfl

theorem processTurns_parts {checkRos : Bool} {errorRate : Rat} {startTime : Int} {turns : List Turn} {p q : PowerEcuProtocol}
    {result : ErrorCode} {record : Record} (returned : processTurns checkRos errorRate startTime turns p = .ok (result,record,q)) :
    (result = .success ∧ record = .nothing ∧ q = p ∧ (p.commandQueue.data = [] ∨
      ∃ turn rest, turns = turn :: rest ∧ checkRos = true ∧ turn.ok = false)) ∨
    ∃ turn rest ret transmission after, turns = turn :: rest ∧ p.sendAll turn.sendTime turn.sent = .ok (ret,transmission,after) ∧
      ((result = .operationCanceled ∧ record = .sent transmission ∧ q = after) ∨
      ∃ reception next, after.receiveAll turn.receiveTime turn.received turn.chunk = .ok (reception,next) ∧
        (((result = .operationCanceled ∨ (result = .timedOut ∧ turn.checked - startTime > kProcessCommandQueueTimeOut)) ∧
          record = (Record.sent transmission).and (.received reception.released) ∧ q = next) ∨
        ∃ rest', turn.checked - startTime ≤ kProcessCommandQueueTimeOut ∧
          processTurns checkRos errorRate startTime rest next = .ok (result,rest',q) ∧
          record = ((Record.sent transmission).and (.received reception.released)).and rest')) := by
  cases turns with
  | nil =>
      unfold processTurns at returned
      split at returned
      · rename_i empty
        cases returned
        exact .inl ⟨rfl,rfl,rfl,.inl (List.length_eq_zero_iff.mp empty)⟩
      · cases returned
  | cons turn rest =>
      unfold processTurns at returned
      split at returned
      · rename_i left
        cases returned
        refine .inl ⟨rfl,rfl,rfl,left.imp List.length_eq_zero_iff.mp fun down => ⟨turn,rest,rfl,down.1,down.2⟩⟩
      obtain ⟨⟨ret,transmission,after⟩,sent,returned⟩ := except_bind_ok.mp returned
      refine .inr ⟨turn,rest,ret,transmission,after,rfl,sent,?_⟩
      dsimp only at returned
      split at returned
      · cases returned
        exact .inl ⟨rfl,rfl,rfl⟩
      obtain ⟨⟨reception,next⟩,received,returned⟩ := except_bind_ok.mp returned
      refine .inr ⟨reception,next,received,?_⟩
      dsimp only at returned
      split at returned
      · cases returned
        exact .inl ⟨.inl rfl,rfl,rfl⟩
      split at returned
      · rename_i late
        cases returned
        exact .inl ⟨.inr ⟨rfl,late⟩,rfl,rfl⟩
      · rename_i early
        obtain ⟨⟨result',rest',last⟩,continued,returned⟩ := except_bind_ok.mp returned
        cases returned
        exact .inr ⟨rest',not_lt.mp early,continued,rfl⟩

def Chronological : Int → List Turn → Prop
  | _,[] => True
  | time,turn :: turns => time ≤ turn.sendTime ∧ turn.sendTime ≤ turn.receiveTime ∧ turn.receiveTime ≤ turn.checked ∧
      Chronological turn.checked turns

-- The queue was worked off: each command was transmitted, in order and as the parameters say, and
-- left for its acknowledgement.
structure WorkedOff (p q : PowerEcuProtocol) (record : Record) : Prop where
  alike : Alike p q
  empty : q.commandQueue.data = []
  queued : record.queued = p.pending
  releases : record.releases = p.commandQueue.data.map fun command => ⟨command,true⟩
  frames : ∀ t ∈ record.transmissions, t.queued = true → t.command ≠ heartCommandName → t.frame = p.commandFrame t.command

theorem workedOff_nothing {p : PowerEcuProtocol} (empty : p.commandQueue.data = []) : WorkedOff p p .nothing := by
  refine ⟨Alike.refl p,empty,?_,?_,nofun⟩
  · simp [pending,empty]
  · simp [empty]

-- A command sent in the loop that is given up ends the loop with a time-out: the wait for its
-- acknowledgement is longer than the loop may take.
theorem released_acked {p after next : PowerEcuProtocol} {time sendTime receiveTime : Int} {transmission : Option Transmission}
    {reception : Reception} (sends : Sends p after sendTime transmission) (receives : Receives after next receiveTime reception.released)
    (recent : p.isWaitingAck = true → time ≤ p.lastSendCommandTime) (begun : time ≤ sendTime)
    (waiting : reception.released ≠ none → after.isWaitingAck = true)
    (inTime : receiveTime - time ≤ kProcessCommandQueueTimeOut) :
    reception.released.toList = (reception.released.toList.map Release.command).map fun command => ⟨command,true⟩ := by
  cases given : reception.released with
  | none => rfl
  | some release =>
      obtain ⟨command,acked⟩ := release
      cases acked with
      | true => rfl
      | false =>
          have late := receives.late command given
          have sent : time ≤ after.lastSendCommandTime := by
            rcases sends.awaited (waiting (by simp [given])) with ⟨before,same⟩ | same
            · exact same ▸ recent before
            · exact same ▸ begun
          unfold kCommandTimeout at late
          unfold kProcessCommandQueueTimeOut at inTime
          omega

theorem WorkedOff.transmitted {p q : PowerEcuProtocol} {record : Record} (worked : WorkedOff p q record)
    (other : heartCommandName ∉ p.pending) :
    record.transmissions.filter Transmission.queued = p.pending.map fun name => ⟨name,true,p.commandFrame name⟩ := by
  rw [← worked.queued,Record.queued,List.map_map]
  refine (List.map_id _).symm.trans (List.map_congr_left fun t member => ?_)
  obtain ⟨sent,queued⟩ := List.mem_filter.mp member
  have name : t.command ∈ p.pending := worked.queued ▸ List.mem_map_of_mem member
  have frame := worked.frames t sent queued fun heart => other (heart ▸ name)
  obtain ⟨command,_,_⟩ := t
  simp_all

theorem receiveAll_released {p q : PowerEcuProtocol} {time : Int} {outcome : ErrorCode} {chunk : List UInt8} {reception : Reception}
    (received : p.receiveAll time outcome chunk = .ok (reception,q)) (given : reception.released ≠ none) : p.isWaitingAck = true := by
  rcases receiveAll_parts received with ⟨_,rfl,_⟩ | ⟨_,_,_,_,_,_,⟨none,_⟩ | ⟨_,_,waiting,_⟩⟩
  · exact absurd rfl given
  · exact absurd none given
  · exact waiting

theorem processTurns_works {checkRos : Bool} {errorRate : Rat} {startTime time : Int} {turns : List Turn} {p q : PowerEcuProtocol}
    {record : Record} (listed : ∀ d ∈ p.frameEncoder.encoders, d ∈ protocolEncoders)
    (forward : Chronological time turns) (begun : startTime ≤ time) (up : checkRos = true → ∀ turn ∈ turns, turn.ok = true)
    (recent : p.isWaitingAck = true → startTime ≤ p.lastSendCommandTime)
    (returned : processTurns checkRos errorRate startTime turns p = .ok (.success,record,q)) : WorkedOff p q record := by
  induction turns generalizing p time record with
  | nil =>
      rcases processTurns_parts returned with ⟨_,rfl,rfl,empty | ⟨_,_,none,_⟩⟩ | ⟨_,_,_,_,_,none,_⟩
      · exact workedOff_nothing empty
      · cases none
      · cases none
  | cons turn turns ih =>
      obtain ⟨sendLate,receiveLate,checkLate,later⟩ := forward
      rcases processTurns_parts returned with ⟨_,rfl,rfl,empty | ⟨_,_,split,checked,down⟩⟩ |
        ⟨_,_,ret,transmission,after,split,sent,⟨none,_⟩ | ⟨reception,next,received,⟨none | ⟨none,_⟩,_⟩ | ⟨rest,inTime,continued,rfl⟩⟩⟩
      · exact workedOff_nothing empty
      · cases split
        exact absurd (up checked turn List.mem_cons_self) (by simp [down])
      · cases none
      · cases none
      · cases none
      cases split
      have sends := sendAll_sends sent
      have receives := receiveAll_receives received
      have alike := sends.alike.trans receives.alike
      have sendTime : next.isWaitingAck = true → startTime ≤ next.lastSendCommandTime := by
        intro waiting
        rw [receives.sendTime]
        rcases sends.awaited (receives.awaited waiting).1 with ⟨before,same⟩ | same
        · exact same ▸ recent before
        · omega
      have rest := ih (alike.encoders ▸ listed) later (by omega) (fun checked turn member => up checked turn (List.mem_cons_of_mem _ member)) sendTime continued
      have acked := released_acked sends receives recent (by omega) (receiveAll_released received) (by omega)
      have queue := receives.queue
      rw [sends.queue] at queue
      refine ⟨alike.trans rest.alike,rest.empty,?_,?_,?_⟩
      · simp [rest.queued,receives.pending,sends.pending]
      · simp only [Record.and_releases,Record.sent_releases,Record.received_releases,List.nil_append,rest.releases]
        rw [acked,← List.map_append,queue]
      · intro t member queued other
        simp only [Record.and_transmissions,List.mem_append] at member
        rcases member with (member | none) | member
        · exact sends.frame t (Option.mem_toList.mp member) queued
        · cases none
        · rw [rest.frames t member queued other]
          exact alike.commandFrame listed other

-- However the loop ends, what was transmitted is the front of the queue, and what is not is still there.
structure Keeps (p q : PowerEcuProtocol) (record : Record) : Prop where
  alike : Alike p q
  pending : record.queued ++ q.pending = p.pending
  queue : record.releases.map Release.command ++ q.commandQueue.data = p.commandQueue.data

theorem Sends.keeps {p q : PowerEcuProtocol} {time : Int} {transmission : Option Transmission} (sends : Sends p q time transmission) :
    Keeps p q (.sent transmission) := ⟨sends.alike,sends.pending,by simp [sends.queue]⟩

theorem Receives.keeps {p q : PowerEcuProtocol} {time : Int} {released : Option Release} (receives : Receives p q time released) :
    Keeps p q (.received released) := ⟨receives.alike,by simp [receives.pending],receives.queue⟩

theorem Keeps.trans {p q r : PowerEcuProtocol} {one other : Record} (first : Keeps p q one) (second : Keeps q r other) :
    Keeps p r (one.and other) := by
  refine ⟨first.alike.trans second.alike,?_,?_⟩
  · rw [Record.and_queued,List.append_assoc,second.pending,first.pending]
  · rw [Record.and_releases,List.map_append,List.append_assoc,second.queue,first.queue]

theorem Keeps.refl (p : PowerEcuProtocol) : Keeps p p .nothing := ⟨Alike.refl p,rfl,rfl⟩

theorem processTurns_keeps {checkRos : Bool} {errorRate : Rat} {startTime : Int} {turns : List Turn} {p q : PowerEcuProtocol}
    {result : ErrorCode} {record : Record} (returned : processTurns checkRos errorRate startTime turns p = .ok (result,record,q)) :
    Keeps p q record := by
  induction turns generalizing p record with
  | nil =>
      rcases processTurns_parts returned with ⟨_,rfl,rfl,_⟩ | ⟨_,_,_,_,_,none,_⟩
      · exact Keeps.refl _
      · cases none
  | cons turn turns ih =>
      rcases processTurns_parts returned with ⟨_,rfl,rfl,_⟩ | ⟨_,_,ret,transmission,after,split,sent,rest⟩
      · exact Keeps.refl _
      cases split
      have sends := (sendAll_sends sent).keeps
      rcases rest with ⟨_,rfl,rfl⟩ | ⟨reception,next,received,⟨_,rfl,rfl⟩ | ⟨rest,_,continued,rfl⟩⟩
      · exact sends
      · exact sends.trans (receiveAll_receives received).keeps
      · exact (sends.trans (receiveAll_receives received).keeps).trans (ih continued)

theorem processTurns_stop {checkRos : Bool} {errorRate : Rat} {startTime : Int} {turns : List Turn} {p : PowerEcuProtocol} {stop : Stop}
    (valid : Consistent p) (stopped : processTurns checkRos errorRate startTime turns p = .error stop) : stop = .unfinished := by
  induction turns generalizing p with
  | nil =>
      unfold processTurns at stopped
      split at stopped
      · cases stopped
      · cases stopped
        rfl
  | cons turn turns ih =>
      unfold processTurns at stopped
      split at stopped
      · cases stopped
      obtain ⟨ret,transmission,after,sent⟩ := sendAll_returns turn.sendTime turn.sent valid
      have next := sendAll_preserves valid sent
      obtain ⟨reception,last,received⟩ := receiveAll_returns turn.receiveTime turn.received turn.chunk next.queued
      simp only [bind,Except.bind,sent,received] at stopped
      split at stopped
      · cases stopped
      split at stopped
      · cases stopped
      split at stopped
      · cases stopped
      cases rest : processTurns checkRos errorRate startTime turns last with
      | error e =>
          rw [rest] at stopped
          cases stopped
          exact ih (receiveAll_preserves next received) rest
      | ok result =>
          rw [rest] at stopped
          cases stopped

theorem registerDataEncoder_encoders {p q : PowerEcuProtocol} {encoder : DataEncoder Parameters}
    (registered : p.registerDataEncoder encoder = .ok q) :
    q.frameEncoder.encoders = encoder :: p.frameEncoder.encoders ∧
      q = {p with frameEncoder := q.frameEncoder,commandMap := ⟨encoder.packetName,0,false,0⟩ :: p.commandMap} := by
  unfold registerDataEncoder at registered
  by_cases taken : encoder.packetName ∈ p.frameEncoder.encoders.map DataEncoder.packetName
  · simp only [FrameEncoder.registerDataEncoder,dif_pos taken] at registered
    cases registered
  · simp only [FrameEncoder.registerDataEncoder,dif_neg taken] at registered
    split at registered
    · cases registered
    · cases registered
      exact ⟨rfl,rfl⟩

theorem registerDataDecoder_decoders {p q : PowerEcuProtocol} {decoder : DataDecoder Received}
    (registered : p.registerDataDecoder decoder = .ok q) :
    q.frameDecoder.decoders = decoder :: p.frameDecoder.decoders ∧ q = {p with frameDecoder := q.frameDecoder} := by
  unfold registerDataDecoder at registered
  by_cases taken : decoder.packetName ∈ p.frameDecoder.decoders.map DataDecoder.packetName
  · simp only [FrameDecoder.registerDataDecoder,dif_pos taken] at registered
    cases registered
  · simp only [FrameDecoder.registerDataDecoder,dif_neg taken] at registered
    cases registered
    exact ⟨rfl,rfl⟩

-- Every encoder is one that the protocol registers itself.
def Listed (p : PowerEcuProtocol) : Prop := ∀ d ∈ p.frameEncoder.encoders, d ∈ protocolEncoders

theorem Alike.listed {p q : PowerEcuProtocol} (alike : Alike p q) (listed : Listed p) : Listed q := by
  unfold Listed
  rw [alike.encoders]
  exact listed

def answeredTurn : Turn := ⟨true,0,.success,0,.success,(ackFrame 0).bytes 69,0⟩

end PowerEcuProtocol
end HsrbDrivers.PowerEcu

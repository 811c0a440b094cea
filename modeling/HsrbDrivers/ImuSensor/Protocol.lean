import HsrbDrivers.ImuSensor.Network
import HsrbDrivers.ImuSensor.PacketConverter
import HsrbDrivers.Library.Transition

namespace HsrbDrivers.ImuSensor
open StreamingPacket

-- Times are in nanoseconds.
def kMPU9150ResetDuration : Int := 3000000000
def kMPU9150InstructionTimeout : Int := 5000000000

structure ImuState where
  orientation : Vector Float 4
  angularVelocity : Vector Float 3
  linearAcceleration : Vector Float 3
deriving DecidableEq

inductive ResetResult where
  | done
  | error
  | more
deriving DecidableEq,Repr

inductive ProtocolStatus where
  | waiting
  | waitForReset
  | receiveResetReturn
deriving DecidableEq,Repr

structure MPU9150Protocol where
  network : MPU9150Network
  packetConverter : MPU9150PacketConverter
  status : ProtocolStatus
  instructionEndTime : Int
  instructionTimeout : Int

namespace MPU9150Protocol

def Constructed (p : MPU9150Protocol) : Prop :=
  p.status = .waiting ∧ p.packetConverter = .initial ∧ ∃ length, p.network.parser = .initial length

def copied (s : MPU9150State) : ImuState := ⟨s.orientation,s.angularVelocity,s.linearAcceleration⟩

-- The local that is filled begins as whatever happens to be there.
def readState (p : MPU9150Protocol) (start : Int) (turns : List Turn) (uninitialised : MPU9150State) (state : ImuState) :
    Except Halt (ErrorCode × MPU9150Protocol × ImuState) :=
  if p.status = .waiting then
    match p.network.receive start turns with
    | none => .error .unfinished
    | some (error,network) =>
      if error ≠ .success then .ok (error,{p with network := network},state) else
      match p.packetConverter.toSensorState network.parser.allPackets uninitialised with
      | none => .error .fault
      | some (packetConverter,mpu9150State) =>
        .ok (.success,{p with network := network,packetConverter := packetConverter},copied mpu9150State)
  else .ok (.success,p,state)

-- What a call of `TryReset` meets: the result of the `Send` of the reset command, the
-- clock when it is first and when it is last read, and the turns of a `Receive`.
structure ResetCall where
  sent : ErrorCode
  now : Int
  later : Int
  start : Int
  turns : List Turn

def tryReset (p : MPU9150Protocol) (call : ResetCall) : Except Halt (ErrorCode × ResetResult × MPU9150Protocol) :=
  match p.status with
  | .waiting =>
    if call.sent ≠ .success then .ok (call.sent,.error,p) else
    .ok (.success,.more,{p with
      instructionEndTime := call.now + kMPU9150ResetDuration
      instructionTimeout := call.later + kMPU9150InstructionTimeout
      status := .waitForReset})
  | .waitForReset =>
    if call.now > p.instructionEndTime then .ok (.success,.more,{p with status := .receiveResetReturn})
    else .ok (.success,.more,p)
  | .receiveResetReturn =>
    match p.network.receive call.start call.turns with
    | none => .error .unfinished
    | some (error,network) =>
      let p := {p with network := network}
      if error ≠ .success ∨ ¬ network.parser.isReplyPacket then
        if call.now > p.instructionTimeout then .ok (.timedOut,.error,{p with status := .waiting})
        else .ok (.success,.more,p)
      else .ok (.success,.done,{p with status := .waiting})

inductive Step : MPU9150Protocol → MPU9150Protocol → Prop where
  | readState : p.readState start turns uninitialised state = .ok (error,q,state') → Step p q
  | tryReset : p.tryReset call = .ok (error,result,q) → Step p q
  | setTimeout : Step p {p with network := {p.network with timeout := timeout}}

-- What a call may do to the caller's state: nothing, or put into it the sample of a packet
-- received in this call, all of whose packets are whole streaming packets. A call that
-- touches bytes outside of the packets does neither.
def PublishesSamples (p : MPU9150Protocol) (start : Int) (turns : List Turn) : Prop :=
  ∀ uninitialised state, match p.readState start turns uninitialised state with
    | .error .unfinished => True
    | .error .fault => False
    | .ok (_,_,state') => state' = state ∨ (p.status = .waiting ∧ ∃ bytes, p.network.received start turns = some bytes ∧
        (∀ packet ∈ packetsIn bytes, packet.length = kPacketSize) ∧
        ∃ packet ∈ packetsIn bytes, state' = copied (sample packet))

-- Outside of a reset the bytes received hold no packet, or streaming packets only, of
-- which one is newer than all before or that are more than the converter's index.
def Publishable (p : MPU9150Protocol) (start : Int) (turns : List Turn) : Prop :=
  p.status = .waiting → ∀ bytes, p.network.received start turns = some bytes → packetsIn bytes ≠ [] →
    (∀ packet ∈ packetsIn bytes, packet.length = kPacketSize) ∧
      ((∃ packet : StreamingPacket, packet.bytes ∈ packetsIn bytes ∧ p.packetConverter.lastTimestamp < packet.timestamp) ∨
        p.packetConverter.lastPacketNum < (packetsIn bytes).length)

theorem readState_busy {p : MPU9150Protocol} (busy : p.status ≠ .waiting) (start : Int) (turns : List Turn)
    (uninitialised : MPU9150State) (state : ImuState) : p.readState start turns uninitialised state = .ok (.success,p,state) :=
  if_neg busy

theorem readState_unread {p : MPU9150Protocol} {start : Int} {turns : List Turn} (unread : p.network.received start turns = none)
    (uninitialised : MPU9150State) (state : ImuState) :
    p.readState start turns uninitialised state = .error .unfinished ∨
      ∃ error q, p.readState start turns uninitialised state = .ok (error,q,state) ∧ q.packetConverter = p.packetConverter := by
  by_cases waiting : p.status = .waiting
  case neg => exact .inr ⟨_,_,readState_busy waiting _ _ _ _,rfl⟩
  unfold readState
  rw [if_pos waiting]
  cases received : p.network.receive start turns with
  | none => exact .inl rfl
  | some result =>
      rcases result with ⟨error,network⟩
      obtain ⟨⟨code,parser⟩,looped,same⟩ := Option.map_eq_some_iff.mp received
      have failed := (MPU9150Network.receiveLoop_unread unread looped).1
      cases same
      dsimp only
      rw [if_pos failed]
      exact .inr ⟨_,_,rfl,rfl⟩

theorem readState_read {p : MPU9150Protocol} (waiting : p.status = .waiting) {start : Int} {turns : List Turn} {bytes : List UInt8}
    (arrived : p.network.received start turns = some bytes) (uninitialised : MPU9150State) (state : ImuState) :
    bytes.length ≤ kBufferSize ∧ ∃ network, p.readState start turns uninitialised state =
      if packetsIn bytes = [] then .ok (.noMessageAvailable,{p with network := network},state) else
      match p.packetConverter.toSensorState (packetsIn bytes).flatten uninitialised with
      | none => .error .fault
      | some (packetConverter,mpu9150State) =>
        .ok (.success,{p with network := network,packetConverter := packetConverter},copied mpu9150State) := by
  have between : p.network.parser.reset.Between := ⟨rfl,rfl⟩
  obtain ⟨small,parser,recorded,_,looped⟩ := MPU9150Network.receiveLoop_read arrived between rfl
  refine ⟨small,{p.network with parser := parser},?_⟩
  unfold readState MPU9150Network.receive
  rw [if_pos waiting,looped,Option.map_some]
  dsimp only
  by_cases none : packetsIn bytes = []
  · rw [if_pos none,if_pos none,if_pos (by decide)]
  · rw [if_neg none,if_neg none,if_neg (not_not.mpr rfl),recorded]

def IndexNear (p : MPU9150Protocol) : Prop := p.packetConverter.lastPacketNum * kPacketSize < kBufferSize

theorem readState_near {p q : MPU9150Protocol} (near : p.IndexNear) {start : Int} {turns : List Turn}
    {uninitialised : MPU9150State} {state state' : ImuState} {error : ErrorCode}
    (returned : p.readState start turns uninitialised state = .ok (error,q,state')) : q.IndexNear := by
  by_cases waiting : p.status = .waiting
  case neg =>
    rw [readState_busy waiting] at returned
    cases returned
    exact near
  cases arrived : p.network.received start turns with
  | none =>
      rcases readState_unread arrived uninitialised state with stopped | ⟨code,r,kept,same⟩
      · rw [stopped] at returned
        cases returned
      · rw [kept] at returned
        cases returned
        exact (congrArg (fun c : MPU9150PacketConverter => c.lastPacketNum * kPacketSize < kBufferSize) same).mpr near
  | some bytes =>
      obtain ⟨small,network,read⟩ := readState_read waiting arrived uninitialised state
      rw [read] at returned
      split at returned
      · cases returned
        exact near
      · split at returned
        · cases returned
        · rename_i packetConverter mpu9150State converted
          cases returned
          have held := (packetsIn_parts bytes).1
          rcases MPU9150PacketConverter.toSensorState_index converted with same | inside
          · exact (congrArg (fun n => n * kPacketSize < kBufferSize) same).mpr near
          · have below := Nat.lt_of_lt_of_le (Nat.mul_lt_mul_of_pos_right inside (by decide : 0 < kPacketSize)) (Nat.div_mul_le_self _ _)
            show packetConverter.lastPacketNum * kPacketSize < kBufferSize
            omega

theorem tryReset_converter {p q : MPU9150Protocol} {call : ResetCall} {error : ErrorCode} {result : ResetResult}
    (returned : p.tryReset call = .ok (error,result,q)) : q.packetConverter = p.packetConverter := by
  unfold tryReset at returned
  cases met : p.status with
  | waiting =>
      rw [met] at returned
      dsimp only at returned
      split at returned
      · cases returned
        rfl
      · cases returned
        rfl
  | waitForReset =>
      rw [met] at returned
      dsimp only at returned
      split at returned
      · cases returned
        rfl
      · cases returned
        rfl
  | receiveResetReturn =>
      rw [met] at returned
      dsimp only at returned
      split at returned
      · cases returned
      · split at returned
        · split at returned
          · cases returned
            rfl
          · cases returned
            rfl
        · cases returned
          rfl

theorem reachable_near {p : MPU9150Protocol} (reached : Reachable Constructed Step p) : p.IndexNear := by
  refine reached.invariant ?_ ?_
  · rintro s ⟨_,fresh,_⟩
    unfold IndexNear
    rw [fresh]
    decide
  · intro s t near step
    cases step with
    | readState returned => exact readState_near near returned
    | tryReset returned =>
        unfold IndexNear
        rw [tryReset_converter returned]
        exact near
    | setTimeout => exact near

theorem exists_batch {packets : List (List UInt8)} (whole : ∀ packet ∈ packets, packet.length = kPacketSize) :
    ∃ batch : List StreamingPacket, packets = batch.map bytes := by
  induction packets with
  | nil => exact ⟨[],rfl⟩
  | cons packet packets ih =>
      obtain ⟨batch,same⟩ := ih fun one member => whole one (List.mem_cons_of_mem _ member)
      exact ⟨⟨packet,whole packet List.mem_cons_self⟩ :: batch,congrArg (packet :: ·) same⟩

theorem exists_other (state : ImuState) : ∃ other, state ≠ other := by
  have differ : (⟨.replicate 4 0,.replicate 3 0,.replicate 3 0⟩ : ImuState) ≠ ⟨.replicate 4 1,.replicate 3 0,.replicate 3 0⟩ := by
    decide +kernel
  by_cases zeros : state = ⟨.replicate 4 0,.replicate 3 0,.replicate 3 0⟩
  · exact ⟨_,zeros ▸ differ⟩
  · exact ⟨_,zeros⟩

theorem publishes_batch {p : MPU9150Protocol} (near : p.IndexNear) (waiting : p.status = .waiting) {start : Int}
    {turns : List Turn} {bytes : List UInt8} (arrived : p.network.received start turns = some bytes) (some : packetsIn bytes ≠ [])
    {batch : List StreamingPacket} (same : packetsIn bytes = batch.map StreamingPacket.bytes) :
    p.PublishesSamples start turns ↔
      (∃ packet ∈ batch, p.packetConverter.lastTimestamp < packet.timestamp) ∨ p.packetConverter.lastPacketNum < batch.length := by
  have joinedUp : (packetsIn bytes).flatten = joined batch := congrArg List.flatten same
  have held := (packetsIn_parts bytes).1
  have small : bytes.length ≤ kBufferSize :=
    (readState_read waiting arrived (sample []) ⟨.replicate 4 0,.replicate 3 0,.replicate 3 0⟩).1
  have short : (joined batch).length < 2^32 := by
    rw [← joinedUp]
    exact Nat.lt_of_le_of_lt (Nat.le_trans held small) (by decide)
  constructor
  · intro publishes
    by_contra none
    have stale : ∀ packet ∈ batch, packet.timestamp ≤ p.packetConverter.lastTimestamp :=
      fun packet member => Nat.not_lt.mp fun newer => none (.inl ⟨packet,member,newer⟩)
    have behind := Nat.not_lt.mp fun inside => none (.inr inside)
    have reach : p.packetConverter.lastPacketNum * kPacketSize + kPacketSize < 2^32 :=
      Nat.lt_of_lt_of_le (Nat.add_lt_add_right near kPacketSize) (by decide)
    have called := publishes (sample []) ⟨.replicate 4 0,.replicate 3 0,.replicate 3 0⟩
    obtain ⟨_,network,read⟩ := readState_read waiting arrived (sample []) ⟨.replicate 4 0,.replicate 3 0,.replicate 3 0⟩
    rw [read,if_neg some,joinedUp,MPU9150PacketConverter.toSensorState_stale short stale behind reach] at called
    exact called
  · intro fresh uninitialised state
    have inside := MPU9150PacketConverter.latest_inside fresh
    have present := List.getElem?_eq_getElem inside
    obtain ⟨_,network,read⟩ := readState_read waiting arrived uninitialised state
    rw [read,if_neg some,joinedUp,MPU9150PacketConverter.toSensorState_present _ short present]
    refine .inr ⟨waiting,bytes,arrived,?_,_,?_,rfl⟩
    · rw [same]
      intro packet member
      obtain ⟨one,_,rfl⟩ := List.mem_map.mp member
      exact one.whole
    · rw [same]
      exact List.mem_map_of_mem (List.getElem_mem inside)

theorem overwrites_mixture {p : MPU9150Protocol} (waiting : p.status = .waiting) {start : Int} {turns : List Turn}
    {bytes : List UInt8} (arrived : p.network.received start turns = some bytes) (some : packetsIn bytes ≠ [])
    (mixture : ¬ ∀ packet ∈ packetsIn bytes, packet.length = kPacketSize) : ¬ p.PublishesSamples start turns := by
  intro publishes
  cases converted : p.packetConverter.toSensorState (packetsIn bytes).flatten (sample []) with
  | none =>
      obtain ⟨_,network,read⟩ := readState_read waiting arrived (sample []) ⟨.replicate 4 0,.replicate 3 0,.replicate 3 0⟩
      have called := publishes (sample []) ⟨.replicate 4 0,.replicate 3 0,.replicate 3 0⟩
      rw [read,if_neg some,converted] at called
      exact called
  | some result =>
      obtain ⟨other,differs⟩ := exists_other (copied result.2)
      obtain ⟨_,network,read⟩ := readState_read waiting arrived (sample []) other
      have called := publishes (sample []) other
      rw [read,if_neg some,converted] at called
      rcases called with unchanged | ⟨_,again,arrivedAgain,whole,_⟩
      · exact differs unchanged
      · rw [arrived] at arrivedAgain
        cases arrivedAgain
        exact mixture whole

theorem readState_publishes_iff {p : MPU9150Protocol} (reached : Reachable Constructed Step p) (start : Int) (turns : List Turn) :
    p.PublishesSamples start turns ↔ p.Publishable start turns := by
  by_cases waiting : p.status = .waiting
  case neg =>
    refine ⟨fun _ reading => absurd reading waiting,fun _ uninitialised state => ?_⟩
    rw [readState_busy waiting]
    exact .inl rfl
  cases arrived : p.network.received start turns with
  | none =>
      refine ⟨fun _ _ bytes read => ?_,fun _ uninitialised state => ?_⟩
      · rw [arrived] at read
        cases read
      · rcases readState_unread arrived uninitialised state with stopped | ⟨error,q,kept,_⟩
        · rw [stopped]
          trivial
        · rw [kept]
          exact .inl rfl
  | some bytes =>
      have read : p.Publishable start turns ↔ (packetsIn bytes ≠ [] → (∀ packet ∈ packetsIn bytes, packet.length = kPacketSize) ∧
          ((∃ packet : StreamingPacket, packet.bytes ∈ packetsIn bytes ∧ p.packetConverter.lastTimestamp < packet.timestamp) ∨
            p.packetConverter.lastPacketNum < (packetsIn bytes).length)) := by
        refine ⟨fun publishable => publishable waiting bytes arrived,fun given _ again arrivedAgain => ?_⟩
        rw [arrived] at arrivedAgain
        cases arrivedAgain
        exact given
      rw [read]
      by_cases none : packetsIn bytes = []
      · refine ⟨fun _ some => absurd none some,fun _ uninitialised state => ?_⟩
        obtain ⟨_,network,called⟩ := readState_read waiting arrived uninitialised state
        rw [called,if_pos none]
        exact .inl rfl
      by_cases whole : ∀ packet ∈ packetsIn bytes, packet.length = kPacketSize
      case neg =>
        refine ⟨fun publishes => absurd publishes (overwrites_mixture waiting arrived none whole),fun given => ?_⟩
        exact absurd (given none).1 whole
      obtain ⟨batch,same⟩ := exists_batch whole
      have newer : (∃ packet : StreamingPacket, packet.bytes ∈ packetsIn bytes ∧
          p.packetConverter.lastTimestamp < packet.timestamp) ↔
          ∃ packet ∈ batch, p.packetConverter.lastTimestamp < packet.timestamp := by
        rw [same]
        constructor
        · rintro ⟨packet,member,above⟩
          obtain ⟨⟨held,size⟩,inBatch,equal⟩ := List.mem_map.mp member
          obtain ⟨kept,_⟩ := packet
          cases equal
          exact ⟨_,inBatch,above⟩
        · rintro ⟨packet,member,above⟩
          exact ⟨packet,List.mem_map_of_mem member,above⟩
      have counted : (packetsIn bytes).length = batch.length := by rw [same,List.length_map]
      rw [publishes_batch (reachable_near reached) waiting arrived none same,newer,counted]
      exact ⟨fun fresh _ => ⟨whole,fresh⟩,fun given => (given none).2⟩

def connected : MPU9150Protocol := ⟨⟨50000000,.initial 0⟩,.initial,.waiting,0,0⟩

theorem connected_reachable : Reachable Constructed Step connected := .initial ⟨rfl,rfl,0,rfl⟩

def arriving (bytes : List UInt8) (fits : bytes.length ≤ kBufferSize) : List Turn := [⟨.read ⟨bytes,fits⟩,0⟩]

def stampedBytes : List UInt8 := [0x40,0x47,0x2D] ++ List.replicate 43 0 ++ [1,0x4A]

theorem connected_publishes_stamped : connected.PublishesSamples 0 (arriving stampedBytes (by decide)) := by
  refine (readState_publishes_iff connected_reachable 0 _).mpr fun _ bytes read _ => ?_
  cases read
  have found : front stampedBytes = .whole stampedBytes [] := by rfl
  have only : packetsIn stampedBytes = [stampedBytes] := by
    rw [packetsIn_whole found,if_neg (by decide),packetsIn_pending rfl]
  rw [only]
  exact ⟨fun packet member => List.mem_singleton.mp member ▸ rfl,.inr Nat.one_pos⟩

theorem reply_overwrites : ¬ connected.PublishesSamples 0 (arriving [0x40,0x47,0x01,0x77] (by decide)) := by
  have found : front [0x40,0x47,0x01,0x77] = .whole [0x40,0x47,0x01,0x77] [] := by rfl
  have only : packetsIn [0x40,0x47,0x01,0x77] = [[0x40,0x47,0x01,0x77]] := by
    rw [packetsIn_whole found]
    rfl
  have arrived : connected.network.received 0 (arriving [0x40,0x47,0x01,0x77] (by decide)) = some [0x40,0x47,0x01,0x77] := rfl
  refine overwrites_mixture rfl arrived ?_ ?_
  · rw [only]
    exact List.cons_ne_nil _ _
  · rw [only]
    intro whole
    cases whole _ List.mem_cons_self

end MPU9150Protocol
end HsrbDrivers.ImuSensor

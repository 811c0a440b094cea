import HsrbDrivers.PowerEcu.EncodedFrames
import HsrbDrivers.PowerEcu.PowerEcuPeer

namespace HsrbDrivers.PowerEcu
open CText Reassembly

theorem getElem?_rank {l : List Nat} (sorted : l.Pairwise (· < ·)) {k a : Nat} :
    l[k]? = some a ↔ a ∈ l ∧ k = l.countP (· < a) := by
  induction l generalizing k with
  | nil => simp
  | cons b l ih =>
      obtain ⟨first,rest⟩ := List.pairwise_cons.mp sorted
      have head : (b :: l).countP (· < b) = 0 :=
        List.countP_eq_zero.mpr (List.forall_mem_cons.mpr
          ⟨by simp,fun c member => by simpa using Nat.le_of_lt (first c member)⟩)
      have tail : ∀ c, c ∈ l → (b :: l).countP (· < c) = l.countP (· < c) + 1 := by
        intro c member
        simp [first c member]
      cases k with
      | zero =>
          rw [List.getElem?_cons_zero,Option.some.injEq]
          constructor
          · rintro rfl
            exact ⟨List.mem_cons_self,head.symm⟩
          · rintro ⟨member,count⟩
            rcases List.mem_cons.mp member with same | later
            · exact same.symm
            · rw [tail a later] at count
              cases count
      | succ k =>
          rw [List.getElem?_cons_succ,ih rest]
          constructor
          · rintro ⟨member,rfl⟩
            exact ⟨List.mem_cons_of_mem b member,(tail a member).symm⟩
          · rintro ⟨member,count⟩
            rcases List.mem_cons.mp member with rfl | later
            · rw [head] at count
              cases count
            · rw [tail a later] at count
              exact ⟨later,Nat.succ.inj count⟩

-- The power ECU answers a well-formed command frame, unless it asks for the versions.
def Answers (frame : List UInt8) : Prop :=
  ∃ f : Frame, f.WellFormed 72 ∧ f.name ≠ getvCommandName ∧ frame = f.bytes 72

theorem encoded_answers {fe : FrameEncoder Parameters} {d : DataEncoder Parameters} {m : Parameters}
    (listed : d ∈ protocolEncoders) (other : d ≠ powerEcuComRprodDataEncoder) (registered : d ∈ fe.encoders)
    (acceptable : Acceptable d.packetName m) (foreign : d.packetName ≠ getvCommandName) :
    Answers (fe.encode m (.empty : PacketBuffer) d.packetName).2.data := by
  have sized := protocolEncoders_sized listed other
  have room : d.frameLength m ≤ kBufferSize := by
    have size := sized.size
    have full : d.fullLength m = d.fullWidth := by rw [DataEncoder.fullLength,sized.inherited]
    rw [DataEncoder.frameLength,sized.name,sized.digits,numeral_length,full]
    unfold kBufferSize
    omega
  have encodes := (encodesFrame_sized sized registered room).mpr ((protocolEncoders_convert listed other).mpr acceptable)
  have found := FrameEncoder.find_eq_some.mpr ⟨registered,rfl⟩
  have success : (fe.encode m (.empty : PacketBuffer) d.packetName).1 = .success := by simp only [FrameEncoder.encode,found]
  obtain ⟨f,whole,name,formed,_⟩ := encodes _ (Prod.ext success rfl)
  exact ⟨f,formed,name ▸ foreign,whole⟩

theorem heart_answers {fe : FrameEncoder Parameters} (registered : powerEcuComHeartDataEncoder ∈ fe.encoders) (m : Parameters) :
    Answers (fe.encode m (.empty : PacketBuffer) heartCommandName).2.data := by
  have other : powerEcuComHeartDataEncoder ≠ powerEcuComRprodDataEncoder := fun same =>
    absurd (congrArg DataEncoder.packetName same) (by decide +kernel)
  exact encoded_answers List.mem_cons_self other registered (acceptable_other m (by decide)) (by decide +kernel)

open Classical in
noncomputable def answer (frame : List UInt8) (serial : Nat) (ackValue : UInt8) : List Message :=
  if Answers frame then [.reply serial ackValue] else []

def replies (messages : List Message) : List (Nat × UInt8) := messages.filterMap Message.reply?

-- A command removed for an acknowledgement: the frame awaited, the last reply decoded
-- in the call, and the value the call judged by.
structure Judgement where
  command : List UInt8
  awaited : Nat
  reply : Option (Nat × UInt8)
  ackValue : Int

-- A driver and a power ECU: the frames that reached the ECU in order, which of them is
-- the latest from the queue, what the ECU sent and the driver has not decoded, and the
-- part of it that is still on the line.
structure System where
  protocol : PowerEcuProtocol
  sent : List Transmission
  awaited : Nat
  undecoded : List Message
  inFlight : List UInt8
  judged : List Judgement

-- The ECU's result for a frame is chosen when the frame reaches it; a call of `ReceiveAll`
-- finds any number of the bytes on the line.
inductive Event where
  | addCommandQueue (name : List UInt8)
  | sendAll (time : Int) (outcome : ErrorCode) (ackValue : UInt8)
  | receiveAll (time : Int) (outcome : ErrorCode) (count : Nat)
  | packet (packet : Packet)

namespace System

def chunk (s : System) (count : Nat) : List UInt8 := s.inFlight.take (min count s.protocol.receiveBuffer.reserve)

theorem chunk_appended (s : System) (count : Nat) :
    (s.protocol.receiveBuffer.pushBacks (s.chunk count)).data = s.protocol.receiveBuffer.data ++ s.chunk count := by
  apply CircularBuffer.data_pushBacks
  have fits := s.protocol.receiveBuffer.fits
  have room := List.length_take_le (min count s.protocol.receiveBuffer.reserve) s.inFlight
  unfold CircularBuffer.reserve at room
  unfold chunk CircularBuffer.reserve
  omega

theorem chunk_split (s : System) (count : Nat) : s.chunk count ++ s.inFlight.drop (s.chunk count).length = s.inFlight := by
  have taken : s.chunk count <+: s.inFlight := List.take_prefix _ _
  rw [← List.prefix_iff_eq_append]
  exact taken

noncomputable def transmit (s : System) (t : Transmission) (ackValue : UInt8) : System :=
  {s with
    sent := s.sent ++ [t]
    awaited := if t.queued then s.sent.length else s.awaited
    undecoded := s.undecoded ++ answer t.frame s.sent.length ackValue
    inFlight := s.inFlight ++ (answer t.frame s.sent.length ackValue).flatMap Message.bytes}

def receive (s : System) (chunk : List UInt8) (reception : Reception) : System :=
  let arrived := s.undecoded.take reception.reports.length
  {s with
    undecoded := s.undecoded.drop reception.reports.length
    inFlight := s.inFlight.drop chunk.length
    judged := s.judged ++ (reception.released.toList.filter Release.acked).map fun release =>
      ⟨release.command,s.awaited,(replies arrived).getLast?,s.protocol.received.rxack.ackValue⟩}

theorem receive_judged (s : System) (chunk : List UInt8) (reception : Reception) :
    (s.receive chunk reception).judged = s.judged ++ (reception.released.toList.filter Release.acked).map fun release =>
      ⟨release.command,s.awaited,(replies (s.undecoded.take reception.reports.length)).getLast?,
        s.protocol.received.rxack.ackValue⟩ := rfl

noncomputable def after (s : System) : Event → Except Stop System
  | .addCommandQueue name => .ok {s with protocol := (s.protocol.addCommandQueue name).2}
  | .sendAll time outcome ackValue => do
    let (_,transmission,protocol) ← s.protocol.sendAll time outcome
    match transmission with
    | none => return {s with protocol := protocol}
    | some t => return {s with protocol := protocol}.transmit t ackValue
  | .receiveAll time outcome count => do
    let (reception,protocol) ← s.protocol.receiveAll time outcome (s.chunk count)
    return {s with protocol := protocol}.receive (s.chunk count) reception
  | .packet packet => .ok {s with
      undecoded := s.undecoded ++ [.packet packet]
      inFlight := s.inFlight ++ Message.bytes (.packet packet)}

def arriving (s : System) (count : Nat) : List Message :=
  complete Message.bytes (s.protocol.receiveBuffer.size + (s.chunk count).length) s.undecoded

def serials (s : System) : List Nat := (replies s.undecoded).map Prod.fst

-- The replies still owed for frames sent before the one awaited.
def stale (s : System) : Nat := s.serials.countP (· < s.awaited)

def Answered (s : System) : Prop := ∃ t, s.sent[s.awaited]? = some t ∧ Answers t.frame

-- No command is accepted into a full queue that waits, and a call that waits and brings
-- replies in brings exactly those owed up to the one to the frame awaited.
def Timely (s : System) : Event → Prop
  | .addCommandQueue name => s.protocol.isWaitingAck = true → s.protocol.hasCommand name = true →
      s.protocol.commandQueue.size < kCommandQueueSize
  | .receiveAll _ outcome count => s.protocol.isWaitingAck = true → outcome = .success →
      replies (s.arriving count) = [] ∨ (s.Answered ∧ (replies (s.arriving count)).length = s.stale + 1)
  | _ => True

-- The removed command is the one awaited, and the reply counted is the reply to it.
def Own (s : System) (j : Judgement) : Prop :=
  ∃ t ackValue, s.sent[j.awaited]? = some t ∧ t.queued = true ∧ t.command = j.command ∧
    j.reply = some (j.awaited,ackValue) ∧ j.ackValue = ackValue.toNat

structure Begun (s : System) : Prop where
  consistent : s.protocol.Consistent
  idle : s.protocol.isWaitingAck = false
  stream : s.protocol.receiveBuffer.data ++ s.inFlight = s.undecoded.flatMap Message.bytes
  packets : replies s.undecoded = []
  sent : s.sent = []
  judged : s.judged = []

-- What the ECU sent and the driver has not decoded is in the buffer and on the line, and
-- its replies answer frames it received, in their order.
structure Carried (buffer inFlight : List UInt8) (undecoded : List Message) (sent : List Transmission) : Prop where
  stream : buffer ++ inFlight = undecoded.flatMap Message.bytes
  sorted : ((replies undecoded).map Prod.fst).Pairwise (· < ·)
  answered : ∀ serial ∈ (replies undecoded).map Prod.fst, ∃ t, sent[serial]? = some t ∧ Answers t.frame

structure Linked (s : System) : Prop extends Carried s.protocol.receiveBuffer.data s.inFlight s.undecoded s.sent where
  consistent : s.protocol.Consistent
  awaiting : s.protocol.isWaitingAck = true →
    ∃ t, s.sent[s.awaited]? = some t ∧ t.queued = true ∧ s.protocol.commandQueue.front? = some t.command
  owed : s.protocol.isWaitingAck = true → s.Answered → s.awaited ∈ s.serials

theorem begun_linked {s : System} (begun : s.Begun) : s.Linked := by
  have none := begun.packets
  have idle : ¬ s.protocol.isWaitingAck = true := by rw [begun.idle]; decide
  refine ⟨⟨begun.stream,?_,?_⟩,begun.consistent,fun waiting => absurd waiting idle,fun waiting => absurd waiting idle⟩
  · rw [none]
    exact .nil
  · rw [none]
    exact nofun

theorem transmit_carried {buffer inFlight : List UInt8} {undecoded : List Message} {sent : List Transmission}
    (carried : Carried buffer inFlight undecoded sent) (t : Transmission) (ackValue : UInt8) :
    Carried buffer (inFlight ++ (answer t.frame sent.length ackValue).flatMap Message.bytes)
      (undecoded ++ answer t.frame sent.length ackValue) (sent ++ [t]) := by
  have older : ∀ serial ∈ (replies undecoded).map Prod.fst, serial < sent.length := by
    intro serial member
    obtain ⟨_,there,_⟩ := carried.answered serial member
    exact (List.getElem?_eq_some_iff.mp there).1
  have kept : ∀ serial ∈ (replies undecoded).map Prod.fst, ∃ u, (sent ++ [t])[serial]? = some u ∧ Answers u.frame := by
    intro serial member
    obtain ⟨u,there,answers⟩ := carried.answered serial member
    exact ⟨u,by rw [List.getElem?_append_left (older serial member),there],answers⟩
  refine ⟨?_,?_,?_⟩
  · rw [← List.append_assoc,carried.stream,List.flatMap_append]
  · by_cases answers : Answers t.frame
    · rw [answer,if_pos answers,replies,List.filterMap_append,List.map_append]
      refine List.pairwise_append.mpr ⟨carried.sorted,List.pairwise_singleton _ _,?_⟩
      intro serial member last isLast
      cases List.mem_singleton.mp isLast
      exact older serial member
    · rw [answer,if_neg answers,List.append_nil]
      exact carried.sorted
  · by_cases answers : Answers t.frame
    · rw [answer,if_pos answers,replies,List.filterMap_append,List.map_append]
      intro serial member
      rcases List.mem_append.mp member with old | last
      · exact kept serial old
      · cases List.mem_singleton.mp last
        exact ⟨t,List.getElem?_concat_length,answers⟩
    · rw [answer,if_neg answers,List.append_nil]
      exact kept

theorem serials_transmit (s : System) (t : Transmission) (ackValue : UInt8) :
    (s.transmit t ackValue).serials = s.serials ++ (replies (answer t.frame s.sent.length ackValue)).map Prod.fst := by
  rw [serials,transmit,replies,List.filterMap_append,List.map_append]
  rfl

theorem packet_carried {buffer inFlight : List UInt8} {undecoded : List Message} {sent : List Transmission}
    (carried : Carried buffer inFlight undecoded sent) (packet : Packet) :
    Carried buffer (inFlight ++ Message.bytes (.packet packet)) (undecoded ++ [.packet packet]) sent := by
  have same : replies (undecoded ++ [.packet packet]) = replies undecoded := by
    rw [replies,List.filterMap_append]
    exact List.append_nil _
  refine ⟨?_,by rw [same]; exact carried.sorted,by rw [same]; exact carried.answered⟩
  rw [← List.append_assoc,carried.stream,List.flatMap_append,List.flatMap_singleton]

theorem receive_carried {buffer inFlight left rest : List UInt8} {undecoded : List Message} {sent : List Transmission}
    (carried : Carried buffer inFlight undecoded sent) {count : Nat}
    (stream : left ++ rest = (undecoded.drop count).flatMap Message.bytes) : Carried left rest (undecoded.drop count) sent := by
  have sub : ((replies (undecoded.drop count)).map Prod.fst).Sublist ((replies undecoded).map Prod.fst) :=
    ((List.drop_sublist count undecoded).filterMap Message.reply?).map Prod.fst
  exact ⟨stream,carried.sorted.sublist sub,fun serial member => carried.answered serial (sub.subset member)⟩

theorem addCommandQueue_linked {s : System} {name : List UInt8} (linked : s.Linked) (timely : s.Timely (.addCommandQueue name)) :
    Linked {s with protocol := (s.protocol.addCommandQueue name).2} := by
  have consistent := PowerEcuProtocol.addCommandQueue_preserves (q := (s.protocol.addCommandQueue name).2) linked.consistent rfl
  rcases s.protocol.addCommandQueue_parts name with ⟨refused,_⟩ | ⟨commandMap,pushed,_,known⟩
  · rw [refused] at consistent ⊢
    exact ⟨linked.toCarried,consistent,linked.awaiting,linked.owed⟩
  · rw [pushed] at consistent ⊢
    refine ⟨linked.toCarried,consistent,fun waiting => ?_,linked.owed⟩
    obtain ⟨t,there,queued,front⟩ := linked.awaiting waiting
    have room := timely waiting (PowerEcuProtocol.hasCommand_iff.mpr known)
    exact ⟨t,there,queued,CircularBuffer.front?_pushBack front room⟩

theorem sendAll_linked {s s' : System} {time : Int} {outcome : ErrorCode} {ackValue : UInt8} (linked : s.Linked)
    (step : s.after (.sendAll time outcome ackValue) = .ok s') : s'.Linked := by
  obtain ⟨⟨ret,transmission,protocol⟩,sent,step⟩ := except_bind_ok.mp step
  have consistent := PowerEcuProtocol.sendAll_preserves linked.consistent sent
  rcases PowerEcuProtocol.sendAll_parts sent with ⟨rfl,_,_,rfl⟩ | ⟨command,_,_,front,_,rfl,rfl⟩ | ⟨_,_,_,_,rfl,rfl⟩
  · cases step
    exact ⟨linked.toCarried,consistent,linked.awaiting,linked.owed⟩
  · cases step
    refine ⟨transmit_carried linked.toCarried _ ackValue,consistent,fun _ => ?_,fun _ => ?_⟩
    · exact ⟨_,List.getElem?_concat_length,rfl,front⟩
    · rintro ⟨t,there,answers⟩
      cases List.getElem?_concat_length.symm.trans there
      rw [serials_transmit,answer,if_pos answers]
      exact List.mem_append_right _ (List.mem_singleton_self _)
  · cases step
    refine ⟨transmit_carried linked.toCarried _ ackValue,consistent,fun waiting => ?_,fun waiting => ?_⟩
    · obtain ⟨t,there,queued,front⟩ := linked.awaiting waiting
      have inside := (List.getElem?_eq_some_iff.mp there).1
      exact ⟨t,(List.getElem?_append_left inside).trans there,queued,front⟩
    · rintro ⟨t,there,answers⟩
      obtain ⟨u,awaited,_⟩ := linked.awaiting waiting
      have inside := (List.getElem?_eq_some_iff.mp awaited).1
      have before := (List.getElem?_append_left inside).symm.trans there
      rw [serials_transmit]
      exact List.mem_append_left _ (linked.owed waiting ⟨t,before,answers⟩)

theorem acknowledgements_reported {messages : List Message} {reports : List Report}
    (reported : List.Forall₂ Message.Reported messages reports) :
    acknowledgements reports = (replies messages).map fun reply => ackData reply.2 := by
  induction reported with
  | nil => rfl
  | @cons m r messages reports first _ ih =>
      rw [acknowledgements] at ih ⊢
      rw [replies] at ih ⊢
      rw [Message.Reported] at first
      cases asked : m.reply? with
      | none =>
          rw [asked] at first
          rw [List.filterMap_cons_none first,List.filterMap_cons_none asked,ih]
      | some reply =>
          rw [asked] at first
          rw [List.filterMap_cons_some first,List.filterMap_cons_some asked,ih,List.map_cons]

theorem absorb_replies {reports : List Report} {last : List (Nat × UInt8)} (m : Rxack)
    (same : acknowledgements reports = last.map fun reply => ackData reply.2) :
    reports.foldl Rxack.absorb m = match last.getLast? with
      | none => m
      | some reply => ⟨true,reply.2.toNat⟩ := by
  induction reports generalizing m last with
  | nil =>
      cases last with
      | nil => rfl
      | cons reply last => cases same
  | cons report reports ih =>
      rw [acknowledgements] at same ih
      rw [List.foldl_cons]
      cases found : report.acknowledgement with
      | none =>
          rw [List.filterMap_cons_none found] at same
          rw [Rxack.absorb,found,ih m same]
      | some data =>
          rw [List.filterMap_cons_some found] at same
          cases last with
          | nil => cases same
          | cons reply last =>
              obtain ⟨first,rest⟩ := List.cons.inj same
              have absorbed : m.absorb report = ⟨true,reply.2.toNat⟩ := by
                rw [Rxack.absorb,found,first]
                simp only [decode_ackData]
              rw [absorbed,ih _ rest,List.getLast?_cons]
              cases last.getLast? <;> rfl

theorem receiveChunk_messages {s : System} (linked : s.Linked) {count : Nat} {left : PacketBuffer} {decoding : Decoding Received}
    (received : receiveChunk s.protocol.frameDecoder s.protocol.receiveBuffer s.protocol.received (s.chunk count) =
      .ok (left,decoding)) :
    s.undecoded.take decoding.reports.length = s.arriving count ∧
      left.data ++ s.inFlight.drop (s.chunk count).length =
        (s.undecoded.drop decoding.reports.length).flatMap Message.bytes ∧
      decoding.memory.rxack = match (replies (s.arriving count)).getLast? with
        | none => s.protocol.received.rxack
        | some reply => ⟨true,reply.2.toNat⟩ := by
  have rxack := Received.receiveChunk_rxack linked.consistent.decoders received
  have appended := chunk_appended s count
  obtain ⟨reports,next,_,drained,returned,_⟩ :=
    decodeBuffer_drain s.protocol.frameDecoder (s.protocol.receiveBuffer.pushBacks (s.chunk count)) s.protocol.received
  cases Except.ok.inj (received.symm.trans returned)
  have stream : (s.protocol.receiveBuffer.pushBacks (s.chunk count)).data ++ s.inFlight.drop (s.chunk count).length =
      s.undecoded.flatMap Message.bytes := by
    rw [appended,List.append_assoc,chunk_split,linked.stream]
  obtain ⟨reported,kept⟩ := drain_messages (framer_incremental _) (framer_framed linked.consistent.rxack) stream drained
  have length : (s.protocol.receiveBuffer.pushBacks (s.chunk count)).data.length =
      s.protocol.receiveBuffer.size + (s.chunk count).length := by
    rw [appended,List.length_append]
    rfl
  rw [length] at reported
  refine ⟨?_,kept,?_⟩
  · rw [← reported.length_eq]
    exact (List.prefix_iff_eq_take.mp (complete_begins _ _ _)).symm
  · rw [rxack]
    exact absorb_replies _ (acknowledgements_reported reported)

theorem last_reply_flag {last : List (Nat × UInt8)} {m : Rxack} (down : m.isReceiveAck = false) {after : Rxack}
    (same : after = match last.getLast? with
      | none => m
      | some reply => ⟨true,reply.2.toNat⟩) :
    (after.isReceiveAck = false ∧ last = []) ∨
      ∃ reply, last.getLast? = some reply ∧ after = ⟨true,reply.2.toNat⟩ := by
  cases found : last.getLast? with
  | none =>
      rw [found] at same
      exact .inl ⟨by rw [same,down],List.getLast?_eq_none_iff.mp found⟩
  | some reply =>
      rw [found] at same
      exact .inr ⟨reply,rfl,same⟩

theorem receiveAll_linked {s s' : System} {time : Int} {outcome : ErrorCode} {count : Nat} (linked : s.Linked)
    (step : s.after (.receiveAll time outcome count) = .ok s') :
    s'.Linked ∧ s'.sent = s.sent ∧
    ((s'.judged = s.judged ∧
        (s.protocol.isWaitingAck = true → outcome = .success → replies (s.arriving count) = [])) ∨
      ∃ command reply, s.protocol.isWaitingAck = true ∧ outcome = .success ∧ s.protocol.commandQueue.front? = some command ∧
        (replies (s.arriving count)).getLast? = some reply ∧
        s'.judged = s.judged ++ [⟨command,s.awaited,some reply,reply.2.toNat⟩]) := by
  obtain ⟨⟨reception,protocol⟩,received,step⟩ := except_bind_ok.mp step
  have consistent := PowerEcuProtocol.receiveAll_preserves linked.consistent received
  rcases PowerEcuProtocol.receiveAll_parts received with ⟨refused,rfl,_,rfl⟩ |
    ⟨left,decoding,_,taken,decoded,reports,⟨none,unacked,rfl⟩ | ⟨command,commandQueue,waiting,front,_,released,rfl⟩⟩
  · cases step
    have stream : (s.protocol.receiveBuffer.pushBacks (s.chunk count)).data ++ s.inFlight.drop (s.chunk count).length =
        (s.undecoded.drop 0).flatMap Message.bytes := by
      rw [chunk_appended,List.append_assoc,chunk_split,linked.stream,List.drop_zero]
    refine ⟨⟨receive_carried linked.toCarried stream,consistent,linked.awaiting,linked.owed⟩,rfl,.inl ⟨List.append_nil _,?_⟩⟩
    exact fun _ taken => absurd taken refused
  · cases step
    obtain ⟨arrived,stream,rxack⟩ := receiveChunk_messages linked decoded
    rw [← reports] at arrived stream
    have silent : s.protocol.isWaitingAck = true → replies (s.arriving count) = [] := by
      intro waiting
      rcases last_reply_flag (linked.consistent.unacked waiting) rxack with ⟨_,empty⟩ | ⟨reply,_,raised⟩
      · exact empty
      · have down := unacked waiting
        rw [raised] at down
        cases down
    refine ⟨⟨receive_carried linked.toCarried stream,consistent,linked.awaiting,fun waiting answered => ?_⟩,rfl,.inl ⟨?_,?_⟩⟩
    · have before := linked.owed waiting answered
      have split : replies s.undecoded = replies (s.undecoded.drop reception.reports.length) := by
        have whole := congrArg replies (List.take_append_drop reception.reports.length s.undecoded)
        rw [arrived,replies,List.filterMap_append,← replies,silent waiting,List.nil_append] at whole
        exact whole.symm
      rw [serials,split] at before
      exact before
    · rw [receive_judged,none]
      exact List.append_nil _
    · exact fun waiting _ => silent waiting
  · cases step
    obtain ⟨arrived,stream,rxack⟩ := receiveChunk_messages linked decoded
    rw [← reports] at arrived stream
    refine ⟨⟨receive_carried linked.toCarried stream,consistent,nofun,nofun⟩,rfl,?_⟩
    rcases last_reply_flag (linked.consistent.unacked waiting) rxack with ⟨down,empty⟩ | ⟨reply,last,raised⟩
    · refine .inl ⟨?_,fun _ _ => empty⟩
      rw [receive_judged,released,down]
      exact List.append_nil _
    · refine .inr ⟨command,reply,waiting,taken,front,last,?_⟩
      rw [receive_judged,released,arrived,last]
      simp only [raised]
      rfl

theorem linked_preserved {s s' : System} {event : Event} (linked : s.Linked) (timely : s.Timely event)
    (step : s.after event = .ok s') : s'.Linked := by
  cases event with
  | addCommandQueue name =>
      cases step
      exact addCommandQueue_linked linked timely
  | sendAll time outcome ackValue => exact sendAll_linked linked step
  | receiveAll time outcome count => exact (receiveAll_linked linked step).1
  | packet packet =>
      cases step
      have carried := packet_carried linked.toCarried packet
      refine ⟨carried,linked.consistent,linked.awaiting,fun waiting answered => ?_⟩
      rw [serials,replies,List.filterMap_append,List.map_append]
      exact List.mem_append_left _ (linked.owed waiting answered)

theorem own_iff {s : System} {count : Nat} {command : List UInt8} {reply : Nat × UInt8} (linked : s.Linked)
    (waiting : s.protocol.isWaitingAck = true) (front : s.protocol.commandQueue.front? = some command)
    (last : (replies (s.arriving count)).getLast? = some reply) :
    s.Own ⟨command,s.awaited,some reply,reply.2.toNat⟩ ↔
      s.Answered ∧ (replies (s.arriving count)).length = s.stale + 1 := by
  have nonempty : replies (s.arriving count) ≠ [] := by
    intro none
    rw [none] at last
    cases last
  have positive := List.length_pos_of_ne_nil nonempty
  have place : s.serials[(replies (s.arriving count)).length - 1]? = some reply.1 := by
    have inside : replies (s.arriving count) <+: replies s.undecoded := (complete_begins _ _ _).filterMap _
    obtain ⟨later,whole⟩ := inside
    rw [List.getLast?_eq_getElem?] at last
    rw [serials,← whole,List.getElem?_map,List.getElem?_append_left (Nat.sub_lt positive Nat.one_pos),last]
    rfl
  have rank := getElem?_rank linked.sorted (k := (replies (s.arriving count)).length - 1) (a := s.awaited)
  obtain ⟨t,there,queued,first⟩ := linked.awaiting waiting
  cases front.symm.trans first
  constructor
  · rintro ⟨_,ackValue,_,_,_,same,_⟩
    have own : reply.1 = s.awaited := congrArg Prod.fst (Option.some.inj same)
    rw [own] at place
    obtain ⟨member,count⟩ := rank.mp place
    refine ⟨linked.answered s.awaited member,?_⟩
    rw [stale,serials,← count,Nat.sub_add_cancel positive]
  · rintro ⟨answered,length⟩
    have member := linked.owed waiting answered
    rw [length,Nat.add_sub_cancel] at place rank
    have own : reply.1 = s.awaited := Option.some.inj (place.symm.trans (rank.mpr ⟨member,rfl⟩))
    exact ⟨t,reply.2,there,queued,rfl,by rw [← own],rfl⟩

theorem Own.later {s s' : System} {j : Judgement} (own : s.Own j) (grown : s.sent <+: s'.sent) : s'.Own j := by
  obtain ⟨t,ackValue,there,rest⟩ := own
  obtain ⟨more,whole⟩ := grown
  refine ⟨t,ackValue,?_,rest⟩
  rw [← whole,List.getElem?_append_left (List.getElem?_eq_some_iff.mp there).1,there]

theorem receiveAll_own_iff {s s' : System} {time : Int} {outcome : ErrorCode} {count : Nat} (linked : s.Linked)
    (own : ∀ j ∈ s.judged, s.Own j) (step : s.after (.receiveAll time outcome count) = .ok s') :
    (∀ j ∈ s'.judged, s'.Own j) ↔ s.Timely (.receiveAll time outcome count) := by
  obtain ⟨_,sent,⟨judged,silent⟩ | ⟨command,reply,waiting,taken,front,last,judged⟩⟩ := receiveAll_linked linked step
  · refine iff_of_true ?_ (fun waiting taken => .inl (silent waiting taken))
    rw [judged]
    exact fun j member => (own j member).later (by rw [sent])
  · have same : s'.Own ⟨command,s.awaited,some reply,reply.2.toNat⟩ ↔ s.Own ⟨command,s.awaited,some reply,reply.2.toNat⟩ := by
      unfold Own
      rw [sent]
    rw [judged]
    constructor
    · intro all
      have new := all _ (List.mem_append_right _ (List.mem_singleton_self _))
      exact fun _ _ => .inr ((own_iff linked waiting front last).mp (same.mp new))
    · intro timely j member
      rcases List.mem_append.mp member with old | new
      · exact (own j old).later (by rw [sent])
      · cases List.mem_singleton.mp new
        rcases timely waiting taken with none | counted
        · rw [none] at last
          cases last
        · exact same.mpr ((own_iff linked waiting front last).mpr counted)

def TimelyStep (s s' : System) : Prop := ∃ event, s.Timely event ∧ s.after event = .ok s'

theorem own_preserved {s s' : System} (valid : s.Linked ∧ ∀ j ∈ s.judged, s.Own j) (step : TimelyStep s s') :
    s'.Linked ∧ ∀ j ∈ s'.judged, s'.Own j := by
  obtain ⟨linked,own⟩ := valid
  obtain ⟨event,timely,step⟩ := step
  refine ⟨linked_preserved linked timely step,?_⟩
  cases event with
  | addCommandQueue name =>
      cases step
      exact own
  | sendAll time outcome ackValue =>
      obtain ⟨⟨ret,transmission,protocol⟩,sent,step⟩ := except_bind_ok.mp step
      cases transmission with
      | none =>
          cases step
          exact own
      | some t =>
          cases step
          exact fun j member => (own j member).later (List.prefix_append s.sent [t])
  | receiveAll time outcome count => exact (receiveAll_own_iff linked own step).mpr timely
  | packet packet =>
      cases step
      exact own

-- In every run whose steps are timely, each command removed for an acknowledgement is
-- judged by the ECU's reply to it; and the first call that is not timely judges wrongly.
theorem acks_matched_iff {s : System} (reached : Reachable Begun TimelyStep s) :
    (∀ j ∈ s.judged, s.Own j) ∧ ∀ time outcome count s', s.after (.receiveAll time outcome count) = .ok s' →
      ((∀ j ∈ s'.judged, s'.Own j) ↔ s.Timely (.receiveAll time outcome count)) := by
  have started : ∀ s, Begun s → s.Linked ∧ ∀ j ∈ s.judged, s.Own j := by
    intro s begun
    refine ⟨begun_linked begun,?_⟩
    rw [begun.judged]
    exact nofun
  obtain ⟨linked,own⟩ := reached.invariant started (fun _ _ valid step => own_preserved valid step)
  exact ⟨own,fun _ _ _ _ step => receiveAll_own_iff linked own step⟩

def start (p : PowerEcuProtocol) : System := ⟨p,[],0,[],[],[]⟩

noncomputable def run (s : System) (events : List Event) : Except Stop System := events.foldlM after s

theorem after_sendAll {s : System} {q : PowerEcuProtocol} {ret : ErrorCode} {t : Transmission}
    (sent : s.protocol.sendAll time outcome = .ok (ret,some t,q)) (ackValue : UInt8) :
    s.after (.sendAll time outcome ackValue) = .ok ({s with protocol := q}.transmit t ackValue) := by
  rw [after,sent]
  rfl

theorem queue_heart {s : System} (linked : s.Linked) (registered : powerEcuComHeartDataEncoder ∈ s.protocol.frameEncoder.encoders)
    (idle : s.protocol.isWaitingAck = false) (empty : s.protocol.commandQueue = .empty) (time : Int) (ackValue : UInt8) :
    ∃ first s', s.after (.addCommandQueue heartCommandName) = .ok first ∧
      first.after (.sendAll time .success ackValue) = .ok s' ∧ s'.Linked ∧ s'.protocol.isWaitingAck = true ∧
      s'.protocol.commandQueue.front? = some heartCommandName ∧ s'.protocol.receiveBuffer = s.protocol.receiveBuffer ∧
      s'.awaited = s.sent.length ∧ s'.undecoded = s.undecoded ++ [.reply s.sent.length ackValue] ∧ s'.judged = s.judged := by
  rcases s.protocol.addCommandQueue_parts heartCommandName with ⟨_,unknown⟩ | ⟨commandMap,pushed,_,_⟩
  · exact absurd linked.consistent.heart unknown
  let queued : PowerEcuProtocol := {s.protocol with
    commandMap := commandMap
    commandQueue := s.protocol.commandQueue.pushBack heartCommandName}
  have added : s.after (.addCommandQueue heartCommandName) = .ok {s with protocol := queued} := by
    rw [after,pushed]
  have timely : s.Timely (.addCommandQueue heartCommandName) := fun waiting => absurd (idle.symm.trans waiting) (by decide)
  have later := linked_preserved linked timely added
  have front : queued.commandQueue.front? = some heartCommandName := by
    change (s.protocol.commandQueue.pushBack heartCommandName).front? = _
    rw [empty]
    rfl
  have sent := PowerEcuProtocol.sendAll_queue time front idle
    (later.consistent.encodable _ later.consistent.heart)
  have step := after_sendAll (s := {s with protocol := queued}) sent ackValue
  refine ⟨_,_,added,step,sendAll_linked later step,rfl,front,rfl,rfl,?_,rfl⟩
  change s.undecoded ++ answer _ s.sent.length ackValue = _
  rw [answer,if_pos (heart_answers registered _)]

theorem arriving_first {s : System} (linked : s.Linked) (empty : s.protocol.receiveBuffer = .empty) {serial : Nat}
    {ackValue : UInt8} {later : List Message} (first : s.undecoded = .reply serial ackValue :: later) :
    s.arriving 27 = [.reply serial ackValue] := by
  have length : (Message.bytes (.reply serial ackValue)).length = 27 := by
    rw [Message.bytes,Frame.bytes_length]
    exact congrArg (· + 23) (ackData_length ackValue)
  have stream := linked.stream
  rw [empty,first,List.flatMap_cons] at stream
  have long := congrArg List.length stream
  rw [List.length_append,List.length_append,length] at long
  have chunk : (s.chunk 27).length = 27 := by
    rw [chunk,empty,List.length_take]
    change min (min 27 (kBufferSize - 0)) _ = 27
    change 0 + _ = _ at long
    unfold kBufferSize
    omega
  rw [arriving,empty,chunk,first]
  change complete Message.bytes (0 + 27) _ = _
  rw [complete,length,if_pos (Nat.le_refl 27)]
  cases later with
  | nil => rfl
  | cons m later =>
      rw [complete,if_neg]
      rw [Message.bytes,Frame.bytes_length]
      omega

theorem receiveAll_first {s : System} (linked : s.Linked) (waiting : s.protocol.isWaitingAck = true)
    (front : s.protocol.commandQueue.front? = some command) (empty : s.protocol.receiveBuffer = .empty) {serial : Nat}
    {ackValue : UInt8} {later : List Message} (first : s.undecoded = .reply serial ackValue :: later) (time : Int) :
    ∃ s', s.after (.receiveAll time .success 27) = .ok s' ∧
      s'.judged = s.judged ++ [⟨command,s.awaited,some (serial,ackValue),ackValue.toNat⟩] := by
  have arrived := arriving_first linked empty first
  obtain ⟨reception,protocol,received⟩ :=
    PowerEcuProtocol.receiveAll_returns time .success (s.chunk 27) linked.consistent.queued
  have step : s.after (.receiveAll time .success 27) = .ok ({s with protocol := protocol}.receive (s.chunk 27) reception) := by
    rw [after,received]
    rfl
  refine ⟨_,step,?_⟩
  obtain ⟨_,_,⟨_,silent⟩ | ⟨held,reply,_,_,there,last,judged⟩⟩ := receiveAll_linked linked step
  · have none := silent waiting rfl
    rw [arrived] at none
    cases none
  · cases front.symm.trans there
    rw [arrived] at last
    cases last
    exact judged

theorem start_begun {p : PowerEcuProtocol} (constructed : PowerEcuProtocol.construct time = .ok p) : (start p).Begun := by
  have fresh := PowerEcuProtocol.construct_fresh constructed
  have stream : p.receiveBuffer.data ++ [] = [] := by rw [fresh.buffer]; rfl
  exact ⟨PowerEcuProtocol.construct_consistent ⟨time,constructed⟩,fresh.idle,stream,rfl,rfl,rfl⟩

theorem start_heart {p : PowerEcuProtocol} (constructed : PowerEcuProtocol.construct time = .ok p) :
    powerEcuComHeartDataEncoder ∈ p.frameEncoder.encoders := by
  rw [(PowerEcuProtocol.construct_fresh constructed).encoders]
  exact List.mem_cons_of_mem _ List.mem_cons_self

theorem acks_matched_iff_heart :
    ∃ s : System, s.judged = [⟨heartCommandName,0,some (0,7),7⟩] ∧ ∀ j ∈ s.judged, s.Own j := by
  obtain ⟨p,constructed,_⟩ := PowerEcuProtocol.construct_parts 0
  have fresh := PowerEcuProtocol.construct_fresh constructed
  have begun := start_begun constructed
  have registered := start_heart constructed
  obtain ⟨first,s,added,sent,linked,waiting,front,buffer,awaited,undecoded,judged⟩ :=
    queue_heart (begun_linked begun) registered fresh.idle fresh.queue 0 7
  have owed : s.undecoded = [.reply 0 7] := undecoded
  have earliest : s.awaited = 0 := awaited
  obtain ⟨s',received,result⟩ := receiveAll_first linked waiting front (buffer.trans fresh.buffer) owed 0
  have unhurried : (start p).Timely (.addCommandQueue heartCommandName) := fun waits =>
    absurd (fresh.idle.symm.trans waits) (by decide)
  have added : TimelyStep (start p) first := ⟨_,unhurried,added⟩
  have sent : TimelyStep first s := ⟨.sendAll 0 .success 7,trivial,sent⟩
  have timely : s.Timely (.receiveAll 0 .success 27) := by
    intro _ _
    have serials : s.serials = [0] := by rw [System.serials,owed]; rfl
    refine .inr ⟨linked.answered _ ?_,?_⟩
    · rw [earliest,← System.serials,serials]
      exact List.mem_singleton_self 0
    · rw [arriving_first linked (buffer.trans fresh.buffer) owed,stale,serials,earliest]
      rfl
  have reached : Reachable Begun TimelyStep s' := (((Reachable.initial begun).step added).step sent).step ⟨_,timely,received⟩
  refine ⟨s',?_,(acks_matched_iff reached).1⟩
  rw [result,judged,earliest]
  rfl

theorem heartbeat_reply_judges_command :
    ∃ p s, PowerEcuProtocol.construct 0 = .ok p ∧ (start p).Begun ∧
      (start p).run [.sendAll (kHeartbeatDuration + 1) .success 0,.addCommandQueue heartCommandName,
        .sendAll (kHeartbeatDuration + 1) .success 1,.receiveAll (kHeartbeatDuration + 1) .success 27] = .ok s ∧
      s.judged = [⟨heartCommandName,1,some (0,0),0⟩] ∧ ¬ ∀ j ∈ s.judged, s.Own j := by
  obtain ⟨p,constructed,_⟩ := PowerEcuProtocol.construct_parts 0
  have fresh := PowerEcuProtocol.construct_fresh constructed
  have begun := start_begun constructed
  have registered := start_heart constructed
  have nothing : p.commandQueue.data = [] := congrArg _ fresh.queue
  have due : kHeartbeatDuration + 1 - p.lastHeartbeatTime > kHeartbeatDuration := by rw [fresh.heartbeat]; decide
  obtain ⟨parameters,beats⟩ := PowerEcuProtocol.sendAll_heartbeat nothing due begun.consistent
  have sent := after_sendAll (s := start p) beats 0
  obtain ⟨added,s,queued,commanded,linked,waiting,front,buffer,awaited,undecoded,judged⟩ :=
    queue_heart (sendAll_linked (begun_linked begun) sent) registered fresh.idle fresh.queue (kHeartbeatDuration + 1) 1
  have owed : s.undecoded = [.reply 0 0,.reply 1 1] := by
    rw [undecoded,transmit,answer,if_pos (heart_answers registered parameters)]
    rfl
  obtain ⟨s',received,result⟩ := receiveAll_first linked waiting front (buffer.trans fresh.buffer) owed (kHeartbeatDuration + 1)
  have last : s'.judged = [⟨heartCommandName,1,some (0,0),0⟩] := by
    rw [result,judged,awaited]
    rfl
  refine ⟨p,s',constructed,begun,?_,last,?_⟩
  · rw [run,List.foldlM_cons,sent]
    refine except_bind_ok.mpr ⟨_,rfl,?_⟩
    rw [List.foldlM_cons,queued]
    refine except_bind_ok.mpr ⟨_,rfl,?_⟩
    rw [List.foldlM_cons,commanded]
    refine except_bind_ok.mpr ⟨_,rfl,?_⟩
    rw [List.foldlM_cons,received]
    exact except_bind_ok.mpr ⟨_,rfl,rfl⟩
  · intro own
    rw [last] at own
    obtain ⟨_,_,_,_,_,reply,_⟩ := own _ (List.mem_singleton_self _)
    cases reply

end System
end HsrbDrivers.PowerEcu

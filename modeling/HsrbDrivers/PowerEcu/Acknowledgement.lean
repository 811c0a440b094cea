import HsrbDrivers.PowerEcu.PublishedValues
import HsrbDrivers.PowerEcu.ReceiveLoop

namespace HsrbDrivers.PowerEcu
open CText FrameDecoder Reassembly

def Report.acknowledgement (r : Report) : Option (List UInt8) :=
  match r.code,r.invoked with
  | .success,some (name,data) => if name = ascii Rxack.kRxackDataDecoderPacketName then some data else none
  | _,_ => none

def Rxack.absorb (m : Rxack) (r : Report) : Rxack :=
  match r.acknowledgement with
  | none => m
  | some data => ⟨true,(Rxack.decoder.decode data m).2.ackValue⟩

def acknowledgements (reports : List Report) : List (List UInt8) := reports.filterMap Report.acknowledgement

theorem acknowledgement_foreign {name : List UInt8} (other : name ≠ ascii Rxack.kRxackDataDecoderPacketName) (code : ErrorCode)
    (data : List UInt8) : (Report.mk code (some (name,data))).acknowledgement = none := by
  cases code <;> simp only [Report.acknowledgement,other,if_false]

theorem absorb_isReceiveAck (m : Rxack) (reports : List Report) :
    (reports.foldl Rxack.absorb m).isReceiveAck = true ↔ m.isReceiveAck = true ∨ acknowledgements reports ≠ [] := by
  induction reports generalizing m with
  | nil => simp [acknowledgements]
  | cons report reports ih =>
      rw [List.foldl_cons,ih]
      cases found : report.acknowledgement with
      | none => simp only [Rxack.absorb,found,acknowledgements,List.filterMap_cons]
      | some data => simp [Rxack.absorb,found,acknowledgements]

theorem checkFrame_cases (fd : FrameDecoder σ) (name : List UInt8) (packetSize : Nat) (current : List UInt8) (memory : σ) :
    (∃ rest, checkFrame fd name packetSize current memory = ⟨.protocolError,rest,memory,none⟩) ∨
    ∃ decoder data rest, decoder ∈ fd.decoders ∧ decoder.packetName = name ∧
      checkFrame fd name packetSize current memory =
        ⟨(decoder.decode data memory).1,rest,(decoder.decode data memory).2,some (name,data)⟩ := by
  unfold checkFrame
  by_cases sum : checkSumHolds packetSize current
  · rw [if_neg (not_not.mpr sum)]
    cases found : fd.find name with
    | none => exact .inl ⟨_,rfl⟩
    | some decoder =>
        obtain ⟨registered,same⟩ := find_eq_some.mp found
        by_cases size : decoder.packetSize = packetSize
        · exact .inr ⟨decoder,_,_,registered,same,if_neg (not_not.mpr size)⟩
        · exact .inl ⟨_,if_pos size⟩
  · exact .inl ⟨_,if_pos sum⟩

theorem framer_emit_cases {fd : FrameDecoder σ} {start rest : List UInt8} {memory next : σ} {report : Report}
    (emitted : framer fd memory start = .emit report next rest) :
    (report = ⟨.protocolError,none⟩ ∧ next = memory) ∨
    ∃ decoder data, decoder ∈ fd.decoders ∧ next = (decoder.decode data memory).2 ∧
      report = ⟨(decoder.decode data memory).1,some (decoder.packetName,data)⟩ := by
  obtain ⟨step,consumed⟩ := framer_emit emitted
  obtain ⟨code,invoked⟩ := report
  rcases frameStep_id_cases fd start memory with ⟨same,_⟩ | ⟨_,_,_,same⟩ | ⟨name,packetSize,_,_,same⟩
  · cases step.symm.trans same
    exact absurd rfl consumed
  · cases step.symm.trans same
    exact .inl ⟨rfl,rfl⟩
  · rcases checkFrame_cases fd name packetSize (start.dropWhile (· ≠ 69)) memory with
      ⟨left,checked⟩ | ⟨decoder,data,left,registered,named,checked⟩
    · cases step.symm.trans (same.trans checked)
      exact .inl ⟨rfl,rfl⟩
    · cases step.symm.trans (same.trans checked)
      exact .inr ⟨decoder,data,registered,rfl,by rw [named]⟩

theorem rxack_accepted {data : List UInt8} {m : Rxack} (accepted : (Rxack.decoder.decode data m).1 = .success) :
    (Rxack.decoder.decode data m).2.isReceiveAck = true := by
  unfold DataDecoder.decode at accepted ⊢
  cases step : DataDecoder.decodeElements Rxack.decoder.elements data m with
  | mk ret inner =>
      rw [step] at accepted
      cases ret with
      | false => cases accepted
      | true => rfl

theorem Rxack.decode_absorb (data : List UInt8) (m : Rxack) :
    (Rxack.decoder.decode data m).2 =
      m.absorb ⟨(Rxack.decoder.decode data m).1,some (ascii Rxack.kRxackDataDecoderPacketName,data)⟩ := by
  rcases decode_code Rxack.decoder data m with accepted | rejected
  · have raised := rxack_accepted accepted
    rw [accepted,Rxack.absorb,Report.acknowledgement]
    simp only [if_true]
    rw [← raised]
  · rw [rejected,rxack_rejected rejected]
    rfl

namespace Received

theorem decode_rxack {decoder : DataDecoder Received} (listed : decoder ∈ protocolDecoders) (data : List UInt8) (m : Received) :
    (decoder.decode data m).2.rxack =
      m.rxack.absorb ⟨(decoder.decode data m).1,some (decoder.packetName,data)⟩ := by
  have foreign : ∀ {d : DataDecoder Received} {code : ErrorCode}, d.packetName ≠ ascii Rxack.kRxackDataDecoderPacketName →
      m.rxack.absorb ⟨code,some (d.packetName,data)⟩ = m.rxack := by
    intro d code differ
    rw [Rxack.absorb,acknowledgement_foreign differ]
  simp only [protocolDecoders,List.mem_cons,List.not_mem_nil,or_false] at listed
  rcases listed with rfl | rfl | rfl | rfl
  · have own : rxackDecoder.packetName = ascii Rxack.kRxackDataDecoderPacketName := rfl
    have within := decode_within rxackPart_lawful Rxack.decoder data m
    rw [own,rxackDecoder,within]
    exact Rxack.decode_absorb data m.rxack
  · rw [foreign (by decide +kernel),verDecoder,decode_within verPart_lawful]
    rfl
  · rw [foreign (by decide +kernel),ecu1Decoder,decode_within ecu1Part_lawful]
    rfl
  · rw [foreign (by decide +kernel),ecu2Decoder,decode_within ecu2Part_lawful]
    rfl

theorem framer_rxack {fd : FrameDecoder Received} (listed : ∀ d ∈ fd.decoders, d ∈ protocolDecoders)
    {start rest : List UInt8} {memory next : Received} {report : Report}
    (emitted : framer fd memory start = .emit report next rest) : next.rxack = memory.rxack.absorb report := by
  rcases framer_emit_cases emitted with ⟨rfl,rfl⟩ | ⟨decoder,data,registered,rfl,rfl⟩
  · rfl
  · exact decode_rxack (listed decoder registered) data memory

theorem drain_rxack {fd : FrameDecoder Received} (listed : ∀ d ∈ fd.decoders, d ∈ protocolDecoders)
    {fuel : Nat} {memory next : Received} {start left : List UInt8} {reports : List Report}
    (drained : drain (framer fd) fuel memory start = some (reports,next,left)) :
    next.rxack = reports.foldl Rxack.absorb memory.rxack := by
  induction fuel generalizing memory start reports with
  | zero => cases drained
  | succ fuel ih =>
      cases verdict : framer fd memory start with
      | wait rest =>
          rw [drain,verdict] at drained
          cases drained
          rfl
      | emit report later rest =>
          rw [drain,verdict] at drained
          obtain ⟨⟨tail,last,kept⟩,tailDrained,equal⟩ := Option.map_eq_some_iff.mp drained
          cases equal
          rw [ih tailDrained,framer_rxack listed verdict]
          rfl

theorem receiveChunk_rxack {fd : FrameDecoder Received} (listed : ∀ d ∈ fd.decoders, d ∈ protocolDecoders)
    {buffer left : PacketBuffer} {memory : Received} {chunk : List UInt8} {decoding : Decoding Received}
    (received : receiveChunk fd buffer memory chunk = .ok (left,decoding)) :
    decoding.memory.rxack = decoding.reports.foldl Rxack.absorb memory.rxack := by
  obtain ⟨_,_,_,drained,returned,_⟩ := decodeBuffer_drain fd (buffer.pushBacks chunk) memory
  cases Except.ok.inj (received.symm.trans returned)
  exact drain_rxack listed drained

end Received
end HsrbDrivers.PowerEcu

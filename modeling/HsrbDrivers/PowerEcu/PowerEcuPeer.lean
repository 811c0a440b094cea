import HsrbDrivers.PowerEcu.ProtocolRuns
import HsrbDrivers.PowerEcu.ReceiverProgress
import HsrbDrivers.PowerEcu.RoundTrip

namespace HsrbDrivers.PowerEcu
open CText FrameDecoder Reassembly

def ackData (ackValue : UInt8) : List UInt8 := 104 :: numeral 16 2 ackValue.toNat ++ [44]

def ackFrame (ackValue : UInt8) : Frame := Frame.make 69 (ascii Rxack.kRxackDataDecoderPacketName) (ackData ackValue) rfl

example : (ackFrame 0).bytes 69 = ascii "E,rxack,015,h00,h83693205,\n" := by decide +kernel

structure Packet where
  frame : Frame
  formed : frame.WellFormed 69
  other : frame.name ≠ ascii Rxack.kRxackDataDecoderPacketName

-- What the power ECU sends: the reply to the frame it received as the `serial`-th, or
-- a packet of its own.
inductive Message where
  | reply (serial : Nat) (ackValue : UInt8)
  | packet (packet : Packet)

namespace Message

def frame : Message → Frame
  | reply _ ackValue => ackFrame ackValue
  | packet p => p.frame

def bytes (m : Message) : List UInt8 := m.frame.bytes 69

def reply? : Message → Option (Nat × UInt8)
  | reply serial ackValue => some (serial,ackValue)
  | packet _ => none

end Message

theorem ackData_length (ackValue : UInt8) : (ackData ackValue).length = 4 := by
  rw [ackData,List.length_append,List.length_cons,numeral_length]
  rfl

theorem Message.formed (m : Message) : m.frame.WellFormed 69 := by
  cases m with
  | reply serial ackValue => exact Frame.make_wellFormed 69 rfl (by rw [ackData_length]; decide)
  | packet p => exact p.formed

theorem decode_ackData (ackValue : UInt8) (m : Rxack) :
    Rxack.decoder.decode (ackData ackValue) m = (.success,⟨true,ackValue.toNat⟩) := by
  have small : ackValue.toNat < 16^2 := ackValue.toNat_lt
  have held : IntType.uint8.Holds ackValue.toNat := by
    have below : ((ackValue.toNat : Nat) : Int) < 16^2 := by exact_mod_cast small
    exact ⟨Int.natCast_nonneg _,Int.le_of_lt_add_one below⟩
  have parsed := (hexUint_decode_convert (by decide) small held).2
  have clean : ∀ b ∈ 104 :: numeral 16 2 ackValue.toNat, decide (b ≠ 44) = true := by
    intro b member
    rcases List.mem_cons.mp member with rfl | digit
    · decide
    · exact decide_eq_true (fun same => comma_not_mem_numeral 16 (by decide) (by decide) 2 _ (same ▸ digit))
  have taken : (ackData ackValue).takeWhile (· ≠ 44) = 104 :: numeral 16 2 ackValue.toNat := by
    rw [ackData,List.takeWhile_append_of_pos clean]
    exact List.append_nil _
  have dropped : (ackData ackValue).dropWhile (· ≠ 44) = [44] := by
    rw [ackData,List.dropWhile_append_of_pos clean]
    rfl
  have elements : DataDecoder.decodeElements Rxack.decoder.elements (ackData ackValue) m =
      (true,{m with ackValue := ackValue.toNat}) := by
    simp only [Rxack.decoder,DataDecoder.decodeElements,dropped,taken,elementHexUintDecoder,ElementHexUintDecoder.decode,
      parsed,assign,Rxack.ackValueRef]
  rw [DataDecoder.decode,elements]
  rfl

theorem frameStep_message (fd : FrameDecoder σ) {f : Frame} (formed : f.WellFormed 69) (rest : List UInt8) (memory : σ) :
    frameStep id fd (f.bytes 69 ++ rest) memory = checkFrame fd f.name (f.data.length+11) (f.bytes 69 ++ rest) memory := by
  have front : (f.bytes 69 ++ rest).dropWhile (· ≠ 69) = f.bytes 69 ++ rest := rfl
  have size := formed.sizeOfField_digits
  have header := parseHeader_bytes f rest (by omega)
  have length := f.bytes_length 69
  simp only [frameStep,front,id,header,size]
  rw [if_neg (by rw [List.length_append]; omega),if_neg (by rw [List.length_append]; omega)]

theorem framer_partial (fd : FrameDecoder σ) {f : Frame} (formed : f.WellFormed 69) {start missing : List UInt8}
    (whole : f.bytes 69 = start ++ missing) (lacking : missing ≠ []) (memory : σ) :
    framer fd memory start = .wait start := by
  have front : start.dropWhile (· ≠ 69) = start := by
    cases start with
    | nil => rfl
    | cons b start =>
        have lead := (List.cons.inj whole).1
        rw [← lead]
        rfl
  have length := f.bytes_length 69
  have pieces := congrArg List.length whole
  rw [List.length_append] at pieces
  have some := List.length_pos_of_ne_nil lacking
  refine framer_stuck_iff.mpr ⟨front,?_⟩
  by_cases short : start.length < 12
  · rw [frameStep,front]
    simp only [id,if_pos short]
  · have header := parseHeader_bytes f [] (by have := formed.sizeOfField_digits; omega)
    rw [List.append_nil,whole,parseHeader_append (Nat.not_lt.mp short)] at header
    have size := formed.sizeOfField_digits
    rw [frameStep,front]
    simp only [id,header,size]
    rw [if_neg short,if_pos (by omega)]

def Message.Reported (m : Message) (r : Report) : Prop := r.acknowledgement = m.reply?.map fun reply => ackData reply.2

theorem framer_message (fd : FrameDecoder σ) {f : Frame} (formed : f.WellFormed 69) (rest : List UInt8) (memory : σ) :
    ∃ decoded, checkFrame fd f.name (f.data.length+11) (f.bytes 69 ++ rest) memory = decoded ∧
      framer fd memory (f.bytes 69 ++ rest) = .emit ⟨decoded.code,decoded.invoked⟩ decoded.memory rest := by
  have step := frameStep_message fd formed rest memory
  have code := checkFrame_code fd f.name (f.data.length+11) (f.bytes 69 ++ rest) memory
  have encoded := checkFrame_encoded fd f.name (f.data.length+11) (f.bytes 69 ++ rest) memory
  have length : 12 + (f.data.length + 11) = (f.bytes 69).length := by rw [f.bytes_length]; omega
  rw [length,List.drop_left] at encoded
  refine ⟨_,rfl,?_⟩
  simp only [framer,step,code,if_false,encoded]

theorem framer_framed {fd : FrameDecoder Received} (registered : Received.rxackDecoder ∈ fd.decoders) :
    Framed (framer fd) Message.bytes Message.Reported where
  emits := by
    intro memory m rest
    obtain ⟨decoded,checked,emitted⟩ := framer_message fd m.formed rest memory
    refine ⟨_,_,emitted,?_⟩
    cases m with
    | reply serial ackValue =>
        have size : (ackFrame ackValue).data.length + 11 = Received.rxackDecoder.packetSize :=
          congrArg (· + 11) (ackData_length ackValue)
        have sent : (ackFrame ackValue).Sent fd Received.rxackDecoder :=
          ⟨(Message.reply serial ackValue).formed,registered,rfl,size⟩
        have accepts := decode_within Received.rxackPart_lawful Rxack.decoder (ackData ackValue) memory
        rw [decode_ackData] at accepts
        have addressed := checkFrame_addressed sent.addressed rest memory
        have data : (ackFrame ackValue).data = ackData ackValue := rfl
        rw [data,Received.rxackDecoder,accepts] at addressed
        cases checked.symm.trans addressed
        rfl
    | packet p =>
        rcases checkFrame_cases fd p.frame.name (p.frame.data.length+11) (p.frame.bytes 69 ++ rest) memory with
          ⟨left,same⟩ | ⟨decoder,data,left,_,_,same⟩
        · cases checked.symm.trans same
          rfl
        · cases checked.symm.trans same
          exact acknowledgement_foreign p.other _ data
  waits := fun memory m _ _ whole lacking => framer_partial fd m.formed whole lacking memory

end HsrbDrivers.PowerEcu

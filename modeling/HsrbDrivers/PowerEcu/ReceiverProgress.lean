import HsrbDrivers.PowerEcu.FrameGrammar
import HsrbDrivers.PowerEcu.Protocol

namespace HsrbDrivers.PowerEcu
open CText FrameDecoder Reassembly

-- `Decode` asks for more input and stays at the start character it found.
def Stalls (fd : FrameDecoder σ) (start : List UInt8) (memory : σ) : Prop :=
  ∃ decoded, fd.decode start memory = .ok decoded ∧ decoded.code = .resultOutOfRange ∧
    decoded.encoded = start.dropWhile (· ≠ 69)

-- The separators of a header are where they belong.
structure ReadsHeader (current : List UInt8) : Prop where
  leading : current.take 2 = [69,44]
  comma : (current.drop 7).take 1 = [44]
  last : (current.drop 11).take 1 = [44]

structure NegativeSize (current : List UInt8) : Prop extends ReadsHeader current where
  negative : atoi ((current.drop 8).take 3) < 0

-- The bytes at hand, counted in 32 bits, are a header and the body that it asks for.
structure CountCovers (current : List UInt8) : Prop where
  header : 12 ≤ uint32 current.length
  body : ReadsHeader current → 11 ≤ atoi ((current.drop 8).take 3) →
    atoi ((current.drop 8).take 3) ≤ (uint32 (current.length-12) : Int)

theorem sizeField_length {current : List UInt8} (enough : 12 ≤ current.length) : ((current.drop 8).take 3).length = 3 := by
  rw [List.length_take,List.length_drop]
  omega

theorem ReadsHeader.parsed {current : List UInt8} (reads : ReadsHeader current)
    (least : 11 ≤ sizeOfField ((current.drop 8).take 3)) :
    parseHeader current = .complete ((current.drop 2).take 5) (sizeOfField ((current.drop 8).take 3)) := by
  simp only [parseHeader,reads.leading,reads.comma,reads.last,ne_eq,not_true_eq_false,if_false,if_neg (Nat.not_lt.mpr least)]

theorem NegativeSize.parsed {current : List UInt8} (enough : 12 ≤ current.length) (bad : NegativeSize current) :
    ∃ name packetSize, parseHeader current = .complete name packetSize ∧ 2^63 ≤ packetSize := by
  rcases sizeOfField_cases (sizeField_length enough) with ⟨positive,_⟩ | ⟨_,huge⟩
  · exact absurd positive (Int.not_le.mpr bad.negative)
  · exact ⟨_,_,bad.toReadsHeader.parsed (Nat.le_trans (by decide) huge),huge⟩

theorem countCovers_small {current : List UInt8} (small : current.length < 2^32) (available : 12 + 999 ≤ current.length) :
    CountCovers current := by
  have enough : 12 ≤ current.length := Nat.le_of_add_right_le available
  refine ⟨?_,fun _ least => ?_⟩
  · rw [uint32_small small]
    exact enough
  · rw [uint32_small (Nat.lt_of_le_of_lt (Nat.sub_le _ _) small)]
    rcases sizeOfField_cases (sizeField_length enough) with ⟨_,same,bound⟩ | ⟨negative,_⟩
    · omega
    · omega

theorem frameStep_waits_iff (fd : FrameDecoder σ) {start : List UInt8} (memory : σ)
    (available : 12 + 999 ≤ (start.dropWhile (· ≠ 69)).length) :
    (frameStep uint32 fd start memory).code = .resultOutOfRange ↔
      ¬ (¬ NegativeSize (start.dropWhile (· ≠ 69)) ∧ CountCovers (start.dropWhile (· ≠ 69))) := by
  have field := sizeOfField_cases (sizeField_length (Nat.le_of_add_right_le available))
  rcases frameStep_cases uint32 fd start memory with ⟨step,short | ⟨name,packetSize,parsed,incomplete⟩⟩ |
    ⟨read,enough,parsed,step⟩ | ⟨name,packetSize,enough,received,parsed,step⟩
  · rw [step]
    exact iff_of_true rfl fun regular => absurd regular.2.header (Nat.not_le.mpr short)
  · rw [step]
    refine iff_of_true rfl ?_
    rintro ⟨regular,covers⟩
    obtain ⟨leading,comma,least,last,_,size⟩ := parseHeader_size parsed
    rcases field with ⟨_,same,_⟩ | ⟨negative,_⟩
    · have body := covers.body ⟨leading,comma,last⟩
      rw [← same,← size] at body
      omega
    · exact regular ⟨⟨leading,comma,last⟩,negative⟩
  · rw [step]
    refine iff_of_false nofun (not_not.mpr ⟨fun bad => ?_,⟨enough,fun reads least => ?_⟩⟩)
    · obtain ⟨_,_,complete,_⟩ := bad.parsed (Nat.le_of_add_right_le available)
      rw [parsed] at complete
      cases complete
    · rcases field with ⟨_,same,_⟩ | ⟨negative,_⟩
      · have complete := reads.parsed (by omega)
        rw [parsed] at complete
        cases complete
      · omega
  · rw [step]
    refine iff_of_false (checkFrame_code fd name packetSize _ memory) (not_not.mpr ⟨fun bad => ?_,⟨enough,fun _ least => ?_⟩⟩)
    · obtain ⟨_,_,complete,huge⟩ := bad.parsed (Nat.le_of_add_right_le available)
      rw [parsed] at complete
      cases complete
      have bounded : uint32 ((start.dropWhile (· ≠ 69)).length-12) < 2^32 := Nat.mod_lt _ (by decide)
      omega
    · obtain ⟨_,_,_,_,_,size⟩ := parseHeader_size parsed
      rcases field with ⟨_,same,_⟩ | ⟨negative,_⟩
      · rw [← same,← size]
        exact Int.ofNat_le.mpr received
      · omega

theorem frameStep_id_waits_iff (fd : FrameDecoder σ) {start : List UInt8} (memory : σ) (small : start.length < 2^32)
    (available : 12 + 999 ≤ (start.dropWhile (· ≠ 69)).length) :
    (frameStep id fd start memory).code = .resultOutOfRange ↔ NegativeSize (start.dropWhile (· ≠ 69)) := by
  have shorter := (List.dropWhile_suffix (l := start) (· ≠ 69)).length_le
  have covers := countCovers_small (Nat.lt_of_le_of_lt shorter small) available
  have same := Except.ok.inj ((decode_eq_id fd memory small).symm.trans (decode_eq fd start memory))
  rw [same,frameStep_waits_iff fd memory available]
  exact ⟨fun bad => Classical.byContradiction fun regular => bad ⟨regular,covers⟩,fun bad regular => regular.1 bad⟩

theorem stalls_iff (fd : FrameDecoder σ) (start : List UInt8) (memory : σ) :
    Stalls fd start memory ↔ (frameStep uint32 fd start memory).code = .resultOutOfRange := by
  constructor
  · rintro ⟨decoded,returned,waits,_⟩
    rw [decode_eq] at returned
    cases returned
    exact waits
  · intro waits
    refine ⟨_,decode_eq fd start memory,waits,?_⟩
    rcases frameStep_cases uint32 fd start memory with ⟨step,_⟩ | ⟨_,_,_,step⟩ | ⟨name,packetSize,_,_,_,step⟩
    · rw [step]
    · rw [step] at waits
      cases waits
    · rw [step] at waits
      exact absurd waits (checkFrame_code fd name packetSize _ memory)

theorem framer_stuck_iff {fd : FrameDecoder σ} {start : List UInt8} {memory : σ} :
    framer fd memory start = .wait start ↔
      start.dropWhile (· ≠ 69) = start ∧ (frameStep id fd start memory).code = .resultOutOfRange := by
  constructor
  · intro waited
    obtain ⟨step,same⟩ := framer_wait waited
    exact ⟨same.symm,by rw [step]⟩
  · rintro ⟨same,waits⟩
    cases verdict : framer fd memory start with
    | wait rest => rw [(framer_wait verdict).2,same]
    | emit report next rest =>
        obtain ⟨step,consumed⟩ := framer_emit verdict
        rw [step] at waits
        exact absurd waits consumed

theorem NegativeSize.dropWhile_eq {current : List UInt8} (bad : NegativeSize current) :
    current.dropWhile (· ≠ 69) = current := by
  cases current with
  | nil => rfl
  | cons b rest =>
      have leading := bad.leading
      rw [List.take_succ_cons] at leading
      rw [(List.cons.inj leading).1]
      rfl

theorem decodeBuffer_keeps_iff {fd : FrameDecoder σ} {buffer left : PacketBuffer} {memory : σ} {decoding : Decoding σ}
    (large : 12 + 999 ≤ buffer.data.length) (decoded : decodeBuffer fd buffer memory = .ok (left,decoding)) :
    left.data = buffer.data ↔ NegativeSize buffer.data := by
  have small : buffer.data.length < 2^32 := Nat.lt_of_le_of_lt buffer.fits (by decide)
  obtain ⟨_,_,_,drained,returned,inside⟩ := decodeBuffer_drain fd buffer memory
  cases Except.ok.inj (decoded.symm.trans returned)
  have same : left.data = buffer.data ↔ ¬ left.data.length < buffer.data.length :=
    ⟨fun same => by rw [same]; exact Nat.lt_irrefl _,
      fun kept => inside.eq_of_length (Nat.le_antisymm inside.length_le (Nat.not_lt.mp kept))⟩
  rw [same,drain_stuck (framer_incremental fd) drained,ne_eq,not_not,framer_stuck_iff]
  constructor
  · rintro ⟨front,waits⟩
    have bad := (frameStep_id_waits_iff fd memory small (by rw [front]; exact large)).mp waits
    rw [front] at bad
    exact bad
  · intro bad
    have front := bad.dropWhile_eq
    exact ⟨front,(frameStep_id_waits_iff fd memory small (by rw [front]; exact large)).mpr (by rw [front]; exact bad)⟩

theorem receiveAll_frees_iff {p q : PowerEcuProtocol} {time : Int} {outcome : ErrorCode} {chunk : List UInt8}
    {reception : Reception} (full : p.receiveBuffer.size = kBufferSize)
    (received : p.receiveAll time outcome chunk = .ok (reception,q)) :
    q.receiveBuffer.size < kBufferSize ↔ outcome = .success ∧ ¬ NegativeSize (p.receiveBuffer.pushBacks chunk).data := by
  have size := p.receiveBuffer.size_pushBacks chunk
  have length : (p.receiveBuffer.pushBacks chunk).data.length = kBufferSize := by
    unfold CircularBuffer.size at size full
    omega
  have frees : ∀ left decoding, receiveChunk p.frameDecoder p.receiveBuffer p.received chunk = .ok (left,decoding) →
      (left.size < kBufferSize ↔ ¬ NegativeSize (p.receiveBuffer.pushBacks chunk).data) := by
    intro left decoding decoded
    obtain ⟨_,_,_,_,returned,inside⟩ := decodeBuffer_drain p.frameDecoder (p.receiveBuffer.pushBacks chunk) p.received
    cases Except.ok.inj (decoded.symm.trans returned)
    have bound := inside.length_le
    rw [← decodeBuffer_keeps_iff (by rw [length]; decide) decoded]
    constructor
    · intro shorter same
      rw [CircularBuffer.size,same,length] at shorter
      exact absurd shorter (Nat.lt_irrefl _)
    · intro differ
      have unequal : left.data.length ≠ (p.receiveBuffer.pushBacks chunk).data.length :=
        fun same => differ (inside.eq_of_length same)
      unfold CircularBuffer.size
      omega
  rcases PowerEcuProtocol.receiveAll_parts received with ⟨refused,_,_,rfl⟩ |
    ⟨left,decoding,_,taken,decoded,_,⟨_,_,rfl⟩ | ⟨_,_,_,_,_,_,rfl⟩⟩
  · refine ⟨fun shorter => ?_,fun freed => absurd freed.1 refused⟩
    have appended : (p.receiveBuffer.pushBacks chunk).data.length < kBufferSize := shorter
    omega
  · rw [frees left decoding decoded]
    exact ⟨fun free => ⟨taken,free⟩,fun both => both.2⟩
  · rw [frees left decoding decoded]
    exact ⟨fun free => ⟨taken,free⟩,fun both => both.2⟩

theorem receiver_progress_iff {σ : Type} (fd : FrameDecoder σ) (start : List UInt8) (memory : σ) (p q : PowerEcuProtocol)
    (time : Int) (outcome : ErrorCode) (chunk : List UInt8) (reception : Reception) :
    (12 + 999 ≤ (start.dropWhile (· ≠ 69)).length →
      (¬ Stalls fd start memory ↔
        ¬ NegativeSize (start.dropWhile (· ≠ 69)) ∧ CountCovers (start.dropWhile (· ≠ 69)))) ∧
    (p.receiveBuffer.size = kBufferSize → p.receiveAll time outcome chunk = .ok (reception,q) →
      (q.receiveBuffer.size < kBufferSize ↔
        outcome = .success ∧ ¬ NegativeSize (p.receiveBuffer.pushBacks chunk).data)) := by
  refine ⟨fun available => ?_,fun full received => receiveAll_frees_iff full received⟩
  rw [stalls_iff,frameStep_waits_iff fd memory available,not_not]

def stalledBytes : List UInt8 := ascii "E,rxack,-01," ++ List.replicate 3988 48

theorem stalledBytes_length : stalledBytes.length = kBufferSize := by
  rw [stalledBytes,List.length_append,List.length_replicate]
  decide +kernel

def stalledBuffer : PacketBuffer := ⟨stalledBytes,Nat.le_of_eq stalledBytes_length⟩

theorem stalledBytes_negativeSize : NegativeSize stalledBytes :=
  ⟨⟨by decide +kernel,by decide +kernel,by decide +kernel⟩,by decide +kernel⟩

theorem receiver_progress_zeros :
    ¬ Stalls Rxack.receiver (69 :: List.replicate 1100 48) Rxack.initial ∧
    ∃ p q : PowerEcuProtocol,∃ reception, p.receiveBuffer.data = List.replicate kBufferSize 48 ∧
      p.receiveAll 0 .success [] = .ok (reception,q) ∧ q.receiveBuffer.size < kBufferSize := by
  let zeros : PacketBuffer := ⟨List.replicate kBufferSize 48,by rw [List.length_replicate]⟩
  let p : PowerEcuProtocol := {PowerEcuProtocol.blank 0 with receiveBuffer := zeros}
  have regular : ¬ NegativeSize (69 :: List.replicate 1100 48) := fun bad => absurd bad.leading (by decide +kernel)
  have zerosRegular : ¬ NegativeSize (List.replicate kBufferSize 48) := fun bad => absurd bad.leading (by decide +kernel)
  obtain ⟨reception,q,received⟩ := PowerEcuProtocol.receiveAll_returns (p := p) 0 .success [] nofun
  have progress := receiver_progress_iff Rxack.receiver (69 :: List.replicate 1100 48) Rxack.initial p q 0 .success [] reception
  have covers : CountCovers (69 :: List.replicate 1100 48) := countCovers_small (by decide +kernel) (by decide +kernel)
  exact ⟨(progress.1 (by decide +kernel)).mpr ⟨regular,covers⟩,p,q,reception,rfl,received,
    (progress.2 List.length_replicate received).mpr ⟨rfl,zerosRegular⟩⟩

theorem receiver_wedged :
    (12 + 999 ≤ (stalledBuffer.data.dropWhile (· ≠ 69)).length ∧ Stalls Rxack.receiver stalledBuffer.data Rxack.initial) ∧
    ∃ p q first, PowerEcuProtocol.construct 0 = .ok p ∧ p.receiveAll 0 .success stalledBytes = .ok (first,q) ∧
      q.receiveBuffer.size = kBufferSize ∧
      ∀ time outcome reception r, q.receiveAll time outcome [] = .ok (reception,r) → ¬ r.receiveBuffer.size < kBufferSize := by
  have front := stalledBytes_negativeSize.dropWhile_eq
  have large : 12 + 999 ≤ (stalledBuffer.data.dropWhile (· ≠ 69)).length := by
    rw [stalledBuffer,front,stalledBytes_length]
    decide
  have stalls : Stalls Rxack.receiver stalledBuffer.data Rxack.initial := by
    rw [stalls_iff,frameStep_waits_iff _ _ large,stalledBuffer,front]
    exact fun regular => regular.1 stalledBytes_negativeSize
  refine ⟨⟨large,stalls⟩,?_⟩
  obtain ⟨p,constructed,_⟩ := PowerEcuProtocol.construct_parts 0
  have fresh := PowerEcuProtocol.construct_fresh constructed
  have filled : (p.receiveBuffer.pushBacks stalledBytes).data = stalledBytes := by
    rw [fresh.buffer]
    exact CircularBuffer.data_pushBacks _ _ (by rw [stalledBytes_length]; exact Nat.le_of_eq (Nat.zero_add _))
  obtain ⟨first,q,received⟩ := PowerEcuProtocol.receiveAll_returns 0 .success stalledBytes
    (fun waiting => absurd (fresh.idle.symm.trans waiting) (by decide))
  have kept : q.receiveBuffer.data = stalledBytes := by
    rcases PowerEcuProtocol.receiveAll_parts received with ⟨refused,_⟩ |
      ⟨left,decoding,_,_,decoded,_,⟨_,_,rfl⟩ | ⟨_,_,waiting,_⟩⟩
    · exact absurd rfl refused
    · refine ((decodeBuffer_keeps_iff ?_ decoded).mpr ?_).trans filled
      · rw [filled,stalledBytes_length]
        decide
      · rw [filled]
        exact stalledBytes_negativeSize
    · rw [fresh.idle] at waiting
      cases waiting
  have full : q.receiveBuffer.size = kBufferSize := by rw [CircularBuffer.size,kept,stalledBytes_length]
  refine ⟨p,q,first,constructed,received,full,?_⟩
  intro time outcome reception r again freed
  have regular := ((receiveAll_frees_iff full again).mp freed).2
  exact regular (by rw [CircularBuffer.pushBacks,List.foldl_nil,kept]; exact stalledBytes_negativeSize)

end HsrbDrivers.PowerEcu

import HsrbDrivers.PowerEcu.ElementEncoder
import HsrbDrivers.PowerEcu.FrameGrammar

namespace HsrbDrivers.PowerEcu
open CText

-- The data encoders of one frame encoder share the parameters `π`. An encoder that
-- overrides `Encode` copies a string and has no elements.
structure DataEncoder (π : Type) where
  packetName : List UInt8
  getPacketSizeStr : π → List UInt8
  elements : List (ElementEncoder π)
  overridden : Option (π → List UInt8)

namespace DataEncoder

def encodeElements : List (ElementEncoder π) → π → CircularBuffer UInt8 n → ErrorCode × CircularBuffer UInt8 n
  | [],_,buffer => (.success,buffer)
  | p :: rest,memory,buffer => match p.encode memory buffer with
    | (false,buffer) => (.protocolError,buffer)
    | (true,buffer) => encodeElements rest memory (buffer.pushBack 44)

def encode (d : DataEncoder π) (memory : π) (buffer : CircularBuffer UInt8 n) : ErrorCode × CircularBuffer UInt8 n :=
  match d.overridden with
  | some data => (.success,buffer.pushBacks (data memory))
  | none => encodeElements d.elements memory buffer

end DataEncoder

structure FrameEncoder (π : Type) where
  encoders : List (DataEncoder π)
  distinct : (encoders.map DataEncoder.packetName).Nodup

namespace FrameEncoder

theorem empty_distinct : (([] : List (DataEncoder π)).map DataEncoder.packetName).Nodup := List.nodup_nil

theorem registered_distinct (fe : FrameEncoder π) (encoder : DataEncoder π)
    (free : encoder.packetName ∉ fe.encoders.map DataEncoder.packetName) :
    ((encoder :: fe.encoders).map DataEncoder.packetName).Nodup :=
  List.nodup_cons.mpr ⟨free,fe.distinct⟩

def empty : FrameEncoder π := ⟨[],empty_distinct⟩

def find (fe : FrameEncoder π) (name : List UInt8) : Option (DataEncoder π) :=
  fe.encoders.find? (fun d => d.packetName = name)

def registerDataEncoder (fe : FrameEncoder π) (encoder : DataEncoder π) : ErrorCode × FrameEncoder π :=
  if registered : encoder.packetName ∈ fe.encoders.map DataEncoder.packetName then (.invalidArgument,fe) else
    (.success,⟨encoder :: fe.encoders,fe.registered_distinct encoder registered⟩)

def checkSumEncoder : ElementEncoder (BitVec 32) := elementHexUintEncoder (fun checkSum => checkSum.toNat) 8

-- The code of the data encoder is not looked at.
def encode (fe : FrameEncoder π) (memory : π) (buffer : CircularBuffer UInt8 n) (packetName : List UInt8) :
    ErrorCode × CircularBuffer UInt8 n :=
  match fe.find packetName with
  | none => (.invalidArgument,buffer)
  | some encoder =>
    let buffer := (buffer.pushBack 72).pushBack 44
    let buffer := (buffer.pushBacks packetName).pushBack 44
    let buffer := (buffer.pushBacks (encoder.getPacketSizeStr memory)).pushBack 44
    let (_,buffer) := encoder.encode memory buffer
    let checkSum := calculateCrc32 buffer.data
    let (_,buffer) := checkSumEncoder.encode checkSum buffer
    (.success,(buffer.pushBack 44).pushBack 10)

end FrameEncoder

def DataEncoder.writtenElements : List (ElementEncoder π) → π → List UInt8
  | [],_ => []
  | p :: rest,memory => match p.convert memory with
    | none => []
    | some bytes => bytes ++ 44 :: writtenElements rest memory

def DataEncoder.written (d : DataEncoder π) (memory : π) : List UInt8 :=
  match d.overridden with
  | some data => data memory
  | none => writtenElements d.elements memory

def frameText (lead : UInt8) (name size data : List UInt8) : List UInt8 :=
  let covered := lead :: 44 :: (name ++ 44 :: (size ++ 44 :: data))
  covered ++ 104 :: (numeral 16 8 (calculateCrc32 covered).toNat ++ [44,10])

theorem frameText_length (lead : UInt8) (name size data : List UInt8) :
    (frameText lead name size data).length = name.length + size.length + data.length + 15 := by
  simp only [frameText,List.length_append,List.length_cons,List.length_nil,numeral_length]
  omega

namespace DataEncoder

theorem encodeElements_buffer (elements : List (ElementEncoder π)) (memory : π) (buffer : CircularBuffer UInt8 n) :
    (encodeElements elements memory buffer).2 = buffer.pushBacks (writtenElements elements memory) := by
  induction elements generalizing buffer with
  | nil => rfl
  | cons p rest ih =>
      cases converted : p.convert memory with
      | none =>
          simp only [encodeElements,p.encode_none converted,writtenElements,converted]
          rfl
      | some bytes =>
          simp only [encodeElements,p.encode_some converted,writtenElements,converted,ih]
          rw [CircularBuffer.pushBacks_append]
          rfl

theorem encodeElements_success {elements : List (ElementEncoder π)} {memory : π} (buffer : CircularBuffer UInt8 n) :
    (encodeElements elements memory buffer).1 = .success ↔ ∀ p ∈ elements, (p.convert memory).isSome := by
  induction elements generalizing buffer with
  | nil => exact ⟨fun _ => nofun,fun _ => rfl⟩
  | cons p rest ih =>
      cases converted : p.convert memory with
      | none =>
          simp only [encodeElements,p.encode_none converted]
          exact ⟨nofun,fun all => by simpa [converted] using all p List.mem_cons_self⟩
      | some bytes =>
          simp only [encodeElements,p.encode_some converted,ih]
          exact ⟨fun all => List.forall_mem_cons.mpr ⟨by rw [converted]; rfl,all⟩,fun all => (List.forall_mem_cons.mp all).2⟩

theorem writtenElements_length {elements : List (ElementEncoder π)} {memory : π}
    (all : ∀ p ∈ elements, (p.convert memory).isSome) :
    (writtenElements elements memory).length = (elements.map fun p => p.width + 1).sum := by
  induction elements with
  | nil => rfl
  | cons p rest ih =>
      obtain ⟨first,later⟩ := List.forall_mem_cons.mp all
      obtain ⟨bytes,converted⟩ := Option.isSome_iff_exists.mp first
      have wide := p.wide converted
      have tail := ih later
      simp only [writtenElements,converted,List.length_append,List.length_cons,List.map_cons,List.sum_cons]
      omega

theorem encode_buffer (d : DataEncoder π) (memory : π) (buffer : CircularBuffer UInt8 n) :
    (d.encode memory buffer).2 = buffer.pushBacks (d.written memory) := by
  unfold encode written
  cases d.overridden with
  | some data => rfl
  | none => exact encodeElements_buffer d.elements memory buffer

end DataEncoder

namespace FrameEncoder

theorem find_eq_some {fe : FrameEncoder π} {name : List UInt8} {encoder : DataEncoder π} :
    fe.find name = some encoder ↔ encoder ∈ fe.encoders ∧ encoder.packetName = name := by
  constructor
  · intro found
    unfold find at found
    exact ⟨List.mem_of_find?_eq_some found,by simpa using List.find?_some found⟩
  · rintro ⟨registered,rfl⟩
    have some : (fe.find encoder.packetName).isSome := List.find?_isSome.mpr ⟨encoder,registered,by simp⟩
    obtain ⟨other,found⟩ := Option.isSome_iff_exists.mp some
    have same : other.packetName = encoder.packetName := by
      unfold find at found
      simpa using List.find?_some found
    rw [found,List.inj_on_of_nodup_map fe.distinct (List.mem_of_find?_eq_some found) registered same]

theorem checkSumEncoder_convert (checkSum : BitVec 32) :
    checkSumEncoder.convert checkSum = some (104 :: numeral 16 8 checkSum.toNat) := by
  have fits : checkSum.toNat < 16 ^ 8 := checkSum.isLt
  exact hexUintConvert_some fits checkSum.isLt

theorem encode_eq {fe : FrameEncoder π} {d : DataEncoder π} (memory : π) (registered : d ∈ fe.encoders)
    (room : (frameText 72 d.packetName (d.getPacketSizeStr memory) (d.written memory)).length ≤ n) :
    ∃ buffer : CircularBuffer UInt8 n, fe.encode memory .empty d.packetName = (.success,buffer) ∧
      buffer.data = frameText 72 d.packetName (d.getPacketSizeStr memory) (d.written memory) := by
  have found := find_eq_some.mpr ⟨registered,rfl⟩
  refine ⟨(fe.encode memory .empty d.packetName).2,?_,?_⟩
  · simp only [encode,found]
  · generalize sized : d.getPacketSizeStr memory = size at room ⊢
    generalize written : d.written memory = data at room ⊢
    rw [frameText_length] at room
    have body : (((((((CircularBuffer.empty : CircularBuffer UInt8 n).pushBack 72).pushBack 44).pushBacks
        d.packetName).pushBack 44).pushBacks size).pushBack 44).pushBacks data =
        CircularBuffer.empty.pushBacks (72 :: 44 :: (d.packetName ++ 44 :: (size ++ 44 :: data))) := by
      simp only [CircularBuffer.pushBacks,List.foldl_cons,List.foldl_append]
    have pushed : ∀ bytes : List UInt8, bytes.length ≤ n →
        ((CircularBuffer.empty : CircularBuffer UInt8 n).pushBacks bytes).data = bytes := by
      intro bytes fits
      rw [CircularBuffer.data_pushBacks,CircularBuffer.data_empty,List.nil_append]
      rw [CircularBuffer.data_empty,List.length_nil,Nat.zero_add]
      exact fits
    have header := pushed (72 :: 44 :: (d.packetName ++ 44 :: (size ++ 44 :: data)))
      (by simp only [List.length_append,List.length_cons]; omega)
    simp only [encode,found,sized,d.encode_buffer,written,body,header,checkSumEncoder.encode_some (checkSumEncoder_convert _)]
    rw [← CircularBuffer.pushBacks_singleton _ 44,← CircularBuffer.pushBacks_singleton _ 10,
      ← CircularBuffer.pushBacks_append,← CircularBuffer.pushBacks_append,← CircularBuffer.pushBacks_append,pushed]
    · simp [frameText]
    · simp only [List.length_nil,List.length_append,List.length_cons,numeral_length]
      omega

end FrameEncoder

theorem Frame.WellFormed.bytes_eq {lead : UInt8} {f : Frame} (formed : f.WellFormed lead) :
    f.bytes lead = frameText lead f.name f.digits f.data := by
  simp only [Frame.bytes,frameText,formed.mark,formed.sum,formed.tail]
  rfl

theorem Frame.tail_length_make : ([44,10] : List UInt8).length = 2 := rfl

def Frame.make (lead : UInt8) (name data : List UInt8) (five : name.length = 5) : Frame where
  name := name
  digits := numeral 10 3 (data.length+11)
  data := data
  mark := 104
  sum := numeral 16 8 (calculateCrc32 (lead :: 44 :: (name ++ 44 :: (numeral 10 3 (data.length+11) ++ 44 :: data)))).toNat
  tail := [44,10]
  name_length := five
  digits_length := numeral_length _ _ _
  sum_length := numeral_length _ _ _
  tail_length := tail_length_make

theorem Frame.make_wellFormed (lead : UInt8) {name data : List UInt8} (five : name.length = 5)
    (size : data.length + 11 ≤ 999) : (Frame.make lead name data five).WellFormed lead :=
  ⟨size,rfl,rfl,rfl,rfl⟩

end HsrbDrivers.PowerEcu

import HsrbDrivers.PowerEcu.DataEncoder

namespace HsrbDrivers.PowerEcu
open CText

namespace DataEncoder

def fullWidth (d : DataEncoder π) : Nat := (d.elements.map fun p => p.width + 1).sum

def fullLength (d : DataEncoder π) (memory : π) : Nat :=
  match d.overridden with
  | some copied => (copied memory).length
  | none => d.fullWidth

def frameLength (d : DataEncoder π) (memory : π) : Nat :=
  d.packetName.length + (d.getPacketSizeStr memory).length + d.fullLength memory + 15

-- Every element is in the data, at its full declared width and with its comma.
def Present (d : DataEncoder π) (memory : π) (data : List UInt8) : Prop :=
  match d.overridden with
  | some copied => data = copied memory
  | none => ∃ texts : List (List UInt8), d.elements.map (fun p => p.convert memory) = texts.map some ∧
      texts.map List.length = d.elements.map ElementEncoder.width ∧ data = (texts.map (· ++ [44])).flatten

structure Sized (d : DataEncoder π) : Prop where
  inherited : d.overridden = none
  name : d.packetName.length = 5
  size : d.fullWidth + 11 ≤ 999
  digits : ∀ memory, d.getPacketSizeStr memory = numeral 10 3 (d.fullWidth + 11)

theorem writtenElements_length_le (elements : List (ElementEncoder π)) (memory : π) :
    (writtenElements elements memory).length ≤ (elements.map fun p => p.width + 1).sum := by
  induction elements with
  | nil => exact Nat.le_refl _
  | cons p rest ih =>
      cases converted : p.convert memory with
      | none =>
          rw [writtenElements,converted]
          exact Nat.zero_le _
      | some bytes =>
          have wide := p.wide converted
          simp only [writtenElements,converted,List.length_append,List.length_cons,List.map_cons,List.sum_cons]
          omega

theorem written_length_le (d : DataEncoder π) (memory : π) : (d.written memory).length ≤ d.fullLength memory := by
  unfold written fullLength
  cases d.overridden with
  | some copied => exact Nat.le_refl _
  | none => exact writtenElements_length_le d.elements memory

theorem writtenElements_texts {elements : List (ElementEncoder π)} {memory : π}
    (all : ∀ p ∈ elements, (p.convert memory).isSome) :
    ∃ texts : List (List UInt8), elements.map (fun p => p.convert memory) = texts.map some ∧
      texts.map List.length = elements.map ElementEncoder.width ∧
      writtenElements elements memory = (texts.map (· ++ [44])).flatten := by
  induction elements with
  | nil => exact ⟨[],rfl,rfl,rfl⟩
  | cons p rest ih =>
      obtain ⟨first,later⟩ := List.forall_mem_cons.mp all
      obtain ⟨bytes,converted⟩ := Option.isSome_iff_exists.mp first
      obtain ⟨texts,convert,lengths,written⟩ := ih later
      refine ⟨bytes :: texts,?_,?_,?_⟩
      · rw [List.map_cons,List.map_cons,converted,convert]
      · rw [List.map_cons,List.map_cons,p.wide converted,lengths]
      · rw [writtenElements,converted,List.map_cons,List.flatten_cons,written,List.append_assoc]
        rfl

end DataEncoder

def HoldsFrame (d : DataEncoder π) (memory : π) (bytes : List UInt8) : Prop :=
  ∃ f : Frame, bytes = f.bytes 72 ∧ f.name = d.packetName ∧ f.WellFormed 72 ∧ d.Present memory f.data

-- If encoding into an empty buffer returns success, the buffer holds such a frame.
def EncodesFrame (fe : FrameEncoder π) (d : DataEncoder π) (memory : π) (n : Nat) : Prop :=
  ∀ buffer : CircularBuffer UInt8 n, fe.encode memory .empty d.packetName = (.success,buffer) →
    HoldsFrame d memory buffer.data

theorem encodesFrame_text {fe : FrameEncoder π} {d : DataEncoder π} {memory : π} (registered : d ∈ fe.encoders)
    (room : d.frameLength memory ≤ n) :
    EncodesFrame fe d memory n ↔
      HoldsFrame d memory (frameText 72 d.packetName (d.getPacketSizeStr memory) (d.written memory)) := by
  have short := d.written_length_le memory
  obtain ⟨buffer,encoded,text⟩ := FrameEncoder.encode_eq (n := n) memory registered
    (by rw [frameText_length]; unfold DataEncoder.frameLength at room; omega)
  rw [← text]
  constructor
  · intro encodes
    exact encodes buffer encoded
  · intro holds other returned
    rw [encoded] at returned
    cases returned
    exact holds

theorem encodesFrame_sized {fe : FrameEncoder π} {d : DataEncoder π} {memory : π} (sized : d.Sized)
    (registered : d ∈ fe.encoders) (room : d.frameLength memory ≤ n) :
    EncodesFrame fe d memory n ↔ ∀ p ∈ d.elements, (p.convert memory).isSome := by
  rw [encodesFrame_text registered room]
  constructor
  · rintro ⟨f,_,_,_,present⟩ p member
    simp only [DataEncoder.Present,sized.inherited] at present
    obtain ⟨texts,convert,_,_⟩ := present
    have mapped : p.convert memory ∈ texts.map some := by
      rw [← convert]
      exact List.mem_map_of_mem member
    obtain ⟨text,_,same⟩ := List.mem_map.mp mapped
    rw [← same]
    rfl
  · intro all
    obtain ⟨texts,convert,lengths,flat⟩ := DataEncoder.writtenElements_texts all
    have length := DataEncoder.writtenElements_length all
    have written : d.written memory = DataEncoder.writtenElements d.elements memory := by
      rw [DataEncoder.written,sized.inherited]
    have size : (d.written memory).length + 11 = d.fullWidth + 11 := by
      rw [written,length]
      rfl
    have formed := Frame.make_wellFormed 72 sized.name (Nat.le_trans (Nat.le_of_eq size) sized.size)
    refine ⟨Frame.make 72 d.packetName (d.written memory) sized.name,?_,rfl,formed,?_⟩
    · rw [formed.bytes_eq,sized.digits]
      simp only [Frame.make,size]
    · simp only [DataEncoder.Present,sized.inherited]
      exact ⟨texts,convert,lengths,written.trans flat⟩

theorem paddedTo3_small {value : Nat} (small : value ≤ 999) : paddedTo3 value = numeral 10 3 value := by
  have digits : (Nat.digits 10 value).length ≤ 3 := (Nat.digits_length_le_iff (by decide) value).mpr (Nat.lt_succ_of_le small)
  rw [paddedTo3,show Nat.max 3 (Nat.digits 10 value).length = 3 from Nat.max_eq_left digits]

theorem encodesFrame_rprod {fe : FrameEncoder Parameters} {memory : Parameters}
    (registered : powerEcuComRprodDataEncoder ∈ fe.encoders) (room : powerEcuComRprodDataEncoder.frameLength memory ≤ n) :
    EncodesFrame fe powerEcuComRprodDataEncoder memory n ↔ memory.reproData.length ≤ 988 := by
  rw [encodesFrame_text registered room]
  constructor
  · rintro ⟨f,_,_,formed,present⟩
    have copied : f.data = memory.reproData := present
    have size := formed.size
    rw [copied] at size
    exact Nat.le_of_add_le_add_right size
  · intro short
    have size : memory.reproData.length + 11 ≤ 999 := Nat.add_le_add_right short 11
    have five : powerEcuComRprodDataEncoder.packetName.length = 5 := by decide
    have formed := Frame.make_wellFormed 72 five size
    refine ⟨Frame.make 72 _ memory.reproData five,?_,rfl,formed,rfl⟩
    rw [formed.bytes_eq]
    have digits : powerEcuComRprodDataEncoder.getPacketSizeStr memory = numeral 10 3 (memory.reproData.length + 11) :=
      paddedTo3_small size
    rw [digits]
    rfl

theorem uint8_decimal3 (v : UInt8) : (ElementUintEncoder.convert 3 v.toNat).isSome := by
  have bound : v.toNat < 2^8 := v.toNat_lt
  rw [uintConvert_some (by omega) (by omega)]
  rfl

theorem uint8_hex2 (v : UInt8) : (ElementHexUintEncoder.convert 2 v.toNat).isSome := by
  have bound : v.toNat < 2^8 := v.toNat_lt
  rw [hexUintConvert_some (by omega) (by omega)]
  rfl

theorem uint16_hex4 (v : UInt16) : (ElementHexUintEncoder.convert 4 v.toNat).isSome := by
  have bound : v.toNat < 2^16 := v.toNat_lt
  rw [hexUintConvert_some (by omega) (by omega)]
  rfl

theorem uint32_hex8 (v : UInt32) : (ElementHexUintEncoder.convert 8 v.toNat).isSome := by
  have bound : v.toNat < 2^32 := v.toNat_lt
  rw [hexUintConvert_some (by omega) (by omega)]
  rfl

theorem reserved_hex2 (memory : π) : ((elementHexUintEncoder (fun _ => kGetvpacketData) 2).convert memory).isSome := by
  simp only [elementHexUintEncoder]
  decide

theorem reserved_decimal1 (memory : π) : ((elementUintEncoder (fun _ => 0) 1).convert memory).isSome := by
  simp only [elementUintEncoder]
  decide

theorem bool_decimal1 (b : Bool) : (ElementUintEncoder.convert 1 b.toNat).isSome := by
  cases b <;> decide

theorem uint8_decimal1 (v : UInt8) : (ElementUintEncoder.convert 1 v.toNat).isSome ↔ v.toNat ≤ 9 := by
  have bound : v.toNat < 2^8 := v.toNat_lt
  rw [uintConvert_isSome (by omega)]
  omega

theorem bits_convert (map : BitMap π) (memory : π) (two : map.length = 2) :
    ((elementHexUintBitsEncoder map).convert memory).isSome := by
  have below := ElementHexUintBitsEncoder.value_lt map memory
  rw [two] at below
  have converted := hexUintConvert_some below (Nat.lt_trans below (by decide))
  simp only [elementHexUintBitsEncoder,elementHexUintEncoder,two,converted]
  rfl

-- What the parameters of an encoder must be for its frame to come out whole.
def Acceptable (packetName : List UInt8) (m : Parameters) : Prop :=
  if packetName = ascii "time_" then m.startTime.length = 14
  else if packetName = ascii "pump_" then m.isPumpEnable.toNat ≤ 9
  else if packetName = ascii "pbmsw" then m.isMotorEnable.toNat ≤ 9
  else if packetName = ascii "rpros" then m.reproVersion.length = 41
  else if packetName = ascii "rprod" then m.reproData.length ≤ 988
  else True

instance (packetName : List UInt8) (m : Parameters) : Decidable (Acceptable packetName m) :=
  inferInstanceAs (Decidable (ite _ _ _))

theorem acceptable_other {packetName : List UInt8} (m : Parameters)
    (other : packetName ∉ [ascii "time_",ascii "pump_",ascii "pbmsw",ascii "rpros",ascii "rprod"]) :
    Acceptable packetName m := by
  simp only [List.mem_cons,List.not_mem_nil,or_false,not_or] at other
  obtain ⟨time,pump,pbmsw,rpros,rprod⟩ := other
  rw [Acceptable,if_neg time,if_neg pump,if_neg pbmsw,if_neg rpros,if_neg rprod]
  trivial

theorem dataEncoder_sized {packetSize packetName : String} {elements : List (ElementEncoder π)}
    (five : (ascii packetName).length = 5) (size : (elements.map fun p => p.width + 1).sum + 11 ≤ 999)
    (digits : ascii packetSize = numeral 10 3 ((elements.map fun p => p.width + 1).sum + 11)) :
    (dataEncoder packetSize packetName elements).Sized :=
  ⟨rfl,five,size,fun _ => digits⟩

theorem protocolEncoders_sized {d : DataEncoder Parameters} (listed : d ∈ protocolEncoders)
    (other : d ≠ powerEcuComRprodDataEncoder) : d.Sized := by
  simp only [protocolEncoders,constructorEncoders,initEncoders,List.cons_append,List.nil_append,List.mem_cons,
    List.not_mem_nil,or_false,other,false_or] at listed
  rcases listed with rfl | rfl | rfl | rfl | rfl | rfl | rfl | rfl | rfl | rfl | rfl | rfl | rfl | rfl | rfl | rfl | rfl |
    rfl | rfl
  all_goals exact dataEncoder_sized (by decide) (by decide) (by decide +kernel)

theorem forall_mem_pair {P : α → Prop} {a b : α} (first : P a) (second : P b) : ∀ x ∈ [a,b], P x := by
  intro x member
  rcases List.mem_pair.mp member with rfl | rfl
  · exact first
  · exact second

theorem protocolEncoders_convert {d : DataEncoder Parameters} {m : Parameters} (listed : d ∈ protocolEncoders)
    (other : d ≠ powerEcuComRprodDataEncoder) :
    (∀ p ∈ d.elements, (p.convert m).isSome) ↔ Acceptable d.packetName m := by
  simp only [protocolEncoders,constructorEncoders,initEncoders,List.cons_append,List.nil_append,List.mem_cons,
    List.not_mem_nil,or_false,other,false_or] at listed
  have string : ∀ (length : Nat) (value : List UInt8),
      (ElementStringEncoder.convert length value).isSome ↔ value.length = length := by
    intro length value
    unfold ElementStringEncoder.convert
    by_cases exact : value.length = length <;> simp [exact]
  rcases listed with heart | getv | time | start | stop | mute | pump | pbmsw | ledc | gRes | solsw | pdcmd | rpros |
    rproe | undck | vu12 | vd3 | vd4 | vd5
  · subst heart
    exact iff_of_true (forall_mem_pair (uint16_hex4 m.errorState) (uint32_hex8 m.counts)) (acceptable_other m (by decide))
  · subst getv
    exact iff_of_true (List.forall_mem_singleton.mpr (reserved_hex2 m)) (acceptable_other m (by decide))
  · subst time
    exact List.forall_mem_singleton.trans (string 14 m.startTime)
  · subst start
    exact iff_of_true (List.forall_mem_singleton.mpr (bits_convert _ m (by decide))) (acceptable_other m (by decide))
  · subst stop
    exact iff_of_true nofun (acceptable_other m (by decide))
  · subst mute
    exact iff_of_true (List.forall_mem_singleton.mpr (bits_convert _ m (by decide))) (acceptable_other m (by decide))
  · subst pump
    exact List.forall_mem_singleton.trans (uint8_decimal1 m.isPumpEnable)
  · subst pbmsw
    exact List.forall_mem_singleton.trans (uint8_decimal1 m.isMotorEnable)
  · subst ledc
    exact iff_of_true (List.forall_mem_cons.mpr ⟨uint8_decimal3 m.ledColor.r,
      forall_mem_pair (uint8_decimal3 m.ledColor.g) (uint8_decimal3 m.ledColor.b)⟩) (acceptable_other m (by decide))
  · subst gRes
    exact iff_of_true (List.forall_mem_singleton.mpr (bits_convert _ m (by decide))) (acceptable_other m (by decide))
  · subst solsw
    exact iff_of_true (List.forall_mem_singleton.mpr (uint8_hex2 m.isSolenoidEnable)) (acceptable_other m (by decide))
  · subst pdcmd
    exact iff_of_true (List.forall_mem_singleton.mpr (bits_convert _ m (by decide))) (acceptable_other m (by decide))
  · subst rpros
    constructor
    · intro all
      exact (string 41 m.reproVersion).mp (all _ (List.mem_cons_of_mem _ (List.mem_singleton_self _)))
    · intro length
      exact forall_mem_pair (reserved_decimal1 m) ((string 41 m.reproVersion).mpr length)
  · subst rproe
    exact iff_of_true nofun (acceptable_other m (by decide))
  · subst undck
    exact iff_of_true nofun (acceptable_other m (by decide))
  · subst vu12
    exact iff_of_true (List.forall_mem_singleton.mpr (bool_decimal1 m.is12vuEnable)) (acceptable_other m (by decide))
  · subst vd3
    exact iff_of_true (List.forall_mem_singleton.mpr (bool_decimal1 m.is5vd3Enable)) (acceptable_other m (by decide))
  · subst vd4
    exact iff_of_true (List.forall_mem_singleton.mpr (bool_decimal1 m.is5vd4Enable)) (acceptable_other m (by decide))
  · subst vd5
    exact iff_of_true (List.forall_mem_singleton.mpr (bool_decimal1 m.is5vd5Enable)) (acceptable_other m (by decide))

-- An encoder of the protocol answers success with a whole frame in the buffer exactly
-- when its parameters are acceptable; otherwise it answers success without one.
theorem encodesFrame_iff (fe : FrameEncoder Parameters) (d : DataEncoder Parameters) (m : Parameters) (n : Nat)
    (listed : d ∈ protocolEncoders) (registered : d ∈ fe.encoders) (room : d.frameLength m ≤ n) :
    EncodesFrame fe d m n ↔ Acceptable d.packetName m := by
  by_cases rprod : d = powerEcuComRprodDataEncoder
  · subst rprod
    exact encodesFrame_rprod registered room
  · exact (encodesFrame_sized (protocolEncoders_sized listed rprod) registered room).trans
      (protocolEncoders_convert listed rprod)

theorem encodesFrame_pump : EncodesFrame protocolFrameEncoder powerEcuComPumpDataEncoder Parameters.initial kBufferSize :=
  (encodesFrame_iff protocolFrameEncoder powerEcuComPumpDataEncoder Parameters.initial kBufferSize
    (by simp [protocolEncoders,initEncoders]) (by simp [protocolFrameEncoder_encoders,protocolEncoders,initEncoders])
    (by decide)).mpr (by decide)

theorem pump_10_not_encoded :
    ¬ EncodesFrame protocolFrameEncoder powerEcuComPumpDataEncoder {Parameters.initial with isPumpEnable := 10} kBufferSize := by
  have listed : powerEcuComPumpDataEncoder ∈ protocolEncoders := by simp [protocolEncoders,initEncoders]
  have registered : powerEcuComPumpDataEncoder ∈ protocolFrameEncoder.encoders := by
    rw [protocolFrameEncoder_encoders]
    exact List.mem_reverse.mpr listed
  have sized : powerEcuComPumpDataEncoder.Sized := dataEncoder_sized (by decide) (by decide) (by decide +kernel)
  intro encodes
  have written := (encodesFrame_sized sized registered (by decide)).mp encodes _ (List.mem_singleton_self _)
  have failed : ¬ (ElementUintEncoder.convert 1 10).isSome := by decide
  exact failed written

end HsrbDrivers.PowerEcu

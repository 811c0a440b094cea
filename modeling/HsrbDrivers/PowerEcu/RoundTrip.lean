import HsrbDrivers.PowerEcu.FrameEncoder
import HsrbDrivers.PowerEcu.FrameAcceptance

namespace HsrbDrivers.PowerEcu
open CText FrameDecoder

inductive Element where
  | uint (type : IntType) (length : Nat)
  | hexUint (type : IntType) (length : Nat)
  | string (length : Nat)

-- What the elements of a packet refer to, by the position of the element.
structure Slots where
  number : Nat → Int
  text : Nat → StdString

namespace Slots

def numberAt (slot : Nat) : Ref Slots Int :=
  ⟨fun m => m.number slot,fun v m => {m with number := Function.update m.number slot v}⟩

def textAt (slot : Nat) : Ref Slots StdString :=
  ⟨fun m => m.text slot,fun v m => {m with text := Function.update m.text slot v}⟩

def Grown (before after : Slots) : Prop := ∀ slot, (before.text slot).capacity ≤ (after.text slot).capacity

theorem Grown.refl (m : Slots) : Grown m m := fun _ => Nat.le_refl _

theorem Grown.trans {before middle after : Slots} (first : Grown before middle) (last : Grown middle after) :
    Grown before after := fun slot => Nat.le_trans (first slot) (last slot)

theorem grown_text (m : Slots) (slot : Nat) {s : StdString} (room : (m.text slot).capacity ≤ s.capacity) :
    Grown m ((textAt slot).write s m) := by
  intro other
  by_cases same : other = slot
  · subst other
    simpa [textAt] using room
  · simp [textAt,same]

end Slots

namespace Element

def encoder (slot : Nat) : Element → ElementEncoder Slots
  | uint _ length => elementUintEncoder (fun m => m.number slot) length
  | hexUint _ length => elementHexUintEncoder (fun m => m.number slot) length
  | string length => elementStringEncoder (fun m => (m.text slot).data) length

def decoder (slot : Nat) : Element → ElementDecoder Slots
  | uint type length => elementUintDecoder type (Slots.numberAt slot) length
  | hexUint type length => elementHexUintDecoder type (Slots.numberAt slot) length
  | string length => elementStringDecoder (Slots.textAt slot) length

def encoders : Nat → List Element → List (ElementEncoder Slots)
  | _,[] => []
  | slot,e :: rest => e.encoder slot :: encoders (slot+1) rest

def decoders : Nat → List Element → List (ElementDecoder Slots)
  | _,[] => []
  | slot,e :: rest => e.decoder slot :: decoders (slot+1) rest

def width : Element → Nat
  | uint _ length => length
  | hexUint _ length => length+1
  | string length => length

def Fits (sent : Slots) (slot : Nat) : Element → Prop
  | uint type length => length ≤ 9 ∧ 0 ≤ sent.number slot ∧ sent.number slot < 10 ^ length ∧ type.Holds (sent.number slot)
  | hexUint type length => length ≤ 8 ∧ 0 ≤ sent.number slot ∧ sent.number slot < 16 ^ length ∧ type.Holds (sent.number slot)
  | string length => (sent.text slot).data.length = length ∧ 44 ∉ (sent.text slot).data

def Restored (sent received : Slots) (slot : Nat) : Element → Prop
  | uint _ _ => received.number slot = sent.number slot
  | hexUint _ _ => received.number slot = sent.number slot
  | string _ => (received.text slot).data = (sent.text slot).data

def Ready (m : Slots) (slot : Nat) : Element → Prop
  | string length => length ≤ (m.text slot).capacity
  | _ => True

def construct (slot : Nat) (m : Slots) : Element → Slots
  | string length => ElementStringDecoder.construct (Slots.textAt slot) length m
  | _ => m

def constructAll : Nat → List Element → Slots → Slots
  | _,[],m => m
  | slot,e :: rest,m => constructAll (slot+1) rest (e.construct slot m)

def assigned (sent received : Slots) (slot : Nat) : Element → Slots
  | string _ => (Slots.textAt slot).write ((received.text slot).refill (sent.text slot).data) received
  | _ => (Slots.numberAt slot).write (sent.number slot) received

def assignedAll (sent : Slots) : Nat → List Element → Slots → Slots
  | _,[],received => received
  | slot,e :: rest,received => assignedAll sent (slot+1) rest (e.assigned sent received slot)

end Element

theorem readDigits_eq {base : Nat} {digit : UInt8 → Option Nat} {bytes : List UInt8} {ds : List Nat}
    (read : bytes.map digit = ds.map some) (acc : Nat) :
    readDigits base digit toUint32 acc bytes = some ((ds.foldl (fun acc d => (acc * base + d) % 2^32) acc : Nat) : Int) := by
  induction bytes generalizing ds acc with
  | nil => cases ds with
    | nil => rfl
    | cons d ds => cases read
  | cons v bytes ih =>
      cases ds with
      | nil => cases read
      | cons d ds =>
          obtain ⟨first,rest⟩ := List.cons_eq_cons.mp read
          have narrowed : toUint32 ((acc : Int) * base + d) = (((acc * base + d) % 2^32 : Nat) : Int) := by
            rw [toUint32]
            push_cast
            rfl
          rw [readDigits,first]
          simp only
          rw [narrowed,ih rest]
          rfl

theorem readDigits_numeral {base length v : Nat} {digit : UInt8 → Option Nat} (positive : 0 < base)
    (same : ∀ d, d < base → digit (digitByte d) = some d) (fits : v < base ^ length) (small : v < 2^32) :
    readDigits base digit toUint32 0 (numeral base length v) = some (v : Int) := by
  have read : (numeral base length v).map digit = (Numeral.lowDigits base length v).reverse.map some := by
    rw [numeral,List.map_map]
    apply List.map_congr_left
    intro d member
    exact same d (Numeral.lowDigits_lt positive d (List.mem_reverse.mp member))
  have narrow := Numeral.foldl_mod base (2^32) (Numeral.lowDigits base length v).reverse 0
  have whole : (Numeral.lowDigits base length v).reverse.foldl (fun acc d => acc * base + d) 0 = v :=
    Numeral.horner_lowDigits base length v fits
  rw [whole,Nat.mod_eq_of_lt small] at narrow
  exact (readDigits_eq read 0).trans (congrArg (fun n : Nat => some (n : Int)) narrow)

theorem decimalDigit_digitByte : ∀ d, d < 10 → decimalDigit (digitByte d) = some d := by decide

theorem hexDigit_digitByte : ∀ d, d < 16 → hexDigit (digitByte d) = some d := by decide

theorem comma_not_mem_numeral (base : Nat) (positive : 0 < base) (small : base ≤ 16) (count v : Nat) :
    44 ∉ numeral base count v := by
  intro member
  obtain ⟨d,digit,same⟩ := List.mem_map.mp member
  have below := Numeral.lowDigits_lt positive d (List.mem_reverse.mp digit)
  have distinct : ∀ d, d < 16 → digitByte d ≠ 44 := by decide
  exact distinct d (by omega) same

theorem uint_decode_convert {type : IntType} {length v : Nat} (least : length ≤ 9) (inside : v < 10 ^ length)
    (held : type.Holds v) :
    ElementUintEncoder.convert length v = some (numeral 10 length v) ∧
      ElementUintDecoder.parse type length (numeral 10 length v) = some (v : Int) := by
  have power := Nat.pow_le_pow_right (n := 10) (by decide) least
  have small : v < 2^32 := by omega
  refine ⟨uintConvert_some inside small,?_⟩
  · have read := readDigits_numeral (by decide) decimalDigit_digitByte inside small
    rw [ElementUintDecoder.parse,numeral_length,if_neg (not_not.mpr rfl),read,Option.map_some,IntType.cast_of_holds held]

theorem hexUint_decode_convert {type : IntType} {length v : Nat} (least : length ≤ 8) (inside : v < 16 ^ length)
    (held : type.Holds v) :
    ElementHexUintEncoder.convert length v = some (104 :: numeral 16 length v) ∧
      ElementHexUintDecoder.parse type length (104 :: numeral 16 length v) = some (v : Int) := by
  have power := Nat.pow_le_pow_right (n := 16) (by decide) least
  have small : v < 2^32 := by omega
  refine ⟨hexUintConvert_some inside small,?_⟩
  · have read := readDigits_numeral (by decide) hexDigit_digitByte inside small
    have marked : ¬ ((numeral 16 length v).length ≠ length ∨ (104 : UInt8) ≠ 104) := by simp
    rw [ElementHexUintDecoder.parse]
    simp only [if_neg marked,read,Option.map_some,IntType.cast_of_holds held]

theorem string_decode_convert {length : Nat} {value : List UInt8} {s : StdString} (exact : value.length = length)
    (room : length ≤ s.capacity) (short : length < 2^31) :
    ElementStringEncoder.convert length value = some value ∧
      ElementStringDecoder.parse s length value = some (s.refill value) := by
  constructor
  · rw [ElementStringEncoder.convert,if_neg (not_not.mpr exact)]
  · have held : ¬ ((value.length : Int) ≠ int32 length ∨ s.capacity < length) := by
      rw [int32_small short,exact]
      simpa using room
    rw [ElementStringDecoder.parse,if_neg held]

theorem string_decode {received : Slots} {slot length : Nat} {element : List UInt8} {v : StdString}
    (parsed : ElementStringDecoder.parse (received.text slot) length element = some v) :
    ElementStringDecoder.decode (Slots.textAt slot) length element received = (true,(Slots.textAt slot).write v received) := by
  have read : (Slots.textAt slot).read received = received.text slot := rfl
  rw [ElementStringDecoder.decode,read,parsed]
  rfl

namespace Element

theorem decode_convert {sent received : Slots} {slot : Nat} {e : Element} (fits : e.Fits sent slot)
    (ready : e.Ready received slot) (short : e.width < 2^31) :
    ∃ bytes, (e.encoder slot).convert sent = some bytes ∧ 44 ∉ bytes ∧ bytes.length = e.width ∧
      (e.decoder slot).decode bytes received = (true,e.assigned sent received slot) := by
  cases e with
  | uint type length =>
      obtain ⟨least,nonnegative,below,held⟩ := fits
      obtain ⟨v,value⟩ := Int.eq_ofNat_of_zero_le nonnegative
      rw [value] at below held
      have trip := uint_decode_convert least (by exact_mod_cast below) held
      refine ⟨numeral 10 length v,?_,comma_not_mem_numeral 10 (by decide) (by decide) _ _,numeral_length _ _ _,?_⟩
      · simp only [encoder,elementUintEncoder,value,trip.1]
      · simp only [decoder,elementUintDecoder,ElementUintDecoder.decode,trip.2,PowerEcu.assign,assigned,value]
  | hexUint type length =>
      obtain ⟨least,nonnegative,below,held⟩ := fits
      obtain ⟨v,value⟩ := Int.eq_ofNat_of_zero_le nonnegative
      rw [value] at below held
      have trip := hexUint_decode_convert least (by exact_mod_cast below) held
      refine ⟨104 :: numeral 16 length v,?_,?_,by rw [List.length_cons,numeral_length,width],?_⟩
      · simp only [encoder,elementHexUintEncoder,value,trip.1]
      · have none := comma_not_mem_numeral 16 (by decide) (by decide) length v
        simp [none]
      · simp only [decoder,elementHexUintDecoder,ElementHexUintDecoder.decode,trip.2,PowerEcu.assign,assigned,value]
  | string length =>
      obtain ⟨exact,clean⟩ := fits
      obtain ⟨converted,parsed⟩ := string_decode_convert exact ready short
      exact ⟨(sent.text slot).data,by simp only [encoder,elementStringEncoder,converted],clean,exact,
        by simp only [decoder,elementStringDecoder,assigned,string_decode parsed]⟩

theorem assigned_grown (sent received : Slots) (slot : Nat) (e : Element) : received.Grown (e.assigned sent received slot) := by
  cases e with
  | uint type length => exact .refl received
  | hexUint type length => exact .refl received
  | string length => exact received.grown_text slot (Nat.le_max_left _ _)

theorem assigned_restored (sent received : Slots) (slot : Nat) (e : Element) :
    e.Restored sent (e.assigned sent received slot) slot := by
  cases e <;> simp [Restored,assigned,Slots.numberAt,Slots.textAt,StdString.refill]

theorem assigned_other (sent received : Slots) (e : Element) {slot other : Nat} (apart : other ≠ slot) :
    (e.assigned sent received slot).number other = received.number other ∧
      (e.assigned sent received slot).text other = received.text other := by
  cases e <;> simp [assigned,Slots.numberAt,Slots.textAt,apart]

theorem Ready.grown {before after : Slots} {slot : Nat} {e : Element} (ready : e.Ready before slot)
    (grown : before.Grown after) : e.Ready after slot := by
  cases e with
  | uint type length => trivial
  | hexUint type length => trivial
  | string length => exact Nat.le_trans ready (grown slot)

def All (holds : Nat → Element → Prop) : Nat → List Element → Prop
  | _,[] => True
  | slot,e :: rest => holds slot e ∧ All holds (slot+1) rest

theorem All.imp {holds holds' : Nat → Element → Prop} {slot : Nat} {elements : List Element}
    (all : All holds slot elements) (step : ∀ slot e, holds slot e → holds' slot e) : All holds' slot elements := by
  induction elements generalizing slot with
  | nil => trivial
  | cons e rest ih => exact ⟨step slot e all.1,ih all.2⟩

theorem assignedAll_before (sent received : Slots) (elements : List Element) {slot other : Nat} (before : other < slot) :
    (assignedAll sent slot elements received).number other = received.number other ∧
      (assignedAll sent slot elements received).text other = received.text other := by
  induction elements generalizing slot received with
  | nil => exact ⟨rfl,rfl⟩
  | cons e rest ih =>
      have later := ih (e.assigned sent received slot) (Nat.lt_succ_of_lt before)
      have first := assigned_other sent received e (Nat.ne_of_lt before)
      exact ⟨later.1.trans first.1,later.2.trans first.2⟩

theorem Restored.kept {sent before after : Slots} {slot : Nat} {e : Element} (restored : e.Restored sent before slot)
    (number : after.number slot = before.number slot) (text : after.text slot = before.text slot) :
    e.Restored sent after slot := by
  cases e with
  | uint type length => exact number.trans restored
  | hexUint type length => exact number.trans restored
  | string length => exact (congrArg StdString.data text).trans restored

theorem assignedAll_restored (sent received : Slots) (slot : Nat) (elements : List Element) :
    All (fun i e => e.Restored sent (assignedAll sent slot elements received) i) slot elements := by
  induction elements generalizing slot received with
  | nil => trivial
  | cons e rest ih =>
      have kept := assignedAll_before sent (e.assigned sent received slot) rest (Nat.lt_succ_self slot)
      exact ⟨(assigned_restored sent received slot e).kept kept.1 kept.2,ih _ _⟩

theorem width_encoder (slot : Nat) (e : Element) : (e.encoder slot).width = e.width := by
  cases e <;> rfl

theorem widths (slot : Nat) (elements : List Element) :
    (encoders slot elements).map (fun p => p.width + 1) = elements.map fun e => e.width + 1 := by
  induction elements generalizing slot with
  | nil => rfl
  | cons e rest ih => rw [encoders,List.map_cons,List.map_cons,width_encoder,ih]

theorem decodeElements_written {sent received : Slots} {slot : Nat} {elements : List Element}
    (fits : All (fun i e => e.Fits sent i) slot elements) (ready : All (fun i e => e.Ready received i) slot elements)
    (short : ∀ e ∈ elements, e.width < 2^31) :
    (∀ p ∈ encoders slot elements, (p.convert sent).isSome) ∧
      DataDecoder.decodeElements (decoders slot elements) (DataEncoder.writtenElements (encoders slot elements) sent) received =
        (true,assignedAll sent slot elements received) := by
  induction elements generalizing slot received with
  | nil => exact ⟨fun _ => nofun,rfl⟩
  | cons e rest ih =>
      obtain ⟨bytes,converted,clean,_,decoded⟩ := decode_convert fits.1 ready.1 (short e List.mem_cons_self)
      have later := ready.2.imp fun i other ready => Ready.grown ready (assigned_grown sent received slot e)
      obtain ⟨convert,tail⟩ := ih fits.2 later (fun e member => short e (List.mem_cons_of_mem _ member))
      have element : ∀ c ∈ bytes, decide (c ≠ 44) = true := fun c member => decide_eq_true (fun same => clean (same ▸ member))
      refine ⟨List.forall_mem_cons.mpr ⟨by rw [converted]; rfl,convert⟩,?_⟩
      simp only [encoders,decoders,DataEncoder.writtenElements,converted,DataDecoder.decodeElements]
      rw [List.dropWhile_append_of_pos element,List.takeWhile_append_of_pos element]
      simp only [List.dropWhile_cons,List.takeWhile_cons,ne_eq,not_true_eq_false,decide_false,Bool.false_eq_true,if_false,
        List.append_nil,decoded,tail]
      rfl

theorem decode_grown (slot : Nat) (e : Element) (element : List UInt8) (m : Slots) :
    m.Grown ((e.decoder slot).decode element m).2 := by
  cases e with
  | uint type length =>
      cases parsed : ElementUintDecoder.parse type length element <;>
        simp only [decoder,elementUintDecoder,ElementUintDecoder.decode,parsed,PowerEcu.assign] <;> exact .refl m
  | hexUint type length =>
      cases parsed : ElementHexUintDecoder.parse type length element <;>
        simp only [decoder,elementHexUintDecoder,ElementHexUintDecoder.decode,parsed,PowerEcu.assign] <;> exact .refl m
  | string length =>
      simp only [decoder,elementStringDecoder,ElementStringDecoder.decode,ElementStringDecoder.parse]
      split
      · exact .refl m
      · exact m.grown_text slot (Nat.le_max_left _ _)

theorem decodeElements_grown (slot : Nat) (elements : List Element) (data : List UInt8) (m : Slots) :
    m.Grown (DataDecoder.decodeElements (decoders slot elements) data m).2 := by
  induction elements generalizing slot data m with
  | nil => exact .refl m
  | cons e rest ih =>
      have first := decode_grown slot e (data.takeWhile (· ≠ 44)) m
      simp only [decoders,DataDecoder.decodeElements]
      split
      · exact .refl m
      · split
        · rename_i failed
          rw [failed] at first
          exact first
        · rename_i decoded
          rw [decoded] at first
          exact first.trans (ih _ _ _)

theorem construct_grown (slot : Nat) (e : Element) (m : Slots) : m.Grown (e.construct slot m) := by
  cases e with
  | uint type length => exact .refl m
  | hexUint type length => exact .refl m
  | string length => exact m.grown_text slot (Nat.le_max_left _ _)

theorem construct_ready (slot : Nat) (e : Element) (m : Slots) : e.Ready (e.construct slot m) slot := by
  cases e with
  | uint type length => trivial
  | hexUint type length => trivial
  | string length =>
      have room : length + 1 ≤ Nat.max (m.text slot).capacity (length+1) := Nat.le_max_right _ _
      simp only [Ready,construct,ElementStringDecoder.construct,Slots.textAt,StdString.reserve,Function.update_self]
      omega

theorem constructAll_grown (slot : Nat) (elements : List Element) (m : Slots) : m.Grown (constructAll slot elements m) := by
  induction elements generalizing slot m with
  | nil => exact .refl m
  | cons e rest ih => exact (construct_grown slot e m).trans (ih _ _)

theorem constructAll_ready (slot : Nat) (elements : List Element) (m : Slots) :
    All (fun i e => e.Ready (constructAll slot elements m) i) slot elements := by
  induction elements generalizing slot m with
  | nil => trivial
  | cons e rest ih => exact ⟨(construct_ready slot e m).grown (constructAll_grown _ _ _),ih _ _⟩

end Element

def packetSize (elements : List Element) : Nat := (elements.map fun e => e.width + 1).sum + 11

def packetEncoder (name : List UInt8) (elements : List Element) : DataEncoder Slots where
  packetName := name
  getPacketSizeStr _ := numeral 10 3 (packetSize elements)
  elements := Element.encoders 0 elements
  overridden := none

def packetDecoder (name : List UInt8) (elements : List Element) : DataDecoder Slots where
  packetName := name
  packetSize := packetSize elements
  elements := Element.decoders 0 elements
  update m := (true,m)
  parameterMap := []

-- What the decoders of a packet leave in memory: they are constructed, then decode anything.
inductive Reached (name : List UInt8) (elements : List Element) : Slots → Prop where
  | constructed : Reached name elements (Element.constructAll 0 elements m)
  | decoded : Reached name elements m → Reached name elements ((packetDecoder name elements).decode data m).2

theorem decode_memory (name : List UInt8) (elements : List Element) (data : List UInt8) (m : Slots) :
    ((packetDecoder name elements).decode data m).2 =
      (DataDecoder.decodeElements (Element.decoders 0 elements) data m).2 := by
  simp only [DataDecoder.decode,packetDecoder]
  cases DataDecoder.decodeElements (Element.decoders 0 elements) data m with
  | mk ret memory => cases ret <;> rfl

theorem reached_ready {name : List UInt8} {elements : List Element} {m : Slots} (reached : Reached name elements m) :
    Element.All (fun i e => e.Ready m i) 0 elements := by
  induction reached with
  | @constructed m => exact Element.constructAll_ready 0 elements m
  | @decoded m data _ ih =>
      rw [decode_memory]
      exact ih.imp fun _ _ ready => ready.grown (Element.decodeElements_grown 0 elements data m)

def wrap (name data : List UInt8) : Option (List UInt8) := do
  let size ← ElementUintEncoder.convert 3 ((data.length+11 : Nat) : Int)
  let covered := 69 :: 44 :: (name ++ 44 :: (size ++ 44 :: data))
  let sum ← FrameEncoder.checkSumEncoder.convert (calculateCrc32 covered)
  return covered ++ sum ++ [44,10]

theorem wrap_eq {name data : List UInt8} (five : name.length = 5) (size : data.length + 11 ≤ 999) :
    wrap name data = some ((Frame.make 69 name data five).bytes 69) := by
  have fits : data.length + 11 < 10 ^ 3 := Nat.lt_succ_of_le size
  have digits := uintConvert_some fits (Nat.lt_trans fits (by decide))
  rw [(Frame.make_wellFormed 69 five size).bytes_eq,wrap,digits]
  simp only [FrameEncoder.checkSumEncoder_convert,Option.bind_eq_bind,Option.bind_some,frameText,Frame.make,
    List.append_assoc,List.cons_append]
  rfl

theorem encode_decode_round_trip (fd : FrameDecoder Slots) (name rest : List UInt8) (elements : List Element)
    (sent received : Slots) (five : name.length = 5) (size : packetSize elements ≤ 999)
    (fits : Element.All (fun i e => e.Fits sent i) 0 elements) (registered : packetDecoder name elements ∈ fd.decoders)
    (reached : Reached name elements received) (small : rest.length < 2^31) :
    ∃ buffer frame restored, (packetEncoder name elements).encode sent (.empty : PacketBuffer) = (.success,buffer) ∧
      wrap name buffer.data = some frame ∧
      fd.decode (frame ++ rest) received = .ok ⟨.success,rest,restored,some (name,buffer.data)⟩ ∧
      Element.All (fun i e => e.Restored sent restored i) 0 elements := by
  have sum : (elements.map fun e => e.width + 1).sum ≤ 988 := Nat.le_of_add_le_add_right size
  have short : ∀ e ∈ elements, e.width < 2^31 := by
    intro e member
    have part := List.le_sum_of_mem (List.mem_map_of_mem (f := fun e : Element => e.width + 1) member)
    omega
  obtain ⟨converted,decoded⟩ := Element.decodeElements_written fits (reached_ready reached) short
  have length := DataEncoder.writtenElements_length converted
  rw [Element.widths] at length
  have encoded := DataEncoder.encodeElements_buffer (Element.encoders 0 elements) sent (.empty : PacketBuffer)
  have data := CircularBuffer.data_pushBacks (.empty : PacketBuffer) (DataEncoder.writtenElements (Element.encoders 0 elements) sent)
    (by rw [CircularBuffer.data_empty,List.length_nil,length,Nat.zero_add]; exact Nat.le_trans sum (by decide))
  rw [CircularBuffer.data_empty,List.nil_append] at data
  generalize DataEncoder.writtenElements (Element.encoders 0 elements) sent = written at *
  have fitting : written.length + 11 ≤ 999 := by omega
  have accepts : (packetDecoder name elements).decode written received =
      (.success,Element.assignedAll sent 0 elements received) := by
    simp only [DataDecoder.decode,packetDecoder,decoded]
  have whole : (Frame.make 69 name written five).Sent fd (packetDecoder name elements) :=
    ⟨Frame.make_wellFormed 69 five fitting,registered,rfl,by rw [Frame.make,length]; rfl⟩
  have accepted := whole.accepted (congrArg Prod.fst accepts)
  have counted : Counted ((Frame.make 69 name written five).bytes 69 ++ rest) ((Frame.make 69 name written five).data.length+11) := by
    have bytes := (Frame.make 69 name written five).bytes_length 69
    have field : (Frame.make 69 name written five).data.length = written.length := rfl
    rw [field] at bytes
    rw [Counted,List.length_append,bytes,field,uint32_small (by omega),uint32_small (by omega)]
    omega
  refine ⟨CircularBuffer.empty.pushBacks written,(Frame.make 69 name written five).bytes 69,_,
    Prod.ext ((DataEncoder.encodeElements_success _).mpr converted) encoded,?_,?_,
    Element.assignedAll_restored sent received 0 elements⟩
  · rw [data]
    exact wrap_eq five fitting
  · rw [decode_eq,← List.nil_append ((Frame.make 69 name written five).bytes 69),
      frameStep_accepted List.not_mem_nil accepted counted,data]
    have memory := congrArg Prod.snd accepts
    rw [show (Frame.make 69 name written five).data = written from rfl,memory]
    rfl

def mixedPacket : List Element := [.uint .uint8 3,.hexUint .uint16 4,.string 2]

def mixedValues : Slots where
  number slot := if slot = 0 then 255 else 0xBEEF
  text _ := ⟨ascii "ok",2,by decide⟩

def blankSlots : Slots := ⟨fun _ => 0,fun _ => .empty⟩

theorem encode_decode_round_trip_mixed :
    ∃ buffer frame restored,
      (packetEncoder (ascii "mixed") mixedPacket).encode mixedValues (.empty : PacketBuffer) = (.success,buffer) ∧
      wrap (ascii "mixed") buffer.data = some frame ∧
      (⟨[packetDecoder (ascii "mixed") mixedPacket],List.nodup_singleton _⟩ : FrameDecoder Slots).decode
        (frame ++ ascii "E") (Element.constructAll 0 mixedPacket blankSlots) =
          .ok ⟨.success,ascii "E",restored,some (ascii "mixed",buffer.data)⟩ ∧
      Element.All (fun i e => e.Restored mixedValues restored i) 0 mixedPacket :=
  encode_decode_round_trip _ (ascii "mixed") (ascii "E") mixedPacket mixedValues _ (by decide) (by decide)
    ⟨⟨by decide,by decide,by decide,by decide⟩,⟨by decide,by decide,by decide,by decide⟩,⟨rfl,by decide⟩,trivial⟩
    (List.mem_singleton_self _) .constructed (by decide)

end HsrbDrivers.PowerEcu

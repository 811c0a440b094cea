import HsrbDrivers.PowerEcu.DataDecoder
import HsrbDrivers.PowerEcu.FrameAcceptance
import HsrbDrivers.PowerEcu.FrameEncoder

namespace HsrbDrivers.PowerEcu
open CText FrameDecoder

structure Ref.Lawful (part : Ref σ τ) : Prop where
  read_write : ∀ v m, part.read (part.write v m) = v
  write_read : ∀ m, part.write (part.read m) m = m
  write_write : ∀ v w m, part.write v (part.write w m) = part.write v m

theorem decodeElements_within {part : Ref σ τ} (lawful : part.Lawful) (elements : List (ElementDecoder τ)) (data : List UInt8)
    (m : σ) :
    DataDecoder.decodeElements (elements.map (ElementDecoder.within part)) data m =
      ((DataDecoder.decodeElements elements data (part.read m)).1,
        part.write (DataDecoder.decodeElements elements data (part.read m)).2 m) := by
  induction elements generalizing data m with
  | nil => simp only [List.map_nil,DataDecoder.decodeElements,lawful.write_read]
  | cons e rest ih =>
      simp only [List.map_cons,DataDecoder.decodeElements,ElementDecoder.within]
      cases data.dropWhile (· ≠ 44) with
      | nil => simp only [lawful.write_read]
      | cons comma next =>
          cases step : e.decode (data.takeWhile (· ≠ 44)) (part.read m) with
          | mk ret inner =>
              cases ret with
              | false => simp only [step]
              | true => simp only [step,ih,lawful.read_write,lawful.write_write]

theorem decode_within {part : Ref σ τ} (lawful : part.Lawful) (d : DataDecoder τ) (data : List UInt8) (m : σ) :
    (d.within part).decode data m =
      ((d.decode data (part.read m)).1,part.write (d.decode data (part.read m)).2 m) := by
  have elements := decodeElements_within lawful d.elements data m
  simp only [DataDecoder.decode,DataDecoder.within,elements]
  cases DataDecoder.decodeElements d.elements data (part.read m) with
  | mk ret inner =>
      cases ret with
      | false => rfl
      | true =>
          simp only [lawful.read_write,lawful.write_write]
          cases step : d.update inner with
          | mk ret last => cases ret <;> simp only [step]

def Unchanged (fd : FrameDecoder σ) (before after : σ) : Prop :=
  ∀ d ∈ fd.decoders, ∀ name read, d.getParamPtr name = some read → read after = read before

theorem getParamPtr_within {part : Ref σ τ} {d : DataDecoder τ} {name : String} {read : σ → Param} :
    (d.within part).getParamPtr name = some read ↔
      ∃ inner, d.getParamPtr name = some inner ∧ read = fun m => inner (part.read m) := by
  unfold DataDecoder.getParamPtr DataDecoder.within
  generalize d.parameterMap = entries
  induction entries with
  | nil => simp
  | cons entry rest ih =>
      obtain ⟨key,inner⟩ := entry
      by_cases same : name = key
      · simp [same,eq_comm]
      · have other : (name == key) = false := beq_eq_false_iff_ne.mpr same
        simpa only [List.map_cons,List.lookup_cons,other] using ih

theorem mem_of_getParamPtr {d : DataDecoder σ} {name : String} {read : σ → Param} (reached : d.getParamPtr name = some read) :
    (name,read) ∈ d.parameterMap := by
  obtain ⟨before,after,split,_⟩ := List.lookup_eq_some_iff.mp reached
  rw [split]
  exact List.mem_append_right _ List.mem_cons_self

theorem decodeElements_view (view : σ → α) {elements : List (ElementDecoder σ)}
    (kept : ∀ e ∈ elements, ∀ element m, view (e.decode element m).2 = view m) (data : List UInt8) (m : σ) :
    view (DataDecoder.decodeElements elements data m).2 = view m := by
  induction elements generalizing data m with
  | nil => rfl
  | cons e rest ih =>
      obtain ⟨first,later⟩ := List.forall_mem_cons.mp kept
      have one := first (data.takeWhile (· ≠ 44)) m
      simp only [DataDecoder.decodeElements]
      cases data.dropWhile (· ≠ 44) with
      | nil => rfl
      | cons comma next =>
          cases step : e.decode (data.takeWhile (· ≠ 44)) m with
          | mk ret inner =>
              rw [step] at one
              cases ret with
              | false => exact one
              | true => exact (ih later next inner).trans one

theorem assign_view (view : σ → α) {value : Ref σ τ} (kept : ∀ v m, view (value.write v m) = view m) (m : σ) (parsed : Option τ) :
    view (assign value m parsed).2 = view m := by
  cases parsed with
  | none => rfl
  | some v => exact kept v m

theorem decode_rejected {d : DataDecoder σ} {data : List UInt8} {m : σ} (updates : ∀ m, (d.update m).1 = true)
    (rejected : (d.decode data m).1 = .protocolError) :
    (DataDecoder.decodeElements d.elements data m).1 = false ∧
      (d.decode data m).2 = (DataDecoder.decodeElements d.elements data m).2 := by
  unfold DataDecoder.decode at rejected ⊢
  cases step : DataDecoder.decodeElements d.elements data m with
  | mk ret inner =>
      cases ret with
      | false => exact ⟨rfl,rfl⟩
      | true =>
          rw [step] at rejected
          have updated := updates inner
          cases last : d.update inner with
          | mk ret after =>
              rw [last] at updated
              cases updated
              simp only [last] at rejected
              cases rejected

theorem rxack_rejected {data : List UInt8} {m : Rxack} (rejected : (Rxack.decoder.decode data m).1 = .protocolError) :
    (Rxack.decoder.decode data m).2 = m := by
  obtain ⟨failed,same⟩ := decode_rejected (fun _ => rfl) rejected
  rw [same]
  simp only [Rxack.decoder,DataDecoder.decodeElements,elementHexUintDecoder,ElementHexUintDecoder.decode] at failed ⊢
  cases split : data.dropWhile (· ≠ 44) with
  | nil => rfl
  | cons comma next =>
      cases parsed : ElementHexUintDecoder.parse .uint8 2 (data.takeWhile (· ≠ 44)) with
      | none => rfl
      | some v =>
          simp only [split,parsed,assign] at failed
          cases failed

def Ver.published (m : Ver) : StdString × StdString × Bool :=
  (m.verPowerEcuVersion,m.verPowerEcuComVersion,m.isReceiveVersion)

theorem ver_rejected {data : List UInt8} {m : Ver} (rejected : (Ver.decoder.decode data m).1 = .protocolError) :
    (Ver.decoder.decode data m).2.published = m.published := by
  rw [(decode_rejected (fun _ => rfl) rejected).2]
  apply decodeElements_view Ver.published
  intro e member element m
  rcases List.mem_pair.mp member with rfl | rfl
  · exact assign_view Ver.published (fun _ _ => rfl) m _
  · exact assign_view Ver.published (fun _ _ => rfl) m _

theorem ver_reads {before after : Ver} (same : after.published = before.published) {name : String} {read : Ver → Param}
    (reached : Ver.decoder.getParamPtr name = some read) : read after = read before := by
  have version : after.verPowerEcuVersion = before.verPowerEcuVersion := congrArg (fun p => p.1) same
  have comVersion : after.verPowerEcuComVersion = before.verPowerEcuComVersion := congrArg (fun p => p.2.1) same
  have received : after.isReceiveVersion = before.isReceiveVersion := congrArg (fun p => p.2.2) same
  have member := mem_of_getParamPtr reached
  simp only [Ver.decoder,List.mem_cons,Prod.mk.injEq,List.not_mem_nil,or_false] at member
  rcases member with ⟨_,rfl⟩ | ⟨_,rfl⟩ | ⟨_,rfl⟩
  · simp only [version]
  · simp only [comVersion]
  · simp only [received]

theorem ecu1_rejected {data : List UInt8} {m : Ecu1} (rejected : (Ecu1.decoder.decode data m).1 = .protocolError) :
    (Ecu1.decoder.decode data m).2.out = m.out := by
  rw [(decode_rejected (fun _ => rfl) rejected).2]
  apply decodeElements_view Ecu1.out
  intro e member element m
  obtain ⟨inner,_,rfl⟩ := List.mem_map.mp member
  rfl

theorem ecu1_reads {before after : Ecu1} (same : after.out = before.out) {name : String} {read : Ecu1 → Param}
    (reached : Ecu1.decoder.getParamPtr name = some read) : read after = read before := by
  obtain ⟨⟨key,inner⟩,_,equal⟩ := List.mem_map.mp (mem_of_getParamPtr reached)
  cases equal
  simp only [same]

namespace Ecu2

-- The fields that are accepted, up to the first that is not, repeat what is published.
def RepeatsFrom (m : Ecu2) : List (Field × IntType × Nat × String) → List UInt8 → Prop
  | [],_ => True
  | (field,type,length,_) :: rest,current => match current.dropWhile (· ≠ 44) with
    | [] => True
    | _ :: next => match ElementIntDecoder.parse type length (current.takeWhile (· ≠ 44)) with
      | none => True
      | some v => m.values field = v ∧ RepeatsFrom m rest next

def Repeats (m : Ecu2) (data : List UInt8) : Prop :=
  match data.dropWhile (· ≠ 44) with
  | [] => True
  | _ :: next => match ElementStringDecoder.parse m.ecu2Date 14 (data.takeWhile (· ≠ 44)) with
    | none => True
    | some date => date.data = m.ecu2Date.data ∧ RepeatsFrom m layout next

def fieldElements (fields : List (Field × IntType × Nat × String)) : List (ElementDecoder Ecu2) :=
  fields.map fun (field,type,length,_) => elementIntDecoder type (value field) length

theorem fieldElements_date (fields : List (Field × IntType × Nat × String)) (current : List UInt8) (m : Ecu2) :
    (DataDecoder.decodeElements (fieldElements fields) current m).2.ecu2Date = m.ecu2Date := by
  apply decodeElements_view Ecu2.ecu2Date
  intro e member element m
  obtain ⟨⟨field,type,length,name⟩,_,rfl⟩ := List.mem_map.mp member
  exact assign_view Ecu2.ecu2Date (fun _ _ => rfl) m _

theorem fieldElements_other {fields : List (Field × IntType × Nat × String)} {other : Field}
    (absent : other ∉ fields.map Prod.fst) (current : List UInt8) (m : Ecu2) :
    (DataDecoder.decodeElements (fieldElements fields) current m).2.values other = m.values other := by
  apply decodeElements_view (fun m : Ecu2 => m.values other)
  intro e member element m
  obtain ⟨⟨field,type,length,name⟩,held,rfl⟩ := List.mem_map.mp member
  have apart : other ≠ field := fun same => absent (same ▸ List.mem_map_of_mem held)
  exact assign_view (fun m : Ecu2 => m.values other) (fun _ _ => Function.update_of_ne apart _ _) m _

theorem fieldElements_repeat (fields : List (Field × IntType × Nat × String)) (distinct : (fields.map Prod.fst).Nodup)
    (current : List UInt8) (m : Ecu2) :
    (DataDecoder.decodeElements (fieldElements fields) current m).2.values = m.values ↔ m.RepeatsFrom fields current := by
  induction fields generalizing current m with
  | nil => exact ⟨fun _ => trivial,fun _ => rfl⟩
  | cons entry rest ih =>
      obtain ⟨field,type,length,name⟩ := entry
      obtain ⟨absent,later⟩ := List.nodup_cons.mp distinct
      simp only [fieldElements,List.map_cons,DataDecoder.decodeElements,RepeatsFrom,elementIntDecoder,
        ElementIntDecoder.decode]
      cases current.dropWhile (· ≠ 44) with
      | nil => exact ⟨fun _ => trivial,fun _ => rfl⟩
      | cons comma next =>
          cases ElementIntDecoder.parse type length (current.takeWhile (· ≠ 44)) with
          | none => exact ⟨fun _ => trivial,fun _ => rfl⟩
          | some v =>
              have written : ((value field).write v m).values field = v := Function.update_self _ _ _
              have kept := fieldElements_other absent next ((value field).write v m)
              have tail := ih later next ((value field).write v m)
              simp only [assign]
              -- a field that is written stays written, so it must have held the value before
              constructor
              · intro same
                have held : m.values field = v := by
                  rw [← written,← kept]
                  exact (congrFun same field).symm
                have unmoved : (value field).write v m = m := by
                  rw [← held]
                  simp only [value,Function.update_eq_self]
                rw [unmoved] at tail
                rw [unmoved] at same
                exact ⟨held,tail.mp same⟩
              · rintro ⟨held,repeats⟩
                have unmoved : (value field).write v m = m := by
                  rw [← held]
                  simp only [value,Function.update_eq_self]
                rw [unmoved] at tail ⊢
                exact tail.mpr repeats

theorem repeatsFrom_values {m m' : Ecu2} (same : m'.values = m.values) (fields : List (Field × IntType × Nat × String))
    (current : List UInt8) : m'.RepeatsFrom fields current ↔ m.RepeatsFrom fields current := by
  induction fields generalizing current with
  | nil => exact Iff.rfl
  | cons entry rest ih =>
      obtain ⟨field,type,length,name⟩ := entry
      simp only [RepeatsFrom,same,ih]

theorem decode_memory (data : List UInt8) (m : Ecu2) :
    (decoder.decode data m).2 = (DataDecoder.decodeElements decoder.elements data m).2 := by
  unfold DataDecoder.decode
  cases step : DataDecoder.decodeElements decoder.elements data m with
  | mk ret inner => cases ret <;> rfl

theorem decode_repeats (data : List UInt8) (m : Ecu2) :
    ((decoder.decode data m).2.ecu2Date.data = m.ecu2Date.data ∧ (decoder.decode data m).2.values = m.values) ↔
      m.Repeats data := by
  have elements : decoder.elements = elementStringDecoder date 14 :: fieldElements layout := rfl
  have read : date.read m = m.ecu2Date := rfl
  rw [decode_memory,elements]
  simp only [DataDecoder.decodeElements,Repeats,elementStringDecoder,ElementStringDecoder.decode,read]
  cases data.dropWhile (· ≠ 44) with
  | nil => exact ⟨fun _ => trivial,fun _ => ⟨rfl,rfl⟩⟩
  | cons comma next =>
      cases ElementStringDecoder.parse m.ecu2Date 14 (data.takeWhile (· ≠ 44)) with
      | none => exact ⟨fun _ => trivial,fun _ => ⟨rfl,rfl⟩⟩
      | some s =>
          have same : (date.write s m).values = m.values := rfl
          have fields := fieldElements_repeat layout (by decide) next (date.write s m)
          rw [repeatsFrom_values same] at fields
          simp only [assign,fieldElements_date]
          exact and_congr Iff.rfl fields

theorem lookup_of_mem {entries : List (String × α)} (distinct : (entries.map Prod.fst).Nodup) {name : String} {v : α}
    (member : (name,v) ∈ entries) : entries.lookup name = some v := by
  obtain ⟨before,after,rfl⟩ := List.append_of_mem member
  refine List.lookup_eq_some_iff.mpr ⟨before,after,rfl,?_⟩
  intro entry early
  rw [List.map_append,List.map_cons] at distinct
  have apart := (List.nodup_append.mp distinct).2.2 entry.1 (List.mem_map_of_mem early) name List.mem_cons_self
  simpa using apart.symm

theorem field_listed (field : Field) : field ∈ layout.map Prod.fst := by
  cases field <;> decide

theorem reads_iff {before after : Ecu2} :
    (∀ name read, decoder.getParamPtr name = some read → read after = read before) ↔
      after.ecu2Date.data = before.ecu2Date.data ∧ after.values = before.values := by
  constructor
  · intro same
    have date := same "ecu2_date" (fun m => .text m.ecu2Date.data) rfl
    refine ⟨Param.text.inj date,funext fun field => ?_⟩
    obtain ⟨⟨field,type,length,name⟩,listed,rfl⟩ := List.mem_map.mp (field_listed field)
    have distinct : (decoder.parameterMap.map Prod.fst).Nodup := by decide +kernel
    have member : (name,fun m : Ecu2 => Param.integer type (m.values field)) ∈ decoder.parameterMap :=
      List.mem_cons_of_mem _ (List.mem_map.mpr ⟨_,listed,rfl⟩)
    exact (Param.integer.inj (same name _ (lookup_of_mem distinct member))).2
  · rintro ⟨date,values⟩ name read reached
    rcases List.mem_cons.mp (mem_of_getParamPtr reached) with equal | member
    · cases equal
      simp only [date]
    · obtain ⟨⟨field,type,length,key⟩,_,equal⟩ := List.mem_map.mp member
      cases equal
      simp only [values]

end Ecu2
namespace Received

def protocolDecoders : List (DataDecoder Received) := [rxackDecoder,verDecoder,ecu1Decoder,ecu2Decoder]

theorem unchanged_of_parts {fd : FrameDecoder Received} (listed : ∀ d ∈ fd.decoders, d ∈ protocolDecoders)
    {before after : Received} (rxack : after.rxack = before.rxack) (ver : after.ver.published = before.ver.published)
    (ecu1 : after.ecu1.out = before.ecu1.out) (date : after.ecu2.ecu2Date.data = before.ecu2.ecu2Date.data)
    (values : after.ecu2.values = before.ecu2.values) : Unchanged fd before after := by
  intro d registered name read reached
  have which := listed d registered
  simp only [protocolDecoders,List.mem_cons,List.not_mem_nil,or_false] at which
  rcases which with rfl | rfl | rfl | rfl
  · obtain ⟨inner,_,rfl⟩ := getParamPtr_within.mp reached
    simp only [rxackPart,rxack]
  · obtain ⟨inner,found,rfl⟩ := getParamPtr_within.mp reached
    exact ver_reads ver found
  · obtain ⟨inner,found,rfl⟩ := getParamPtr_within.mp reached
    exact ecu1_reads ecu1 found
  · obtain ⟨inner,found,rfl⟩ := getParamPtr_within.mp reached
    exact Ecu2.reads_iff.mpr ⟨date,values⟩ name inner found

theorem unchanged_ecu2 {fd : FrameDecoder Received} (registered : ecu2Decoder ∈ fd.decoders) {before after : Received}
    (unchanged : Unchanged fd before after) :
    after.ecu2.ecu2Date.data = before.ecu2.ecu2Date.data ∧ after.ecu2.values = before.ecu2.values := by
  apply Ecu2.reads_iff.mp
  intro name read reached
  exact unchanged ecu2Decoder registered name (fun m => read m.ecu2) (getParamPtr_within.mpr ⟨read,reached,rfl⟩)

theorem rxackPart_lawful : rxackPart.Lawful := ⟨fun _ _ => rfl,fun _ => rfl,fun _ _ _ => rfl⟩
theorem verPart_lawful : verPart.Lawful := ⟨fun _ _ => rfl,fun _ => rfl,fun _ _ _ => rfl⟩
theorem ecu1Part_lawful : ecu1Part.Lawful := ⟨fun _ _ => rfl,fun _ => rfl,fun _ _ _ => rfl⟩
theorem ecu2Part_lawful : ecu2Part.Lawful := ⟨fun _ _ => rfl,fun _ => rfl,fun _ _ _ => rfl⟩

end Received

open Received in
-- A rejected frame leaves the published values exactly when it is not addressed to
-- the `ecu2_` decoder, or what that decoder took of it repeats what was published.
theorem rejected_unchanged_iff (fd : FrameDecoder Received) (start : List UInt8) (memory : Received) (decoded : Decoded Received)
    (listed : ∀ d ∈ fd.decoders, d ∈ protocolDecoders) (step : fd.decode start memory = .ok decoded)
    (rejected : decoded.code = .protocolError) :
    Unchanged fd memory decoded.memory ↔ ∀ f rest, AddressedIn fd start f ecu2Decoder rest → memory.ecu2.Repeats f.data := by
  rw [decode_eq] at step
  cases Except.ok.inj step
  constructor
  · intro unchanged f rest addressed
    have registered := addressed.choose_spec.2.2.1.registered
    have kept := unchanged_ecu2 registered unchanged
    rw [frameStep_addressed addressed,ecu2Decoder,decode_within ecu2Part_lawful] at kept
    exact (Ecu2.decode_repeats f.data memory.ecu2).mp kept
  · intro repeats
    rcases frameStep_dispatch fd start memory with ⟨f,d,rest,addressed⟩ | ⟨_,same⟩
    · have which := listed d addressed.choose_spec.2.2.1.registered
      rw [frameStep_addressed addressed] at rejected ⊢
      simp only at rejected ⊢
      simp only [protocolDecoders,List.mem_cons,List.not_mem_nil,or_false] at which
      rcases which with rfl | rfl | rfl | rfl
      · rw [rxackDecoder,decode_within rxackPart_lawful] at rejected ⊢
        exact unchanged_of_parts listed (rxack_rejected rejected) rfl rfl rfl rfl
      · rw [verDecoder,decode_within verPart_lawful] at rejected ⊢
        exact unchanged_of_parts listed rfl (ver_rejected rejected) rfl rfl rfl
      · rw [ecu1Decoder,decode_within ecu1Part_lawful] at rejected ⊢
        exact unchanged_of_parts listed rfl rfl (ecu1_rejected rejected) rfl rfl
      · obtain ⟨date,values⟩ := (Ecu2.decode_repeats f.data memory.ecu2).mpr (repeats f rest addressed)
        rw [ecu2Decoder,decode_within ecu2Part_lawful]
        exact unchanged_of_parts listed rfl rfl rfl date values
    · rw [same]
      intro d registered name read reached
      rfl

def Received.receiver : FrameDecoder Received := ⟨Received.protocolDecoders,by decide +kernel⟩

def Ecu2.brokenData : List UInt8 :=
  ascii "20170210095651, 12000,x00000," ++ (List.replicate 33 (ascii " 00000,")).flatten ++
    (List.replicate 4 (ascii " 000,")).flatten

def Ecu2.brokenFrame : Frame := Frame.make 69 (ascii "ecu2_") Ecu2.brokenData rfl

theorem Ecu2.brokenFrame_addressed :
    AddressedIn Received.receiver (Ecu2.brokenFrame.bytes 69) Ecu2.brokenFrame Received.ecu2Decoder [] := by
  have sent : Ecu2.brokenFrame.Sent Received.receiver Received.ecu2Decoder :=
    ⟨Frame.make_wellFormed 69 rfl (by decide +kernel),by simp [Received.receiver,Received.protocolDecoders],rfl,
      by decide +kernel⟩
  exact ⟨[],by rw [List.nil_append,List.append_nil],List.not_mem_nil,sent.addressed,
    ⟨by decide +kernel,by decide +kernel⟩⟩

theorem rejected_unchanged_iff_broken :
    Unchanged Received.receiver Received.initial
        (frameStep uint32 Received.receiver (Ecu2.brokenFrame.bytes 69) Received.initial).memory ↔
      ∀ f rest, AddressedIn Received.receiver (Ecu2.brokenFrame.bytes 69) f Received.ecu2Decoder rest →
        Received.initial.ecu2.Repeats f.data :=
  rejected_unchanged_iff Received.receiver (Ecu2.brokenFrame.bytes 69) Received.initial _ (fun _ member => member)
    (decode_eq _ _ _) (by rw [frameStep_addressed Ecu2.brokenFrame_addressed]; decide +kernel)

theorem ecu2_rejected_published :
    (frameStep uint32 Received.receiver (Ecu2.brokenFrame.bytes 69) Received.initial).code = .protocolError ∧
      Received.receiver.decode (Ecu2.brokenFrame.bytes 69) Received.initial =
        .ok (frameStep uint32 Received.receiver (Ecu2.brokenFrame.bytes 69) Received.initial) ∧
      ¬ Unchanged Received.receiver Received.initial
        (frameStep uint32 Received.receiver (Ecu2.brokenFrame.bytes 69) Received.initial).memory := by
  refine ⟨by rw [frameStep_addressed Ecu2.brokenFrame_addressed]; decide +kernel,decode_eq _ _ _,?_⟩
  intro unchanged
  have registered := Ecu2.brokenFrame_addressed.choose_spec.2.2.1.registered
  have date := (Received.unchanged_ecu2 registered unchanged).1
  rw [frameStep_addressed Ecu2.brokenFrame_addressed] at date
  have published : (Received.ecu2Decoder.decode Ecu2.brokenFrame.data Received.initial).2.ecu2.ecu2Date.data ≠
      Received.initial.ecu2.ecu2Date.data := by decide +kernel
  exact published date

end HsrbDrivers.PowerEcu

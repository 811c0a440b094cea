import HsrbDrivers.PowerEcu.ProtocolRuns
import HsrbDrivers.PowerEcu.PublishedValues
import HsrbDrivers.PowerEcu.Startup
import HsrbDrivers.PowerEcu.StatePublishers

namespace HsrbDrivers.PowerEcu
open CText

-- Two memories that the elements are decoded into alike; where they are accepted, the two are the same from then on.
def Alike (elements : List (ElementDecoder σ)) (settled : σ → Prop) (m m' : σ) : Prop :=
  ∀ data, (DataDecoder.decodeElements elements data m).1 = (DataDecoder.decodeElements elements data m').1 ∧
    ((DataDecoder.decodeElements elements data m).1 = true →
      (DataDecoder.decodeElements elements data m).2 = (DataDecoder.decodeElements elements data m').2 ∧
        settled (DataDecoder.decodeElements elements data m).2)

namespace Alike
variable {e : ElementDecoder σ} {rest : List (ElementDecoder σ)} {settled : σ → Prop} {m m' : σ}

theorem nil (same : m = m') (holds : settled m) : Alike [] settled m m' := fun _ => ⟨rfl,fun _ => ⟨same,holds⟩⟩

theorem cons {ref : Ref σ τ} {parse : List UInt8 → Option τ} (first : ∀ element, e.decode element m = assign ref m (parse element))
    (second : ∀ element, e.decode element m' = assign ref m' (parse element))
    (later : ∀ element v, parse element = some v → Alike rest settled (ref.write v m) (ref.write v m')) :
    Alike (e :: rest) settled m m' := by
  intro data
  simp only [DataDecoder.decodeElements]
  cases data.dropWhile (· ≠ 44) with
  | nil => simp
  | cons comma next =>
      simp only [first,second]
      cases parsed : parse (data.takeWhile (· ≠ 44)) with
      | none => simp [assign]
      | some v => exact later _ v parsed next

theorem integer {ref : Ref σ Int} {parse : List UInt8 → Option Int}
    (decodes : ∀ element m, e.decode element m = assign ref m (parse element))
    (later : ∀ v, Alike rest settled (ref.write v m) (ref.write v m')) : Alike (e :: rest) settled m m' :=
  cons (fun element => decodes element m) (fun element => decodes element m') fun _ v _ => later v

theorem string {ref : Ref σ StdString} {length : Nat} (room : (ref.read m).capacity = (ref.read m').capacity)
    (small : int32 length = length)
    (later : ∀ v : StdString, v.data.length = length → Alike rest settled (ref.write v m) (ref.write v m')) :
    Alike (elementStringDecoder ref length :: rest) settled m m' := by
  refine @cons _ _ _ _ m m' _ ref (ElementStringDecoder.parse (ref.read m) length) ?_ ?_ ?_
  · intro element
    simp only [elementStringDecoder,ElementStringDecoder.decode]
  · intro element
    simp only [elementStringDecoder,ElementStringDecoder.decode,ElementStringDecoder.parse,StdString.refill,room]
  · intro element v parsed
    unfold ElementStringDecoder.parse at parsed
    split at parsed
    · cases parsed
    · rename_i fine
      cases parsed
      apply later
      simp only [StdString.refill]
      omega

end Alike

def elementAt : Nat → List UInt8 → List UInt8
  | 0,data => data.takeWhile (· ≠ 44)
  | n+1,data => elementAt n (data.dropWhile (· ≠ 44)).tail

theorem decodeElements_at (view : σ → α) {elements rest : List (ElementDecoder σ)} {e : ElementDecoder σ}
    (kept : ∀ other ∈ rest, ∀ element m, view (other.decode element m).2 = view m) {data : List UInt8} {m : σ}
    (accepted : (DataDecoder.decodeElements (elements ++ e :: rest) data m).1 = true) :
    ∃ before, (e.decode (elementAt elements.length data) before).1 = true ∧
      view (DataDecoder.decodeElements (elements ++ e :: rest) data m).2 =
        view (e.decode (elementAt elements.length data) before).2 := by
  induction elements generalizing data m with
  | nil =>
      simp only [List.nil_append,DataDecoder.decodeElements,List.length_nil,elementAt] at accepted ⊢
      cases split : data.dropWhile (· ≠ 44) with
      | nil =>
          rw [split] at accepted
          cases accepted
      | cons comma next =>
          cases step : e.decode (data.takeWhile (· ≠ 44)) m with
          | mk ret inner =>
              rw [split,step] at accepted
              cases ret with
              | false => cases accepted
              | true =>
                  refine ⟨m,by rw [step],?_⟩
                  simp only [step]
                  exact decodeElements_view view kept next inner
  | cons first elements ih =>
      simp only [List.cons_append,DataDecoder.decodeElements,List.length_cons,elementAt] at accepted ⊢
      cases split : data.dropWhile (· ≠ 44) with
      | nil =>
          rw [split] at accepted
          cases accepted
      | cons comma next =>
          cases step : first.decode (data.takeWhile (· ≠ 44)) m with
          | mk ret inner =>
              rw [split,step] at accepted
              cases ret with
              | false => cases accepted
              | true =>
                  simp only [List.tail_cons]
                  exact ih accepted

namespace Ecu1

-- The room that the constructor reserves for the strings, which is all they ever need.
def rawRooms (m : RawData) : List Nat :=
  [m.date.capacity,m.powerEcuStatusFlag.capacity,m.powerEcuStatus.capacity,m.diagStatus.capacity,m.gyroStatus.capacity]

def outRooms (m : PacketData) : List Nat :=
  [m.ecu1Date.capacity,m.powerEcuStatusFlag.capacity,m.diagStatus.capacity,m.gyroStatus.capacity]

structure Roomy (m : Ecu1) : Prop where
  raw : rawRooms m.raw = [15,4,18,66,18]
  out : outRooms m.out = [15,4,66,18]

theorem initial_roomy : initial.Roomy := ⟨by decide,by decide⟩

structure Filled (m : RawData) : Prop where
  date : m.date.data.length = 14
  powerEcuStatusFlag : m.powerEcuStatusFlag.data.length = 3
  powerEcuStatus : m.powerEcuStatus.data.length = 17
  diagStatus : m.diagStatus.data.length = 65
  gyroStatus : m.gyroStatus.data.length = 17

theorem raw_alike {m m' : RawData} (rooms : rawRooms m = rawRooms m') : Alike rawElements Filled m m' := by
  have small : int32 14 = 14 ∧ int32 3 = 3 ∧ int32 17 = 17 ∧ int32 65 = 65 := by decide
  simp only [rawRooms,List.cons.injEq,and_true] at rooms
  obtain ⟨date,statusFlag,status,diag,gyro⟩ := rooms
  refine .integer (fun _ _ => rfl) fun _ => ?_
  refine .string date small.1 fun _ dateLength => ?_
  refine .string statusFlag small.2.1 fun _ flagLength => ?_
  refine .string status small.2.2.1 fun _ statusLength => ?_
  refine .string diag small.2.2.2 fun _ diagLength => ?_
  iterate 10 refine .integer (fun _ _ => rfl) fun _ => ?_
  refine .string gyro small.2.2.1 fun _ gyroLength => ?_
  iterate 11 refine .integer (fun _ _ => rfl) fun _ => ?_
  exact .nil rfl ⟨dateLength,flagLength,statusLength,diagLength,gyroLength⟩

theorem string_room {ref : Ref σ StdString} {length : Nat} {element : List UInt8} {m : σ} {v : StdString} (small : int32 length = length)
    (parsed : ElementStringDecoder.parse (ref.read m) length element = some v) : v.capacity = (ref.read m).capacity := by
  unfold ElementStringDecoder.parse at parsed
  split at parsed
  · cases parsed
  · rename_i fine
    cases parsed
    simp only [StdString.refill,Nat.max_def]
    split <;> omega

theorem decode_view (view : σ → α) {e : ElementDecoder σ} {ref : Ref σ τ} {parse : List UInt8 → σ → Option τ}
    (decodes : ∀ element m, e.decode element m = assign ref m (parse element m)) (kept : ∀ v m, view (ref.write v m) = view m)
    (element : List UInt8) (m : σ) : view (e.decode element m).2 = view m := by
  rw [decodes]
  exact assign_view view kept m (parse element m)

theorem raw_rooms (data : List UInt8) (m : RawData) :
    rawRooms (DataDecoder.decodeElements rawElements data m).2 = rawRooms m := by
  have small : int32 14 = 14 ∧ int32 3 = 3 ∧ int32 17 = 17 ∧ int32 65 = 65 := by decide
  have text : ∀ {ref : Ref RawData StdString} {length : Nat}, int32 length = length →
      (∀ v m, v.capacity = (ref.read m).capacity → rawRooms (ref.write v m) = rawRooms m) → ∀ element m,
        rawRooms ((elementStringDecoder ref length).decode element m).2 = rawRooms m := by
    intro ref length fits kept element m
    simp only [elementStringDecoder,ElementStringDecoder.decode]
    cases parsed : ElementStringDecoder.parse (ref.read m) length element with
    | none => rfl
    | some v => exact kept v m (string_room fits parsed)
  apply decodeElements_view rawRooms
  simp only [rawElements,List.forall_mem_cons]
  refine ⟨decode_view rawRooms (fun _ _ => rfl) fun _ _ => rfl,?_⟩
  refine ⟨text small.1 fun _ _ same => by simp only [rawRooms,same],?_⟩
  refine ⟨text small.2.1 fun _ _ same => by simp only [rawRooms,same],?_⟩
  refine ⟨text small.2.2.1 fun _ _ same => by simp only [rawRooms,same],?_⟩
  refine ⟨text small.2.2.2 fun _ _ same => by simp only [rawRooms,same],?_⟩
  iterate 10 refine ⟨decode_view rawRooms (fun _ _ => rfl) fun _ _ => rfl,?_⟩
  refine ⟨text small.2.2.1 fun _ _ same => by simp only [rawRooms,same],?_⟩
  iterate 11 refine ⟨decode_view rawRooms (fun _ _ => rfl) fun _ _ => rfl,?_⟩
  exact fun e none => absurd none List.not_mem_nil

theorem rawPart_lawful : rawPart.Lawful := ⟨fun _ _ => rfl,fun _ => rfl,fun _ _ _ => rfl⟩

theorem decode_raw (data : List UInt8) (m : Ecu1) :
    decoder.decode data m = match DataDecoder.decodeElements rawElements data m.raw with
      | (false,raw) => (.protocolError,{m with raw := raw})
      | (true,raw) => (.success,(update {m with raw := raw}).2) := by
  have elements : DataDecoder.decodeElements decoder.elements data m = _ := decodeElements_within rawPart_lawful rawElements data m
  unfold DataDecoder.decode
  rw [elements]
  simp only [rawPart]
  cases DataDecoder.decodeElements rawElements data m.raw with
  | mk ret raw => cases ret <;> rfl

theorem refillBehindLetter_room {out raw : StdString} {length : Nat} (exact : raw.data.length = length + 1)
    (room : length ≤ out.capacity) (small : length < 2^64) :
    refillBehindLetter out raw = out.refill raw.data.tail ∧ (out.refill raw.data.tail).capacity = out.capacity := by
  have least : sizeLessOne raw = length := by
    simp only [sizeLessOne,exact]
    omega
  refine ⟨by rw [refillBehindLetter,least,if_pos room],?_⟩
  simp only [StdString.refill,List.length_tail,exact]
  exact Nat.max_eq_left room

theorem refill_same {s s' : StdString} (room : s.capacity = s'.capacity) (bytes : List UInt8) : s.refill bytes = s'.refill bytes := by
  simp only [StdString.refill,room]

theorem update_same {raw : RawData} {out out' : PacketData} (filled : Filled raw) (rooms : outRooms out = [15,4,66,18])
    (rooms' : outRooms out' = [15,4,66,18]) :
    (update ⟨raw,out⟩).2 = (update ⟨raw,out'⟩).2 ∧ outRooms (update ⟨raw,out⟩).2.out = [15,4,66,18] := by
  simp only [outRooms,List.cons.injEq,and_true] at rooms rooms'
  obtain ⟨date,statusFlag,diag,gyro⟩ := rooms
  obtain ⟨date',statusFlag',diag',gyro'⟩ := rooms'
  have fits := filled.date
  have flag := @refillBehindLetter_room out.powerEcuStatusFlag _ _ filled.powerEcuStatusFlag (by omega) (by decide)
  have flag' := @refillBehindLetter_room out'.powerEcuStatusFlag _ _ filled.powerEcuStatusFlag (by omega) (by decide)
  have status := @refillBehindLetter_room out.diagStatus _ _ filled.diagStatus (by omega) (by decide)
  have status' := @refillBehindLetter_room out'.diagStatus _ _ filled.diagStatus (by omega) (by decide)
  have tail : raw.gyroStatus.data.tail.length = 16 := by simp [filled.gyroStatus]
  simp only [update,outRooms]
  rw [if_pos (by omega),if_pos (by omega),flag.1,flag'.1,status.1,status'.1,refill_same (date.trans date'.symm),
    refill_same (statusFlag.trans statusFlag'.symm),refill_same (diag.trans diag'.symm),refill_same (gyro.trans gyro'.symm)]
  refine ⟨rfl,?_⟩
  simp only [StdString.refill,List.length_tail,filled.date,filled.powerEcuStatusFlag,filled.diagStatus,filled.gyroStatus]
  rw [date',statusFlag',diag',gyro']
  rfl

theorem decode_same {m m' : Ecu1} (roomy : m.Roomy) (roomy' : m'.Roomy) {data : List UInt8}
    (accepted : (decoder.decode data m).1 = .success) : decoder.decode data m = decoder.decode data m' := by
  obtain ⟨together,settles⟩ := raw_alike (roomy.raw.trans roomy'.raw.symm) data
  rw [decode_raw] at accepted
  rw [decode_raw,decode_raw]
  cases first : DataDecoder.decodeElements rawElements data m.raw with
  | mk ret raw =>
      cases second : DataDecoder.decodeElements rawElements data m'.raw with
      | mk ret' raw' =>
          rw [first,second] at together settles
          rw [first] at accepted
          cases ret with
          | false => cases accepted
          | true =>
              obtain ⟨rfl,filled⟩ := settles rfl
              cases together
              simp only [Prod.mk.injEq,true_and]
              exact (update_same filled roomy.out roomy'.out).1

theorem decode_roomy {m : Ecu1} (roomy : m.Roomy) (data : List UInt8) : (decoder.decode data m).2.Roomy := by
  have rooms := (raw_rooms data m.raw).trans roomy.raw
  have settles := (raw_alike (m := m.raw) rfl data).2
  rw [decode_raw]
  cases step : DataDecoder.decodeElements rawElements data m.raw with
  | mk ret raw =>
      rw [step] at rooms settles
      cases ret with
      | false => exact ⟨rooms,roomy.out⟩
      | true => exact ⟨rooms,(update_same (settles rfl).2 roomy.out roomy.out).2⟩

-- The memory of a driver that decoded this packet and no other, if it decoded one at all.
def fresh (accepted : Option (List UInt8)) : Ecu1 :=
  accepted.elim initial fun data => (decoder.decode data initial).2

def statusBits (data : List UInt8) : Int := strtol 16 (((elementAt 3 data).drop 15).take 2) % 2^8

-- An emergency stop switch that is pressed reads 0; the wireless one counts where it is selected.
def stopDemanded (data : List UInt8) : Bool :=
  !bit (statusBits data) 5 || (bit (statusBits data) 1 && !bit (statusBits data) 0)

theorem string_element {ref : Ref σ StdString} {length : Nat} {element : List UInt8} {m : σ}
    (reads : ∀ v m, ref.read (ref.write v m) = v) (taken : ((elementStringDecoder ref length).decode element m).1 = true) :
    (ref.read ((elementStringDecoder ref length).decode element m).2).data = element := by
  simp only [elementStringDecoder,ElementStringDecoder.decode,ElementStringDecoder.parse] at taken ⊢
  split at taken
  · cases taken
  · rename_i fine
    rw [if_neg fine]
    simp only [assign,reads,StdString.refill]

theorem decode_status {data : List UInt8} {m : Ecu1} (accepted : (decoder.decode data m).1 = .success) :
    (decoder.decode data m).2.out.isPowerecuSwKinoko = !bit (statusBits data) 5 ∧
      (decoder.decode data m).2.out.isPowerecuSwWSel = bit (statusBits data) 1 ∧
      (decoder.decode data m).2.out.isPowerecuSwWStop = !bit (statusBits data) 0 := by
  obtain ⟨_,settles⟩ := raw_alike (m := m.raw) rfl data
  rw [decode_raw] at accepted ⊢
  cases step : DataDecoder.decodeElements rawElements data m.raw with
  | mk ret raw =>
      rw [step] at accepted settles
      cases ret with
      | false => cases accepted
      | true =>
          have filled := (settles rfl).2
          have whole : rawElements = rawElements.take 3 ++ rawElements[3] :: rawElements.drop 4 := rfl
          have kept : ∀ other ∈ rawElements.drop 4, ∀ element m,
              (other.decode element m).2.powerEcuStatus.data = m.powerEcuStatus.data := by
            simp only [rawElements,List.drop_succ_cons,List.drop_zero,List.forall_mem_cons]
            iterate 23 refine ⟨decode_view (fun m : RawData => m.powerEcuStatus.data) (fun _ _ => rfl) fun _ _ => rfl,?_⟩
            exact fun e none => absurd none List.not_mem_nil
          obtain ⟨before,taken,read⟩ := @decodeElements_at _ _ (fun m : RawData => m.powerEcuStatus.data) (rawElements.take 3) _ _ kept
            data m.raw (by rw [← whole,step])
          rw [← whole,step] at read
          have element : raw.powerEcuStatus.data = elementAt 3 data :=
            read.trans (@string_element _ ⟨fun m : RawData => m.powerEcuStatus,fun v m => {m with powerEcuStatus := v}⟩ 17 _ _
              (fun _ _ => rfl) taken)
          have bits : hexBeforeEnd raw.powerEcuStatus 0 % 2^8 = statusBits data := by
            have long : raw.powerEcuStatus.data.length = 17 := filled.powerEcuStatus
            rw [hexBeforeEnd,long,element]
            rfl
          simp only [update,bits,and_self]

end Ecu1

def Report.accepted (report : Report) : Option (List UInt8) :=
  report.invoked.bind fun (name,data) => if report.code = .success ∧ name = Ecu1.decoder.packetName then some data else none

def heard (accepted : Option (List UInt8)) (reports : List Report) : Option (List UInt8) :=
  reports.foldl (fun accepted report => report.accepted.or accepted) accepted

-- What the driver publishes is what the last accepted packet says.
structure Shows (accepted : Option (List UInt8)) (m : Ecu1) : Prop where
  roomy : m.Roomy
  taken : ∀ data, accepted = some data → (Ecu1.decoder.decode data Ecu1.initial).1 = .success
  out : m.out = (Ecu1.fresh accepted).out

theorem accepted_other {code : ErrorCode} {name data : List UInt8} (other : name ≠ Ecu1.decoder.packetName) :
    (Report.mk code (some (name,data))).accepted = none := by
  simp [Report.accepted,other]

theorem accepted_rejected {code : ErrorCode} (rejected : code ≠ .success) (invoked : Option (List UInt8 × List UInt8)) :
    (Report.mk code invoked).accepted = none := by
  cases invoked <;> simp [Report.accepted,rejected]

theorem decode_shows {accepted : Option (List UInt8)} {m : Ecu1} (shows : Shows accepted m) (data : List UInt8) :
    Shows ((Report.mk (Ecu1.decoder.decode data m).1 (some (Ecu1.decoder.packetName,data))).accepted.or accepted)
      (Ecu1.decoder.decode data m).2 := by
  refine ⟨Ecu1.decode_roomy shows.roomy data,?_,?_⟩
  · intro last same
    by_cases success : (Ecu1.decoder.decode data m).1 = .success
    · simp only [Report.accepted,success,Option.bind_some,and_self,if_true] at same
      rw [← Option.some.inj same,← Ecu1.decode_same shows.roomy Ecu1.initial_roomy success,success]
    · rw [accepted_rejected success,Option.none_or] at same
      exact shows.taken last same
  · by_cases success : (Ecu1.decoder.decode data m).1 = .success
    · simp only [Report.accepted,success,Option.bind_some,and_self,if_true]
      rw [Ecu1.decode_same shows.roomy Ecu1.initial_roomy success]
      rfl
    · rw [accepted_rejected success,Option.none_or,← shows.out]
      apply ecu1_rejected
      rw [Ecu1.decode_raw] at success ⊢
      cases step : DataDecoder.decodeElements Ecu1.rawElements data m.raw with
      | mk ret raw =>
          rw [step] at success
          cases ret with
          | false => rfl
          | true => exact (success rfl).elim

open Received FrameDecoder in
theorem frameStep_shows {fd : FrameDecoder Received} (listed : ∀ d ∈ fd.decoders, d ∈ protocolDecoders) (start : List UInt8)
    {memory : Received} {accepted : Option (List UInt8)} (shows : Shows accepted memory.ecu1) :
    Shows ((Report.mk (frameStep uint32 fd start memory).code (frameStep uint32 fd start memory).invoked).accepted.or accepted)
      (frameStep uint32 fd start memory).memory.ecu1 := by
  rcases frameStep_dispatch fd start memory with ⟨f,d,rest,addressed⟩ | ⟨failed,same⟩
  · have address := addressed.choose_spec.2.2.1
    have name := address.name
    have which := listed d address.registered
    rw [frameStep_addressed addressed,← name]
    simp only [protocolDecoders,List.mem_cons,List.not_mem_nil,or_false] at which
    rcases which with rfl | rfl | rfl | rfl
    · rw [accepted_other (by decide),rxackDecoder,decode_within rxackPart_lawful]
      exact shows
    · rw [accepted_other (by decide),verDecoder,decode_within verPart_lawful]
      exact shows
    · rw [ecu1Decoder,decode_within ecu1Part_lawful]
      exact decode_shows shows f.data
    · rw [accepted_other (by decide),ecu2Decoder,decode_within ecu2Part_lawful]
      exact shows
  · rw [accepted_rejected failed,same]
    exact shows

theorem heard_append (accepted : Option (List UInt8)) (reports more : List Report) :
    heard accepted (reports ++ more) = heard (heard accepted reports) more := by
  simp [heard]

theorem decodeLoop_shows {fd : FrameDecoder Received} (listed : ∀ d ∈ fd.decoders, d ∈ Received.protocolDecoders) {fuel : Nat}
    {current : List UInt8} {memory : Received} {result : ErrorCode} {decoding : Decoding Received} {accepted : Option (List UInt8)}
    (shows : Shows accepted memory.ecu1) (returned : decodeLoop fd fuel current memory result = .ok decoding) :
    Shows (heard accepted decoding.reports) decoding.memory.ecu1 := by
  induction fuel generalizing current memory result decoding accepted with
  | zero => cases returned
  | succ fuel ih =>
      have next := frameStep_shows listed current shows
      rw [decodeLoop,FrameDecoder.decode_eq] at returned
      simp only [bind,Except.bind] at returned
      split at returned
      · rename_i waits
        cases returned
        rwa [accepted_rejected (by simp [waits]),Option.none_or] at next
      · obtain ⟨rest,continued,returned⟩ := except_bind_ok.mp returned
        cases returned
        have later := ih next continued
        exact later

theorem receiveChunk_shows {fd : FrameDecoder Received} (listed : ∀ d ∈ fd.decoders, d ∈ Received.protocolDecoders)
    {buffer left : PacketBuffer} {memory : Received} {chunk : List UInt8} {decoding : Decoding Received} {accepted : Option (List UInt8)}
    (shows : Shows accepted memory.ecu1) (returned : receiveChunk fd buffer memory chunk = .ok (left,decoding)) :
    Shows (heard accepted decoding.reports) decoding.memory.ecu1 := by
  unfold receiveChunk decodeBuffer at returned
  obtain ⟨whole,decoded,returned⟩ := except_bind_ok.mp returned
  cases returned
  unfold decodeAll at decoded
  split at decoded
  · exact decodeLoop_shows listed shows decoded
  · cases decoded
    exact shows

structure EcuHistory where
  protocol : PowerEcuProtocol
  accepted : Option (List UInt8)

namespace EcuHistory
open PowerEcuProtocol

inductive Step (h : EcuHistory) : EcuHistory → Prop where
  | added : h.protocol.addCommandQueue name = (known,q) → Step h ⟨q,h.accepted⟩
  | sent : h.protocol.sendAll time outcome = .ok (ret,transmission,q) → Step h ⟨q,h.accepted⟩
  | received : h.protocol.receiveAll time outcome chunk = .ok (reception,q) → Step h ⟨q,heard h.accepted reception.reports⟩
  | versions : h.protocol.getPowerEcuVersions startTime outcomes arrivals = .ok (version,receptions,q) →
      Step h ⟨q,heard h.accepted (receptions.flatMap Reception.reports)⟩
  | initialized : h.protocol.init startTime outcomes arrivals = .ok (ready,receptions,q) →
      Step h ⟨q,heard h.accepted (receptions.flatMap Reception.reports)⟩
  | assigned (parameters : Parameters) : Step h ⟨{h.protocol with parameters := parameters},h.accepted⟩

def Begun (h : EcuHistory) : Prop := Constructed h.protocol ∧ h.accepted = none

structure Showing (h : EcuHistory) : Prop where
  consistent : Consistent h.protocol
  shows : Shows h.accepted h.protocol.received.ecu1

end EcuHistory

namespace PowerEcuProtocol

theorem sendCommand_ecu1 {p q : PowerEcuProtocol} {command frame : List UInt8} {outcome ret : ErrorCode}
    (sent : p.sendCommand command outcome = .ok (ret,frame,q)) : q.received.ecu1 = p.received.ecu1 := by
  rcases (sendCommand_parts sent).2 with ⟨_,_,rfl⟩ | ⟨_,_,rfl⟩
  · rfl
  · rfl

theorem sendAll_ecu1 {p q : PowerEcuProtocol} {time : Int} {outcome ret : ErrorCode} {transmission : Option Transmission}
    (sent : p.sendAll time outcome = .ok (ret,transmission,q)) : q.received.ecu1 = p.received.ecu1 := by
  rcases sendAll_parts sent with ⟨_,_,_,rfl⟩ | ⟨_,_,_,_,_,_,rfl⟩ | ⟨_,_,_,_,_,rfl⟩
  · rfl
  · rfl
  · rfl

theorem receiveAll_shows {p q : PowerEcuProtocol} {time : Int} {outcome : ErrorCode} {chunk : List UInt8} {reception : Reception}
    {accepted : Option (List UInt8)} (valid : Consistent p) (shows : Shows accepted p.received.ecu1)
    (received : p.receiveAll time outcome chunk = .ok (reception,q)) :
    Shows (heard accepted reception.reports) q.received.ecu1 := by
  rcases receiveAll_parts received with ⟨_,rfl,_,rfl⟩ | ⟨left,decoding,_,_,returned,reports,⟨_,_,rfl⟩ | ⟨_,_,_,_,_,_,rfl⟩⟩
  · exact shows
  · rw [reports]
    exact receiveChunk_shows valid.decoders shows returned
  · rw [reports]
    exact receiveChunk_shows valid.decoders shows returned

theorem receiveChunk_frame {fd : FrameDecoder σ} {f : Frame} {decoder : DataDecoder σ} (sent : f.Sent fd decoder)
    (fits : (f.bytes 69).length ≤ kBufferSize) {buffer left : PacketBuffer} (drained : buffer.data = []) {memory : σ}
    {decoding : Decoding σ} (decoded : receiveChunk fd buffer memory (f.bytes 69) = .ok (left,decoding)) :
    decoding.reports = [⟨(decoder.decode f.data memory).1,some (f.name,f.data)⟩] := by
  have held : (buffer.pushBacks (f.bytes 69)).data = f.bytes 69 := by
    rw [CircularBuffer.data_pushBacks _ _ (by rw [drained]; simpa using fits),drained,List.nil_append]
  obtain ⟨reports,next,kept,emptied,returned,_⟩ := decodeBuffer_drain fd (buffer.pushBacks (f.bytes 69)) memory
  cases Except.ok.inj (decoded.symm.trans returned)
  obtain ⟨first,checked,emitted⟩ := framer_message fd sent.wellFormed [] memory
  cases checked.symm.trans (FrameDecoder.checkFrame_addressed sent.addressed [] memory)
  rw [List.append_nil] at emitted
  rw [held,Reassembly.drain,emitted] at emptied
  obtain ⟨⟨others,_,_⟩,rest,same⟩ := Option.map_eq_some_iff.mp emptied
  cases same
  have nothing := Reassembly.drain_length (framer_incremental fd) rest
  cases others with
  | nil => rfl
  | cons _ _ => exact absurd nothing (by simp)

-- A packet that the driver accepts and that comes in one read behind an emptied buffer is the last accepted one.
theorem receiveAll_heard {p q : PowerEcuProtocol} {f : Frame} {time : Int} {reception : Reception} (roomy : p.received.ecu1.Roomy)
    (sent : f.Sent p.frameDecoder Received.ecu1Decoder) (accepts : (Ecu1.decoder.decode f.data Ecu1.initial).1 = .success)
    (fits : (f.bytes 69).length ≤ kBufferSize) (drained : p.receiveBuffer.data = [])
    (received : p.receiveAll time .success (f.bytes 69) = .ok (reception,q)) (accepted : Option (List UInt8)) :
    heard accepted reception.reports = some f.data := by
  rcases receiveAll_parts received with ⟨refused,_⟩ | ⟨left,decoding,_,_,decoded,reports,_⟩
  · exact absurd rfl refused
  have code : (Received.ecu1Decoder.decode f.data p.received).1 = .success := by
    rw [Received.ecu1Decoder,decode_within Received.ecu1Part_lawful]
    change (Ecu1.decoder.decode f.data p.received.ecu1).1 = _
    rw [← Ecu1.decode_same Ecu1.initial_roomy roomy accepts,accepts]
  rw [reports,receiveChunk_frame sent fits drained decoded,code,← sent.name]
  rfl

theorem requestVersions_ecu1 {outcomes : List ErrorCode} {retry : Nat} {p q : PowerEcuProtocol} {requested : Bool}
    (returned : requestVersions outcomes retry p = .ok (requested,q)) : q.received.ecu1 = p.received.ecu1 := by
  induction outcomes generalizing p retry with
  | nil => cases returned
  | cons outcome outcomes ih =>
      rw [requestVersions] at returned
      obtain ⟨getv,_,returned⟩ := except_bind_ok.mp returned
      obtain ⟨⟨ret,frame,after⟩,sent,returned⟩ := except_bind_ok.mp returned
      have next := sendCommand_ecu1 sent
      simp only at returned
      split at returned
      · cases returned
        exact next
      split at returned
      · cases returned
        exact next
      · exact (ih returned).trans next

theorem awaitVersions_shows {startTime : Int} {arrivals : List Arrival} {p q : PowerEcuProtocol} {version : Option PowerEcuVersions}
    {receptions : List Reception} {accepted : Option (List UInt8)} (valid : Consistent p) (shows : Shows accepted p.received.ecu1)
    (returned : awaitVersions startTime arrivals p = .ok (version,receptions,q)) :
    Shows (heard accepted (receptions.flatMap Reception.reports)) q.received.ecu1 := by
  induction arrivals generalizing p receptions accepted with
  | nil => cases returned
  | cons arrival arrivals ih =>
      rw [awaitVersions] at returned
      obtain ⟨⟨reception,after⟩,received,returned⟩ := except_bind_ok.mp returned
      have next := receiveAll_shows valid shows received
      have one : [reception].flatMap Reception.reports = reception.reports := by simp
      simp only at returned
      split at returned
      · cases returned
        rwa [one]
      split at returned
      · cases returned
        rwa [one]
      split at returned
      · cases returned
        rwa [one]
      · obtain ⟨⟨found,later,last⟩,rest,returned⟩ := except_bind_ok.mp returned
        cases returned
        rw [List.flatMap_cons,heard_append]
        exact ih (receiveAll_preserves valid received) next rest

theorem getPowerEcuVersions_shows {p q : PowerEcuProtocol} {startTime : Int} {outcomes : List ErrorCode} {arrivals : List Arrival}
    {version : Option PowerEcuVersions} {receptions : List Reception} {accepted : Option (List UInt8)} (valid : Consistent p)
    (shows : Shows accepted p.received.ecu1) (returned : p.getPowerEcuVersions startTime outcomes arrivals = .ok (version,receptions,q)) :
    Shows (heard accepted (receptions.flatMap Reception.reports)) q.received.ecu1 := by
  unfold getPowerEcuVersions at returned
  obtain ⟨⟨requested,after⟩,request,returned⟩ := except_bind_ok.mp returned
  have cleared : Consistent {p with received := {p.received with ver := {p.received.ver with isReceiveVersion := false}}} :=
    ⟨valid.toEquipped,valid.toSettled⟩
  have asked := requestVersions_preserves cleared request
  have still : Shows accepted after.received.ecu1 := by
    rw [requestVersions_ecu1 request]
    exact shows
  cases requested with
  | true => exact awaitVersions_shows asked still returned
  | false =>
      cases returned
      exact still

theorem registerDataDecoder_received {p q : PowerEcuProtocol} {decoder : DataDecoder Received}
    (registered : p.registerDataDecoder decoder = .ok q) : q.received = p.received := by
  unfold registerDataDecoder at registered
  split at registered
  · cases registered
    rfl
  · cases registered

theorem registerDataEncoder_received {p q : PowerEcuProtocol} {encoder : DataEncoder Parameters}
    (registered : p.registerDataEncoder encoder = .ok q) : q.received = p.received := by
  unfold registerDataEncoder at registered
  split at registered
  · split at registered
    · cases registered
    · cases registered
      rfl
  · cases registered

theorem encoders_received {encoders : List (DataEncoder Parameters)} {p q : PowerEcuProtocol}
    (registered : encoders.foldlM registerDataEncoder p = .ok q) : q.received = p.received :=
  @foldlM_preserves _ _ _ registerDataEncoder (fun r => r.received = p.received)
    (fun _ _ _ held one => (registerDataEncoder_received one).trans held) _ _ _ rfl registered

theorem init_shows {p q : PowerEcuProtocol} {startTime : Int} {outcomes : List ErrorCode} {arrivals : List Arrival} {ready : Bool}
    {receptions : List Reception} {accepted : Option (List UInt8)} (valid : Consistent p) (shows : Shows accepted p.received.ecu1)
    (returned : p.init startTime outcomes arrivals = .ok (ready,receptions,q)) :
    Shows (heard accepted (receptions.flatMap Reception.reports)) q.received.ecu1 := by
  unfold init at returned
  obtain ⟨⟨version,found,after⟩,versions,returned⟩ := except_bind_ok.mp returned
  have next := getPowerEcuVersions_shows valid shows versions
  cases version with
  | none =>
      cases returned
      exact next
  | some version =>
      simp only at returned
      split at returned
      · cases returned
        exact next
      · obtain ⟨first,ecu1,returned⟩ := except_bind_ok.mp returned
        obtain ⟨second,ecu2,returned⟩ := except_bind_ok.mp returned
        obtain ⟨third,encoders,returned⟩ := except_bind_ok.mp returned
        cases returned
        rwa [encoders_received encoders,registerDataDecoder_received ecu2,registerDataDecoder_received ecu1]

theorem construct_ecu1 {p : PowerEcuProtocol} (constructed : Constructed p) : p.received.ecu1 = Ecu1.initial := by
  obtain ⟨time,constructed⟩ := constructed
  unfold construct at constructed
  obtain ⟨first,rxack,constructed⟩ := except_bind_ok.mp constructed
  obtain ⟨second,ver,constructed⟩ := except_bind_ok.mp constructed
  rw [encoders_received constructed,registerDataDecoder_received ver,registerDataDecoder_received rxack]
  rfl

end PowerEcuProtocol

namespace EcuHistory
open PowerEcuProtocol

theorem begun_showing {h : EcuHistory} (begun : Begun h) : h.Showing := by
  obtain ⟨constructed,none⟩ := begun
  refine ⟨construct_consistent constructed,?_⟩
  rw [none,construct_ecu1 constructed]
  exact ⟨Ecu1.initial_roomy,fun _ absent => (by cases absent),rfl⟩

theorem step_showing {h h' : EcuHistory} (showing : h.Showing) (step : Step h h') : h'.Showing := by
  obtain ⟨valid,shows⟩ := showing
  cases step with
  | added added =>
      refine ⟨addCommandQueue_preserves valid added,?_⟩
      unfold addCommandQueue at added
      split at added <;> cases added <;> exact shows
  | sent sent =>
      refine ⟨sendAll_preserves valid sent,?_⟩
      rw [sendAll_ecu1 sent]
      exact shows
  | received received => exact ⟨receiveAll_preserves valid received,receiveAll_shows valid shows received⟩
  | versions returned => exact ⟨(getPowerEcuVersions_preserves valid returned).1,getPowerEcuVersions_shows valid shows returned⟩
  | initialized returned => exact ⟨init_preserves valid returned,init_shows valid shows returned⟩
  | assigned parameters => exact ⟨⟨valid.toEquipped,valid.toSettled⟩,shows⟩

theorem reached_showing {h : EcuHistory} (reached : Reachable Begun Step h) : h.Showing :=
  reached.invariant (fun _ begun => begun_showing begun) fun _ _ showing step => step_showing showing step

end EcuHistory

def otherNames : List String :=
  Rxack.decoder.parameterMap.map Prod.fst ++ Ver.decoder.parameterMap.map Prod.fst ++ Ecu2.decoder.parameterMap.map Prod.fst

theorem ecu1_alone : ∀ name ∈ Ecu1.parameterMap.map Prod.fst, name ∉ otherNames := by decide +kernel

theorem except_mapM_mem {f : α → Except ε β} {items : List α} {results : List β} (mapped : items.mapM f = .ok results) {b : β}
    (member : b ∈ results) : ∃ a ∈ items, f a = .ok b := by
  induction items generalizing results with
  | nil =>
      cases mapped
      cases member
  | cons a items ih =>
      rw [List.mapM_cons] at mapped
      obtain ⟨first,one,mapped⟩ := except_bind_ok.mp mapped
      obtain ⟨others,rest,mapped⟩ := except_bind_ok.mp mapped
      cases mapped
      rcases List.mem_cons.mp member with rfl | later
      · exact ⟨a,List.mem_cons_self,one⟩
      · obtain ⟨c,held,same⟩ := ih rest later
        exact ⟨c,List.mem_cons_of_mem _ held,same⟩

open Received in
theorem existParamPtr_ecu1 {p : PowerEcuProtocol} (listed : ∀ d ∈ p.frameDecoder.decoders, d ∈ protocolDecoders) {name : String}
    (known : name ∈ Ecu1.parameterMap.map Prod.fst) {type : ParamType} {read : Received → Param}
    (found : existParamPtr p name type = .ok read) :
    ∃ inner, (name,inner) ∈ Ecu1.parameterMap ∧ read = fun m => inner m.ecu1.out := by
  have other := ecu1_alone name known
  unfold existParamPtr at found
  split at found
  · cases found
  rename_i read' pointed
  cases found
  obtain ⟨d,registered,held⟩ := List.mem_filterMap.mp (List.mem_of_find?_eq_some pointed)
  have which := listed d registered
  have absent : ∀ {τ : Type} {d : DataDecoder τ} {inner : τ → Param}, d.parameterMap.map Prod.fst ⊆ otherNames →
      d.getParamPtr name ≠ some inner := by
    intro τ d inner inside reached
    exact other (inside (List.mem_map_of_mem (f := Prod.fst) (mem_of_getParamPtr reached)))
  simp only [protocolDecoders,List.mem_cons,List.not_mem_nil,or_false] at which
  rcases which with rfl | rfl | rfl | rfl
  · obtain ⟨inner,reached,_⟩ := getParamPtr_within.mp held
    exact absurd reached (absent fun _ named => by simp [otherNames,named])
  · obtain ⟨inner,reached,_⟩ := getParamPtr_within.mp held
    exact absurd reached (absent fun _ named => by simp [otherNames,named])
  · obtain ⟨inner,reached,rfl⟩ := getParamPtr_within.mp held
    obtain ⟨⟨key,base⟩,member,equal⟩ := List.mem_map.mp (mem_of_getParamPtr reached)
    cases equal
    exact ⟨base,member,rfl⟩
  · obtain ⟨inner,reached,_⟩ := getParamPtr_within.mp held
    exact absurd reached (absent fun _ named => by simp [otherNames,named])

def Rests (create : Received → Int → StateMessage) : Prop :=
  ∀ m m' : Received, m.ecu1.out = m'.ecu1.out → ∀ stamp, create m stamp = create m' stamp

section
variable {p : PowerEcuProtocol} (listed : ∀ d ∈ p.frameDecoder.decoders, d ∈ Received.protocolDecoders)
variable {create : Received → Int → StateMessage}
include listed

theorem boolStatePublisher_rests {parameter : String} (known : parameter ∈ Ecu1.parameterMap.map Prod.fst)
    (made : boolStatePublisher p parameter = .ok create) : Rests create := by
  obtain ⟨state,found,made⟩ := except_bind_ok.mp made
  obtain ⟨inner,_,rfl⟩ := existParamPtr_ecu1 listed known found
  cases made
  intro m m' same stamp
  simp only [same]

theorem runstopStatePublisher_reads (made : runstopStatePublisher p = .ok create) : create = fun m _ =>
    .bool (m.ecu1.out.isPowerecuSwKinoko || (m.ecu1.out.isPowerecuSwWSel && m.ecu1.out.isPowerecuSwWStop)) := by
  obtain ⟨wSel,selFound,made⟩ := except_bind_ok.mp made
  obtain ⟨kinoko,kinokoFound,made⟩ := except_bind_ok.mp made
  obtain ⟨wStop,stopFound,made⟩ := except_bind_ok.mp made
  obtain ⟨sel,selMember,rfl⟩ := existParamPtr_ecu1 listed (by simp [Ecu1.parameterMap]) selFound
  obtain ⟨pressed,kinokoMember,rfl⟩ := existParamPtr_ecu1 listed (by simp [Ecu1.parameterMap]) kinokoFound
  obtain ⟨stop,stopMember,rfl⟩ := existParamPtr_ecu1 listed (by simp [Ecu1.parameterMap]) stopFound
  simp [Ecu1.parameterMap] at selMember kinokoMember stopMember
  subst selMember kinokoMember stopMember
  cases made
  rfl

theorem batteryStatePublisher_rests (made : batteryStatePublisher p = .ok create) : Rests create := by
  obtain ⟨_,relativeFound,made⟩ := except_bind_ok.mp made
  obtain ⟨_,temperatureFound,made⟩ := except_bind_ok.mp made
  obtain ⟨_,voltageFound,made⟩ := except_bind_ok.mp made
  obtain ⟨_,currentFound,made⟩ := except_bind_ok.mp made
  obtain ⟨_,remainingFound,made⟩ := except_bind_ok.mp made
  obtain ⟨_,totalFound,made⟩ := except_bind_ok.mp made
  obtain ⟨_,_,rfl⟩ := existParamPtr_ecu1 listed (by simp [Ecu1.parameterMap]) relativeFound
  obtain ⟨_,_,rfl⟩ := existParamPtr_ecu1 listed (by simp [Ecu1.parameterMap]) temperatureFound
  obtain ⟨_,_,rfl⟩ := existParamPtr_ecu1 listed (by simp [Ecu1.parameterMap]) voltageFound
  obtain ⟨_,_,rfl⟩ := existParamPtr_ecu1 listed (by simp [Ecu1.parameterMap]) currentFound
  obtain ⟨_,_,rfl⟩ := existParamPtr_ecu1 listed (by simp [Ecu1.parameterMap]) remainingFound
  obtain ⟨_,_,rfl⟩ := existParamPtr_ecu1 listed (by simp [Ecu1.parameterMap]) totalFound
  cases made
  intro m m' same stamp
  simp only [same]

theorem imuStatePublisher_rests {frameId : String} (made : imuStatePublisher p frameId = .ok create) : Rests create := by
  obtain ⟨_,quaternionsFound,made⟩ := except_bind_ok.mp made
  obtain ⟨_,velocitiesFound,made⟩ := except_bind_ok.mp made
  obtain ⟨_,accelerationsFound,made⟩ := except_bind_ok.mp made
  obtain ⟨_,_,rfl⟩ := existParamPtr_ecu1 listed (by simp [Ecu1.parameterMap]) quaternionsFound
  obtain ⟨_,_,rfl⟩ := existParamPtr_ecu1 listed (by simp [Ecu1.parameterMap]) velocitiesFound
  obtain ⟨_,_,rfl⟩ := existParamPtr_ecu1 listed (by simp [Ecu1.parameterMap]) accelerationsFound
  cases made
  intro m m' same stamp
  simp only [same]

theorem publishers_rest {imuFrame : String} {topics : List (String × (Received → Int → StateMessage))}
    (made : publishers p imuFrame = .ok topics) : ∀ topic create, (topic,create) ∈ topics →
      Rests create ∧ (topic = "runstop_button" → create = fun m _ =>
        .bool (m.ecu1.out.isPowerecuSwKinoko || (m.ecu1.out.isPowerecuSwWSel && m.ecu1.out.isPowerecuSwWStop))) := by
  obtain ⟨battery,batteryMade,made⟩ := except_bind_ok.mp made
  obtain ⟨runstop,runstopMade,made⟩ := except_bind_ok.mp made
  obtain ⟨imu,imuMade,made⟩ := except_bind_ok.mp made
  obtain ⟨states,statesMade,made⟩ := except_bind_ok.mp made
  cases made
  intro topic create member
  simp only [List.mem_cons,Prod.mk.injEq] at member
  rcases member with ⟨rfl,rfl⟩ | ⟨rfl,rfl⟩ | ⟨rfl,rfl⟩ | state
  · exact ⟨batteryStatePublisher_rests listed batteryMade,fun same => absurd same (by decide)⟩
  · have reads := runstopStatePublisher_reads listed runstopMade
    refine ⟨?_,fun _ => reads⟩
    intro m m' same stamp
    simp only [reads,same]
  · exact ⟨imuStatePublisher_rests listed imuMade,fun same => absurd same (by decide)⟩
  · obtain ⟨⟨parameter,name⟩,named,one⟩ := except_mapM_mem statesMade state
    obtain ⟨reads,boolMade,one⟩ := except_bind_ok.mp one
    cases one
    have fine : ∀ entry ∈ kParamAndTopicNames, entry.1 ∈ Ecu1.parameterMap.map Prod.fst ∧ entry.2 ≠ "runstop_button" := by
      simp [kParamAndTopicNames,Ecu1.parameterMap]
    exact ⟨boolStatePublisher_rests listed (fine _ named).1 boolMade,fun same => absurd same (fine _ named).2⟩

end
namespace EcuHistory
open PowerEcuProtocol

theorem reached_later {h0 h : EcuHistory} (started : Reachable Begun Step h0) (later : Reachable (· = h0) Step h) :
    Reachable Begun Step h := by
  induction later with
  | initial same => exact same ▸ started
  | step _ taken ih => exact ih.step taken

-- However its calls follow one another, and whatever arrives between and is rejected, every topic says what the last
-- accepted `ecu1_` packet says, as a driver would that decoded this packet and no other. The runstop is out where that
-- packet has a stop switch pressed; before the first one it is not.
theorem publishes_last_accepted {h0 h : EcuHistory} (started : Reachable Begun Step h0) {imuFrame : String}
    {topics : List (String × (Received → Int → StateMessage))} (made : publishers h0.protocol imuFrame = .ok topics)
    (later : Reachable (· = h0) Step h) :
    (∀ data, h.accepted = some data → (Ecu1.decoder.decode data Ecu1.initial).1 = .success) ∧
    (∀ topic create, (topic,create) ∈ topics → ∀ stamp,
      create h.protocol.received stamp = create {Received.initial with ecu1 := Ecu1.fresh h.accepted} stamp) ∧
    ∀ create, ("runstop_button",create) ∈ topics → ∀ stamp,
      create h.protocol.received stamp = .bool (h.accepted.elim false Ecu1.stopDemanded) := by
  have listed := (reached_showing started).consistent.decoders
  obtain ⟨_,shows⟩ := reached_showing (reached_later started later)
  refine ⟨shows.taken,?_,?_⟩
  · intro topic create member stamp
    exact (publishers_rest listed made topic create member).1 _ _ shows.out stamp
  · intro create member stamp
    rw [(publishers_rest listed made _ create member).2 rfl]
    simp only [shows.out]
    cases last : h.accepted with
    | none => rfl
    | some data =>
        obtain ⟨kinoko,wSel,wStop⟩ := Ecu1.decode_status (shows.taken data last)
        simp only [Ecu1.fresh,Option.elim_some,kinoko,wSel,wStop,Ecu1.stopDemanded]

def stopData : List UInt8 :=
  ascii "0000000000,20170210095651,S00,S0000000000000022,D" ++ List.replicate 64 48 ++
    ascii ", 25000, 24000,-00500, 25000, 025,h0000,25000,h0000,096,h00,G0000000000000000," ++
    (List.replicate 10 (ascii " 0000000000,")).flatten ++ ascii "h00,"

theorem stopData_length : stopData.length = 315 := by decide +kernel

def stopFrame : Frame := Frame.make 69 (ascii Ecu1.kEcu1DataDecoderPacketName) stopData rfl

def listening : Except Stop (List UInt8 × Option String) := do
  let (_,_,q) ← initialised
  let topics ← publishers q "base_imu_frame"
  return (q.receiveBuffer.data,(topics.map Prod.fst)[1]?)

set_option maxRecDepth 20000 in
theorem listening_result : listening.toOption = some ([],some "runstop_button") := by decide +kernel

theorem wireless_stop_published : ∃ h0 h topics create, publishers h0.protocol "base_imu_frame" = .ok topics ∧
    Reachable (· = h0) Step h ∧ ("runstop_button",create) ∈ topics ∧ create h.protocol.received 0 = .bool true := by
  have evaluated := listening_result
  cases result : listening with
  | error stop =>
      rw [result] at evaluated
      cases evaluated
  | ok returned =>
      rw [result] at evaluated
      cases Option.some.inj evaluated
      obtain ⟨⟨ready,receptions,q⟩,initial,continued⟩ := except_bind_ok.mp result
      obtain ⟨topics,made,same⟩ := except_bind_ok.mp continued
      obtain ⟨drained,second⟩ := Prod.mk.inj (Except.ok.inj same)
      obtain ⟨p,constructed,called⟩ := except_bind_ok.mp initial
      have version := initialised_version
      rw [initial] at version
      obtain ⟨rfl,known⟩ := Prod.mk.inj (Option.some.inj version)
      have holds := (init_holds constructed called).2 rfl
      rw [if_pos known] at holds
      have begun : Begun ⟨p,none⟩ := ⟨⟨0,constructed⟩,rfl⟩
      let h0 : EcuHistory := ⟨q,heard none (receptions.flatMap Reception.reports)⟩
      have started : Reachable Begun Step h0 := (Reachable.initial begun).step (Step.initialized called)
      have sent : stopFrame.Sent q.frameDecoder Received.ecu1Decoder :=
        ⟨Frame.make_wellFormed 69 rfl (by rw [stopData_length]; decide),by rw [holds.decoder]; simp [initDecoders],rfl,
          congrArg (· + 11) stopData_length⟩
      have fits : (stopFrame.bytes 69).length ≤ kBufferSize := by
        rw [Frame.bytes_length,show stopFrame.data = stopData from rfl,stopData_length]
        decide
      obtain ⟨reception,r,received⟩ := receiveAll_returns 0 .success (stopFrame.bytes 69) (reached_showing started).consistent.queued
      have last := receiveAll_heard (reached_showing started).shows.roomy sent (by decide +kernel) fits drained received h0.accepted
      let h : EcuHistory := ⟨r,heard h0.accepted reception.reports⟩
      have later : Reachable (· = h0) Step h := .step (.initial rfl) (Step.received received)
      rw [List.getElem?_map] at second
      obtain ⟨⟨topic,create⟩,held,rfl⟩ := Option.map_eq_some_iff.mp second
      have member := List.mem_of_getElem? held
      have told := (publishes_last_accepted started made later).2.2 create member 0
      refine ⟨h0,h,topics,create,made,later,member,?_⟩
      rw [told,show h.accepted = some stopData from last]
      exact congrArg StateMessage.bool (by decide +kernel : Ecu1.stopDemanded stopData = true)

end EcuHistory
end HsrbDrivers.PowerEcu

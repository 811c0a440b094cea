import HsrbDrivers.Servomotor.NoiseRecovery
import HsrbDrivers.Servomotor.Protocol

namespace HsrbDrivers.Servomotor
open Bytes ExxxPacketParser ExxxNetwork

namespace ErrorCode

def protocolError : ErrorCode := system 71
def badMessage : ErrorCode := system 74

end ErrorCode

def readBytes (turns : List Turn) : List UInt8 := turns.flatMap fun turn => match turn.arrival with
  | .read chunk => chunk.bytes
  | _ => []

def Arrival.fails (errno : Int) (arrival : Arrival) : Prop := arrival = .pollFailed errno ∨ arrival = .readFailed errno

-- A call that fails leaves an `errno` that is no success.
def Explained (turns : List Turn) : Prop := ∀ turn ∈ turns, ¬ turn.arrival.fails 0

-- The answer is that of a packet of the node that lies in the bytes read.
def Replies (n : ExxxNetwork) (id : UInt8) (capacity : Nat) (dataOut : List UInt8) (start : Int) (turns : List Turn)
    (m : StatusPacket) : Prop :=
  m.id = id ∧ m.bytes <:+: readBytes turns ∧
    ∃ parser, n.receive id capacity dataOut start turns = some ⟨m.status,m.parameters,parser⟩

section
variable {timeout start : Int} {capacity : Nat} {dataOut : List UInt8}

theorem receiveLoop_outcome {fresh p : ExxxPacketParser} {elapsed : Int} {seen : List UInt8} {turns : List Turn}
    {received : Received} (scanned : scan fresh seen = (false,p))
    (returned : receiveLoop timeout start capacity dataOut elapsed p turns = some received) :
    (∃ bytes rest q, seen ++ readBytes turns = bytes ++ rest ∧ scan fresh bytes = (true,q) ∧
      received = deliver capacity dataOut q) ∨
    ∃ errno parser, received = ⟨.system errno,dataOut,parser⟩ ∧ (errno = 110 ∨ ∃ turn ∈ turns, turn.arrival.fails errno) := by
  induction turns generalizing elapsed p seen with
  | nil =>
      simp only [receiveLoop] at returned
      split at returned
      · cases returned
      · cases returned
        exact .inr ⟨110,p,rfl,.inl rfl⟩
  | cons turn turns ih =>
      rw [receiveLoop] at returned
      split at returned
      · cases returned
        exact .inr ⟨110,p,rfl,.inl rfl⟩
      cases arrived : turn.arrival with
      | none =>
          rw [arrived] at returned
          cases returned
          exact .inr ⟨110,p,rfl,.inl rfl⟩
      | pollFailed errno =>
          rw [arrived] at returned
          cases returned
          exact .inr ⟨errno,p,rfl,.inr ⟨turn,List.mem_cons_self,.inl arrived⟩⟩
      | readFailed errno =>
          rw [arrived] at returned
          cases returned
          exact .inr ⟨errno,p,rfl,.inr ⟨turn,List.mem_cons_self,.inr arrived⟩⟩
      | read chunk =>
          have read : seen ++ readBytes (turn :: turns) = (seen ++ chunk.bytes) ++ readBytes turns := by
            simp [readBytes,arrived]
          rw [arrived] at returned
          dsimp only at returned
          rcases piece : scan p chunk.bytes with ⟨found,q⟩
          have both : scan fresh (seen ++ chunk.bytes) = (found,q) := by
            rw [scan_append,scanned]
            exact piece
          rw [piece] at returned
          cases found with
          | true =>
              exact .inl ⟨seen ++ chunk.bytes,readBytes turns,q,read,both,(Option.some.inj returned).symm⟩
          | false =>
              dsimp only at returned
              split at returned
              · cases returned
                exact .inr ⟨110,q,rfl,.inl rfl⟩
              · rw [read]
                rcases ih both returned with found | ⟨errno,parser,same,cause⟩
                · exact .inl found
                · refine .inr ⟨errno,parser,same,cause.imp_right ?_⟩
                  rintro ⟨one,member,failed⟩
                  exact ⟨one,List.mem_cons_of_mem _ member,failed⟩

end

theorem receive_outcome {n : ExxxNetwork} {id : UInt8} {capacity : Nat} {dataOut : List UInt8} {start : Int}
    {turns : List Turn} {received : Received} (returned : n.receive id capacity dataOut start turns = some received) :
    (∃ m, Replies n id capacity dataOut start turns m ∧ received.code = m.status ∧ received.dataOut = m.parameters) ∨
    ∃ errno, received.code = .system errno ∧ received.dataOut = dataOut ∧
      (errno = 105 ∨ errno = 110 ∨ ∃ turn ∈ turns, turn.arrival.fails errno) := by
  have begun : scan ⟨.header1,[],[id]⟩ [] = (false,⟨.header1,[],[id]⟩) := rfl
  rcases receiveLoop_outcome begun returned with
    ⟨bytes,rest,q,read,completed,delivered⟩ | ⟨errno,parser,rfl,cause⟩
  · obtain ⟨before,piece,after,rfl,accepted,held⟩ := scan_completed completed
    obtain ⟨m,member,rfl⟩ := (accepts_reset [id] piece).mp accepted
    by_cases fits : m.parameters.length ≤ capacity
    · have answer := delivered.trans (m.deliver_packet capacity dataOut held fits)
      refine .inl ⟨m,⟨List.mem_singleton.mp member,⟨before,after ++ rest,?_⟩,q,?_⟩,by rw [answer],by rw [answer]⟩
      · rw [← List.append_assoc]
        exact read.symm
      · rw [← answer]
        exact returned
    · rw [delivered,m.deliver_overflow dataOut held (Nat.not_le.mp fits)]
      exact .inr ⟨105,rfl,rfl,.inl rfl⟩
  · exact .inr ⟨errno,rfl,rfl,.inr cause⟩

namespace StatusPacket

theorem status_passes (m : StatusPacket) : ¬ (m.status.category = .system ∧ m.status.value ≠ 0) := by
  unfold status
  split
  · simp
  · simp [ErrorCode.success,ErrorCode.system]

theorem status_success {m : StatusPacket} (none : m.status.value = 0) : m.status = .success := by
  unfold status at none ⊢
  split at none
  · rename_i some
    exact absurd (Int.natCast_eq_zero.mp none) some
  · rename_i zero
    exact if_neg zero

theorem parameters_length_le (m : StatusPacket) : m.parameters.length ≤ 65532 := by
  have small := fromLe_lt [m.length1,m.length2]
  rw [m.sized,List.length_cons,List.length_singleton] at small
  omega

end StatusPacket

namespace ExxxProtocol

-- `receive_buffer_`: what an earlier call left in it, and the storage that it has reserved.
structure ReceiveBuffer where
  bytes : List UInt8
  capacity : Nat
  reserved : kMaxPacketBuffer ≤ capacity

-- What `ReadBlock` makes of the answer of `Receive`. The copy goes to the begin of the range.
def readBlockReply (length : Nat) (out : List UInt8) (received : Received) : ErrorCode × List UInt8 :=
  if received.code.category = .system ∧ received.code.value ≠ 0 then (received.code,out) else
  if received.dataOut.length ≠ length then (.protocolError,out) else
  let out := received.dataOut ++ out.drop received.dataOut.length
  if received.code.value ≠ 0 then (received.code,out) else (.success,out)

def readBlockAnswer (n : ExxxNetwork) (buffer : ReceiveBuffer) (id : UInt8) (sent : ErrorCode) (out : List UInt8)
    (start : Int) (turns : List Turn) : Option (ErrorCode × List UInt8) :=
  if sent.value ≠ 0 then some (sent,out) else
  (n.receive id buffer.capacity buffer.bytes start turns).map (readBlockReply (out.length % 2^16) out)

-- Of a range of this length either all is overwritten, with the parameters of a packet
-- received in the call, or nothing is and an error is returned.
def AllOrNothing (distance : Nat) : Prop :=
  ∀ (n : ExxxNetwork) (buffer : ReceiveBuffer) id sent out start turns code out', out.length = distance → Explained turns →
    readBlockAnswer n buffer id sent out start turns = some (code,out') →
    (∃ m, Replies n id buffer.capacity buffer.bytes start turns m ∧ m.parameters.length = distance ∧
      out' = m.parameters ∧ code = m.status) ∨ (out' = out ∧ code.value ≠ 0)

theorem readBlockReply_packet {m : StatusPacket} {length : Nat} {out : List UInt8} {received : Received}
    (code : received.code = m.status) (dataOut : received.dataOut = m.parameters) :
    readBlockReply length out received = if m.parameters.length = length then
      (m.status,m.parameters ++ out.drop m.parameters.length) else (.protocolError,out) := by
  unfold readBlockReply
  rw [code,dataOut,if_neg m.status_passes]
  by_cases same : m.parameters.length = length
  · by_cases none : m.status.value = 0
    · simp [same,StatusPacket.status_success none]
    · simp [same,none]
  · simp [same]

theorem readBlock_all_or_nothing {distance : Nat} (short : distance < 2^16 ∨ 65532 < distance % 2^16) : AllOrNothing distance := by
  intro n buffer id sent out start turns code out' sized explained returned
  unfold readBlockAnswer at returned
  split at returned
  · rename_i failed
    cases returned
    exact .inr ⟨rfl,failed⟩
  obtain ⟨received,heard,same⟩ := Option.map_eq_some_iff.mp returned
  rcases receive_outcome heard with ⟨m,replies,status,parameters⟩ | ⟨errno,failed,kept,cause⟩
  · rw [readBlockReply_packet status parameters,sized] at same
    split at same
    · rename_i whole
      have most := m.parameters_length_le
      have exactly : m.parameters.length = distance := by omega
      cases same
      refine .inl ⟨m,replies,exactly,?_,rfl⟩
      rw [exactly,← sized,List.drop_length,List.append_nil]
    · cases same
      exact .inr ⟨rfl,by decide⟩
  · have nonzero : errno ≠ 0 := by
      rintro rfl
      rcases cause with wrong | wrong | ⟨turn,member,failed⟩
      · cases wrong
      · cases wrong
      · exact explained turn member failed
    have system : received.code.category = .system ∧ received.code.value ≠ 0 := by
      rw [failed]
      exact ⟨rfl,nonzero⟩
    rw [readBlockReply,if_pos system] at same
    cases same
    exact .inr ⟨rfl,system.2⟩

def arriving (bytes : List UInt8) : List Turn := bytes.map fun b => ⟨.read ⟨[b],by simp [kBufferBytes]⟩,0⟩

theorem arriving_delivers {timeout : Int} (time : 0 < timeout) (bytes : List UInt8) : Delivers timeout 0 0 (arriving bytes) bytes := by
  induction bytes with
  | nil => rfl
  | cons b bytes ih => exact ⟨time,Int.le_refl 0,_,bytes,rfl,rfl,ih⟩

theorem arriving_explained (bytes : List UInt8) : Explained (arriving bytes) := by
  intro turn member
  obtain ⟨b,_,rfl⟩ := List.mem_map.mp member
  simp [Arrival.fails]

theorem receive_arriving {n : ExxxNetwork} (time : 0 < n.timeout) (m : StatusPacket) {capacity : Nat} (dataOut : List UInt8)
    (fits : m.parameters.length ≤ capacity) :
    ∃ parser, n.receive m.id capacity dataOut 0 (arriving m.bytes) = some ⟨m.status,m.parameters,parser⟩ := by
  have accepted : Accepts ⟨.header1,[],[m.id]⟩ m.bytes := (accepts_reset _ _).mpr ⟨m,List.mem_singleton_self _,rfl⟩
  have collected := (feed_packet (accepts_fine accepted)).trans (List.nil_append m.bytes)
  have found := (receiveLoop_delivers (arriving_delivers time m.bytes) capacity dataOut).1 (scan_accepts accepted) []
  rw [List.append_nil,m.deliver_packet capacity dataOut collected fits] at found
  exact ⟨_,found⟩

def zeros {count : Nat} (fits : count ≤ 65532) : StatusPacket where
  id := 1
  length1 := UInt8.ofNat (count + 3)
  length2 := UInt8.ofNat ((count + 3) / 256)
  error1 := 0
  error2 := 0
  parameters := List.replicate count 0
  sized := by
    simp only [fromLe_cons,fromLe_nil,UInt8.toNat_ofNat',List.length_replicate]
    omega

theorem overlong_partly {distance : Nat} (long : 2^16 ≤ distance) (room : distance % 2^16 ≤ 65532) : ¬ AllOrNothing distance := by
  intro every
  have fits : (zeros room).parameters.length ≤ kMaxPacketBuffer := Nat.le_trans (zeros room).parameters_length_le (by decide)
  obtain ⟨parser,heard⟩ := receive_arriving (n := ExxxNetwork.initial) (by decide) (zeros room) [] fits
  have answered : readBlockAnswer ExxxNetwork.initial ⟨[],kMaxPacketBuffer,Nat.le_refl _⟩ 1 .success (List.replicate distance 0) 0
      (arriving (zeros room).bytes) =
      some (.success,(zeros room).parameters ++ (List.replicate distance 0).drop (zeros room).parameters.length) := by
    have wanted : (zeros room).parameters.length = distance % 2^16 := List.length_replicate
    have reply := @readBlockReply_packet (zeros room) (distance % 2^16) (List.replicate distance 0)
      ⟨(zeros room).status,(zeros room).parameters,parser⟩ rfl rfl
    rw [if_pos wanted] at reply
    rw [readBlockAnswer,if_neg (by decide),List.length_replicate,show (1 : UInt8) = (zeros room).id from rfl,heard]
    exact congrArg some reply
  rcases every _ _ _ _ _ _ _ _ _ List.length_replicate (arriving_explained _) answered with ⟨m,_,whole,_⟩ | ⟨_,failed⟩
  · have most := m.parameters_length_le
    omega
  · exact failed rfl

theorem readBlock_all_or_nothing_iff (distance : Nat) : AllOrNothing distance ↔ distance < 2^16 ∨ 65532 < distance % 2^16 := by
  refine ⟨fun every => ?_,readBlock_all_or_nothing⟩
  by_contra neither
  obtain ⟨long,room⟩ := not_or.mp neither
  exact overlong_partly (Nat.not_lt.mp long) (Nat.not_lt.mp room) every

theorem range_partly_written : ¬ ∀ distance, AllOrNothing distance :=
  fun every => overlong_partly (by decide) (by decide) (every 65537)

def resetAnswer (sent received : ErrorCode) : ErrorCode :=
  if sent.category = .system ∧ sent.value ≠ 0 then sent else
  if received.value = ErrorCode.timedOut.value then .success else
  if received.category = .system ∧ received.value ≠ 0 then received else .badMessage

-- `Reset` returns success exactly when the command was sent and its reply did not come in
-- time; `Send` answers with errors of the system only.
def TellsSilence (n : ExxxNetwork) (buffer : ReceiveBuffer) (id : UInt8) (errno : Int) (start : Int) (turns : List Turn) : Prop :=
  ∀ received, n.receive id buffer.capacity buffer.bytes start turns = some received →
    (resetAnswer (.system errno) received.code = .success ↔ errno = 0 ∧ received.code = .timedOut) ∧
    ∀ m, Replies n id buffer.capacity buffer.bytes start turns m → resetAnswer (.system errno) received.code ≠ .success

def Ambiguous (m : StatusPacket) : Prop := fromLe [m.error1,m.error2] = 110

theorem status_timedOut {m : StatusPacket} : m.status.value = ErrorCode.timedOut.value ↔ Ambiguous m := by
  unfold StatusPacket.status Ambiguous
  split
  · exact Int.natCast_inj (n := 110)
  · rename_i zero
    rw [not_not.mp zero]
    decide

theorem reply_refused {m : StatusPacket} (clear : ¬ Ambiguous m) : resetAnswer (.system 0) m.status = .badMessage := by
  rw [resetAnswer,if_neg (by decide),if_neg (fun same => clear (status_timedOut.mp same)),if_neg m.status_passes]

theorem reset_tells_silence_iff (n : ExxxNetwork) (buffer : ReceiveBuffer) (id : UInt8) (errno start : Int) (turns : List Turn) :
    TellsSilence n buffer id errno start turns ↔
      ¬ (errno = 0 ∧ ∃ m, Replies n id buffer.capacity buffer.bytes start turns m ∧ Ambiguous m) := by
  by_cases sent : errno = 0
  case neg =>
    refine iff_of_true (fun received _ => ⟨?_,fun _ _ => ?_⟩) (fun both => sent both.1)
    · simp [resetAnswer,ErrorCode.system,ErrorCode.success,sent]
    · simp [resetAnswer,ErrorCode.system,ErrorCode.success,sent]
  subst sent
  constructor
  · rintro tells ⟨_,m,replies,ambiguous⟩
    obtain ⟨parser,heard⟩ := replies.2.2
    refine (tells _ heard).2 m replies ?_
    simp [resetAnswer,ErrorCode.system,status_timedOut.mpr ambiguous]
  · intro clear received heard
    have refused : ∀ m, Replies n id buffer.capacity buffer.bytes start turns m → received.code = m.status →
        resetAnswer (.system 0) received.code = .badMessage := by
      intro m replies same
      rw [same]
      exact reply_refused fun ambiguous => clear ⟨rfl,m,replies,ambiguous⟩
    constructor
    · rcases receive_outcome heard with ⟨m,replies,status,_⟩ | ⟨errno,failed,_,_⟩
      · rw [refused m replies status,status]
        exact iff_of_false (by decide) fun both => m.status_ne_timedOut both.2
      · rw [failed]
        by_cases timedOut : errno = 110
        · simp [timedOut,resetAnswer,ErrorCode.system,ErrorCode.timedOut]
        · by_cases zero : errno = 0
          · simp [zero,resetAnswer,ErrorCode.system,ErrorCode.timedOut,ErrorCode.success,ErrorCode.badMessage]
          · simp [timedOut,zero,resetAnswer,ErrorCode.system,ErrorCode.timedOut,ErrorCode.success]
    · intro m replies
      obtain ⟨parser,found⟩ := replies.2.2
      have same : received.code = m.status := congrArg Received.code (Option.some.inj (heard.symm.trans found))
      rw [refused m replies same]
      decide

theorem parameterless_sized : fromLe [3,0] = ([] : List UInt8).length + 3 := rfl

def ambiguous : StatusPacket := ⟨1,3,0,110,0,[],parameterless_sized⟩

theorem reply_taken_for_silence : ¬ ∀ n buffer id errno start turns, TellsSilence n buffer id errno start turns := by
  intro every
  have tells := every ExxxNetwork.initial ⟨[],kMaxPacketBuffer,Nat.le_refl _⟩ 1 0 0 (arriving ambiguous.bytes)
  obtain ⟨parser,heard⟩ := receive_arriving (n := ExxxNetwork.initial) (by decide) ambiguous [] (Nat.zero_le kMaxPacketBuffer)
  have silent := (tells _ heard).1.mp rfl
  cases congrArg ErrorCode.category silent.2

end ExxxProtocol
end HsrbDrivers.Servomotor

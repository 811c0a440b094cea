import HsrbDrivers.Servomotor.Composition

namespace HsrbDrivers.Servomotor
open Session ExxxReprograming

def receivedBytes (trace : List Exchange) : List UInt8 := trace.filterMap Exchange.byte

-- The ACKs since the first packet went out: what the receiver says before that is no answer.
def acks (trace : List Exchange) : Nat :=
  (receivedBytes (trace.dropWhile fun event => !event.isSend)).count kXmodemACK

def blocks (flushData : List UInt8) : Nat := (flushData.length + 127) / 128

def block (flushData : List UInt8) (k : Nat) : List UInt8 :=
  (List.range 128).map fun i => (flushData[128 * k + i]?).getD 0xFF

def packet (flushData : List UInt8) (k : Nat) : List UInt8 :=
  [kXmodemSOH,UInt8.ofNat (k + 1),~~~ UInt8.ofNat (k + 1)] ++ block flushData k ++ [(block flushData k).sum]

-- Block `k` is the first, or the one before it went out and an ACK followed.
def Acknowledged (flushData : List UInt8) (k : Nat) (trace : List Exchange) : Prop :=
  ∀ j, k = j + 1 → ∃ before after, trace = before ++ .send (packet flushData j) :: after ∧ acks before = j ∧
    .received kXmodemACK ∈ after

-- What may be sent: the block that the ACKs ask for, or the end behind the last one.
def Allowed (flushData : List UInt8) (trace : List Exchange) : Exchange → Prop
  | .send data =>
      data = packet flushData (acks trace) ∧ acks trace < blocks flushData ∧ Acknowledged flushData (acks trace) trace ∨
      data = [kXmodemEOT] ∧ blocks flushData ≤ acks trace
  | _ => True

def Finished (trace : List Exchange) : Prop :=
  ∃ before after, trace = before ++ .send [kXmodemEOT] :: after ∧ kFlushFinishMessage <:+: receivedBytes after ∧
    ∀ data ∈ (receivedBytes after).dropLast, data ≠ kReceiveLineDelimiter1 ∧ data ≠ kReceiveLineDelimiter2

theorem receivedBytes_append (before after : List Exchange) :
    receivedBytes (before ++ after) = receivedBytes before ++ receivedBytes after := List.filterMap_append

theorem acks_unsent {trace : List Exchange} (unsent : ∀ event ∈ trace, event.isSend = false) : acks trace = 0 := by
  have nothing : (trace.dropWhile fun event => !event.isSend) = [] := by
    refine List.dropWhile_eq_nil_iff.mpr fun event member => ?_
    rw [unsent event member]
    rfl
  unfold acks
  rw [nothing]
  rfl

theorem acks_sent (before : List Exchange) (data : List UInt8) (after : List Exchange) :
    acks (before ++ .send data :: after) = acks (before ++ [.send data]) + (receivedBytes after).count kXmodemACK := by
  have kept : ((before ++ .send data :: after).dropWhile fun event => !event.isSend) =
      ((before ++ [Exchange.send data]).dropWhile fun event => !event.isSend) ++ after := by
    rw [List.append_cons,List.dropWhile_append]
    split
    · rename_i nothing
      have none := List.dropWhile_eq_nil_iff.mp (List.isEmpty_iff.mp nothing) (.send data)
        (List.mem_append_right _ List.mem_cons_self)
      cases none
    · rfl
  unfold acks
  rw [kept,receivedBytes_append,List.count_append]

theorem acks_other (trace : List Exchange) {event : Exchange} (other : event.byte ≠ some kXmodemACK) :
    acks (trace ++ [event]) = acks trace := by
  have none : (receivedBytes [event]).count kXmodemACK = 0 := by
    refine List.count_eq_zero.mpr fun member => ?_
    obtain ⟨same,found,ack⟩ := List.mem_filterMap.mp member
    rw [List.mem_singleton.mp found] at ack
    exact other ack
  unfold acks
  rw [List.dropWhile_append]
  split
  · rename_i nothing
    rw [List.isEmpty_iff.mp nothing]
    by_cases send : event.isSend = true
    · rw [List.dropWhile_cons_of_neg (by simp [send]),none]
      rfl
    · simp [send]
  · rw [receivedBytes_append,List.count_append,none]
    rfl

theorem acks_grow (trace : List Exchange) (event : Exchange) : acks trace ≤ acks (trace ++ [event]) := by
  unfold acks
  rw [List.dropWhile_append]
  split
  · rename_i nothing
    rw [List.isEmpty_iff.mp nothing]
    exact Nat.zero_le _
  · rw [receivedBytes_append,List.count_append]
    exact Nat.le_add_right _ _

theorem acks_receive (before : List Exchange) (data : List UInt8) (after : List Exchange) :
    acks (before ++ .send data :: after ++ [.received kXmodemACK]) = acks (before ++ .send data :: after) + 1 := by
  have counted : (receivedBytes (after ++ [.received kXmodemACK])).count kXmodemACK = (receivedBytes after).count kXmodemACK + 1 := by
    rw [receivedBytes_append,List.count_append]
    rfl
  rw [List.append_assoc,List.cons_append,acks_sent before data (after ++ _),acks_sent before data after,counted,Nat.add_assoc]

theorem acknowledged_append {flushData : List UInt8} {k : Nat} {trace : List Exchange} (acknowledged : Acknowledged flushData k trace)
    (events : List Exchange) : Acknowledged flushData k (trace ++ events) := by
  intro j next
  obtain ⟨before,after,rfl,at_,acked⟩ := acknowledged j next
  exact ⟨before,after ++ events,by rw [List.append_assoc,List.cons_append],at_,List.mem_append_left _ acked⟩

theorem lt_blocks {flushData : List UInt8} {k : Nat} : k < blocks flushData ↔ 128 * k < flushData.length := by
  unfold blocks
  omega

theorem padded (xs : List UInt8) (length : Nat) (fill : UInt8) :
    xs.take length ++ List.replicate (length - xs.length) fill = (List.range length).map fun i => (xs[i]?).getD fill := by
  refine List.ext_getElem (by simp; omega) fun i fits inside => ?_
  have small : i < length := by simpa using inside
  rw [List.getElem_append]
  split
  · rename_i present
    have reached : i < xs.length := lt_of_lt_of_le present (List.length_take_le' length xs)
    simp [List.getElem?_eq_getElem reached]
  · rename_i absent
    rw [List.length_take] at absent
    have missing : xs.length ≤ i := by omega
    simp [List.getElem?_eq_none missing]

theorem flushBlock_block {flushData : List UInt8} {k : Nat} (inside : 128 * k < flushData.length)
    (short : flushData.length < 2^32 - 128) : flushBlock flushData (128 * k) = some (block flushData k) := by
  have left : (flushData.length + 2^64 - 128 * k) % 2^64 = flushData.length - 128 * k := by omega
  have rest : (flushData.drop (128 * k)).length = flushData.length - 128 * k := List.length_drop
  have filled : block flushData k = (flushData.drop (128 * k)).take kXmodemDataSize ++
      List.replicate (kXmodemDataSize - (flushData.drop (128 * k)).length) kXmodemEOF := by
    rw [padded]
    simp only [List.getElem?_drop]
    rfl
  unfold flushBlock
  rw [left,filled,rest]
  dsimp only
  by_cases last : flushData.length - 128 * k < kXmodemDataSize
  · have whole : (flushData.drop (128 * k)).take kXmodemDataSize = (flushData.drop (128 * k)).take (flushData.length - 128 * k) := by
      rw [List.take_of_length_le (by omega),List.take_of_length_le (by omega)]
    rw [if_pos last,if_pos (by omega),whole]
  · have full : kXmodemDataSize - (flushData.length - 128 * k) = kXmodemDataSize - kXmodemDataSize := by omega
    rw [if_neg last,if_pos (by omega),full]

theorem allowed_silent {flushData : List UInt8} (trace : List Exchange) {event : Exchange} (silent : event.isSend = false) :
    Allowed flushData trace event := by
  cases event with
  | send data => cases silent
  | _ => trivial

section Delivery
variable {flushData : List UInt8}

def Stable (holds : List Exchange → Prop) : Prop :=
  ∀ trace event, Working event → holds trace → holds (trace ++ [event])

theorem working_keeps {α : Type} {m : Session Exchange α} (working : Composed Working m) {holds : List Exchange → Prop}
    (stable : Stable holds) : Triple (Allowed flushData) holds m fun _ => holds :=
  working.confined.triple (fun trace _ working => allowed_silent trace working.1) stable

theorem sendData_sends (r : ExxxReprograming) {data : List UInt8} {pre post : List Exchange → Prop}
    (fine : ∀ trace, pre trace → Allowed flushData trace (.send data) ∧ post (trace ++ [.send data]))
    (stable : Stable post) : Triple (Allowed flushData) pre (r.sendData data) fun _ => post := by
  have called : Triple (Allowed flushData) pre (emit (.send data)) fun _ => post := Triple.emit fine
  refine Triple.bind called fun _ => ?_
  refine Triple.bind (working_keeps now_working stable) fun start => ?_
  refine Triple.bind (working_keeps (Composed.loop (sendTurn_working r data.length start) _) stable) fun s => ?_
  exact Triple.pure fun _ holds => holds

def Answered (holds : List Exchange → Prop) : Except ErrorCode UInt8 → List Exchange → Prop
  | .error error,trace => error.value ≠ 0 ∧ holds trace
  | .ok data,trace => ∃ earlier, trace = earlier ++ [.received data] ∧ holds earlier

theorem receiveByte_answers {holds : List Exchange → Prop} (stable : Stable holds) :
    Triple (Allowed flushData) holds receiveByte (Answered holds) := by
  refine Triple.meet fun trace event a before answer => ?_
  cases event with
  | silent =>
      cases answer
      exact ⟨trivial,by decide,stable trace _ ⟨rfl,rfl⟩ before⟩
  | receiveFailed errno set =>
      cases answer
      exact ⟨trivial,set,stable trace _ ⟨rfl,rfl⟩ before⟩
  | received data =>
      cases answer
      exact ⟨trivial,trace,rfl,before⟩
  | _ => cases answer

def Sent (flushData : List UInt8) (k : Nat) (trace : List Exchange) : Prop :=
  acks trace = k ∧ Acknowledged flushData k trace ∧
    ∃ before after, trace = before ++ .send (packet flushData k) :: after ∧ acks before = k

theorem sent_other {k : Nat} {trace : List Exchange} (sent : Sent flushData k trace) {event : Exchange}
    (other : event.byte ≠ some kXmodemACK) : Sent flushData k (trace ++ [event]) := by
  obtain ⟨count,ready,before,after,split,began⟩ := sent
  refine ⟨(acks_other trace other).trans count,acknowledged_append ready [event],before,after ++ [event],?_,began⟩
  rw [split,List.append_assoc,List.cons_append]

theorem sent_working (k : Nat) : Stable (Sent flushData k) :=
  fun _ event working sent => sent_other sent (by simp [working.2])

theorem sent_answered {k : Nat} {trace : List Exchange} (sent : Sent flushData k trace) :
    acks (trace ++ [.received kXmodemACK]) = k + 1 ∧ Acknowledged flushData (k + 1) (trace ++ [.received kXmodemACK]) := by
  obtain ⟨count,_,before,after,rfl,began⟩ := sent
  refine ⟨(acks_receive before _ after).trans (congrArg (· + 1) count),fun j next => ?_⟩
  cases Nat.succ.inj next
  exact ⟨before,after ++ [.received kXmodemACK],by rw [List.append_assoc,List.cons_append],began,
    List.mem_append_right _ List.mem_cons_self⟩

theorem sendFlushBlockData_sends (r : ExxxReprograming) (short : flushData.length < 2^32 - 128) {k : Nat}
    {pre : List Exchange → Prop} (inside : k < blocks flushData)
    (ready : ∀ trace, pre trace → acks trace = k ∧ Acknowledged flushData k trace) :
    Triple (Allowed flushData) pre (r.sendFlushBlockData flushData (128 * k) (UInt8.ofNat (k + 1))) fun _ => Sent flushData k := by
  have sends : r.sendFlushBlockData flushData (128 * k) (UInt8.ofNat (k + 1)) = r.sendData (packet flushData k) := by
    unfold sendFlushBlockData
    rw [flushBlock_block (lt_blocks.mp inside) short]
    rfl
  rw [sends]
  refine sendData_sends r (fun trace before => ?_) (sent_working k)
  obtain ⟨count,acknowledged⟩ := ready trace before
  constructor
  · refine .inl ⟨?_,?_,?_⟩
    · rw [count]
    · rwa [count]
    · rwa [count]
  · refine ⟨?_,acknowledged_append acknowledged _,trace,[],rfl,count⟩
    rw [acks_other trace (by simp [Exchange.byte]),count]

structure AtBlock (flushData : List UInt8) (sendPos : Nat) (blockNumber : UInt8) (k : Nat) : Prop where
  pos : sendPos = 128 * k
  number : blockNumber = UInt8.ofNat (k + 1)
  inside : k < blocks flushData

def Moving (flushData : List UInt8) (s : Transfer) (trace : List Exchange) : Prop :=
  ∃ k, AtBlock flushData s.sendPos s.blockNumber k ∧ Sent flushData k trace

def Over (error : ErrorCode) (trace : List Exchange) : Prop := error.value = 0 → Finished trace

theorem moving_working (s : Transfer) : Stable (Moving flushData s) :=
  fun trace event working ⟨k,place,sent⟩ => ⟨k,place,sent_working k trace event working sent⟩

theorem transferEnd_ends {s : Transfer} {isFlushXmodem : Bool} {error : ErrorCode} {pre : List Exchange → Prop}
    (onward : isFlushXmodem = true → ∀ trace, pre trace → Moving flushData s trace)
    (ending : isFlushXmodem = false → ∀ trace, pre trace → Over error trace) :
    Triple (Allowed flushData) pre (transferEnd s isFlushXmodem error) (Sum.elim (Moving flushData) Over) := by
  unfold transferEnd
  split
  · exact Triple.pure fun _ _ fine => by cases fine
  · cases isFlushXmodem with
    | false => exact Triple.pure (ending rfl)
    | true =>
        have kept : Triple (Allowed flushData) (Moving flushData s) (waitNanoSec kFlushIntervalTime) fun _ => Moving flushData s :=
          working_keeps (waitNanoSec_working _) (moving_working s)
        refine Triple.bind (kept.weaken (onward rfl) fun _ _ holds => holds) fun waited => ?_
        split
        · rename_i failed
          exact Triple.pure fun _ _ fine => absurd fine failed
        · exact Triple.pure fun _ moving => moving

-- Since the last EOT the bytes `message` came, and no line among them has ended.
def Reading (flushData message : List UInt8) (trace : List Exchange) : Prop :=
  blocks flushData ≤ acks trace ∧
    (∃ before after, trace = before ++ .send [kXmodemEOT] :: after ∧ receivedBytes after = message) ∧
    ∀ data ∈ message, data ≠ kReceiveLineDelimiter1 ∧ data ≠ kReceiveLineDelimiter2

def LineRead (flushData : List UInt8) (line : ErrorCode × List UInt8) (trace : List Exchange) : Prop :=
  blocks flushData ≤ acks trace ∧
    (line.1.value = 0 →
      (∃ before after, trace = before ++ .send [kXmodemEOT] :: after ∧ receivedBytes after = line.2) ∧
      ∀ data ∈ line.2.dropLast, data ≠ kReceiveLineDelimiter1 ∧ data ≠ kReceiveLineDelimiter2)

theorem since_append {trace : List Exchange} {message : List UInt8}
    (since : ∃ before after, trace = before ++ .send [kXmodemEOT] :: after ∧ receivedBytes after = message) (event : Exchange) :
    ∃ before after, trace ++ [event] = before ++ .send [kXmodemEOT] :: after ∧
      receivedBytes after = message ++ receivedBytes [event] := by
  obtain ⟨before,after,split,came⟩ := since
  refine ⟨before,after ++ [event],?_,?_⟩
  · rw [split,List.append_assoc,List.cons_append]
  · rw [receivedBytes_append,came]

theorem reading_working (message : List UInt8) : Stable (Reading flushData message) := by
  intro trace event working ⟨ended,since,plain⟩
  have nothing : receivedBytes [event] = [] := by simp [receivedBytes,working.2]
  have kept := since_append since event
  rw [nothing,List.append_nil] at kept
  exact ⟨ended.trans (acks_grow trace event),kept,plain⟩

theorem lineClock_reads (s : Receiving) : Triple (Allowed flushData) (Reading flushData s.message) (lineClock s)
    (Sum.elim (fun next => Reading flushData next.message) (LineRead flushData)) := by
  refine Triple.bind (working_keeps now_working (reading_working s.message)) fun elapsed => ?_
  split
  · exact Triple.pure fun _ reading => ⟨reading.1,fun fine => by cases fine⟩
  · exact Triple.pure fun _ reading => reading

theorem lineTurn_reads (r : ExxxReprograming) (start : Int) (s : Receiving) :
    Triple (Allowed flushData) (Reading flushData s.message) (r.lineTurn start s)
      (Sum.elim (fun next => Reading flushData next.message) (LineRead flushData)) := by
  unfold lineTurn
  split
  · refine Triple.bind (receiveByte_answers (reading_working s.message)) fun result => ?_
    cases result with
    | error error =>
        dsimp only
        split
        · exact (lineClock_reads {s with error := error}).weaken (fun _ answered => answered.2) fun _ _ holds => holds
        · exact Triple.pure fun _ answered => ⟨answered.2.1,fun fine => absurd fine answered.1⟩
    | ok data =>
        dsimp only
        have longer : ∀ trace, Answered (Reading flushData s.message) (.ok data) trace → blocks flushData ≤ acks trace ∧
            ∃ before after, trace = before ++ .send [kXmodemEOT] :: after ∧ receivedBytes after = s.message ++ [data] := by
          rintro _ ⟨earlier,rfl,ended,since,_⟩
          exact ⟨ended.trans (acks_grow earlier _),since_append since _⟩
        split
        · refine Triple.pure fun trace answered => ⟨(longer trace answered).1,fun _ => ⟨(longer trace answered).2,?_⟩⟩
          obtain ⟨_,_,_,_,plain⟩ := answered
          simpa using plain
        · rename_i open_
          refine (lineClock_reads {s with error := .success,message := s.message ++ [data]}).weaken ?_ fun _ _ holds => holds
          intro trace answered
          refine ⟨(longer trace answered).1,(longer trace answered).2,fun other member => ?_⟩
          obtain ⟨_,_,_,_,plain⟩ := answered
          rcases List.mem_append.mp member with old | new
          · exact plain other old
          · rw [List.mem_singleton.mp new]
            exact not_or.mp open_
  · refine Triple.pure fun trace reading => ?_
    obtain ⟨ended,since,plain⟩ := reading
    split
    · exact ⟨ended,fun _ => ⟨since,fun data member => plain data (List.dropLast_subset _ member)⟩⟩
    · rename_i empty
      rw [not_not.mp empty] at since
      exact ⟨ended,fun _ => ⟨since,fun _ member => by cases member⟩⟩

theorem receiveLine_reads (r : ExxxReprograming) :
    Triple (Allowed flushData) (Reading flushData []) r.receiveLine (LineRead flushData) := by
  refine Triple.bind (working_keeps now_working (reading_working [])) fun start => ?_
  exact Triple.loop (lineTurn_reads r start) ⟨start,.success,[]⟩

theorem checkReceivedMessage_finishes (r : ExxxReprograming) :
    Triple (Allowed flushData) (Reading flushData []) (r.checkReceivedMessage kFlushFinishMessage) fun error trace =>
      blocks flushData ≤ acks trace ∧ Over error trace := by
  refine Triple.bind (receiveLine_reads r) fun line => Triple.pure fun trace ⟨ended,read⟩ => ⟨ended,fun fine => ?_⟩
  split at fine
  · rename_i came
    split at fine
    · rename_i inside
      obtain ⟨⟨before,after,split_,line_⟩,plain⟩ := read came
      rw [← line_] at inside plain
      exact ⟨before,after,split_,inside,plain⟩
    · cases fine
  · rename_i failed
    exact absurd fine failed

theorem commandTurn_finishes (r : ExxxReprograming) (retryCount : Nat) :
    Triple (Allowed flushData) (fun trace => blocks flushData ≤ acks trace) (r.commandTurn kXmodemEOT kFlushFinishMessage retryCount)
      (Sum.elim (fun _ trace => blocks flushData ≤ acks trace) Over) := by
  have stable : Stable fun trace => blocks flushData ≤ acks trace := fun trace event _ ended => ended.trans (acks_grow trace event)
  have sends : Triple (Allowed flushData) (fun trace => blocks flushData ≤ acks trace) (r.sendData [kXmodemEOT])
      fun _ => Reading flushData [] := by
    refine sendData_sends r (fun trace ended => ⟨.inr ⟨rfl,ended⟩,?_⟩) (reading_working [])
    exact ⟨ended.trans (acks_grow trace _),⟨trace,[],rfl,rfl⟩,fun _ member => by cases member⟩
  refine Triple.bind sends fun sent => ?_
  split
  · rename_i failed
    exact Triple.pure fun _ _ fine => absurd fine failed
  refine Triple.bind (checkReceivedMessage_finishes r) fun error => ?_
  split
  · exact Triple.pure fun _ checked => checked.2
  split
  · rename_i failed _
    exact Triple.pure fun _ _ fine => absurd fine failed
  split
  · exact Triple.pure fun _ _ fine => by cases fine
  have waits : Triple (Allowed flushData) (fun trace => blocks flushData ≤ acks trace ∧ Over error trace)
      (waitNanoSec kCommandIntervalTime) fun _ trace => blocks flushData ≤ acks trace :=
    (working_keeps (waitNanoSec_working _) stable).weaken (fun _ checked => checked.1) fun _ _ kept => kept
  refine Triple.bind waits fun waited => ?_
  split
  · rename_i failed
    exact Triple.pure fun _ _ fine => absurd fine failed
  · exact Triple.pure fun _ ended => ended

theorem sendCommand_finishes (r : ExxxReprograming) :
    Triple (Allowed flushData) (fun trace => blocks flushData ≤ acks trace) (r.sendCommand kXmodemEOT kFlushFinishMessage) Over :=
  Triple.loop (commandTurn_finishes r) 0

theorem sendBlock_moves (r : ExxxReprograming) (short : flushData.length < 2^32 - 128) (s : Transfer) {k : Nat}
    (place : AtBlock flushData s.sendPos s.blockNumber k) {pre : List Exchange → Prop}
    (ready : ∀ trace, pre trace → acks trace = k ∧ Acknowledged flushData k trace) :
    Triple (Allowed flushData) pre (do
      let error ← r.sendFlushBlockData flushData s.sendPos s.blockNumber
      transferEnd s (error.value = 0) error) (Sum.elim (Moving flushData) Over) := by
  have sends := sendFlushBlockData_sends r short place.inside ready
  rw [← place.pos,← place.number] at sends
  refine Triple.bind sends fun error => ?_
  refine transferEnd_ends (fun _ _ sent => ⟨k,place,sent⟩) fun off _ _ fine => ?_
  exact absurd fine (of_decide_eq_false off)

theorem transferNext_moves (r : ExxxReprograming) (short : flushData.length < 2^32 - 128) {s : Transfer} {k : Nat}
    (place : AtBlock flushData s.sendPos s.blockNumber k) :
    Triple (Allowed flushData) (fun trace => acks trace = k + 1 ∧ Acknowledged flushData (k + 1) trace) (r.transferNext flushData s)
      (Sum.elim (Moving flushData) Over) := by
  have reached := lt_blocks.mp place.inside
  have next : (s.sendPos + kXmodemDataSize) % 2^32 = 128 * (k + 1) := by
    rw [place.pos]
    exact Nat.mod_eq_of_lt (by unfold kXmodemDataSize; omega)
  have following : s.blockNumber + 1 = UInt8.ofNat (k + 1 + 1) := by
    rw [place.number,UInt8.ofNat_add (k + 1) 1]
    rfl
  unfold transferNext
  dsimp only
  rw [if_neg (by omega)]
  split
  · rename_i beyond
    have ended : ∀ trace, acks trace = k + 1 ∧ Acknowledged flushData (k + 1) trace → blocks flushData ≤ acks trace := by
      intro trace ⟨count,_⟩
      rw [next] at beyond
      rw [count,← Nat.not_lt,lt_blocks]
      exact Nat.not_lt.mpr beyond
    refine Triple.bind ((sendCommand_finishes r).weaken ended fun _ _ ending => ending) fun error => ?_
    exact transferEnd_ends (fun on => by cases on) fun _ _ ending => ending
  · rename_i more
    rw [next] at more
    have moved : AtBlock flushData ((s.sendPos + kXmodemDataSize) % 2^32) (s.blockNumber + 1) (k + 1) :=
      ⟨next,following,lt_blocks.mpr (Nat.not_le.mp more)⟩
    exact sendBlock_moves r short ⟨0,_,_,_⟩ moved fun _ ready => ready

theorem transferAgain_moves (r : ExxxReprograming) (short : flushData.length < 2^32 - 128) {s : Transfer} {k : Nat}
    (place : AtBlock flushData s.sendPos s.blockNumber k) :
    Triple (Allowed flushData) (Sent flushData k) (r.transferAgain flushData s) (Sum.elim (Moving flushData) Over) := by
  unfold transferAgain
  dsimp only
  split
  · have ready : ∀ trace, Sent flushData k trace → acks trace = k ∧ Acknowledged flushData k trace :=
      fun _ sent => ⟨sent.1,sent.2.1⟩
    exact sendBlock_moves r short {s with retryCount := s.retryCount + 1} place ready
  · exact transferEnd_ends (fun _ _ sent => ⟨k,place,sent⟩) fun off => by cases off

theorem transferTurn_moves (r : ExxxReprograming) (short : flushData.length < 2^32 - 128) (s : Transfer) :
    Triple (Allowed flushData) (Moving flushData s) (r.transferTurn flushData s) (Sum.elim (Moving flushData) Over) := by
  refine Triple.bind (receiveByte_answers (moving_working s)) fun result => ?_
  cases result with
  | error error =>
      dsimp only
      split
      · exact transferEnd_ends (fun _ _ answered => answered.2) fun off => by cases off
      · exact Triple.pure fun _ answered fine => absurd fine answered.1
  | ok data =>
      dsimp only
      split
      · rename_i ack
        have moves := Triple.of_exists fun k =>
          Triple.of_exists fun place : AtBlock flushData s.sendPos s.blockNumber k => transferNext_moves r short place
        refine moves.weaken (fun trace answered => ?_) fun _ _ holds => holds
        obtain ⟨earlier,rfl,k,place,sent⟩ := answered
        rw [ack]
        exact ⟨k,place,sent_answered sent⟩
      split
      · rename_i nak
        have moves := Triple.of_exists fun k =>
          Triple.of_exists fun place : AtBlock flushData s.sendPos s.blockNumber k => transferAgain_moves r short place
        refine moves.weaken (fun trace answered => ?_) fun _ _ holds => holds
        obtain ⟨earlier,rfl,k,place,sent⟩ := answered
        refine ⟨k,place,sent_other sent ?_⟩
        rw [nak]
        decide
      split
      · exact transferEnd_ends (fun on => by cases on) fun _ _ _ fine => by cases fine
      · rename_i other _ _
        refine transferEnd_ends (fun _ trace answered => ?_) fun off => by cases off
        obtain ⟨earlier,rfl,k,place,sent⟩ := answered
        exact ⟨k,place,sent_other sent fun same => other (Option.some.inj same)⟩

def Unsent (trace : List Exchange) : Prop := ∀ event ∈ trace, event.isSend = false

theorem waiting_unsent : Triple (Allowed flushData) Unsent (loop waitTurn 0) fun _ => Unsent := by
  have listens := (Composed.loop waitTurn_listening 0).confined.weaken fun _ => listening_silent
  refine listens.triple (fun trace _ silent => allowed_silent trace silent) ?_
  intro trace event silent unsent other member
  rcases List.mem_append.mp member with old | new
  · exact unsent other old
  · rw [List.mem_singleton.mp new]
    exact silent

theorem flushXmodem_moves (r : ExxxReprograming) (present : flushData ≠ []) (short : flushData.length < 2^32 - 128) :
    Triple (Allowed flushData) Unsent (r.flushXmodem flushData) Over := by
  have inside : 0 < blocks flushData := lt_blocks.mpr (List.length_pos_iff.mpr present)
  have first : Triple (Allowed flushData) Unsent (r.sendFlushBlockData flushData (128 * 0) (UInt8.ofNat (0 + 1)))
      fun _ => Sent flushData 0 :=
    sendFlushBlockData_sends r short inside fun trace unsent => ⟨acks_unsent unsent,fun j next => by cases next⟩
  refine Triple.bind waiting_unsent fun waited => ?_
  split
  · rename_i failed
    exact Triple.pure fun _ _ fine => absurd fine failed
  refine Triple.bind first fun sent => ?_
  split
  · rename_i failed
    exact Triple.pure fun _ _ fine => absurd fine failed
  refine Triple.bind (working_keeps (waitNanoSec_working _) (sent_working 0)) fun slept => ?_
  split
  · rename_i failed
    exact Triple.pure fun _ _ fine => absurd fine failed
  refine (Triple.loop (transferTurn_moves r short) ⟨0,0,0,1⟩).weaken (fun trace sent => ?_) fun _ _ ending => ending
  exact ⟨0,⟨rfl,rfl,inside⟩,sent⟩

end Delivery

-- Whatever the receiver answers: the blocks go out in order, each when the ACKs ask for it, the
-- end behind all of them, and a success was announced by the receiver.
theorem flushXmodem_delivers (r : ExxxReprograming) {flushData : List UInt8} (present : flushData ≠ [])
    (short : flushData.length < 2^32 - 128) (script : List Exchange) :
    Orderly (Allowed flushData) (r.flushXmodem flushData ⟨[],script⟩).2.trace ∧
    (r.flushXmodem flushData ⟨[],script⟩).1 ≠ .error .fault ∧
    ∀ error, (r.flushXmodem flushData ⟨[],script⟩).1 = .ok error → error.value = 0 →
      Finished (r.flushXmodem flushData ⟨[],script⟩).2.trace :=
  flushXmodem_moves r present short ⟨[],script⟩ (orderly_nil _) fun _ member => by cases member

def oneBlock : List Exchange :=
  [.received kXmodemNAK,.clock 0,.written 132,.slept kFlushIntervalTime,.received kXmodemACK,.clock 0,.written 1,.clock 0] ++
  (kFlushFinishMessage.flatMap fun data => [.received data,.clock 0]) ++ [.received kReceiveLineDelimiter1]

def host : ExxxReprograming := ⟨1000,10⟩

theorem oneBlock_delivered : (host.flushXmodem [7] ⟨[],oneBlock⟩).1 = .ok .success ∧
    Orderly (Allowed [7]) (host.flushXmodem [7] ⟨[],oneBlock⟩).2.trace ∧
    Finished (host.flushXmodem [7] ⟨[],oneBlock⟩).2.trace := by
  have present : ([7] : List UInt8) ≠ [] := by decide
  have delivered := flushXmodem_delivers host present (by decide) oneBlock
  have success : (host.flushXmodem [7] ⟨[],oneBlock⟩).1 = .ok .success := by decide +kernel
  exact ⟨success,delivered.1,delivered.2.2 .success success rfl⟩

theorem early_ack_passed_over : ¬ ∀ (r : ExxxReprograming) (flushData : List UInt8), flushData ≠ [] →
    flushData.length < 2^32 - 128 → ∀ script before data after,
      (r.flushXmodem flushData ⟨[],script⟩).2.trace = before ++ .send data :: after →
      data = packet flushData ((receivedBytes before).count kXmodemACK) ∨ data = [kXmodemEOT] := by
  intro every
  have begun : (host.flushXmodem [7] ⟨[],[.received kXmodemACK,.received kXmodemNAK]⟩).2.trace =
      [.received kXmodemACK,.received kXmodemNAK] ++ .send (packet [7] 0) :: [] := by decide +kernel
  rcases every host [7] (by decide) (by decide) _ _ _ _ begun with block | ending
  · exact absurd block (by decide +kernel)
  · exact absurd ending (by decide +kernel)

end HsrbDrivers.Servomotor

import HsrbDrivers.PowerEcu.FrameAcceptance

namespace HsrbDrivers.PowerEcu
open FrameDecoder Reassembly

-- What `Decode` answered when it consumed something, and which data decoder it
-- called with which bytes.
structure Report where
  code : ErrorCode
  invoked : Option (List UInt8 × List UInt8)
deriving DecidableEq

structure Decoding (σ : Type) where
  encoded : List UInt8
  memory : σ
  result : ErrorCode
  reports : List Report

def decodeLoop (fd : FrameDecoder σ) : Nat → List UInt8 → σ → ErrorCode → Except Stop (Decoding σ)
  | 0,_,_,_ => .error .unfinished
  | fuel+1,current,memory,result => do
    let decoded ← fd.decode current memory
    let result := if decoded.code ≠ .success ∧ decoded.code ≠ .resultOutOfRange then .protocolError else result
    if decoded.code = .resultOutOfRange then return ⟨decoded.encoded,decoded.memory,result,[]⟩ else
    let rest ← decodeLoop fd fuel decoded.encoded decoded.memory result
    return {rest with reports := ⟨decoded.code,decoded.invoked⟩ :: rest.reports}

-- Each turn but the last consumes a byte at least.
def decodeAll (fd : FrameDecoder σ) (buffer : PacketBuffer) (memory : σ) : Except Stop (Decoding σ) :=
  if buffer.size > 0 then decodeLoop fd (buffer.size+1) buffer.data memory .success
  else .ok ⟨buffer.data,memory,.success,[]⟩

def decodeBuffer (fd : FrameDecoder σ) (buffer : PacketBuffer) (memory : σ) : Except Stop (PacketBuffer × Decoding σ) := do
  let decoding ← decodeAll fd buffer memory
  return (buffer.eraseBegin (buffer.size-decoding.encoded.length),decoding)

-- A decode step of unbounded input, as something that emits or waits.
def framer (fd : FrameDecoder σ) (memory : σ) (start : List UInt8) : Verdict σ Report UInt8 :=
  let decoded := frameStep id fd start memory
  if decoded.code = .resultOutOfRange then .wait decoded.encoded else
    .emit ⟨decoded.code,decoded.invoked⟩ decoded.memory decoded.encoded

theorem dropWhile_append {start more : List UInt8} :
    (start ++ more).dropWhile (· ≠ 69) = (start.dropWhile (· ≠ 69) ++ more).dropWhile (· ≠ 69) := by
  induction start with
  | nil => rfl
  | cons b start ih =>
      by_cases lead : b = 69
      · simp [lead]
      · simpa [lead] using ih

theorem dropWhile_kept {start : List UInt8} (found : start.dropWhile (· ≠ 69) ≠ []) (more : List UInt8) :
    (start ++ more).dropWhile (· ≠ 69) = start.dropWhile (· ≠ 69) ++ more := by
  induction start with
  | nil => exact absurd rfl found
  | cons b start ih =>
      by_cases lead : b = 69
      · simp [lead]
      · simp only [List.cons_append,List.dropWhile_cons,lead,ne_eq,not_false_eq_true,decide_true,if_true] at found ⊢
        exact ih found

theorem frameStep_cases (narrow : Nat → Nat) (fd : FrameDecoder σ) (start : List UInt8) (memory : σ) :
    let current := start.dropWhile (· ≠ 69)
    (frameStep narrow fd start memory = ⟨.resultOutOfRange,current,memory,none⟩ ∧
      (narrow current.length < 12 ∨ ∃ name packetSize, parseHeader current = .complete name packetSize ∧
        narrow (current.length-12) < packetSize)) ∨
    (∃ read, 12 ≤ narrow current.length ∧ parseHeader current = .broken read ∧
      frameStep narrow fd start memory = ⟨.protocolError,current.drop read,memory,none⟩) ∨
    ∃ name packetSize, 12 ≤ narrow current.length ∧ packetSize ≤ narrow (current.length-12) ∧
      parseHeader current = .complete name packetSize ∧
      frameStep narrow fd start memory = checkFrame fd name packetSize current memory := by
  intro current
  by_cases short : narrow current.length < 12
  · exact .inl ⟨if_pos short,.inl short⟩
  have step : frameStep narrow fd start memory = _ := if_neg short
  have enough := Nat.not_lt.mp short
  cases parsed : parseHeader current with
  | broken read =>
      rw [parsed] at step
      exact .inr (.inl ⟨read,enough,rfl,step⟩)
  | complete name packetSize =>
      rw [parsed] at step
      simp only at step
      by_cases incomplete : narrow (current.length-12) < packetSize
      · rw [if_pos incomplete] at step
        exact .inl ⟨step,.inr ⟨name,packetSize,rfl,incomplete⟩⟩
      · rw [if_neg incomplete] at step
        exact .inr (.inr ⟨name,packetSize,enough,Nat.not_lt.mp incomplete,rfl,step⟩)

theorem frameStep_id_cases (fd : FrameDecoder σ) (start : List UInt8) (memory : σ) :
    let current := start.dropWhile (· ≠ 69)
    (frameStep id fd start memory = ⟨.resultOutOfRange,current,memory,none⟩ ∧
      (current.length < 12 ∨ ∃ name packetSize, parseHeader current = .complete name packetSize ∧
        current.length < 12 + packetSize)) ∨
    (∃ read, 12 ≤ current.length ∧ parseHeader current = .broken read ∧
      frameStep id fd start memory = ⟨.protocolError,current.drop read,memory,none⟩) ∨
    ∃ name packetSize, 12 + packetSize ≤ current.length ∧ parseHeader current = .complete name packetSize ∧
      frameStep id fd start memory = checkFrame fd name packetSize current memory := by
  intro current
  rcases frameStep_cases id fd start memory with ⟨step,short | ⟨name,packetSize,parsed,incomplete⟩⟩ |
    broken | ⟨name,packetSize,enough,received,parsed,step⟩
  · exact .inl ⟨step,.inl short⟩
  · exact .inl ⟨step,.inr ⟨name,packetSize,parsed,lt_add_of_tsub_lt_left incomplete⟩⟩
  · exact .inr (.inl broken)
  · exact .inr (.inr ⟨name,packetSize,Nat.add_le_of_le_sub' enough received,parsed,step⟩)

theorem frameStep_start {fd : FrameDecoder σ} {start start' : List UInt8} {memory : σ}
    (same : start.dropWhile (· ≠ 69) = start'.dropWhile (· ≠ 69)) :
    frameStep id fd start memory = frameStep id fd start' memory := by
  simp only [frameStep,same]

theorem frameStep_append (fd : FrameDecoder σ) {start : List UInt8} {memory : σ}
    (consumed : (frameStep id fd start memory).code ≠ .resultOutOfRange) (more : List UInt8) :
    frameStep id fd (start ++ more) memory =
      {frameStep id fd start memory with encoded := (frameStep id fd start memory).encoded ++ more} := by
  rcases frameStep_id_cases fd start memory with ⟨step,_⟩ | ⟨read,enough,parsed,step⟩ | ⟨name,packetSize,received,parsed,step⟩
  · rw [step] at consumed
    exact absurd rfl consumed
  · have kept := dropWhile_kept (List.ne_nil_of_length_pos (Nat.lt_of_lt_of_le (by decide) enough)) more
    have range := parseHeader_broken parsed
    rw [step,frameStep]
    simp only [kept,id,parseHeader_append enough,parsed,List.length_append]
    rw [if_neg (by omega),List.drop_append_of_le_length (by omega)]
  · have least := (parseHeader_size parsed).2.2.1
    have kept := dropWhile_kept (List.ne_nil_of_length_pos (Nat.lt_of_lt_of_le (by omega) received)) more
    rw [step,frameStep]
    simp only [kept,id,parseHeader_append (Nat.le_trans (Nat.le_add_right 12 packetSize) received),parsed,List.length_append]
    rw [if_neg (by omega),if_neg (by omega),checkFrame_append fd name memory least received]

theorem framer_wait {fd : FrameDecoder σ} {start rest : List UInt8} {memory : σ} (waited : framer fd memory start = .wait rest) :
    frameStep id fd start memory = ⟨.resultOutOfRange,rest,memory,none⟩ ∧ rest = start.dropWhile (· ≠ 69) := by
  unfold framer at waited
  rcases frameStep_id_cases fd start memory with ⟨step,_⟩ | ⟨read,enough,parsed,step⟩ | ⟨name,packetSize,received,parsed,step⟩
  · simp only [step,if_true] at waited
    cases waited
    exact ⟨step,rfl⟩
  · simp only [step,reduceCtorEq,if_false] at waited
  · simp only [step,checkFrame_code,if_false] at waited
    cases waited

theorem framer_emit {fd : FrameDecoder σ} {start rest : List UInt8} {memory next : σ} {report : Report}
    (emitted : framer fd memory start = .emit report next rest) :
    frameStep id fd start memory = ⟨report.code,rest,next,report.invoked⟩ ∧ report.code ≠ .resultOutOfRange := by
  by_cases waited : (frameStep id fd start memory).code = .resultOutOfRange
  · simp only [framer,waited,if_true] at emitted
    cases emitted
  · simp only [framer,waited,if_false] at emitted
    cases emitted
    exact ⟨rfl,waited⟩

-- How far each exit of `Decode` moves `encoded_iterator`, counted without a look at the end.
def moved (narrow : Nat → Nat) (start : List UInt8) : Nat :=
  let current := start.dropWhile (· ≠ 69)
  let skipped := start.length - current.length
  if narrow current.length < kPacketHeaderLength then skipped else
  match parseHeader current with
  | .broken read => skipped + read
  | .complete _ packetSize =>
    if narrow (current.length - kPacketHeaderLength) < packetSize then skipped else skipped + (kPacketHeaderLength + packetSize)

theorem frameStep_moved (narrow : Nat → Nat) (narrowing : ∀ n, narrow n ≤ n) (fd : FrameDecoder σ) (start : List UInt8)
    (memory : σ) :
    (frameStep narrow fd start memory).encoded = start.drop (moved narrow start) ∧ moved narrow start ≤ start.length ∧
      ((frameStep narrow fd start memory).code ≠ .resultOutOfRange → 0 < moved narrow start) := by
  have suffix := List.dropWhile_suffix (l := start) (· ≠ 69)
  have shorter := suffix.length_le
  have tail : start.drop (start.length - (start.dropWhile (· ≠ 69)).length) = start.dropWhile (· ≠ 69) :=
    (List.suffix_iff_eq_drop.mp suffix).symm
  unfold moved kPacketHeaderLength
  rcases frameStep_cases narrow fd start memory with ⟨step,short | ⟨name,packetSize,parsed,incomplete⟩⟩ |
    ⟨read,enough,parsed,step⟩ | ⟨name,packetSize,enough,received,parsed,step⟩
  · dsimp only
    rw [step,if_pos short]
    exact ⟨tail.symm,Nat.sub_le _ _,fun consumed => absurd rfl consumed⟩
  · dsimp only
    rw [step,parsed]
    dsimp only
    rw [if_pos incomplete,ite_self]
    exact ⟨tail.symm,Nat.sub_le _ _,fun consumed => absurd rfl consumed⟩
  · have range := parseHeader_broken parsed
    have held := Nat.le_trans enough (narrowing _)
    dsimp only
    rw [step,parsed,if_neg (Nat.not_lt.mpr enough)]
    dsimp only
    exact ⟨(congrArg (List.drop read) tail).symm.trans List.drop_drop,by omega,fun _ => by omega⟩
  · have body := narrowing ((start.dropWhile (· ≠ 69)).length - 12)
    have held := Nat.le_trans enough (narrowing _)
    dsimp only
    rw [step,parsed,if_neg (Nat.not_lt.mpr enough)]
    dsimp only
    rw [if_neg (Nat.not_lt.mpr received),checkFrame_encoded]
    exact ⟨(congrArg (List.drop (12 + packetSize)) tail).symm.trans List.drop_drop,by omega,fun _ => by omega⟩

theorem frameStep_advances (narrow : Nat → Nat) (narrowing : ∀ n, narrow n ≤ n) (fd : FrameDecoder σ) (start : List UInt8)
    (memory : σ) :
    (frameStep narrow fd start memory).encoded <:+ start ∧
      ((frameStep narrow fd start memory).code ≠ .resultOutOfRange →
        (frameStep narrow fd start memory).encoded.length < start.length) := by
  obtain ⟨left,inside,forward⟩ := frameStep_moved narrow narrowing fd start memory
  rw [left]
  refine ⟨List.drop_suffix _ _,fun consumed => ?_⟩
  have progress := forward consumed
  rw [List.length_drop]
  omega

theorem framer_incremental (fd : FrameDecoder σ) : Incremental (framer fd) where
  productive := by
    intro memory start report next rest emitted
    obtain ⟨step,consumed⟩ := framer_emit emitted
    obtain ⟨inside,shorter⟩ := frameStep_advances id Nat.le_refl fd start memory
    rw [step] at inside shorter
    exact ⟨inside,shorter consumed⟩
  emitted := by
    intro memory start report next rest emitted more
    obtain ⟨step,consumed⟩ := framer_emit emitted
    have later := frameStep_append fd (by rw [step]; exact consumed : (frameStep id fd start memory).code ≠ _) more
    simp only [framer,later,step,consumed,if_false]
  waiting := by
    intro memory start rest waited more
    rw [(framer_wait waited).2]
    unfold framer
    rw [frameStep_start dropWhile_append]
  bounded := by
    intro memory start rest waited
    rw [(framer_wait waited).2]
    exact List.dropWhile_suffix _

def resultOf (result : ErrorCode) (reports : List Report) : ErrorCode :=
  reports.foldl (fun result report => if report.code ≠ .success then .protocolError else result) result

theorem decodeLoop_drain {fd : FrameDecoder σ} {fuel : Nat} {memory next : σ} {current kept : List UInt8} {reports : List Report}
    (drained : drain (framer fd) fuel memory current = some (reports,next,kept)) (small : current.length < 2^32)
    (result : ErrorCode) :
    decodeLoop fd fuel current memory result = .ok ⟨kept,next,resultOf result reports,reports⟩ := by
  induction fuel generalizing memory current reports result with
  | zero => cases drained
  | succ fuel ih =>
      rw [decodeLoop,decode_eq_id fd memory small]
      cases verdict : framer fd memory current with
      | wait rest =>
          rw [drain,verdict] at drained
          cases drained
          rw [(framer_wait verdict).1]
          rfl
      | emit report later rest =>
          rw [drain,verdict] at drained
          obtain ⟨⟨tail,last,left⟩,tailDrained,equal⟩ := Option.map_eq_some_iff.mp drained
          cases equal
          obtain ⟨_,shorter⟩ := (framer_incremental fd).productive verdict
          obtain ⟨step,consumed⟩ := framer_emit verdict
          rw [step]
          simp only [bind,Except.bind,pure,Except.pure,consumed,ne_eq,not_false_eq_true,and_true,if_false]
          rw [ih tailDrained (by omega)]
          simp only [resultOf,List.foldl_cons]

theorem decodeBuffer_drain (fd : FrameDecoder σ) (buffer : PacketBuffer) (memory : σ) :
    ∃ reports next left, drain (framer fd) (buffer.size+1) memory buffer.data = some (reports,next,left.data) ∧
      decodeBuffer fd buffer memory = .ok (left,⟨left.data,next,resultOf .success reports,reports⟩) ∧
      left.data <:+ buffer.data := by
  obtain ⟨reports,next,kept,drained,suffix⟩ := drain_total (framer_incremental fd) memory buffer.data
    (Nat.lt_succ_self buffer.data.length)
  have erased : (buffer.eraseBegin (buffer.size-kept.length)).data = kept := by
    rw [CircularBuffer.data_eraseBegin]
    exact (List.suffix_iff_eq_drop.mp suffix).symm
  have small : buffer.data.length < 2^32 := Nat.lt_of_le_of_lt buffer.fits (by decide)
  refine ⟨reports,next,buffer.eraseBegin (buffer.size-kept.length),by rw [erased]; exact drained,?_,
    by rw [erased]; exact suffix⟩
  have loop : decodeAll fd buffer memory = .ok ⟨kept,next,resultOf .success reports,reports⟩ := by
    unfold decodeAll
    by_cases held : buffer.size > 0
    · rw [if_pos held]
      exact decodeLoop_drain drained small .success
    · have none : buffer.data = [] := List.length_eq_zero_iff.mp (Nat.le_zero.mp (Nat.not_lt.mp held))
      rw [if_neg held,none]
      rw [none] at drained
      cases drained
      rfl
  simp only [decodeBuffer,loop,bind,Except.bind,pure,Except.pure,erased]

-- A call of `Decode` never reads outside what it is given, waits or moves forward and never past
-- the end, and so the loop ends after at most one turn a byte.
theorem decode_loop_terminates {σ : Type} (fd : FrameDecoder σ) (memory : σ) :
    (∀ start, ∃ decoded, fd.decode start memory = .ok decoded ∧ decoded.encoded = start.drop (moved uint32 start) ∧
      moved uint32 start ≤ start.length ∧ decoded.encoded <:+ start ∧
      (decoded.code ≠ .resultOutOfRange → decoded.encoded.length < start.length)) ∧
    ∀ buffer : PacketBuffer, ∃ left decoding erased, decodeBuffer fd buffer memory = .ok (left,decoding) ∧
      buffer.data = erased ++ decoding.encoded ∧ left.data = decoding.encoded ∧
      decoding.reports.length ≤ erased.length := by
  refine ⟨fun start => ?_,fun buffer => ?_⟩
  · have narrow : ∀ n, uint32 n ≤ n := fun n => Nat.mod_le n _
    obtain ⟨left,inside,_⟩ := frameStep_moved uint32 narrow fd start memory
    exact ⟨frameStep uint32 fd start memory,decode_eq fd start memory,left,inside,
      frameStep_advances uint32 narrow fd start memory⟩
  · obtain ⟨reports,next,left,drained,returned,inside⟩ := decodeBuffer_drain fd buffer memory
    have turns := drain_length (framer_incremental fd) drained
    obtain ⟨erased,split⟩ := inside
    refine ⟨left,_,erased,returned,split.symm,rfl,?_⟩
    rw [← split,List.length_append] at turns
    exact Nat.le_of_add_le_add_right turns

def receiveChunk (fd : FrameDecoder σ) (buffer : PacketBuffer) (memory : σ) (chunk : List UInt8) :
    Except Stop (PacketBuffer × Decoding σ) :=
  decodeBuffer fd (buffer.pushBacks chunk) memory

def deliver (fd : FrameDecoder σ) : PacketBuffer → σ → List (List UInt8) → Except Stop (List Report × σ × PacketBuffer)
  | buffer,memory,[] => .ok ([],memory,buffer)
  | buffer,memory,chunk :: chunks => do
    let (left,decoding) ← receiveChunk fd buffer memory chunk
    let (reports,next,last) ← deliver fd left decoding.memory chunks
    return (decoding.reports ++ reports,next,last)

def FitsRoom (fd : FrameDecoder σ) : PacketBuffer → σ → List (List UInt8) → Prop
  | _,_,[] => True
  | buffer,memory,chunk :: chunks => chunk.length ≤ buffer.reserve ∧
    ∀ left decoding, receiveChunk fd buffer memory chunk = .ok (left,decoding) → FitsRoom fd left decoding.memory chunks

theorem fitsRoom_of_length {fd : FrameDecoder σ} {buffer : PacketBuffer} {memory : σ} {chunks : List (List UInt8)}
    (room : buffer.data.length + chunks.flatten.length ≤ kBufferSize) : FitsRoom fd buffer memory chunks := by
  induction chunks generalizing buffer memory with
  | nil => trivial
  | cons chunk chunks ih =>
      rw [List.flatten_cons,List.length_append] at room
      have appended : (buffer.pushBacks chunk).data = buffer.data ++ chunk := CircularBuffer.data_pushBacks _ _ (by omega)
      refine ⟨by unfold CircularBuffer.reserve; omega,?_⟩
      intro left decoding received
      obtain ⟨_,_,left',_,returned,suffix⟩ := decodeBuffer_drain fd (buffer.pushBacks chunk) memory
      cases Except.ok.inj (received.symm.trans returned)
      have shorter := suffix.length_le
      rw [appended,List.length_append] at shorter
      exact ih (by omega)

theorem deliver_feeds {fd : FrameDecoder σ} {buffer : PacketBuffer} {memory : σ} {chunks : List (List UInt8)}
    (fits : FitsRoom fd buffer memory chunks) :
    ∃ reports next last, deliver fd buffer memory chunks = .ok (reports,next,last) ∧
      Feeds (framer fd) memory buffer.data chunks reports next last.data := by
  induction chunks generalizing buffer memory with
  | nil => exact ⟨[],memory,buffer,rfl,.nil⟩
  | cons chunk chunks ih =>
      obtain ⟨room,later⟩ := fits
      have appended : (buffer.pushBacks chunk).data = buffer.data ++ chunk := by
        apply CircularBuffer.data_pushBacks
        have := buffer.fits
        unfold CircularBuffer.reserve at room
        omega
      obtain ⟨reports,next,left,drained,returned,_⟩ := decodeBuffer_drain fd (buffer.pushBacks chunk) memory
      obtain ⟨reports',next',last,delivered,fed⟩ := ih (later left _ returned)
      refine ⟨reports ++ reports',next',last,?_,?_⟩
      · simp only [deliver,receiveChunk,returned,delivered,bind,Except.bind,pure,Except.pure]
      · rw [appended] at drained
        exact .chunk drained fed

theorem deliver_chunking (fd : FrameDecoder σ) (memory : σ) (stream : List UInt8) (chunks chunks' : List (List UInt8))
    (first : chunks.flatten = stream) (second : chunks'.flatten = stream)
    (fits : FitsRoom fd .empty memory chunks) (fits' : FitsRoom fd .empty memory chunks') :
    ∃ reports next left, deliver fd .empty memory chunks = .ok (reports,next,left) ∧
      deliver fd .empty memory chunks' = .ok (reports,next,left) := by
  obtain ⟨reports,next,left,delivered,fed⟩ := deliver_feeds fits
  obtain ⟨reports',next',left',delivered',fed'⟩ := deliver_feeds fits'
  have same := fed.same (framer_incremental fd) fed' rfl (first.trans second.symm)
  have kept : left = left' := CircularBuffer.ext (congrArg (fun outcome => outcome.2.2) same)
  cases kept
  cases same
  exact ⟨reports,next,left,delivered,delivered'⟩

theorem deliver_chunking_rxack :
    ∃ reports next left,
      deliver Rxack.receiver .empty Rxack.initial [CText.ascii "E,rxa",CText.ascii "ck,015,h00,h83693205,\n"] =
        .ok (reports,next,left) ∧
      deliver Rxack.receiver .empty Rxack.initial [CText.ascii "E,rxack,015,h00,h83693205,\n"] = .ok (reports,next,left) :=
  deliver_chunking Rxack.receiver Rxack.initial (CText.ascii "E,rxack,015,h00,h83693205,\n") _ _ (by decide) (by decide)
    (fitsRoom_of_length (by decide)) (fitsRoom_of_length (by decide))

end HsrbDrivers.PowerEcu

import HsrbDrivers.PowerEcu.PowerEcuPeer

namespace HsrbDrivers.PowerEcu
open CText FrameDecoder

-- The calls of `Decode` that the decode loop makes: what each starts from and answers.
def turns (fd : FrameDecoder σ) : Nat → List UInt8 → σ → List (List UInt8 × Decoded σ)
  | 0,_,_ => []
  | fuel+1,current,memory => match fd.decode current memory with
    | .error _ => []
    | .ok decoded => (current,decoded) ::
      if decoded.code = .resultOutOfRange then [] else turns fd fuel decoded.encoded decoded.memory

-- In one of its calls the loop over the buffer decodes the frame that stands before `rest`.
def DecodesAt (fd : FrameDecoder σ) (buffer : PacketBuffer) (memory : σ) (f : Frame) (rest : List UInt8) : Prop :=
  ∃ noise decoded, (noise ++ f.bytes 69 ++ rest,decoded) ∈ turns fd (buffer.size+1) buffer.data memory ∧ 69 ∉ noise ∧
    decoded.code = .success ∧ decoded.invoked = some (f.name,f.data)

theorem turns_ok {fd : FrameDecoder σ} {current : List UInt8} {memory : σ} {decoded : Decoded σ}
    (answered : fd.decode current memory = .ok decoded) (fuel : Nat) : turns fd (fuel+1) current memory =
      (current,decoded) :: if decoded.code = .resultOutOfRange then [] else turns fd fuel decoded.encoded decoded.memory := by
  rw [turns,answered]

def reportOf (turn : List UInt8 × Decoded σ) : Option Report :=
  if turn.2.code = .resultOutOfRange then none else some ⟨turn.2.code,turn.2.invoked⟩

theorem decodeLoop_reports {fd : FrameDecoder σ} {fuel : Nat} {current : List UInt8} {memory : σ} {result : ErrorCode}
    {decoding : Decoding σ} (looped : decodeLoop fd fuel current memory result = .ok decoding) :
    decoding.reports = (turns fd fuel current memory).filterMap reportOf := by
  induction fuel generalizing current memory result decoding with
  | zero => cases looped
  | succ fuel ih =>
      rw [decodeLoop] at looped
      obtain ⟨first,answered,looped⟩ := except_bind_ok.mp looped
      rw [turns_ok answered]
      dsimp only at looped
      split at looped
      · rename_i waited
        cases looped
        simp [waited,reportOf]
      · rename_i onward
        obtain ⟨later,behind,looped⟩ := except_bind_ok.mp looped
        cases looped
        have spoken : reportOf (current,first) = some ⟨first.code,first.invoked⟩ := if_neg onward
        rw [if_neg onward,List.filterMap_cons_some spoken,ih behind]

theorem DecodesAt.reported {fd : FrameDecoder σ} {buffer : PacketBuffer} {memory : σ} {f : Frame} {rest : List UInt8}
    {decoding : Decoding σ} (decodes : DecodesAt fd buffer memory f rest)
    (looped : decodeLoop fd (buffer.size+1) buffer.data memory .success = .ok decoding) :
    ⟨.success,some (f.name,f.data)⟩ ∈ decoding.reports := by
  obtain ⟨noise,decoded,taken,_,code,invoked⟩ := decodes
  rw [decodeLoop_reports looped]
  refine List.mem_filterMap.mpr ⟨_,taken,?_⟩
  rw [reportOf,code,invoked]
  rfl

theorem turns_shorter {fd : FrameDecoder σ} {fuel : Nat} {current : List UInt8} {memory : σ} {start : List UInt8}
    {decoded : Decoded σ} (taken : (start,decoded) ∈ turns fd fuel current memory) : start.length ≤ current.length := by
  induction fuel generalizing current memory with
  | zero => cases taken
  | succ fuel ih =>
      rw [turns_ok (decode_eq fd current memory)] at taken
      rcases List.mem_cons.mp taken with same | later
      · cases same
        exact Nat.le_refl _
      · split at later
        · cases later
        · exact Nat.le_trans (ih later)
            (frameStep_advances uint32 (fun n => Nat.mod_le n _) fd current memory).1.length_le

theorem cut_field {bytes : List UInt8} {k : Nat} (behind : List UInt8) {first count : Nat} (inside : first + count ≤ k)
    (long : k ≤ bytes.length) : ((bytes.take k ++ behind).drop first).take count = (bytes.drop first).take count := by
  have size : (bytes.take k).length = k := by rw [List.length_take]; omega
  rw [List.drop_append_of_le_length (by omega),List.take_append_of_le_length (by rw [List.length_drop]; omega),
    List.drop_take,List.take_take,Nat.min_eq_left (by omega)]

theorem parseHeader_cut {g : Frame} (formed : g.WellFormed 69) {k : Nat} (positive : 0 < k) (cut : k < 12) {behind : List UInt8}
    {read : Nat} (parsed : parseHeader ((g.bytes 69).take k ++ behind) = .broken read) : k < read := by
  have long : k ≤ (g.bytes 69).length := by rw [g.bytes_length]; omega
  have fields := g.header_fields 69 []
  rw [List.append_nil] at fields
  obtain ⟨lead,_,comma,digits,_,_⟩ := fields
  by_contra short
  have whole {first count : Nat} (inside : first + count ≤ k) := cut_field behind inside long
  unfold parseHeader at parsed
  split at parsed
  · rename_i other
    cases parsed
    have leading := @whole 0 2 (by omega)
    rw [List.drop_zero,List.drop_zero,lead] at leading
    exact other leading
  split at parsed
  · rename_i other
    cases parsed
    exact other ((whole (by omega)).trans comma)
  split at parsed
  · rename_i small
    cases parsed
    rw [whole (by omega),digits,formed.sizeOfField_digits] at small
    omega
  split at parsed
  · cases parsed
    omega
  · cases parsed

theorem cut_starts (g : Frame) {k : Nat} (positive : 0 < k) (behind : List UInt8) :
    ((g.bytes 69).take k ++ behind).dropWhile (· ≠ 69) = (g.bytes 69).take k ++ behind := by
  obtain ⟨k,rfl⟩ := Nat.exists_eq_succ_of_ne_zero (Nat.ne_of_gt positive)
  rfl

theorem frame_nonempty (f : Frame) (rest : List UInt8) : f.bytes 69 ++ rest ≠ [] := by
  simp [Frame.bytes]

theorem moved_broken {narrow : Nat → Nat} {start : List UInt8} {read : Nat} (held : start.dropWhile (· ≠ 69) = start)
    (enough : 12 ≤ narrow start.length) (parsed : parseHeader start = .broken read) : moved narrow start = read := by
  unfold moved kPacketHeaderLength
  rw [held]
  simp [parsed,Nat.not_lt.mpr enough]

theorem moved_complete {narrow : Nat → Nat} {start name : List UInt8} {packetSize : Nat}
    (held : start.dropWhile (· ≠ 69) = start) (enough : 12 ≤ narrow start.length)
    (parsed : parseHeader start = .complete name packetSize) (received : packetSize ≤ narrow (start.length - 12)) :
    moved narrow start = 12 + packetSize := by
  unfold moved kPacketHeaderLength
  rw [held]
  simp [parsed,Nat.not_lt.mpr enough,Nat.not_lt.mpr received]

theorem cut_consumed (fd : FrameDecoder σ) {g : Frame} (formed : g.WellFormed 69) {k : Nat} (positive : 0 < k) (cut : k < 12)
    (behind : List UInt8) (memory : σ) : ∃ decoded, fd.decode ((g.bytes 69).take k ++ behind) memory = .ok decoded ∧
      (decoded.code = .resultOutOfRange ∨ k < moved uint32 ((g.bytes 69).take k ++ behind)) := by
  refine ⟨_,decode_eq fd _ memory,?_⟩
  have held := cut_starts g positive behind
  have outcomes := frameStep_cases uint32 fd ((g.bytes 69).take k ++ behind) memory
  rw [held] at outcomes
  rcases outcomes with ⟨step,_⟩ | ⟨read,enough,parsed,_⟩ | ⟨name,packetSize,enough,received,parsed,_⟩
  · rw [step]
    exact .inl rfl
  · rw [moved_broken held enough parsed]
    exact .inr (parseHeader_cut formed positive cut parsed)
  · rw [moved_complete held enough parsed received]
    exact .inr (Nat.lt_add_right packetSize cut)

theorem cut_left (fd : FrameDecoder σ) {g : Frame} (formed : g.WellFormed 69) {k : Nat} (positive : 0 < k) (cut : k < 12)
    {behind : List UInt8} (present : behind ≠ []) (memory : σ) : ∃ decoded, fd.decode ((g.bytes 69).take k ++ behind) memory = .ok decoded ∧
      (decoded.code = .resultOutOfRange ∨ decoded.encoded.length < behind.length) := by
  obtain ⟨decoded,answered,consumed⟩ := cut_consumed fd formed positive cut behind memory
  have narrow : ∀ n, uint32 n ≤ n := fun n => Nat.mod_le n _
  obtain ⟨left,inside,_⟩ := frameStep_moved uint32 narrow fd ((g.bytes 69).take k ++ behind) memory
  cases Except.ok.inj (answered.symm.trans (decode_eq fd _ memory))
  have size : ((g.bytes 69).take k).length = k := by
    rw [List.length_take,g.bytes_length]
    omega
  have held := List.length_pos_iff.mpr present
  refine ⟨_,answered,consumed.imp_right fun more => ?_⟩
  rw [left,List.length_drop,List.length_append,size]
  omega

theorem cut_passes (fd : FrameDecoder σ) {g f : Frame} (formed : g.WellFormed 69) {k : Nat} (positive : 0 < k) (cut : k < 12)
    {buffer : PacketBuffer} {rest : List UInt8} (held : buffer.data = (g.bytes 69).take k ++ (f.bytes 69 ++ rest)) (memory : σ) :
    ¬ DecodesAt fd buffer memory f rest := by
  rintro ⟨noise,decoded,taken,clean,_,_⟩
  obtain ⟨first,answered,consumed⟩ := cut_left fd formed positive cut (frame_nonempty f rest) memory
  rw [held,turns_ok answered] at taken
  rcases List.mem_cons.mp taken with same | later
  · have start := cut_starts g positive (f.bytes 69 ++ rest)
    have skips : ∀ b ∈ noise, decide (b ≠ 69) = true := by
      intro b member
      refine decide_eq_true fun lead => clean ?_
      rwa [← lead]
    rw [← (Prod.mk.inj same).1,List.append_assoc,List.dropWhile_append_of_pos skips] at start
    have none : noise = [] := by
      have front : (f.bytes 69 ++ rest).dropWhile (· ≠ 69) = f.bytes 69 ++ rest := rfl
      rw [front] at start
      exact List.append_left_eq_self.mp start.symm
    have lengths := congrArg List.length (Prod.mk.inj same).1
    rw [none,List.nil_append,List.length_append,List.length_append,List.length_append,List.length_take,g.bytes_length] at lengths
    omega
  · split at later
    · cases later
    · rename_i onward
      have shorter := turns_shorter later
      have left := consumed.resolve_left onward
      rw [List.append_assoc,List.length_append] at shorter
      omega

theorem next_decodes {fd : FrameDecoder σ} {g f next : Frame} {k read : Nat} (cut : k < 12)
    (positive : 0 < k) (formed : g.WellFormed 69) {buffer : PacketBuffer} {rest : List UInt8}
    (held : buffer.data = (g.bytes 69).take k ++ (f.bytes 69 ++ (next.bytes 69 ++ rest))) {memory : σ}
    (parsed : parseHeader buffer.data = .broken read) (clean : 69 ∉ (f.bytes 69).drop (read - k)) {decoder : DataDecoder σ}
    (accepted : next.Accepted fd memory decoder) : DecodesAt fd buffer memory next rest := by
  have small := buffer.fits
  have size : ((g.bytes 69).take k).length = k := by
    rw [List.length_take,g.bytes_length]
    omega
  have limit := parseHeader_broken parsed
  rw [held] at parsed small
  have more := parseHeader_cut formed positive cut parsed
  have total := small
  simp only [List.length_append,size,f.bytes_length,next.bytes_length] at total
  unfold kBufferSize at total
  -- the first call consumes the cut frame and the first bytes of the one behind it
  have first : fd.decode buffer.data memory = .ok ⟨.protocolError,(f.bytes 69).drop (read - k) ++ next.bytes 69 ++ rest,memory,none⟩ := by
    rw [decode_eq,held]
    unfold frameStep
    rw [cut_starts g positive]
    dsimp only
    rw [if_neg (by rw [uint32_small]; all_goals simp only [List.length_append,size,f.bytes_length,next.bytes_length]; omega),parsed]
    dsimp only
    rw [List.drop_append,size,List.drop_of_length_le (by omega),List.nil_append,
      List.drop_append_of_le_length (by rw [f.bytes_length]; omega),List.append_assoc]
  have counted : Counted (next.bytes 69 ++ rest) (next.data.length + 11) := by
    unfold Counted
    rw [uint32_small,uint32_small]
    all_goals simp only [List.length_append,next.bytes_length]; omega
  have second := frameStep_accepted clean accepted counted
  obtain ⟨fuel,enough⟩ : ∃ fuel, buffer.size = fuel + 1 := by
    refine Nat.exists_eq_succ_of_ne_zero ?_
    rw [CircularBuffer.size,held]
    simp [f.bytes_length]
  refine ⟨(f.bytes 69).drop (read - k),
    ⟨.success,rest,(decoder.decode next.data memory).2,some (next.name,next.data)⟩,?_,clean,?_,?_⟩
  · rw [enough,turns_ok first,if_neg (by simp),turns_ok (decode_eq fd _ memory),second]
    exact List.mem_cons_of_mem _ List.mem_cons_self
  · rfl
  · rfl

-- The frame right behind a cut one is lost whatever follows: the first call waits, or consumes the
-- cut frame and more, through the rejected field or as much as the header announces. The next
-- frame is not lost when the header that the two make up is rejected.
theorem cut_frame_resync (fd : FrameDecoder σ) {g f : Frame} (formed : g.WellFormed 69) {k : Nat} (positive : 0 < k)
    (cut : k < 12) {buffer : PacketBuffer} {rest : List UInt8}
    (held : buffer.data = (g.bytes 69).take k ++ (f.bytes 69 ++ rest)) (memory : σ) :
    ¬ DecodesAt fd buffer memory f rest ∧
      (∃ decoded, fd.decode buffer.data memory = .ok decoded ∧ decoded.encoded = buffer.data.drop (moved uint32 buffer.data) ∧
        (decoded.code = .resultOutOfRange ∨ k < moved uint32 buffer.data ∧
          decoded.encoded.length < (f.bytes 69 ++ rest).length)) ∧
      (∀ read, 12 ≤ buffer.data.length → parseHeader buffer.data = .broken read → moved uint32 buffer.data = read) ∧
      (∀ name packetSize, 12 + packetSize ≤ buffer.data.length → parseHeader buffer.data = .complete name packetSize →
        moved uint32 buffer.data = 12 + packetSize) ∧
      ∀ read (next : Frame) decoder rest', parseHeader buffer.data = .broken read → 69 ∉ (f.bytes 69).drop (read - k) →
        rest = next.bytes 69 ++ rest' → next.Accepted fd memory decoder → DecodesAt fd buffer memory next rest' := by
  have start : buffer.data.dropWhile (· ≠ 69) = buffer.data := by
    rw [held]
    exact cut_starts g positive _
  have small : buffer.data.length < 2^32 := Nat.lt_of_le_of_lt buffer.fits (by decide)
  refine ⟨cut_passes fd formed positive cut held memory,?_,fun read enough parsed => ?_,fun name packetSize enough parsed => ?_,
    fun read next decoder rest' parsed clean behind accepted => ?_⟩
  · obtain ⟨decoded,answered,consumed⟩ := cut_consumed fd formed positive cut (f.bytes 69 ++ rest) memory
    obtain ⟨same,again,less⟩ := cut_left fd formed positive cut (frame_nonempty f rest) memory
    cases Except.ok.inj (answered.symm.trans again)
    cases Except.ok.inj (answered.symm.trans (decode_eq fd _ memory))
    rw [held]
    refine ⟨_,answered,(frameStep_moved uint32 (fun n => Nat.mod_le n _) fd _ memory).1,?_⟩
    rcases consumed with waits | more
    · exact .inl waits
    · exact less.imp_right fun shorter => ⟨more,shorter⟩
  · exact moved_broken start (by rwa [uint32_small small]) parsed
  · exact moved_complete start (by rw [uint32_small small]; omega) parsed (by rw [uint32_small (by omega)]; omega)
  · subst behind
    exact next_decodes cut positive formed held parsed clean accepted

def ackDecoder : FrameDecoder Received := ⟨[Received.rxackDecoder],List.nodup_singleton _⟩

theorem ackFrame_accepted (ackValue : UInt8) (memory : Received) :
    (ackFrame ackValue).Accepted ackDecoder memory Received.rxackDecoder := by
  have sent : (ackFrame ackValue).Sent ackDecoder Received.rxackDecoder :=
    ⟨(Message.reply 0 ackValue).formed,List.mem_singleton_self _,rfl,congrArg (· + 11) (ackData_length ackValue)⟩
  refine sent.accepted ?_
  have data : (ackFrame ackValue).data = ackData ackValue := rfl
  rw [data,Received.rxackDecoder,decode_within Received.rxackPart_lawful,decode_ackData]

theorem cut_letter_resync : ∃ buffer : PacketBuffer,
    buffer.data = ((ackFrame 0).bytes 69).take 1 ++ ((ackFrame 0).bytes 69 ++ ((ackFrame 7).bytes 69 ++ [])) ∧
      DecodesAt ackDecoder buffer Received.initial (ackFrame 7) [] := by
  have small : (((ackFrame 0).bytes 69).take 1 ++ ((ackFrame 0).bytes 69 ++ ((ackFrame 7).bytes 69 ++ []))).length ≤ kBufferSize := by
    decide +kernel
  refine ⟨⟨_,small⟩,rfl,?_⟩
  have resync := cut_frame_resync ackDecoder (Message.reply 0 0).formed (by decide : 0 < 1) (by decide : 1 < 12)
    (show (CircularBuffer.mk _ small : PacketBuffer).data = _ from rfl) Received.initial
  have broken : parseHeader (((ackFrame 0).bytes 69).take 1 ++ ((ackFrame 0).bytes 69 ++ ((ackFrame 7).bytes 69 ++ []))) =
      .broken 2 := by
    decide +kernel
  exact resync.2.2.2.2 2 (ackFrame 7) Received.rxackDecoder [] broken (by decide +kernel) rfl (ackFrame_accepted 7 _)

theorem cut_letter_loses : (ackFrame 0).Accepted ackDecoder Received.initial Received.rxackDecoder ∧
    (decodeLoop ackDecoder 29 (((ackFrame 0).bytes 69).take 1 ++ (ackFrame 0).bytes 69) Received.initial .success).map
      Decoding.reports = .ok [⟨.protocolError,none⟩] := by
  refine ⟨ackFrame_accepted 0 _,?_⟩
  decide +kernel

end HsrbDrivers.PowerEcu

import HsrbDrivers.PowerEcu.FrameGrammar
import HsrbDrivers.PowerEcu.DataDecoder

namespace HsrbDrivers.PowerEcu
open CText FrameDecoder

structure Frame.Sent (fd : FrameDecoder σ) (f : Frame) (decoder : DataDecoder σ) : Prop where
  wellFormed : f.WellFormed 69
  registered : decoder ∈ fd.decoders
  name : decoder.packetName = f.name
  size : f.data.length + 11 = decoder.packetSize

theorem Frame.WellFormed.strtol_sum {lead : UInt8} {f : Frame} (formed : f.WellFormed lead) :
    BitVec.ofInt 32 (strtol 16 f.sum) = calculateCrc32 (f.covered lead) := by
  rw [formed.sum]
  generalize calculateCrc32 (f.covered lead) = crc
  have bound : crc.toNat < 16^8 := crc.isLt
  rw [strtol_numeral (by omega) (by omega) bound (Nat.lt_trans bound (by decide))]
  rw [BitVec.ofInt_natCast,BitVec.ofNat_toNat,BitVec.setWidth_eq]

theorem Frame.WellFormed.atoi_digits {lead : UInt8} {f : Frame} (formed : f.WellFormed lead) :
    atoi f.digits = ((f.data.length+11 : Nat) : Int) := by
  have size := formed.size
  rw [formed.digits,atoi_numeral (by omega) (by omega)]

theorem Frame.Sent.addressed {fd : FrameDecoder σ} {f : Frame} {decoder : DataDecoder σ} (sent : f.Sent fd decoder) :
    f.Addressed fd decoder :=
  ⟨sent.registered,sent.name,by rw [sent.wellFormed.atoi_digits,sent.size],sent.size,sent.wellFormed.strtol_sum⟩

theorem Frame.Sent.accepted {fd : FrameDecoder σ} {f : Frame} {decoder : DataDecoder σ} (sent : f.Sent fd decoder)
    {memory : σ} (accepts : (decoder.decode f.data memory).1 = .success) : f.Accepted fd memory decoder :=
  ⟨sent.addressed,accepts⟩

def SuccessUpTo (fd : FrameDecoder σ) (buffer rest : List UInt8) (memory : σ) : Prop :=
  ∃ decoded, fd.decode buffer memory = .ok decoded ∧ decoded.code = .success ∧ decoded.encoded = rest

-- From the first start character on the buffer is a frame as sent, with data its
-- decoder takes, and then `rest`.
def SentUpTo (fd : FrameDecoder σ) (buffer rest : List UInt8) (memory : σ) : Prop :=
  ∃ noise,∃ f : Frame,∃ decoder, buffer = noise ++ f.bytes 69 ++ rest ∧ 69 ∉ noise ∧ f.Sent fd decoder ∧
    (decoder.decode f.data memory).1 = .success

theorem decode_success_iff (fd : FrameDecoder σ) (buffer rest : List UInt8) (memory : σ) :
    SuccessUpTo fd buffer rest memory ↔
      ∃ noise,∃ f : Frame,∃ decoder, buffer = noise ++ f.bytes 69 ++ rest ∧ 69 ∉ noise ∧ f.Accepted fd memory decoder ∧
        Counted (f.bytes 69 ++ rest) (f.data.length+11) := by
  constructor
  · rintro ⟨decoded,step,success,rfl⟩
    rw [decode_eq] at step
    cases Except.ok.inj step
    exact frameStep_success success
  · rintro ⟨noise,f,decoder,rfl,clean,accepted,counted⟩
    exact ⟨_,decode_eq fd _ memory,by rw [frameStep_accepted clean accepted counted],
      by rw [frameStep_accepted clean accepted counted]⟩

def SentBytes (current : List UInt8) : Prop :=
  let size := sizeOfField ((current.drop 8).take 3)
  (current.drop 8).take 3 = numeral 10 3 size ∧ (current.drop (size+1)).take 1 = [104] ∧
    (current.drop (size+2)).take 8 = numeral 16 8 (calculateCrc32 (current.take (size+1))).toNat ∧
    (current.drop (size+10)).take 2 = [44,10]

instance (current : List UInt8) : Decidable (SentBytes current) := inferInstanceAs (Decidable (_ ∧ _))

theorem Frame.WellFormed.sizeOfField_digits {lead : UInt8} {f : Frame} (formed : f.WellFormed lead) :
    sizeOfField f.digits = f.data.length + 11 := by
  have number := formed.atoi_digits
  rcases sizeOfField_cases f.digits_length with ⟨_,same,_⟩ | ⟨negative,_⟩ <;> omega

theorem Frame.WellFormed.sentBytes {f : Frame} (formed : f.WellFormed 69) (rest : List UInt8) :
    SentBytes (f.bytes 69 ++ rest) := by
  have digits := (f.header_fields 69 rest).2.2.2.1
  obtain ⟨covered,behind,sum,tail,_,_⟩ := f.footer_fields 69 rest
  simp only [SentBytes,digits,formed.sizeOfField_digits]
  refine ⟨formed.digits,?_,?_,?_⟩
  · rw [behind,formed.mark]
    rfl
  · rw [covered,sum,formed.sum]
  · rw [tail,formed.tail]

theorem SentUpTo.sentBytes {fd : FrameDecoder σ} {current rest : List UInt8} {memory : σ}
    (sent : SentUpTo fd (69 :: current) rest memory) : SentBytes (69 :: current) := by
  obtain ⟨noise,f,decoder,split,clean,sent,_⟩ := sent
  cases noise with
  | nil =>
      rw [split]
      exact sent.wellFormed.sentBytes rest
  | cons b noise =>
      rw [List.cons_append,List.cons_append] at split
      cases (List.cons_eq_cons.mp split).1
      exact absurd List.mem_cons_self clean

def Rxack.receiver : FrameDecoder Rxack := ⟨[Rxack.decoder],List.nodup_singleton _⟩

def Rxack.frame : Frame :=
  ⟨ascii "rxack",ascii "015",ascii "h00,",104,ascii "83693205",[44,10],rfl,rfl,rfl,rfl⟩

theorem Rxack.frame_sent : Rxack.frame.Sent Rxack.receiver Rxack.decoder where
  wellFormed := ⟨by decide,by decide,rfl,by decide +kernel,rfl⟩
  registered := List.mem_singleton_self _
  name := rfl
  size := rfl

theorem successUpTo_of_frameStep {fd : FrameDecoder σ} {buffer rest : List UInt8} {memory : σ}
    (success : (frameStep uint32 fd buffer memory).code = .success)
    (encoded : (frameStep uint32 fd buffer memory).encoded = rest) : SuccessUpTo fd buffer rest memory :=
  ⟨_,decode_eq fd buffer memory,success,encoded⟩

-- The receiver is more lenient than the sender's grammar in each of four places (a
-- sign in the size, the letter before the checksum, lower-case digits, the end), and
-- past 32 bits of bytes at hand it does not see what is there.
theorem decode_success_not_sent :
    (SuccessUpTo Rxack.receiver (ascii "E,rxack,+15,h00,h9A459398,\n") [] Rxack.initial ∧
      ¬ SentUpTo Rxack.receiver (ascii "E,rxack,+15,h00,h9A459398,\n") [] Rxack.initial) ∧
    (SuccessUpTo Rxack.receiver (ascii "E,rxack,015,h00,X83693205,\n") [] Rxack.initial ∧
      ¬ SentUpTo Rxack.receiver (ascii "E,rxack,015,h00,X83693205,\n") [] Rxack.initial) ∧
    (SuccessUpTo Rxack.receiver (ascii "E,rxack,015,h01,h82b19e82,\n") [] Rxack.initial ∧
      ¬ SentUpTo Rxack.receiver (ascii "E,rxack,015,h01,h82b19e82,\n") [] Rxack.initial) ∧
    (SuccessUpTo Rxack.receiver (ascii "E,rxack,015,h00,h83693205??") [] Rxack.initial ∧
      ¬ SentUpTo Rxack.receiver (ascii "E,rxack,015,h00,h83693205??") [] Rxack.initial) ∧
    ∃ rest, ¬ SuccessUpTo Rxack.receiver (Rxack.frame.bytes 69 ++ rest) rest Rxack.initial ∧
      SentUpTo Rxack.receiver (Rxack.frame.bytes 69 ++ rest) rest Rxack.initial := by
  have unsent : ∀ current : List UInt8, ¬ SentBytes (69 :: current) →
      ¬ SentUpTo Rxack.receiver (69 :: current) [] Rxack.initial := fun _ not sent => not sent.sentBytes
  refine ⟨⟨successUpTo_of_frameStep (by decide +kernel) (by decide +kernel),unsent _ (by decide +kernel)⟩,
    ⟨successUpTo_of_frameStep (by decide +kernel) (by decide +kernel),unsent _ (by decide +kernel)⟩,
    ⟨successUpTo_of_frameStep (by decide +kernel) (by decide +kernel),unsent _ (by decide +kernel)⟩,
    ⟨successUpTo_of_frameStep (by decide +kernel) (by decide +kernel),unsent _ (by decide +kernel)⟩,?_⟩
  refine ⟨List.replicate (2^32-27) 0,?_,[],Rxack.frame,Rxack.decoder,rfl,List.not_mem_nil,Rxack.frame_sent,by decide⟩
  rintro ⟨decoded,step,success,_⟩
  have wrapped : uint32 (Rxack.frame.bytes 69 ++ List.replicate (2^32-27) 0).length = 0 := by
    rw [List.length_append,List.length_replicate,Frame.bytes_length]
    rfl
  have kept : ∀ more, (Rxack.frame.bytes 69 ++ more).dropWhile (· ≠ 69) = Rxack.frame.bytes 69 ++ more := fun _ => rfl
  rw [decode_eq] at step
  cases Except.ok.inj step
  simp only [frameStep,kept,wrapped] at success
  cases success

theorem window_unchanged {before after : List UInt8} {x y : UInt8} {first count : Nat}
    (outside : before.length < first ∨ first + count ≤ before.length) :
    ((before ++ x :: after).drop first).take count = ((before ++ y :: after).drop first).take count := by
  rcases outside with early | late
  · obtain ⟨k,rfl⟩ : ∃ k, first = before.length + 1 + k := ⟨first-before.length-1,by omega⟩
    have shifted : ∀ z : UInt8, (before ++ z :: after).drop (before.length+1+k) = after.drop k := by
      intro z
      rw [← List.drop_drop,← List.drop_drop,List.drop_left' rfl,List.drop_one,List.tail_cons]
    rw [shifted x,shifted y]
  · have kept : ∀ z : UInt8, ((before ++ z :: after).drop first).take count = (before.drop first).take count := by
      intro z
      rw [List.drop_append_of_le_length (by omega),List.take_append_of_le_length (by rw [List.length_drop]; omega)]
    rw [kept x,kept y]

theorem take_replaced {before after : List UInt8} {count : Nat} (inside : before.length < count) (z : UInt8) :
    (before ++ z :: after).take count = before ++ z :: after.take (count-before.length-1) := by
  obtain ⟨k,rfl⟩ : ∃ k, count = before.length + (k+1) := ⟨count-before.length-1,by omega⟩
  rw [List.take_length_add_append,List.take_succ_cons]
  congr 3
  omega

theorem no_noise {current noise frame : List UInt8} (split : 69 :: current = noise ++ frame) (clean : 69 ∉ noise) :
    noise = [] := by
  cases noise with
  | nil => rfl
  | cons b noise =>
      cases (List.cons_eq_cons.mp split).1
      exact absurd List.mem_cons_self clean

-- One byte replaced between the start character and the checksum: either the name
-- or the size field survives, so a decoder that takes the frame takes one of the
-- same size, and the checksum tells the two apart.
theorem corrupted_not_success {fd : FrameDecoder σ} {f : Frame} {decoder : DataDecoder σ} (sent : f.Sent fd decoder)
    {before after : List UInt8} {x y : UInt8} (bytes : f.bytes 69 = before ++ x :: after) (differ : x ≠ y)
    (behind : 1 ≤ before.length) (inside : before.length < f.data.length + 12) (rest : List UInt8) (memory : σ) :
    (frameStep uint32 fd (before ++ y :: after ++ rest) memory).code ≠ .success := by
  intro success
  obtain ⟨noise,g,other,split,clean,accepted,_⟩ := frameStep_success success
  generalize (frameStep uint32 fd (before ++ y :: after ++ rest) memory).encoded = left at split
  have start : noise = [] := by
    cases before with
    | nil => simp at behind
    | cons b tail =>
        rw [Frame.bytes,Frame.covered,List.cons_append,List.cons_append] at bytes
        cases (List.cons_eq_cons.mp bytes).1
        rw [List.append_assoc noise] at split
        exact no_noise split clean
  subst start
  have whole : f.bytes 69 ++ rest = before ++ x :: (after ++ rest) := by rw [bytes,List.append_assoc,List.cons_append]
  have found : g.bytes 69 ++ left = before ++ y :: (after ++ rest) := by
    rw [List.append_assoc,List.cons_append,List.nil_append] at split
    exact split.symm
  obtain ⟨_,fName,_,fDigits,_,_⟩ := f.header_fields 69 rest
  obtain ⟨_,gName,_,gDigits,_,_⟩ := g.header_fields 69 left
  rw [whole] at fName fDigits
  rw [found] at gName gDigits
  have same : g.data.length = f.data.length := by
    have fSize := sent.wellFormed.sizeOfField_digits
    have gSize := addressed_sizeOfField accepted.toAddressed
    by_cases field : 8 ≤ before.length ∧ before.length < 11
    · have name : g.name = f.name := by
        rw [← fName,← gName]
        exact window_unchanged (.inr (by omega))
      have one := find_eq_some.mpr ⟨accepted.registered,accepted.name.trans name⟩
      have two := find_eq_some.mpr ⟨sent.registered,sent.name⟩
      cases Option.some.inj (one.symm.trans two)
      have := accepted.size
      have := sent.size
      omega
    · have digits : g.digits = f.digits := by
        rw [← fDigits,← gDigits]
        exact window_unchanged (by omega)
      rw [digits] at gSize
      omega
  obtain ⟨fCovered,_,fSum,_⟩ := f.footer_fields 69 rest
  obtain ⟨gCovered,_,gSum,_⟩ := g.footer_fields 69 left
  rw [whole] at fCovered fSum
  rw [found,same] at gCovered gSum
  have sum : g.sum = f.sum := by
    rw [← fSum,← gSum]
    exact window_unchanged (.inl (by omega))
  have length := f.covered_length 69
  have size := sent.wellFormed.size
  have crc : calculateCrc32 (f.covered 69) = calculateCrc32 (g.covered 69) := by
    rw [← sent.wellFormed.strtol_sum,← accepted.sum,sum]
  rw [← fCovered] at length
  rw [← fCovered,← gCovered,take_replaced inside,take_replaced inside] at crc
  rw [take_replaced inside] at length
  exact calculateCrc32_differ (by omega) differ crc

theorem corruption_detected (fd : FrameDecoder σ) :
    (∀ (f : Frame) (decoder : DataDecoder σ) (before after rest : List UInt8) (x y : UInt8) (memory : σ), f.Sent fd decoder →
      f.bytes 69 = before ++ x :: after → x ≠ y → 1 ≤ before.length → before.length < f.data.length + 12 →
      ∀ encoded, ¬ SuccessUpTo fd (before ++ y :: after ++ rest) encoded memory) ∧
    ∀ (before after : List UInt8) (x y : UInt8), (before ++ x :: after).length < 2^31 → x ≠ y →
      calculateCrc32 (before ++ x :: after) ≠ calculateCrc32 (before ++ y :: after) := by
  refine ⟨?_,fun before after x y small differ => calculateCrc32_differ small differ⟩
  rintro f decoder before after rest x y memory sent bytes differ behind inside encoded ⟨decoded,step,success,_⟩
  rw [decode_eq] at step
  cases Except.ok.inj step
  exact corrupted_not_success sent bytes differ behind inside rest memory success

theorem corruption_detected_rxack :
    (∀ encoded, ¬ SuccessUpTo Rxack.receiver (ascii "E,rxack,115,h00,h83693205,\n") encoded Rxack.initial) ∧
      calculateCrc32 [1] ≠ calculateCrc32 [2] :=
  ⟨(corruption_detected Rxack.receiver).1 Rxack.frame Rxack.decoder (ascii "E,rxack,") (ascii "15,h00,h83693205,\n") []
      48 49 Rxack.initial Rxack.frame_sent (by decide) (by decide) (by decide) (by decide),
    (corruption_detected Rxack.receiver).2 [] [] 1 2 (by decide) (by decide)⟩

theorem calculateCrc32_collides :
    ¬ ∀ (before after : List UInt8) (x y : UInt8), x ≠ y →
      calculateCrc32 (before ++ x :: after) ≠ calculateCrc32 (before ++ y :: after) := by
  intro different
  have wrapped : ∀ x : UInt8, int32 (([] : List UInt8) ++ x :: List.replicate (2^31-1) 0).length ≤ 0 := by
    intro x
    rw [List.nil_append,List.length_cons,List.length_replicate]
    decide
  refine different [] (List.replicate (2^31-1) 0) 0 1 (by decide) ?_
  rw [calculateCrc32_negative (wrapped 0) (List.cons_ne_nil _ _),calculateCrc32_negative (wrapped 1) (List.cons_ne_nil _ _)]

end HsrbDrivers.PowerEcu

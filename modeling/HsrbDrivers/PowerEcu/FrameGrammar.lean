import HsrbDrivers.PowerEcu.Framing

namespace HsrbDrivers.PowerEcu
open CText FrameDecoder

structure Frame where
  name : List UInt8
  digits : List UInt8
  data : List UInt8
  mark : UInt8
  sum : List UInt8
  tail : List UInt8
  name_length : name.length = 5
  digits_length : digits.length = 3
  sum_length : sum.length = 8
  tail_length : tail.length = 2

namespace Frame

def covered (lead : UInt8) (f : Frame) : List UInt8 :=
  lead :: 44 :: (f.name ++ 44 :: (f.digits ++ 44 :: f.data))

def bytes (lead : UInt8) (f : Frame) : List UInt8 := f.covered lead ++ f.mark :: (f.sum ++ f.tail)

-- The grammar a sender keeps to: the size in decimal, the checksum in upper-case
-- hexadecimal behind its letter, and the line end.
structure WellFormed (lead : UInt8) (f : Frame) : Prop where
  size : f.data.length + 11 ≤ 999
  digits : f.digits = numeral 10 3 (f.data.length+11)
  mark : f.mark = 104
  sum : f.sum = numeral 16 8 (calculateCrc32 (f.covered lead)).toNat
  tail : f.tail = [44,10]

-- The grammar the receiver applies: two numbers as the C library reads them, and
-- nothing asked of the letter before the checksum nor of the two last bytes.
structure Addressed (fd : FrameDecoder σ) (f : Frame) (decoder : DataDecoder σ) : Prop where
  registered : decoder ∈ fd.decoders
  name : decoder.packetName = f.name
  digits : atoi f.digits = decoder.packetSize
  size : f.data.length + 11 = decoder.packetSize
  sum : BitVec.ofInt 32 (strtol 16 f.sum) = calculateCrc32 (f.covered 69)

structure Accepted (fd : FrameDecoder σ) (memory : σ) (f : Frame) (decoder : DataDecoder σ) : Prop
    extends f.Addressed fd decoder where
  accepts : (decoder.decode f.data memory).1 = .success

theorem covered_length (lead : UInt8) (f : Frame) : (f.covered lead).length = f.data.length + 12 := by
  simp only [covered,List.length_cons,List.length_append,f.name_length,f.digits_length]
  omega

theorem bytes_length (lead : UInt8) (f : Frame) : (f.bytes lead).length = f.data.length + 23 := by
  simp only [bytes,List.length_append,List.length_cons,covered_length,f.sum_length,f.tail_length]

theorem header_fields (lead : UInt8) (f : Frame) (rest : List UInt8) :
    (f.bytes lead ++ rest).take 2 = [lead,44] ∧ ((f.bytes lead ++ rest).drop 2).take 5 = f.name ∧
    ((f.bytes lead ++ rest).drop 7).take 1 = [44] ∧ ((f.bytes lead ++ rest).drop 8).take 3 = f.digits ∧
    ((f.bytes lead ++ rest).drop 11).take 1 = [44] ∧
    (f.bytes lead ++ rest).drop 12 = f.data ++ f.mark :: (f.sum ++ f.tail) ++ rest := by
  obtain ⟨a,b,c,d,e,name⟩ : ∃ a b c d e, f.name = [a,b,c,d,e] := by
    match held : f.name,f.name_length with
    | [a,b,c,d,e],_ => exact ⟨a,b,c,d,e,rfl⟩
  obtain ⟨x,y,z,digits⟩ := List.length_eq_three.mp f.digits_length
  simp [bytes,covered,name,digits]

theorem footer_fields (lead : UInt8) (f : Frame) (rest : List UInt8) :
    (f.bytes lead ++ rest).take (f.data.length+12) = f.covered lead ∧
    (f.bytes lead ++ rest).drop (f.data.length+12) = f.mark :: (f.sum ++ f.tail ++ rest) ∧
    ((f.bytes lead ++ rest).drop (f.data.length+13)).take 8 = f.sum ∧
    ((f.bytes lead ++ rest).drop (f.data.length+21)).take 2 = f.tail ∧
    (f.bytes lead ++ rest).drop (f.data.length+23) = rest ∧
    ((f.bytes lead ++ rest).drop 12).take f.data.length = f.data := by
  have length := f.covered_length lead
  have split : f.bytes lead ++ rest = f.covered lead ++ f.mark :: (f.sum ++ f.tail ++ rest) := by simp [bytes]
  have behind : (f.bytes lead ++ rest).drop (f.data.length+12) = f.mark :: (f.sum ++ f.tail ++ rest) := by
    rw [split,List.drop_left' length]
  have further : ∀ k, (f.bytes lead ++ rest).drop (f.data.length+12+k) = (f.mark :: (f.sum ++ f.tail ++ rest)).drop k := by
    intro k
    rw [← List.drop_drop,behind]
  refine ⟨?_,behind,?_,?_,?_,?_⟩
  · rw [split,List.take_left' length]
  · rw [show f.data.length + 13 = f.data.length + 12 + 1 from rfl,further,List.drop_one,List.tail_cons,
      List.append_assoc,List.take_left' f.sum_length]
  · rw [show f.data.length + 21 = f.data.length + 12 + 9 from rfl,further,List.drop_succ_cons,
      List.append_assoc,List.drop_left' f.sum_length,List.take_left' f.tail_length]
  · rw [show f.data.length + 23 = f.data.length + 12 + 11 from rfl,further,List.drop_succ_cons]
    exact List.drop_left' (by rw [List.length_append,f.sum_length,f.tail_length])
  · rw [(f.header_fields lead rest).2.2.2.2.2,List.append_assoc]
    exact List.take_left' rfl

theorem exists_of_header {current name : List UInt8} {packetSize : Nat}
    (parsed : parseHeader current = .complete name packetSize) (received : packetSize + 12 ≤ current.length) :
    ∃ f : Frame, current = f.bytes 69 ++ current.drop (12+packetSize) ∧ f.data.length + 11 = packetSize ∧
      f.name = name ∧ sizeOfField f.digits = packetSize := by
  obtain ⟨lead,comma,least,last,rfl,size⟩ := parseHeader_size parsed
  have cut : ∀ a k, (current.drop a).take k ++ current.drop (a+k) = current.drop a := by
    intro a k
    rw [← List.drop_drop,List.take_append_drop]
  obtain ⟨mark,marked⟩ : ∃ mark, (current.drop (packetSize+1)).take 1 = [mark] := by
    apply List.length_eq_one_iff.mp
    rw [List.length_take,List.length_drop]
    omega
  have data : 12 + (packetSize - 11) = packetSize + 1 := by omega
  have rest : packetSize + 10 + 2 = 12 + packetSize := by omega
  refine ⟨⟨(current.drop 2).take 5,(current.drop 8).take 3,dataOf packetSize current,mark,
    (current.drop (packetSize+2)).take 8,(current.drop (packetSize+10)).take 2,?_,?_,?_,?_⟩,?_,?_,rfl,size.symm⟩
  · rw [List.length_take,List.length_drop]; omega
  · rw [List.length_take,List.length_drop]; omega
  · rw [List.length_take,List.length_drop]; omega
  · rw [List.length_take,List.length_drop]; omega
  · have whole : current.take 2 ++ current.drop 2 = current := List.take_append_drop 2 current
    rw [lead,← cut 2 5,← cut 7 1,comma,← cut 8 3,← cut 11 1,last,← cut 12 (packetSize-11),data,← cut (packetSize+1) 1,
      marked,← cut (packetSize+2) 8,← cut (packetSize+10) 2,rest] at whole
    simpa [bytes,covered,dataOf] using whole.symm
  · simp only [dataOf,List.length_take,List.length_drop]; omega

end Frame

theorem parseHeader_bytes (f : Frame) (rest : List UInt8) (least : 11 ≤ sizeOfField f.digits) :
    parseHeader (f.bytes 69 ++ rest) = .complete f.name (sizeOfField f.digits) := by
  obtain ⟨lead,name,comma,digits,last,_⟩ := f.header_fields 69 rest
  simp only [parseHeader,lead,name,comma,digits,last,ne_eq,not_true_eq_false,if_false,if_neg (Nat.not_lt.mpr least)]

theorem sizeOfField_cases {digits : List UInt8} (three : digits.length = 3) :
    (0 ≤ atoi digits ∧ (sizeOfField digits : Int) = atoi digits ∧ sizeOfField digits ≤ 999) ∨
      (atoi digits < 0 ∧ 2^63 ≤ sizeOfField digits) := by
  have bound := strtol_natAbs_lt 10 digits (by omega)
  rw [← atoi_eq_strtol (by omega),three] at bound
  unfold sizeOfField
  omega

namespace FrameDecoder

theorem find_eq_some {fd : FrameDecoder σ} {name : List UInt8} {decoder : DataDecoder σ} :
    fd.find name = some decoder ↔ decoder ∈ fd.decoders ∧ decoder.packetName = name := by
  constructor
  · intro found
    unfold find at found
    exact ⟨List.mem_of_find?_eq_some found,by simpa using List.find?_some found⟩
  · rintro ⟨registered,rfl⟩
    have some : (fd.find decoder.packetName).isSome := List.find?_isSome.mpr ⟨decoder,registered,by simp⟩
    obtain ⟨other,found⟩ := Option.isSome_iff_exists.mp some
    have same : other.packetName = decoder.packetName := by
      unfold find at found
      simpa using List.find?_some found
    rw [found,List.inj_on_of_nodup_map fd.distinct (List.mem_of_find?_eq_some found) registered same]

theorem checkFrame_bytes (fd : FrameDecoder σ) (f : Frame) (rest : List UInt8) (memory : σ) :
    checkFrame fd f.name (f.data.length+11) (f.bytes 69 ++ rest) memory =
      if ¬ calculateCrc32 (f.covered 69) = BitVec.ofInt 32 (strtol 16 f.sum) then ⟨.protocolError,rest,memory,none⟩ else
      match fd.find f.name with
      | none => ⟨.protocolError,rest,memory,none⟩
      | some decoder =>
        if decoder.packetSize ≠ f.data.length+11 then ⟨.protocolError,rest,memory,none⟩ else
        ⟨(decoder.decode f.data memory).1,rest,(decoder.decode f.data memory).2,some (f.name,f.data)⟩ := by
  obtain ⟨covered,_,sum,_,behind,data⟩ := f.footer_fields 69 rest
  have following : (f.bytes 69 ++ rest).drop (12 + (f.data.length+11)) = rest := by
    rw [show 12 + (f.data.length+11) = f.data.length + 23 by omega,behind]
  have matching : checkSumHolds (f.data.length+11) (f.bytes 69 ++ rest) ↔
      calculateCrc32 (f.covered 69) = BitVec.ofInt 32 (strtol 16 f.sum) := by rw [checkSumHolds,covered,sum]
  cases found : fd.find f.name with
  | none => simp only [checkFrame,matching,following,found]
  | some decoder => simp only [checkFrame,matching,dataOf,following,found,Nat.add_sub_cancel,data]

-- The bytes at hand from the frame on, counted in 32 bits, are a header and a body.
def Counted (current : List UInt8) (packetSize : Nat) : Prop :=
  12 ≤ uint32 current.length ∧ packetSize ≤ uint32 (current.length-12)

theorem frameStep_bytes (fd : FrameDecoder σ) {noise : List UInt8} (f : Frame) (rest : List UInt8) (memory : σ)
    (clean : 69 ∉ noise) (size : sizeOfField f.digits = f.data.length + 11)
    (counted : Counted (f.bytes 69 ++ rest) (f.data.length+11)) :
    frameStep uint32 fd (noise ++ f.bytes 69 ++ rest) memory =
      checkFrame fd f.name (f.data.length+11) (f.bytes 69 ++ rest) memory := by
  have skipped : (noise ++ f.bytes 69 ++ rest).dropWhile (· ≠ 69) = f.bytes 69 ++ rest := by
    rw [List.append_assoc,List.dropWhile_append_of_pos]
    · rfl
    · intro b member
      exact decide_eq_true (fun same => clean (same ▸ member))
  have header := parseHeader_bytes f rest (by omega)
  obtain ⟨enough,received⟩ := counted
  simp only [frameStep,skipped,header,size]
  rw [if_neg (by omega),if_neg (by omega)]

theorem checkFrame_dispatch (fd : FrameDecoder σ) {f : Frame} (rest : List UInt8) (memory : σ)
    (size : sizeOfField f.digits = f.data.length + 11) (small : f.data.length < 2^32) :
    (∃ decoder, f.Addressed fd decoder) ∨
      checkFrame fd f.name (f.data.length+11) (f.bytes 69 ++ rest) memory = ⟨.protocolError,rest,memory,none⟩ := by
  have number : atoi f.digits = ((f.data.length+11 : Nat) : Int) := by
    rcases sizeOfField_cases f.digits_length with ⟨_,same,_⟩ | ⟨_,huge⟩
    · rw [← same,size]
    · omega
  rw [checkFrame_bytes]
  split
  · exact .inr rfl
  rename_i sum
  split
  · exact .inr rfl
  rename_i decoder found
  split
  · exact .inr rfl
  rename_i same
  obtain ⟨registered,name⟩ := find_eq_some.mp found
  exact .inl ⟨decoder,registered,name,by rw [number,not_not.mp same],(not_not.mp same).symm,(not_not.mp sum).symm⟩

theorem checkFrame_addressed {fd : FrameDecoder σ} {f : Frame} {decoder : DataDecoder σ} (addressed : f.Addressed fd decoder)
    (rest : List UInt8) (memory : σ) :
    checkFrame fd f.name (f.data.length+11) (f.bytes 69 ++ rest) memory =
      ⟨(decoder.decode f.data memory).1,rest,(decoder.decode f.data memory).2,some (f.name,f.data)⟩ := by
  have found := find_eq_some.mpr ⟨addressed.registered,addressed.name⟩
  rw [checkFrame_bytes]
  simp only [addressed.sum,found,addressed.size,not_true_eq_false,ne_eq,if_false]

theorem addressed_sizeOfField {fd : FrameDecoder σ} {f : Frame} {decoder : DataDecoder σ}
    (addressed : f.Addressed fd decoder) : sizeOfField f.digits = f.data.length + 11 := by
  have number := addressed.digits
  have size := addressed.size
  rcases sizeOfField_cases f.digits_length with ⟨_,same,_⟩ | ⟨negative,_⟩ <;> omega

def AddressedIn (fd : FrameDecoder σ) (buffer : List UInt8) (f : Frame) (decoder : DataDecoder σ) (rest : List UInt8) : Prop :=
  ∃ noise, buffer = noise ++ f.bytes 69 ++ rest ∧ 69 ∉ noise ∧ f.Addressed fd decoder ∧
    Counted (f.bytes 69 ++ rest) (f.data.length+11)

theorem frameStep_addressed {fd : FrameDecoder σ} {buffer rest : List UInt8} {f : Frame} {decoder : DataDecoder σ}
    (addressed : AddressedIn fd buffer f decoder rest) (memory : σ) :
    frameStep uint32 fd buffer memory =
      ⟨(decoder.decode f.data memory).1,rest,(decoder.decode f.data memory).2,some (f.name,f.data)⟩ := by
  obtain ⟨noise,rfl,clean,address,counted⟩ := addressed
  rw [frameStep_bytes fd f rest memory clean (addressed_sizeOfField address) counted,checkFrame_addressed address]

theorem frameStep_dispatch (fd : FrameDecoder σ) (buffer : List UInt8) (memory : σ) :
    (∃ f decoder rest, AddressedIn fd buffer f decoder rest) ∨
      ((frameStep uint32 fd buffer memory).code ≠ .success ∧ (frameStep uint32 fd buffer memory).memory = memory) := by
  have whole := List.takeWhile_append_dropWhile (p := (· ≠ 69)) (l := buffer)
  have clean : 69 ∉ buffer.takeWhile (· ≠ 69) := fun member => by simpa using List.mem_takeWhile_imp member
  have narrow : ∀ n, uint32 n ≤ n := fun n => Nat.mod_le n _
  unfold frameStep
  generalize buffer.takeWhile (· ≠ 69) = noise at whole clean
  generalize buffer.dropWhile (· ≠ 69) = current at whole
  simp only
  by_cases short : uint32 current.length < 12
  · rw [if_pos short]
    exact .inr ⟨nofun,rfl⟩
  rw [if_neg short]
  cases parsed : parseHeader current with
  | broken read => exact .inr ⟨nofun,rfl⟩
  | complete name packetSize =>
      simp only
      by_cases incomplete : uint32 (current.length-12) < packetSize
      · rw [if_pos incomplete]
        exact .inr ⟨nofun,rfl⟩
      rw [if_neg incomplete]
      have header := narrow current.length
      have body := narrow (current.length-12)
      have bound : uint32 (current.length-12) < 2^32 := Nat.mod_lt _ (by omega)
      obtain ⟨f,split,data,rfl,size⟩ := Frame.exists_of_header parsed (by omega)
      rcases checkFrame_dispatch fd (current.drop (12+packetSize)) memory (by omega : sizeOfField f.digits = f.data.length+11)
        (by omega) with ⟨decoder,address⟩ | rejected
      · refine .inl ⟨f,decoder,current.drop (12+packetSize),noise,by rw [List.append_assoc,← split,whole],clean,address,?_⟩
        rw [← split,data]
        exact ⟨Nat.not_lt.mp short,Nat.not_lt.mp incomplete⟩
      · rw [← split,data] at rejected
        rw [rejected]
        exact .inr ⟨nofun,rfl⟩

theorem frameStep_success {fd : FrameDecoder σ} {buffer : List UInt8} {memory : σ}
    (success : (frameStep uint32 fd buffer memory).code = .success) :
    ∃ noise,∃ f : Frame,∃ decoder, buffer = noise ++ f.bytes 69 ++ (frameStep uint32 fd buffer memory).encoded ∧ 69 ∉ noise ∧
      f.Accepted fd memory decoder ∧
      Counted (f.bytes 69 ++ (frameStep uint32 fd buffer memory).encoded) (f.data.length+11) := by
  rcases frameStep_dispatch fd buffer memory with ⟨f,decoder,rest,addressed⟩ | ⟨failed,_⟩
  · rw [frameStep_addressed addressed] at success ⊢
    obtain ⟨noise,split,clean,address,counted⟩ := addressed
    exact ⟨noise,f,decoder,split,clean,⟨address,success⟩,counted⟩
  · exact absurd success failed

theorem frameStep_accepted {fd : FrameDecoder σ} {noise rest : List UInt8} {memory : σ} {f : Frame} {decoder : DataDecoder σ}
    (clean : 69 ∉ noise) (accepted : f.Accepted fd memory decoder)
    (counted : Counted (f.bytes 69 ++ rest) (f.data.length+11)) :
    frameStep uint32 fd (noise ++ f.bytes 69 ++ rest) memory =
      ⟨.success,rest,(decoder.decode f.data memory).2,some (f.name,f.data)⟩ := by
  rw [frameStep_addressed ⟨noise,rfl,clean,accepted.toAddressed,counted⟩,accepted.accepts]

end FrameDecoder
end HsrbDrivers.PowerEcu

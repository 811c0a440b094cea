import HsrbDrivers.PowerEcu.FrameDecoder
import HsrbDrivers.Library.Reassembly

namespace HsrbDrivers.PowerEcu.FrameDecoder
open CText

inductive Header where
  | broken (read : Nat)
  | complete (name : List UInt8) (packetSize : Nat)
deriving DecidableEq

def parseHeader (current : List UInt8) : Header :=
  if current.take 2 ≠ [69,44] then .broken 2
  else if (current.drop 7).take 1 ≠ [44] then .broken 8
  else if sizeOfField ((current.drop 8).take 3) < 11 then .broken 11
  else if (current.drop 11).take 1 ≠ [44] then .broken 12
  else .complete ((current.drop 2).take 5) (sizeOfField ((current.drop 8).take 3))

def checkSumHolds (packetSize : Nat) (frame : List UInt8) : Prop :=
  calculateCrc32 (frame.take (packetSize+1)) = BitVec.ofInt 32 (strtol 16 ((frame.drop (packetSize+2)).take 8))

instance (packetSize : Nat) (frame : List UInt8) : Decidable (checkSumHolds packetSize frame) :=
  inferInstanceAs (Decidable (_ = _))

def dataOf (packetSize : Nat) (frame : List UInt8) : List UInt8 := (frame.drop 12).take (packetSize-11)

def checkFrame (fd : FrameDecoder σ) (name : List UInt8) (packetSize : Nat) (current : List UInt8) (memory : σ) : Decoded σ :=
  let rest := current.drop (12+packetSize)
  if ¬ checkSumHolds packetSize current then ⟨.protocolError,rest,memory,none⟩ else
  match fd.find name with
  | none => ⟨.protocolError,rest,memory,none⟩
  | some decoder =>
    if decoder.packetSize ≠ packetSize then ⟨.protocolError,rest,memory,none⟩ else
    let (result,memory) := decoder.decode (dataOf packetSize current) memory
    ⟨result,rest,memory,some (name,dataOf packetSize current)⟩

-- One call of `Decode` as a total function. `narrow` is what the count of the
-- bytes at hand goes through before it is compared.
def frameStep (narrow : Nat → Nat) (fd : FrameDecoder σ) (start : List UInt8) (memory : σ) : Decoded σ :=
  let current := start.dropWhile (· ≠ 69)
  if narrow current.length < 12 then ⟨.resultOutOfRange,current,memory,none⟩ else
  match parseHeader current with
  | .broken read => ⟨.protocolError,current.drop read,memory,none⟩
  | .complete name packetSize =>
    if narrow (current.length-12) < packetSize then ⟨.resultOutOfRange,current,memory,none⟩ else
    checkFrame fd name packetSize current memory

theorem skipString_eq (skip it : List UInt8) (enough : skip.length ≤ it.length) :
    skipString skip it = .ok (decide (it.take skip.length = skip),it.drop skip.length) := by
  induction skip generalizing it with
  | nil => simp [skipString]
  | cons c skip ih =>
      cases it with
      | nil => simp at enough
      | cons b it =>
          have rest := ih it (by simpa using enough)
          simp only [skipString,rest,bind,Except.bind,pure,Except.pure]
          simp [Bool.decide_and]

theorem getString_eq (size : Nat) (start : List UInt8) (enough : size ≤ start.length) :
    getString size start = some (start.take size,start.drop size) := if_neg (by omega)

theorem readHeader_eq {current : List UInt8} (enough : 12 ≤ current.length) :
    readHeader current = .ok (match parseHeader current with
      | .broken read => .broken (current.drop read)
      | .complete name packetSize => .complete name packetSize (current.drop 12)) := by
  have leading := skipString_eq [69,44] current (by simp; omega)
  have name := getString_eq 5 (current.drop 2) (by simp; omega)
  have comma := skipString_eq [44] (current.drop 7) (by simp; omega)
  have digits := getString_eq 3 (current.drop 8) (by simp; omega)
  have last := skipString_eq [44] (current.drop 11) (by simp; omega)
  simp only [List.length_cons,List.length_nil,List.drop_drop,Nat.reduceAdd] at leading name comma digits last
  simp only [readHeader,leading,bind,Except.bind,parseHeader,Bool.not_eq_true',decide_eq_false_iff_not,pure,Except.pure]
  split
  · rfl
  simp only [name,assertString,comma,decide_eq_false_iff_not]
  split
  · rfl
  simp only [digits]
  split
  · rfl
  simp only [last,decide_eq_false_iff_not]
  split <;> rfl

theorem parseHeader_size {current name : List UInt8} {packetSize : Nat} (parsed : parseHeader current = .complete name packetSize) :
    current.take 2 = [69,44] ∧ (current.drop 7).take 1 = [44] ∧ 11 ≤ packetSize ∧ (current.drop 11).take 1 = [44] ∧
      name = (current.drop 2).take 5 ∧ packetSize = sizeOfField ((current.drop 8).take 3) := by
  unfold parseHeader at parsed
  split at parsed
  · cases parsed
  split at parsed
  · cases parsed
  split at parsed
  · cases parsed
  split at parsed
  · cases parsed
  rename_i leading comma size last
  cases parsed
  exact ⟨not_not.mp leading,not_not.mp comma,Nat.not_lt.mp size,not_not.mp last,rfl,rfl⟩

theorem parseHeader_broken {current : List UInt8} {read : Nat} (parsed : parseHeader current = .broken read) :
    2 ≤ read ∧ read ≤ 12 := by
  unfold parseHeader at parsed
  split at parsed
  · cases parsed; omega
  split at parsed
  · cases parsed; omega
  split at parsed
  · cases parsed; omega
  split at parsed
  · cases parsed; omega
  · cases parsed

theorem decodeFrame_eq (fd : FrameDecoder σ) (name : List UInt8) {packetSize : Nat} {current : List UInt8} (memory : σ)
    (least : 11 ≤ packetSize) (received : packetSize + 12 ≤ current.length) :
    decodeFrame fd current name packetSize (current.drop 12) memory = .ok (checkFrame fd name packetSize current memory) := by
  have field : 12 + (packetSize - kPacketFooterLength + 1) = packetSize + 2 := by simp only [kPacketFooterLength]; omega
  have covered : kPacketHeaderLength + packetSize - kPacketFooterLength = packetSize + 1 := by
    simp only [kPacketFooterLength,kPacketHeaderLength]; omega
  have digits := getString_eq (kPacketFooterLength-3) (current.drop (packetSize+2))
    (by simp only [List.length_drop,kPacketFooterLength]; omega)
  simp only [decodeFrame,List.drop_drop,field,covered,digits,assertString,bind,Except.bind,pure,Except.pure,checkFrame]
  by_cases sum : calculateCrc32 (current.take (packetSize+1)) =
      BitVec.ofInt 32 (strtol 16 ((current.drop (packetSize+2)).take (kPacketFooterLength-3)))
  · rw [if_neg (not_not.mpr sum),if_neg (not_not.mpr (show checkSumHolds packetSize current from sum))]
    cases fd.find name with
    | none => rfl
    | some decoder =>
        by_cases same : decoder.packetSize = packetSize
        · simp only [same,ne_eq,not_true_eq_false,if_false]
          rfl
        · simp only [ne_eq,same,not_false_eq_true,if_true]
          rfl
  · rw [if_pos sum,if_pos (show ¬ checkSumHolds packetSize current from sum)]
    rfl

theorem decode_eq (fd : FrameDecoder σ) (start : List UInt8) (memory : σ) :
    fd.decode start memory = .ok (frameStep uint32 fd start memory) := by
  have narrow : ∀ n, uint32 n ≤ n := fun n => Nat.mod_le n _
  simp only [decode,frameStep]
  generalize start.dropWhile (· ≠ 69) = current
  by_cases none : current = []
  · subst none
    rfl
  simp only [List.isEmpty_eq_false_iff.mpr none,Bool.false_eq_true,if_false]
  by_cases short : uint32 current.length < 12
  · rw [if_pos (show _ < kPacketHeaderLength from short),if_pos short]
    rfl
  have header := narrow current.length
  rw [if_neg (show ¬ _ < kPacketHeaderLength from short),if_neg short,readHeader_eq (by omega)]
  cases parsed : parseHeader current with
  | broken read => rfl
  | complete name packetSize =>
      have least := (parseHeader_size parsed).2.2.1
      simp only [bind,Except.bind,List.length_drop]
      by_cases incomplete : uint32 (current.length-12) < packetSize
      · rw [if_pos incomplete,if_pos incomplete]
        rfl
      have body := narrow (current.length-12)
      rw [if_neg incomplete,if_neg incomplete]
      exact decodeFrame_eq fd name memory least (by omega)

theorem uint32_small {n : Nat} (small : n < 2^32) : uint32 n = n := Nat.mod_eq_of_lt small

theorem decode_eq_id (fd : FrameDecoder σ) {start : List UInt8} (memory : σ) (small : start.length < 2^32) :
    fd.decode start memory = .ok (frameStep id fd start memory) := by
  have shorter := (List.dropWhile_suffix (l := start) (· ≠ 69)).length_le
  rw [decode_eq]
  unfold frameStep
  simp only [id]
  rw [uint32_small (by omega),uint32_small (by omega)]

theorem parseHeader_append {current : List UInt8} (enough : 12 ≤ current.length) (more : List UInt8) :
    parseHeader (current ++ more) = parseHeader current := by
  have window : ∀ first count, first + count ≤ 12 →
      ((current ++ more).drop first).take count = (current.drop first).take count := by
    intro first count inside
    rw [List.drop_append_of_le_length (by omega),List.take_append_of_le_length (by rw [List.length_drop]; omega)]
  have leading := window 0 2 (by omega)
  simp only [List.drop_zero] at leading
  simp only [parseHeader,leading,window 7 1 (by omega),window 8 3 (by omega),window 11 1 (by omega),window 2 5 (by omega)]

theorem checkFrame_append (fd : FrameDecoder σ) (name : List UInt8) {packetSize : Nat} {current : List UInt8} (memory : σ)
    (least : 11 ≤ packetSize) (received : 12 + packetSize ≤ current.length) (more : List UInt8) :
    checkFrame fd name packetSize (current ++ more) memory =
      {checkFrame fd name packetSize current memory with
        encoded := (checkFrame fd name packetSize current memory).encoded ++ more} := by
  have window : ∀ first count, first + count ≤ 12 + packetSize →
      ((current ++ more).drop first).take count = (current.drop first).take count := by
    intro first count inside
    rw [List.drop_append_of_le_length (by omega),List.take_append_of_le_length (by rw [List.length_drop]; omega)]
  have covered := window 0 (packetSize+1) (by omega)
  have sum := window (packetSize+2) 8 (by omega)
  have data := window 12 (packetSize-11) (by omega)
  simp only [List.drop_zero] at covered
  have holds : checkSumHolds packetSize (current ++ more) ↔ checkSumHolds packetSize current := by
    rw [checkSumHolds,covered,sum,checkSumHolds]
  have same : dataOf packetSize (current ++ more) = dataOf packetSize current := data
  by_cases valid : checkSumHolds packetSize current
  · simp only [checkFrame,valid,holds.mpr valid,not_true_eq_false,if_false,same,List.drop_append_of_le_length received]
    cases fd.find name with
    | none => rfl
    | some decoder =>
        by_cases size : decoder.packetSize = packetSize
        · simp only [size,ne_eq,not_true_eq_false,if_false]
        · simp only [ne_eq,size,not_false_eq_true,if_true]
  · simp only [checkFrame,valid,mt holds.mp valid,not_false_eq_true,if_true,List.drop_append_of_le_length received]

theorem decode_code (d : DataDecoder σ) (data : List UInt8) (memory : σ) :
    (d.decode data memory).1 = .success ∨ (d.decode data memory).1 = .protocolError := by
  unfold DataDecoder.decode
  split
  · exact .inr rfl
  · split
    · exact .inr rfl
    · exact .inl rfl

theorem checkFrame_code (fd : FrameDecoder σ) (name : List UInt8) (packetSize : Nat) (current : List UInt8) (memory : σ) :
    (checkFrame fd name packetSize current memory).code ≠ .resultOutOfRange := by
  unfold checkFrame
  simp only
  split
  · exact nofun
  split
  · exact nofun
  split
  · exact nofun
  · rename_i decoder _ _
    rcases decode_code decoder (dataOf packetSize current) memory with accepted | rejected
    · rw [accepted]; exact nofun
    · rw [rejected]; exact nofun

theorem checkFrame_encoded (fd : FrameDecoder σ) (name : List UInt8) (packetSize : Nat) (current : List UInt8) (memory : σ) :
    (checkFrame fd name packetSize current memory).encoded = current.drop (12+packetSize) := by
  unfold checkFrame
  simp only
  split
  · rfl
  split
  · rfl
  split <;> rfl

end HsrbDrivers.PowerEcu.FrameDecoder

import HsrbDrivers.Library.CircularBuffer
import HsrbDrivers.Library.Crc
import HsrbDrivers.Library.CText

namespace HsrbDrivers.PowerEcu
open CText

inductive ErrorCode where
  | success
  | protocolError
  | resultOutOfRange
  | invalidArgument
  | networkDown
  | operationCanceled
  | timedOut
deriving DecidableEq,Repr

-- How a call ends when it does not return: it reads outside a range or an empty
-- container (no defined result), it terminates the process, or a loop of it outlasts
-- the bound the model runs it for.
inductive Stop where
  | fault
  | exit
  | unfinished
deriving DecidableEq,Repr

def kBufferSize : Nat := 4 * 1000

abbrev PacketBuffer := CircularBuffer UInt8 kBufferSize

instance decidableMemNames (name : List UInt8) (names : List (List UInt8)) : Decidable (name ∈ names) := inferInstance

def kPacketHeaderLength : Nat := 12
def kPacketFooterLength : Nat := 11

def kCrc32PolynomialValue : BitVec 32 := 0x04C11DB7
def kCrc32InitializeValue : BitVec 32 := 0xffffffff

def int32 (value : Int) : Int := value.bmod (2^32)
def uint32 (value : Nat) : Nat := value % 2^32

-- One turn of the checksum loop: a word enters last byte first, absent bytes as zero.
def crcWord (crc : BitVec 32) (current : List UInt8) (distance : Int) : BitVec 32 :=
  let process := Crc.processByte kCrc32PolynomialValue
  let crc := process crc (if distance ≥ 4 then current.getD 3 0 else 0)
  let crc := process crc (if distance ≥ 3 then current.getD 2 0 else 0)
  let crc := process crc (if distance ≥ 2 then current.getD 1 0 else 0)
  process crc (if distance ≥ 1 then current.getD 0 0 else 0)

-- Each turn consumes a byte at least, so the length of the range is enough fuel.
def crcLoop : Nat → BitVec 32 → List UInt8 → BitVec 32
  | 0,crc,_ => crc
  | fuel+1,crc,current =>
    if current.isEmpty then crc else
      let distance := int32 current.length
      crcLoop fuel (crcWord crc current distance) (if distance ≥ 4 then current.drop 4 else [])

def calculateCrc32 (range : List UInt8) : BitVec 32 := crcLoop range.length kCrc32InitializeValue range

example : calculateCrc32 (ascii "H,pump_,013,1,") = 0x4B407CCA := by decide +kernel

def swapWords : List UInt8 → List UInt8
  | [] => []
  | [a] => [0,0,0,a]
  | [a,b] => [0,0,b,a]
  | [a,b,c] => [0,c,b,a]
  | a :: b :: c :: d :: rest => d :: c :: b :: a :: swapWords rest

theorem int32_small {n : Nat} (small : n < 2^31) : int32 n = n := by
  unfold int32
  rw [Int.bmod_eq_of_le] <;> omega

theorem crcLoop_nil (fuel : Nat) (crc : BitVec 32) : crcLoop fuel crc [] = crc := by
  cases fuel <;> simp [crcLoop]

theorem crcLoop_step (fuel : Nat) (crc : BitVec 32) {current : List UInt8} (some : current ≠ [])
    (small : current.length < 2^31) :
    crcLoop (fuel+1) crc current =
      crcLoop fuel (crcWord crc current current.length) (if (current.length : Int) ≥ 4 then current.drop 4 else []) := by
  rw [crcLoop,int32_small small,List.isEmpty_eq_false_iff.mpr some]
  simp only [Bool.false_eq_true,if_false]

theorem crcWord_short (crc : BitVec 32) (current : List UInt8) (short : current.length < 4) (some : current ≠ []) :
    crcWord crc current current.length = Crc.processBytes kCrc32PolynomialValue crc (swapWords current) := by
  match current with
  | [a] => simp [crcWord,Crc.processBytes,swapWords]
  | [a,b] => simp [crcWord,Crc.processBytes,swapWords]
  | [a,b,c] => simp [crcWord,Crc.processBytes,swapWords]

theorem crcWord_full (crc : BitVec 32) (a b c d : UInt8) (rest : List UInt8) {distance : Int} (full : distance ≥ 4) :
    crcWord crc (a :: b :: c :: d :: rest) distance = Crc.processBytes kCrc32PolynomialValue crc [d,c,b,a] := by
  have three : distance ≥ 3 := by omega
  have two : distance ≥ 2 := by omega
  have one : distance ≥ 1 := by omega
  simp only [crcWord,if_pos full,if_pos three,if_pos two,if_pos one,List.getD_cons_zero,List.getD_cons_succ,
    Crc.processBytes,List.foldl_cons,List.foldl_nil]

theorem crcLoop_swapWords (fuel : Nat) (crc : BitVec 32) (range : List UInt8) (small : range.length < 2^31)
    (enough : range.length ≤ fuel) :
    crcLoop fuel crc range = Crc.processBytes kCrc32PolynomialValue crc (swapWords range) := by
  induction fuel generalizing crc range with
  | zero =>
      cases List.length_eq_zero_iff.mp (Nat.le_zero.mp enough)
      rw [crcLoop_nil]
      rfl
  | succ fuel ih =>
      by_cases none : range = []
      · rw [none,crcLoop_nil]
        rfl
      rw [crcLoop_step fuel crc none small]
      by_cases short : range.length < 4
      · rw [crcWord_short crc range short none,if_neg (by omega),crcLoop_nil]
      · match range with
        | a :: b :: c :: d :: rest =>
            simp only [List.length_cons] at small enough
            have full : ((a :: b :: c :: d :: rest).length : Int) ≥ 4 := by simp only [List.length_cons]; omega
            rw [crcWord_full crc a b c d rest full,if_pos full,swapWords]
            simp only [List.drop_succ_cons,List.drop_zero]
            rw [ih _ rest (by omega) (by omega)]
            simp only [Crc.processBytes,List.foldl_cons,List.foldl_nil]
        | [] | [_] | [_,_] | [_,_,_] => simp at short

theorem calculateCrc32_eq {range : List UInt8} (small : range.length < 2^31) :
    calculateCrc32 range = Crc.processBytes kCrc32PolynomialValue kCrc32InitializeValue (swapWords range) :=
  crcLoop_swapWords _ _ _ small (Nat.le_refl _)

theorem swapWords_split (before after : List UInt8) :
    ∃ pre post, ∀ x, swapWords (before ++ x :: after) = pre ++ x :: post := by
  induction before using swapWords.induct with
  | case1 =>
      match after with
      | [] => exact ⟨[0,0,0],[],fun _ => rfl⟩
      | [b] => exact ⟨[0,0,b],[],fun _ => rfl⟩
      | [b,c] => exact ⟨[0,c,b],[],fun _ => rfl⟩
      | b :: c :: d :: rest => exact ⟨[d,c,b],swapWords rest,fun _ => rfl⟩
  | case2 a =>
      match after with
      | [] => exact ⟨[0,0],[a],fun _ => rfl⟩
      | [c] => exact ⟨[0,c],[a],fun _ => rfl⟩
      | c :: d :: rest => exact ⟨[d,c],a :: swapWords rest,fun _ => rfl⟩
  | case3 a b =>
      match after with
      | [] => exact ⟨[0],[b,a],fun _ => rfl⟩
      | d :: rest => exact ⟨[d],b :: a :: swapWords rest,fun _ => rfl⟩
  | case4 a b c => exact ⟨[],c :: b :: a :: swapWords after,fun _ => rfl⟩
  | case5 a b c d rest ih =>
      obtain ⟨pre,post,same⟩ := ih
      refine ⟨d :: c :: b :: a :: pre,post,fun x => ?_⟩
      rw [List.cons_append,List.cons_append,List.cons_append,List.cons_append,swapWords,same x]
      rfl

theorem calculateCrc32_differ {before after : List UInt8} {x y : UInt8}
    (small : (before ++ x :: after).length < 2^31) (differ : x ≠ y) :
    calculateCrc32 (before ++ x :: after) ≠ calculateCrc32 (before ++ y :: after) := by
  have same : (before ++ y :: after).length = (before ++ x :: after).length := by simp
  obtain ⟨pre,post,split⟩ := swapWords_split before after
  rw [calculateCrc32_eq small,calculateCrc32_eq (by omega),split x,split y]
  exact Crc.processBytes_differ _ (by decide) (by omega) _ pre post differ

theorem calculateCrc32_negative {range : List UInt8} (negative : int32 range.length ≤ 0) (some : range ≠ []) :
    calculateCrc32 range = Crc.processBytes kCrc32PolynomialValue kCrc32InitializeValue [0,0,0,0] := by
  obtain ⟨fuel,length⟩ : ∃ fuel, range.length = fuel + 1 :=
    Nat.exists_eq_succ_of_ne_zero (fun none => some (List.length_eq_zero_iff.mp none))
  have four : ¬ int32 range.length ≥ 4 := by omega
  have three : ¬ int32 range.length ≥ 3 := by omega
  have two : ¬ int32 range.length ≥ 2 := by omega
  have one : ¬ int32 range.length ≥ 1 := by omega
  rw [calculateCrc32,length,crcLoop,List.isEmpty_eq_false_iff.mpr some]
  simp only [Bool.false_eq_true,if_false,if_neg four,crcLoop_nil,crcWord,if_neg three,if_neg two,if_neg one,
    Crc.processBytes,List.foldl_cons,List.foldl_nil]

end HsrbDrivers.PowerEcu

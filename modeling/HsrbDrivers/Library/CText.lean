import HsrbDrivers.Library.Numeral
import Mathlib.Data.List.TakeWhile

namespace HsrbDrivers.CText
open Numeral

def ascii (text : String) : List UInt8 := text.toList.map Char.toUInt8

def isSpace (c : UInt8) : Bool := c = 32 || (9 ≤ c && c ≤ 13)

def digitByte (digit : Nat) : UInt8 := if digit < 10 then UInt8.ofNat (48 + digit) else UInt8.ofNat (55 + digit)

def digitValue (base : Nat) (c : UInt8) : Option Nat :=
  let value :=
    if 48 ≤ c ∧ c ≤ 57 then some (c.toNat - 48)
    else if 65 ≤ c ∧ c ≤ 90 then some (c.toNat - 55)
    else if 97 ≤ c ∧ c ≤ 122 then some (c.toNat - 87)
    else none
  value.filter (· < base)

def digitRun (base : Nat) : List UInt8 → List Nat
  | [] => []
  | c :: rest => match digitValue base c with
    | some digit => digit :: digitRun base rest
    | none => []

def splitSign (text : List UInt8) : Bool × List UInt8 :=
  match text with
  | [] => (false,[])
  | c :: rest => if c = 45 then (true,rest) else if c = 43 then (false,rest) else (false,c :: rest)

-- Base 16 may open with `0x`; a lone `0x` reads as 0 with or without it.
def skipHexPrefix (base : Nat) (text : List UInt8) : List UInt8 :=
  match text with
  | c :: d :: rest => if base = 16 ∧ c = 48 ∧ (d = 120 ∨ d = 88) then rest else c :: d :: rest
  | short => short

def clampLong (value : Int) : Int := max (-2^63) (min (2^63 - 1) value)

-- The C standard's `strtol` on a terminated string: what follows a zero byte is
-- not part of the text, and no digits at all read as 0.
def strtol (base : Nat) (bytes : List UInt8) : Int :=
  let text := (bytes.takeWhile (· ≠ 0)).dropWhile isSpace
  let (negative,rest) := splitSign text
  let magnitude : Int := horner base (digitRun base (skipHexPrefix base rest))
  clampLong (if negative then -magnitude else magnitude)

def atoi (bytes : List UInt8) : Int := (strtol 10 bytes).bmod (2^32)

inductive Thrown where
  | invalidArgument
  | outOfRange
deriving DecidableEq,Repr

-- `std::stoi`: blanks and a sign alone are no number, and the number has to fit an `int`.
def stoi (base : Nat) (bytes : List UInt8) : Except Thrown Int :=
  let text := (bytes.takeWhile (· ≠ 0)).dropWhile isSpace
  if digitRun base (splitSign text).2 = [] then .error .invalidArgument
  else if strtol base bytes < -2^31 ∨ 2^31 ≤ strtol base bytes then .error .outOfRange
  else .ok (strtol base bytes)

-- `boost::lexical_cast<int>`: a sign or none, then digits to the end, of a number that fits.
def lexicalCastInt (text : List UInt8) : Option Int :=
  let (negative,rest) := splitSign text
  let digits := digitRun 10 rest
  if rest = [] ∨ digits.length ≠ rest.length then none else
  let value : Int := if negative then -horner 10 digits else horner 10 digits
  if value < -2^31 ∨ 2^31 ≤ value then none else some value

theorem digitValue_lt {base : Nat} {c : UInt8} {d : Nat} (read : digitValue base c = some d) : d < base := by
  unfold digitValue at read
  simpa using (Option.filter_eq_some_iff.mp read).2

theorem digitRun_lt (base : Nat) (text : List UInt8) : ∀ d ∈ digitRun base text, d < base := by
  induction text with
  | nil => simp [digitRun]
  | cons c rest ih =>
      intro d member
      rw [digitRun] at member
      split at member
      · rename_i digit read
        rcases List.mem_cons.mp member with rfl | later
        · exact digitValue_lt read
        · exact ih d later
      · cases member

theorem digitRun_length (base : Nat) (text : List UInt8) : (digitRun base text).length ≤ text.length := by
  induction text with
  | nil => simp [digitRun]
  | cons c rest ih =>
      rw [digitRun]
      split <;> simp only [List.length_cons,List.length_nil] <;> omega

theorem splitSign_length (text : List UInt8) : (splitSign text).2.length ≤ text.length := by
  unfold splitSign
  split
  · simp
  · split
    · simp
    · split <;> simp

theorem skipHexPrefix_length (base : Nat) (text : List UInt8) : (skipHexPrefix base text).length ≤ text.length := by
  unfold skipHexPrefix
  split
  · split
    · simp only [List.length_cons]; omega
    · exact Nat.le_refl _
  · exact Nat.le_refl _

theorem strtol_natAbs_lt (base : Nat) (bytes : List UInt8) (positive : 0 < base) :
    (strtol base bytes).natAbs < base ^ bytes.length := by
  unfold strtol
  generalize text : (bytes.takeWhile (· ≠ 0)).dropWhile isSpace = shown
  have short : shown.length ≤ bytes.length := by
    rw [← text]
    exact Nat.le_trans (List.dropWhile_sublist _).length_le (List.takeWhile_sublist _).length_le
  have digits : (digitRun base (skipHexPrefix base (splitSign shown).2)).length ≤ bytes.length :=
    Nat.le_trans (digitRun_length _ _) (Nat.le_trans (skipHexPrefix_length _ _)
      (Nat.le_trans (splitSign_length _) short))
  have bound := horner_lt _ (digitRun_lt base (skipHexPrefix base (splitSign shown).2))
  have grown := Nat.pow_le_pow_right positive digits
  simp only [clampLong]
  split <;> omega

theorem digitValue_plain {base : Nat} {c : UInt8} {d : Nat} (read : digitValue base c = some d) (small : base ≤ 16) :
    c ≠ 0 ∧ isSpace c = false ∧ c ≠ 45 ∧ c ≠ 43 ∧ c ≠ 120 ∧ c ≠ 88 := by
  have below := digitValue_lt read
  have range : 48 ≤ c.toNat ∧ c.toNat ≤ 102 ∧ c.toNat ≠ 88 := by
    unfold digitValue at read
    have value := (Option.filter_eq_some_iff.mp read).1
    simp only [UInt8.le_iff_toNat_le,UInt8.reduceToNat] at value
    split at value
    · omega
    · split at value
      · have := Option.some.inj value; omega
      · split at value
        · have := Option.some.inj value; omega
        · cases value
  have distinct : ∀ e : UInt8, c.toNat ≠ e.toNat → c ≠ e := fun e apart same => apart (congrArg UInt8.toNat same)
  refine ⟨distinct _ ?_,?_,distinct _ ?_,distinct _ ?_,distinct _ ?_,distinct _ ?_⟩
  case refine_2 =>
    have high := distinct 32 (by simp only [UInt8.reduceToNat]; omega)
    have past : ¬ c ≤ 13 := by rw [UInt8.le_iff_toNat_le]; simp only [UInt8.reduceToNat]; omega
    simp [isSpace,high,past]
  all_goals simp only [UInt8.reduceToNat]; omega

theorem digitRun_digits {base : Nat} {bytes : List UInt8} {ds : List Nat}
    (read : bytes.map (digitValue base) = ds.map some) : digitRun base bytes = ds := by
  induction bytes generalizing ds with
  | nil => cases ds with
    | nil => rfl
    | cons d ds => cases read
  | cons c bytes ih =>
      cases ds with
      | nil => cases read
      | cons d ds =>
          obtain ⟨first,rest⟩ := List.cons_eq_cons.mp read
          rw [digitRun,first,ih rest]

theorem strtol_digits {base : Nat} {bytes : List UInt8} {ds : List Nat}
    (read : bytes.map (digitValue base) = ds.map some) (small : base ≤ 16) (fits : horner base ds < 2^63) :
    strtol base bytes = horner base ds := by
  have plain : ∀ c ∈ bytes, ∃ d, digitValue base c = some d := by
    intro c member
    have mapped := List.mem_map_of_mem (f:=digitValue base) member
    rw [read] at mapped
    obtain ⟨d,_,same⟩ := List.mem_map.mp mapped
    exact ⟨d,same.symm⟩
  have ended : bytes.takeWhile (· ≠ 0) = bytes := by
    apply List.takeWhile_eq_self_iff.mpr
    intro c member
    obtain ⟨d,one⟩ := plain c member
    exact decide_eq_true (digitValue_plain one small).1
  have shown : bytes.dropWhile isSpace = bytes ∧ splitSign bytes = (false,bytes) ∧ skipHexPrefix base bytes = bytes := by
    cases bytes with
    | nil => exact ⟨rfl,rfl,rfl⟩
    | cons c bytes =>
        obtain ⟨d,one⟩ := plain c (by simp)
        obtain ⟨_,blank,minus,plus,_,_⟩ := digitValue_plain one small
        refine ⟨by simp [blank],by simp [splitSign,minus,plus],?_⟩
        cases bytes with
        | nil => rfl
        | cons e bytes =>
            obtain ⟨f,two⟩ := plain e (by simp)
            obtain ⟨_,_,_,_,lower,upper⟩ := digitValue_plain two small
            simp [skipHexPrefix,lower,upper]
  obtain ⟨blanks,sign,prefixed⟩ := shown
  simp only [strtol,ended,blanks,sign,prefixed,digitRun_digits read,clampLong,Bool.false_eq_true,if_false]
  omega

theorem stoi_digit {base : Nat} {c : UInt8} {d : Nat} (read : digitValue base c = some d) (small : base ≤ 16) :
    stoi base [c] = .ok d := by
  obtain ⟨full,visible,minus,plus,_,_⟩ := digitValue_plain read small
  have below := digitValue_lt read
  have value : strtol base [c] = d := by
    have whole : horner base [d] = d := by simp [horner]
    have digits := strtol_digits (show [c].map (digitValue base) = [d].map some by simp [read]) small (by rw [whole]; omega)
    rw [digits,whole]
  have run : digitRun base [c] = [d] := digitRun_digits (by simp [read])
  simp only [stoi,value,List.takeWhile_cons,full,ne_eq,not_false_eq_true,decide_true,if_true,List.takeWhile_nil,List.dropWhile_cons,
    visible,Bool.false_eq_true,if_false,splitSign,minus,plus,run,reduceCtorEq]
  rw [if_neg (by omega)]

theorem stoi_other {base : Nat} {c : UInt8} (other : digitValue base c = none) : stoi base [c] = .error .invalidArgument := by
  refine if_pos ?_
  have unread : digitRun base [c] = [] := by rw [digitRun,other]
  by_cases full : c = 0
  · simp [full,splitSign,digitRun]
  by_cases visible : isSpace c = true
  · simp [full,visible,splitSign,digitRun]
  simp only [full,List.takeWhile_cons,ne_eq,not_false_eq_true,decide_true,if_true,List.takeWhile_nil,List.dropWhile_cons,visible,
    if_false,splitSign,Bool.false_eq_true]
  split
  · rfl
  · split
    · rfl
    · exact unread

theorem digitValue_digitByte {base d : Nat} (small : base ≤ 16) (inside : d < base) :
    digitValue base (digitByte d) = some d := by
  have hex : ∀ d < 16, digitValue 16 (digitByte d) = some d := by decide
  have one := hex d (by omega)
  unfold digitValue at one ⊢
  obtain ⟨value,_⟩ := Option.filter_eq_some_iff.mp one
  exact Option.filter_eq_some_iff.mpr ⟨value,by simpa using inside⟩

def numeral (base count value : Nat) : List UInt8 := (lowDigits base count value).reverse.map digitByte

@[simp] theorem numeral_length (base count value : Nat) : (numeral base count value).length = count := by
  simp [numeral]

theorem numeral_read {base : Nat} (small : base ≤ 16) (positive : 0 < base) (count value : Nat) :
    (numeral base count value).map (digitValue base) = (lowDigits base count value).reverse.map some := by
  rw [numeral,List.map_map]
  apply List.map_congr_left
  intro d member
  exact digitValue_digitByte small (lowDigits_lt positive d (List.mem_reverse.mp member))

theorem strtol_numeral {base count value : Nat} (small : base ≤ 16) (positive : 0 < base)
    (fits : value < base ^ count) (long : value < 2^63) : strtol base (numeral base count value) = value := by
  have whole := horner_lowDigits base count value fits
  rw [strtol_digits (numeral_read small positive count value) small (by omega),whole]

theorem atoi_eq_strtol {bytes : List UInt8} (short : bytes.length ≤ 9) : atoi bytes = strtol 10 bytes := by
  have bound := strtol_natAbs_lt 10 bytes (by omega)
  have most := Nat.pow_le_pow_right (n := 10) (by omega) short
  unfold atoi
  rw [Int.bmod_eq_of_le] <;> omega

theorem atoi_numeral {count value : Nat} (short : count ≤ 9) (fits : value < 10 ^ count) :
    atoi (numeral 10 count value) = value := by
  have most := Nat.pow_le_pow_right (n := 10) (by omega) short
  rw [atoi_eq_strtol (by simpa using short),strtol_numeral (by omega) (by omega) fits (by omega)]

end HsrbDrivers.CText

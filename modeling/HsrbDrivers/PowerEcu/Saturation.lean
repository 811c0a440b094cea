import HsrbDrivers.Library.Numeral
import HsrbDrivers.PowerEcu.PublishedValues

namespace HsrbDrivers.PowerEcu
open CText

def IntType.clamp (type : IntType) (value : Int) : Int :=
  if value > type.max then type.max else if value < type.min then type.min else value

-- How far apart numbers are that are cast to the same value; the numbers a `bool` takes
-- for true follow each other.
def IntType.period : IntType → Int
  | .bool => 1
  | .uint8 | .int8 => 2^8
  | .uint16 | .int16 => 2^16
  | .uint32 | .int32 => 2^32
  | .uint64 | .int64 => 2^64

-- The types that a 32-bit value is made unsigned for when it is compared with their limits.
def IntType.Unsigned (type : IntType) : Prop := type = .uint32 ∨ type = .uint64

def IsDigit (v : UInt8) : Prop := 48 ≤ v ∧ v ≤ 57

instance (v : UInt8) : Decidable (IsDigit v) := inferInstanceAs (Decidable (_ ∧ _))

def digitValue (v : UInt8) : Nat := v.toNat - 48

-- The number that a string of digits denotes.
def denoted (digits : List UInt8) : Nat := Numeral.horner 10 (digits.map digitValue)

-- No turn of the digit loop changes what it computes by narrowing it.
def Unwrapped (base : Nat) (digit : UInt8 → Option Nat) (narrow : Int → Int) (tmpValue : Int) : List UInt8 → Prop
  | [] => True
  | v :: rest => ∀ d, digit v = some d → narrow (tmpValue * base + d) = tmpValue * base + d ∧
      Unwrapped base digit narrow (tmpValue * base + d) rest

theorem decimalDigit_digit {v : UInt8} (isDigit : IsDigit v) : decimalDigit v = some (digitValue v) := by
  obtain ⟨least,most⟩ := isDigit
  refine if_neg ?_
  rintro (below | above)
  · exact absurd least (UInt8.not_le.mpr below)
  · exact absurd most (UInt8.not_le.mpr above)

theorem unwrapped_iff {narrow : Int → Int} {limit : Nat} (keeps : ∀ n : Nat, narrow n = n ↔ n ≤ limit) {digits : List UInt8}
    (allDigits : ∀ v ∈ digits, IsDigit v) {acc : Nat} (start : acc ≤ limit) :
    Unwrapped 10 decimalDigit narrow acc digits ↔
      (digits.map digitValue).foldl (fun acc digit => acc * 10 + digit) acc ≤ limit := by
  induction digits generalizing acc with
  | nil => simp [Unwrapped,start]
  | cons v rest ih =>
      have next : ((acc : Int) * (10 : Nat) + digitValue v) = ((acc * 10 + digitValue v : Nat) : Int) := by push_cast; rfl
      have one := keeps (acc * 10 + digitValue v)
      have later := @ih (fun w member => allDigits w (List.mem_cons_of_mem _ member)) (acc * 10 + digitValue v)
      simp only [Unwrapped,decimalDigit_digit (allDigits v List.mem_cons_self),Option.some.injEq,forall_eq',next,one,List.map_cons,
        List.foldl_cons]
      constructor
      · rintro ⟨fits,unwrapped⟩
        exact (later fits).mp unwrapped
      · intro whole
        have fits := Nat.le_trans (Numeral.foldl_least (by decide) _ _) whole
        exact ⟨fits,(later fits).mpr whole⟩

theorem readDigits_unwrapped {narrow : Int → Int} {digits : List UInt8} (allDigits : ∀ v ∈ digits, IsDigit v) {acc : Nat}
    (unwrapped : Unwrapped 10 decimalDigit narrow acc digits) :
    readDigits 10 decimalDigit narrow acc digits =
      some (((digits.map digitValue).foldl (fun acc digit => acc * 10 + digit) acc : Nat) : Int) := by
  induction digits generalizing acc with
  | nil => rfl
  | cons v rest ih =>
      have next : ((acc : Int) * (10 : Nat) + digitValue v) = ((acc * 10 + digitValue v : Nat) : Int) := by push_cast; rfl
      have digit := decimalDigit_digit (allDigits v List.mem_cons_self)
      obtain ⟨kept,behind⟩ := unwrapped _ digit
      rw [next] at kept behind
      rw [readDigits,digit]
      simp only [next,kept]
      exact ih (fun w member => allDigits w (List.mem_cons_of_mem _ member)) behind

theorem toUint32_keeps (n : Nat) : toUint32 n = n ↔ n ≤ 2^32 - 1 := by
  unfold toUint32
  omega

theorem int32_keeps (n : Nat) : int32 n = n ↔ n ≤ 2^31 - 1 := by
  rw [int32,Int.bmod_def]
  split <;> omega

theorem int32_neg {n : Nat} (small : n < 2^31) : int32 (-n) = -n := by
  rw [int32,Int.bmod_def]
  split <;> omega

namespace IntType

theorem clamp_holds (type : IntType) (value : Int) : type.Holds (type.clamp value) := by
  have ordered : type.min ≤ type.max := by cases type <;> decide
  unfold clamp Holds
  split
  · omega
  · split <;> omega

theorem clamp_of_holds {type : IntType} {value : Int} (held : type.Holds value) : type.clamp value = value := by
  obtain ⟨least,most⟩ := held
  rw [clamp,if_neg (by omega),if_neg (by omega)]

theorem clamp_of_below {type : IntType} {value : Int} (least : type.min = 0) (negative : value < 0) : type.clamp value = 0 := by
  have most : 0 ≤ type.max := by cases type <;> decide
  rw [clamp,if_neg (by omega),if_pos (by omega),least]

-- The cast of a number that is not negative is the closest value when the number is in the
-- range, or further up where it happens to come out at the largest value.
theorem cast_clamp_iff (type : IntType) (n : Nat) :
    type.cast n = type.clamp n ↔ (n : Int) ≤ type.max ∨ (n - type.max) % type.period = 0 := by
  by_cases most : (n : Int) ≤ type.max
  · have least : type.min ≤ n := Int.le_trans (by cases type <;> decide) (Int.natCast_nonneg n)
    have held : type.Holds n := ⟨least,most⟩
    rw [cast_of_holds held,clamp_of_holds held]
    simp [most]
  · have above : type.clamp n = type.max := if_pos (Int.lt_of_not_ge most)
    rw [above]
    cases type <;> simp only [cast,max,period,Int.bmod_def] at most ⊢
    case bool | int8 | int16 | int32 | int64 => split <;> omega
    all_goals omega

theorem saturate_clamp_iff (type : IntType) {value : Int} (held : int32.Holds value) :
    type.cast (ElementIntDecoder.saturate type value) = type.clamp value ↔ 0 ≤ value ∨ ¬ type.Unsigned := by
  obtain ⟨least,most⟩ := held
  simp only [min,max] at least most
  by_cases same : type.compared value = value
  · have saturated : ElementIntDecoder.saturate type value = type.clamp value := by
      rw [ElementIntDecoder.saturate,same,clamp]
    rw [saturated,cast_of_holds (type.clamp_holds value)]
    cases type <;> simp [Unsigned,compared] at same ⊢
    all_goals omega
  · have negative : value < 0 ∧ type.Unsigned := by
      cases type <;> simp [Unsigned,compared] at same ⊢
      all_goals omega
    have smallest : type.clamp value = 0 := by
      rcases negative.2 with rfl | rfl
      all_goals exact clamp_of_below rfl negative.1
    have kept : ElementIntDecoder.saturate type value = value := by
      rcases negative.2 with rfl | rfl
      all_goals
        rw [ElementIntDecoder.saturate,if_neg,if_neg]
        all_goals simp only [compared,max,min]; omega
    rw [smallest,kept]
    rcases negative.2 with rfl | rfl
    all_goals simp only [cast,Unsigned]; simp; omega

end IntType

def UintSaturates (type : IntType) (value : Ref σ Int) (digits : List UInt8) (memory : σ) : Prop :=
  (∃ memory', ElementUintDecoder.decode type value digits.length digits memory = (true,memory') ∧
    value.read memory' = type.clamp (denoted digits)) ∧ Unwrapped 10 decimalDigit toUint32 0 digits

def signed (sign : UInt8) (number : Nat) : Int := if sign = 45 then -number else number

def IntSaturates (type : IntType) (value : Ref σ Int) (sign : UInt8) (digits : List UInt8) (memory : σ) : Prop :=
  (∃ memory', ElementIntDecoder.decode type value digits.length (sign :: digits) memory = (true,memory') ∧
    value.read memory' = type.clamp (signed sign (denoted digits))) ∧ Unwrapped 10 decimalDigit int32 0 digits

theorem assign_reads_iff {value : Ref σ τ} (lawful : value.Lawful) (memory : σ) (v w : τ) :
    (∃ memory', assign value memory (some v) = (true,memory') ∧ value.read memory' = w) ↔ v = w := by
  simp [assign,lawful.read_write]

theorem uint_saturates_iff (type : IntType) {value : Ref σ Int} (lawful : value.Lawful) {digits : List UInt8}
    (allDigits : ∀ v ∈ digits, IsDigit v) (memory : σ) : UintSaturates type value digits memory ↔
      denoted digits < 2^32 ∧ ((denoted digits : Int) ≤ type.max ∨ (denoted digits - type.max) % type.period = 0) := by
  have fits := unwrapped_iff toUint32_keeps allDigits (Nat.zero_le _)
  have limit : Unwrapped 10 decimalDigit toUint32 0 digits ↔ denoted digits < 2^32 := by
    rw [Nat.lt_iff_le_pred (by decide)]
    exact fits
  rw [UintSaturates,limit,and_comm]
  refine and_congr_right fun small => ?_
  have parsed : ElementUintDecoder.parse type digits.length digits = some (type.cast (denoted digits)) := by
    have read := readDigits_unwrapped allDigits (limit.mpr small)
    rw [ElementUintDecoder.parse,if_neg (not_not.mpr rfl)]
    exact congrArg (Option.map type.cast) read
  rw [ElementUintDecoder.decode,parsed,assign_reads_iff lawful]
  exact type.cast_clamp_iff _

theorem int_saturates_iff (type : IntType) {value : Ref σ Int} (lawful : value.Lawful) {digits : List UInt8}
    (allDigits : ∀ v ∈ digits, IsDigit v) (memory : σ) {sign : UInt8} (marked : sign = 32 ∨ sign = 45) :
    IntSaturates type value sign digits memory ↔
      denoted digits < 2^31 ∧ (sign = 45 → type.Unsigned → denoted digits = 0) := by
  have fits := unwrapped_iff int32_keeps allDigits (Nat.zero_le _)
  have limit : Unwrapped 10 decimalDigit int32 0 digits ↔ denoted digits < 2^31 := by
    rw [Nat.lt_iff_le_pred (by decide)]
    exact fits
  rw [IntSaturates,limit,and_comm]
  refine and_congr_right fun small => ?_
  have parsed : ElementIntDecoder.parse type digits.length (sign :: digits) =
      some (type.cast (ElementIntDecoder.saturate type (signed sign (denoted digits)))) := by
    have read : readDigits 10 decimalDigit int32 0 digits = some (denoted digits : Int) :=
      readDigits_unwrapped allDigits (limit.mpr small)
    have known : ¬ (sign ≠ 32 ∧ sign ≠ 45) := by
      rintro ⟨positive,negative⟩
      exact marked.elim positive negative
    rw [ElementIntDecoder.parse,if_neg (not_not.mpr rfl),if_neg known,read,Option.map_some,int32_neg small,signed]
  have held : IntType.int32.Holds (signed sign (denoted digits)) := by
    have both : -2^31 ≤ signed sign (denoted digits) ∧ signed sign (denoted digits) ≤ 2^31 - 1 := by
      unfold signed
      split <;> omega
    exact both
  rw [ElementIntDecoder.decode,parsed,assign_reads_iff lawful,type.saturate_clamp_iff held]
  unfold signed
  by_cases minus : sign = 45
  · rw [if_pos minus]
    constructor
    · rintro (zero | unlike) _ unsigned
      · omega
      · exact absurd unsigned unlike
    · intro zero
      by_cases unsigned : type.Unsigned
      · exact .inl (by rw [zero minus unsigned]; decide)
      · exact .inr unsigned
  · rw [if_neg minus]
    simp [minus]

-- The elements decode to the closest value of the output exactly where the 32-bit value
-- does not overflow and, without a sign, a number above the range happens to be cast to the
-- largest value, with one, the output is not compared as unsigned.
theorem numeric_elements_saturate_iff (type : IntType) {value : Ref σ Int} (lawful : value.Lawful) {digits : List UInt8}
    (allDigits : ∀ v ∈ digits, IsDigit v) (memory : σ) :
    (UintSaturates type value digits memory ↔
      denoted digits < 2^32 ∧ ((denoted digits : Int) ≤ type.max ∨ (denoted digits - type.max) % type.period = 0)) ∧
    ∀ sign, sign = 32 ∨ sign = 45 → (IntSaturates type value sign digits memory ↔
      denoted digits < 2^31 ∧ (sign = 45 → type.Unsigned → denoted digits = 0)) :=
  ⟨uint_saturates_iff type lawful allDigits memory,fun _ marked => int_saturates_iff type lawful allDigits memory marked⟩

def itself (τ : Type) : Ref τ τ := ⟨id,fun v _ => v⟩

theorem itself_lawful (τ : Type) : (itself τ).Lawful := ⟨fun _ _ => rfl,fun _ => rfl,fun _ _ _ => rfl⟩

theorem nines_saturate : UintSaturates .uint8 (itself Int) (ascii "999999999") 0 ∧
    IntSaturates .int8 (itself Int) 45 (ascii "999999999") 0 := by
  have nines : ∀ v ∈ ascii "999999999", IsDigit v := by decide +kernel
  constructor
  · exact (numeric_elements_saturate_iff .uint8 (itself_lawful Int) nines 0).1.mpr (by decide +kernel)
  · have sense := (numeric_elements_saturate_iff .int8 (itself_lawful Int) nines 0).2 45 (.inr rfl)
    refine sense.mpr ⟨by decide +kernel,fun _ unsigned => ?_⟩
    rcases unsigned with unlike | unlike <;> cases unlike

-- Ten digits overflow the time stamp and an element of the quaternion; the battery's
-- initial learning capacity is wrapped without an overflow on the way.
theorem ten_digits_wrap :
    (ElementUintDecoder.parse .uint32 10 (ascii "4294967296") = some 0 ∧
      ¬ UintSaturates .uint32 (itself Int) (ascii "4294967296") 0) ∧
    (ElementIntDecoder.parse .int32 10 (ascii " 2147483648") = some (-2147483648) ∧
      ¬ IntSaturates .int32 (itself Int) 32 (ascii "2147483648") 0) ∧
    ElementUintDecoder.parse .uint16 5 (ascii "65536") = some 0 ∧
      ¬ UintSaturates .uint16 (itself Int) (ascii "65536") 0 := by
  have uint {type : IntType} {digits : List UInt8} (allDigits : ∀ v ∈ digits, IsDigit v) :=
    uint_saturates_iff type (itself_lawful Int) allDigits 0
  have int := int_saturates_iff .int32 (itself_lawful Int) (show ∀ v ∈ ascii "2147483648", IsDigit v by decide +kernel) 0
    (show (32 : UInt8) = 32 ∨ (32 : UInt8) = 45 from .inl rfl)
  refine ⟨⟨by decide +kernel,?_⟩,⟨by decide +kernel,?_⟩,by decide +kernel,?_⟩
  · rw [uint (by decide +kernel)]
    decide +kernel
  · intro saturates
    exact absurd (int.mp saturates).1 (by decide +kernel)
  · rw [uint (by decide +kernel)]
    decide +kernel

end HsrbDrivers.PowerEcu

import HsrbDrivers.Library.Binary64
import HsrbDrivers.Library.Bytes
import HsrbDrivers.Servomotor.ControlTable

namespace HsrbDrivers.Servomotor
open Binary64 Bytes

namespace ValueType

def signed : ValueType → Bool
  | .int8 | .int16 | .int32 | .int64 => true
  | _ => false

def max (type : ValueType) : Int := 2^(8 * type.size - if type.signed then 1 else 0) - 1

def min (type : ValueType) : Int := if type.signed then -2^(8 * type.size - 1) else 0

def integer (type : ValueType) (bytes : List UInt8) : Int :=
  if type.max < fromLe bytes then fromLe bytes - 2^(8 * type.size) else fromLe bytes

def object (type : ValueType) (value : Int) : List UInt8 := toLe type.size (value % 2^(8 * type.size)).toNat

end ValueType

-- The conversion of an integer to a `double`, and of a `double` to an integer, which leaves the
-- fraction out. A `double` out of the integer type's range has no defined conversion; its low
-- bits are taken.
def toDouble (value : Int) : Float := .ofModel (.ofInt value)

def truncated (value : Float) : Int := value.toModel.unpack.toInt 0 0

def floatMax : Float := toDouble (2^128 - 2^104)

def doubleCast (type : ValueType) (bytes : List UInt8) : Float :=
  match type with
  | .float => (Float32.ofBits (UInt32.ofNat (fromLe bytes))).toFloat
  | .double => Float.ofBits (UInt64.ofNat (fromLe bytes))
  | _ => toDouble (type.integer bytes)

-- `round` is `boost::math::round`, with no result where it sets `errno` to `ERANGE`.
def byteCast (round : Float → Option Float) (type : ValueType) (value : Float) : Option (List UInt8) :=
  match type with
  | .float => if value > floatMax ∨ value < -floatMax then none else some (toLe 4 value.toFloat32.toBits.toNat)
  | .double => some (toLe 8 value.toBits.toNat)
  | _ => match round value with
    | none => none
    | some roundValue =>
      if roundValue > toDouble type.max ∨ roundValue < -toDouble type.max then none
      else some (type.object (truncated roundValue))

namespace ControlTableItemDescriptor

def convertToMKS (d : ControlTableItemDescriptor) (bytes : List UInt8) : Option Float :=
  if bytes.length ≠ d.numBytes then none else some (doubleCast d.type bytes / d.coefficientMks)

def convertToBytes (round : Float → Option Float) (d : ControlTableItemDescriptor) (mksValue : Float) : Option (List UInt8) :=
  byteCast round d.type (mksValue * d.coefficientMks)

end ControlTableItemDescriptor

def RoundsIntegers (round : Float → Option Float) : Prop :=
  ∀ x (n : Int), number x = some (n : ℚ) → ∃ y, round x = some y ∧ number y = some (n : ℚ)

def ValueType.Small (type : ValueType) : Prop := type.size ≤ 4 ∧ type ≠ .float

def Converts (round : Float → Option Float) (d : ControlTableItemDescriptor) (v : Int) : Prop :=
  ∀ x, number x = some (v : ℚ) →
    ((d.convertToBytes round x).isSome ↔ d.type.min ≤ v ∧ v ≤ d.type.max) ∧
    ∀ bytes, d.convertToBytes round x = some bytes → ∃ y, d.convertToMKS bytes = some y ∧ number y = some (v : ℚ)

def Survives (round : Float → Option Float) (d : ControlTableItemDescriptor) (bytes : List UInt8) : Prop :=
  ∃ x, d.convertToMKS bytes = some x ∧ d.convertToBytes round x = some bytes

namespace ValueType
variable {type : ValueType}

theorem small_range (small : type.Small) : 0 ≤ type.max ∧ type.max < 2^32 ∧ type.max = type.min + 2^(8 * type.size) - 1 ∧
    type.min = if type.signed then -type.max - 1 else 0 := by
  obtain ⟨size,integer⟩ := small
  cases type <;> first | decide | exact absurd rfl integer | exact absurd size (by decide)

theorem fromLe_object (type : ValueType) (value : Int) : (fromLe (type.object value) : Int) = value % 2^(8 * type.size) := by
  have power : (256 : Int)^type.size = 2^(8 * type.size) := by
    rw [pow_mul]
    rfl
  have positive : (2 : Int)^(8 * type.size) ≠ 0 := pow_ne_zero _ two_ne_zero
  rw [object,fromLe_toLe,Int.natCast_emod,Int.toNat_of_nonneg (Int.emod_nonneg _ positive)]
  push_cast
  rw [power,Int.emod_emod_of_dvd _ (dvd_refl _)]

theorem fromLe_modulus {bytes : List UInt8} (sized : bytes.length = type.size) : (fromLe bytes : Int) < 2^(8 * type.size) := by
  have below := fromLe_lt bytes
  rw [sized,show 256 = 2^8 from rfl,← pow_mul] at below
  exact_mod_cast below

theorem integer_object (small : type.Small) {value : Int} (least : type.min ≤ value) (most : value ≤ type.max) :
    type.integer (type.object value) = value := by
  obtain ⟨_,_,range,low⟩ := small_range small
  rw [integer,fromLe_object]
  generalize (2 : Int)^(8 * type.size) = modulus at range ⊢
  by_cases negative : value < 0
  · have wrapped : value % modulus = value + modulus := by
      rw [← Int.add_emod_right,Int.emod_eq_of_lt (by omega) (by omega)]
    rw [wrapped,if_pos (by omega),Int.add_sub_cancel]
  · rw [Int.emod_eq_of_lt (by omega) (by split at low <;> omega),if_neg (Int.not_lt.mpr most)]

theorem object_integer {bytes : List UInt8} (sized : bytes.length = type.size) : type.object (type.integer bytes) = bytes := by
  have below := fromLe_modulus sized
  have same : type.integer bytes % 2^(8 * type.size) = fromLe bytes := by
    unfold integer
    split
    · rw [Int.sub_emod_right,Int.emod_eq_of_lt (Int.natCast_nonneg _) below]
    · exact Int.emod_eq_of_lt (Int.natCast_nonneg _) below
  rw [object,same,Int.toNat_natCast,← sized,toLe_fromLe]

theorem integer_range (small : type.Small) {bytes : List UInt8} (sized : bytes.length = type.size) :
    type.min ≤ type.integer bytes ∧ type.integer bytes ≤ type.max := by
  have below := fromLe_modulus sized
  obtain ⟨_,_,range,low⟩ := small_range small
  unfold integer
  generalize (2 : Int)^(8 * type.size) = modulus at range below ⊢
  split at low <;> split <;> omega

end ValueType

section
variable {round : Float → Option Float} {type : ValueType}

theorem doubleCast_small (small : type.Small) (bytes : List UInt8) : doubleCast type bytes = toDouble (type.integer bytes) := by
  obtain ⟨size,integer⟩ := small
  cases type <;> first | rfl | exact absurd rfl integer | exact absurd size (by decide)

theorem byteCast_small (small : type.Small) (value : Float) : byteCast round type value = match round value with
    | none => none
    | some roundValue => if roundValue > toDouble type.max ∨ roundValue < -toDouble type.max then none
      else some (type.object (truncated roundValue)) := by
  obtain ⟨size,integer⟩ := small
  cases type <;> first | rfl | exact absurd rfl integer | exact absurd size (by decide)

theorem number_toDouble {v : Int} (bound : v.natAbs < 2^53) : number (toDouble v) = some (v : ℚ) := number_ofInt bound

theorem byteCast_integer (rounds : RoundsIntegers round) (small : type.Small) {x : Float} {v : Int}
    (known : number x = some (v : ℚ)) :
    byteCast round type x = if type.max < v ∨ v < -type.max then none else some (type.object v) := by
  obtain ⟨nonneg,below,_⟩ := ValueType.small_range small
  obtain ⟨y,rounded,same⟩ := rounds x v known
  have most : number (toDouble type.max) = some (type.max : ℚ) := number_toDouble (by omega)
  have above : y > toDouble type.max ↔ type.max < v := (lt_iff most same).trans Int.cast_lt
  have under : y < -toDouble type.max ↔ v < -type.max := by
    rw [lt_iff same (number_neg most),← Int.cast_neg]
    exact Int.cast_lt
  rw [byteCast_small small,rounded]
  simp only [above,under,truncated,toInt_number same]

end

section
variable {round : Float → Option Float} {type : ValueType} {initialAddress : Nat} {itemAttribute : List UInt8}

theorem convertToBytes_integer (rounds : RoundsIntegers round) (small : type.Small) {x : Float} {v : Int}
    (known : number x = some (v : ℚ)) :
    (ControlTableItemDescriptor.construct type initialAddress itemAttribute 1.0).convertToBytes round x =
      if type.max < v ∨ v < -type.max then none else some (type.object v) :=
  byteCast_integer rounds small (number_mul_one known)

theorem convertToMKS_integer (small : type.Small) {bytes : List UInt8} (sized : bytes.length = type.size) :
    ∃ y, (ControlTableItemDescriptor.construct type initialAddress itemAttribute 1.0).convertToMKS bytes = some y ∧
      number y = some (type.integer bytes : ℚ) := by
  obtain ⟨nonneg,below,_,low⟩ := ValueType.small_range small
  obtain ⟨least,most⟩ := ValueType.integer_range small sized
  have bound : (type.integer bytes).natAbs < 2^53 := by split at low <;> omega
  have numBytes := construct_numBytes type initialAddress itemAttribute 1.0
  refine ⟨_,if_neg (fun other => other (sized.trans numBytes.symm)),number_div_one ?_⟩
  exact (congrArg number (doubleCast_small small bytes)).trans (number_toDouble bound)

theorem isSome_unless (p : Prop) [Decidable p] {α : Type} (a : α) : (if p then none else some a).isSome ↔ ¬p := by
  split <;> rename_i holds <;> simp [holds]

theorem converts_iff (rounds : RoundsIntegers round) (small : type.Small) (v : Int) :
    Converts round (.construct type initialAddress itemAttribute 1.0) v ↔
      if type.signed then v ≠ type.min else ¬(-type.max ≤ v ∧ v < 0) := by
  obtain ⟨nonneg,below,range,low⟩ := ValueType.small_range small
  have bounds : (if type.signed then v ≠ type.min else ¬(-type.max ≤ v ∧ v < 0)) ↔
      (¬(type.max < v ∨ v < -type.max) ↔ type.min ≤ v ∧ v ≤ type.max) := by
    split at low <;> rename_i sign <;> simp only [sign,if_true,if_false,Bool.false_eq_true] <;> omega
  rw [bounds]
  constructor
  · intro converts
    by_cases near : v.natAbs < 2^53
    · obtain ⟨taken,_⟩ := converts _ (number_toDouble near)
      rw [convertToBytes_integer rounds small (number_toDouble near)] at taken
      exact (isSome_unless _ _).symm.trans taken
    · split at low <;> omega
  · intro agree x known
    rw [convertToBytes_integer rounds small known]
    refine ⟨?_,fun bytes converted => ?_⟩
    · exact (isSome_unless _ _).trans agree
    · split at converted
      · cases converted
      · rename_i inside
        cases converted
        obtain ⟨least,most⟩ := agree.mp inside
        have sized : (type.object v).length = type.size := toLe_length _ _
        have back := @convertToMKS_integer type initialAddress itemAttribute small _ sized
        rwa [ValueType.integer_object small least most] at back

theorem survives_iff (rounds : RoundsIntegers round) (small : type.Small) {bytes : List UInt8}
    (sized : bytes.length = type.size) : Survives round (.construct type initialAddress itemAttribute 1.0) bytes ↔
      ¬(type.signed ∧ type.integer bytes = type.min) := by
  obtain ⟨nonneg,below,range,low⟩ := ValueType.small_range small
  obtain ⟨least,most⟩ := ValueType.integer_range small sized
  obtain ⟨y,read,known⟩ := @convertToMKS_integer type initialAddress itemAttribute small bytes sized
  have written := @convertToBytes_integer round type initialAddress itemAttribute rounds small y _ known
  rw [ValueType.object_integer sized] at written
  have bounds : ¬(type.signed ∧ type.integer bytes = type.min) ↔
      ¬(type.max < type.integer bytes ∨ type.integer bytes < -type.max) := by
    split at low <;> rename_i sign <;> simp only [sign,true_and,false_and,Bool.false_eq_true,not_false_eq_true,true_iff] <;> omega
  rw [bounds]
  constructor
  · rintro ⟨x,same,kept⟩ outside
    cases read.symm.trans same
    rw [written,if_pos outside] at kept
    cases kept
  · intro inside
    exact ⟨y,read,written.trans (if_neg inside)⟩

-- With coefficient 1 the conversions are exact for all but the least integer of a signed type,
-- which is refused, and the negatives of what an unsigned type holds, which are taken.
theorem conversions_exact_iff (rounds : RoundsIntegers round) (small : type.Small) (initialAddress : Nat)
    (itemAttribute : List UInt8) :
    (∀ v, Converts round (.construct type initialAddress itemAttribute 1.0) v ↔
      if type.signed then v ≠ type.min else ¬(-type.max ≤ v ∧ v < 0)) ∧
    ∀ bytes : List UInt8, bytes.length = type.size →
      (Survives round (.construct type initialAddress itemAttribute 1.0) bytes ↔
        ¬(type.signed ∧ type.integer bytes = type.min)) :=
  ⟨converts_iff rounds small,fun _ sized => survives_iff rounds small sized⟩

theorem itself_rounds : RoundsIntegers some := fun x _ known => ⟨x,rfl,known⟩

theorem int8_small : ValueType.int8.Small := ⟨by decide,by decide⟩

theorem byte_converts :
    Converts some (.construct .int8 0 [] 1.0) (-127) ∧ Survives some (.construct .int8 0 [] 1.0) [0x81] := by
  obtain ⟨converts,survives⟩ := conversions_exact_iff itself_rounds int8_small 0 []
  exact ⟨(converts (-127)).mpr (by decide),(survives [0x81] rfl).mpr (by decide)⟩

theorem least_byte_refused : ¬ ∀ round, RoundsIntegers round → ∀ (type : ValueType) initialAddress itemAttribute,
    type.Small → ∀ v, Converts round (.construct type initialAddress itemAttribute 1.0) v := by
  intro every
  have converts := every some itself_rounds .int8 0 [] int8_small (-128)
  exact (converts_iff itself_rounds int8_small (-128)).mp converts rfl

end
end HsrbDrivers.Servomotor

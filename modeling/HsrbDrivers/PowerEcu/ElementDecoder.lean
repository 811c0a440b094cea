import HsrbDrivers.PowerEcu.Common

namespace HsrbDrivers.PowerEcu
open CText

inductive IntType where
  | bool
  | uint8
  | uint16
  | uint32
  | uint64
  | int8
  | int16
  | int32
  | int64
deriving DecidableEq,Repr

namespace IntType

def max : IntType → Int
  | bool => 1
  | uint8 => 2^8 - 1
  | uint16 => 2^16 - 1
  | uint32 => 2^32 - 1
  | uint64 => 2^64 - 1
  | int8 => 2^7 - 1
  | int16 => 2^15 - 1
  | int32 => 2^31 - 1
  | int64 => 2^63 - 1

def min : IntType → Int
  | int8 => -2^7
  | int16 => -2^15
  | int32 => -2^31
  | int64 => -2^63
  | _ => 0

def cast : IntType → Int → Int
  | bool,value => if value = 0 then 0 else 1
  | uint8,value => value % 2^8
  | uint16,value => value % 2^16
  | uint32,value => value % 2^32
  | uint64,value => value % 2^64
  | int8,value => value.bmod (2^8)
  | int16,value => value.bmod (2^16)
  | int32,value => value.bmod (2^32)
  | int64,value => value.bmod (2^64)

-- What a 32-bit value is compared as with a limit of the type. The smaller types
-- are promoted, an unsigned type as wide as the value or wider makes it unsigned.
def compared : IntType → Int → Int
  | uint32,value => value % 2^32
  | uint64,value => value % 2^64
  | _,value => value

def Holds (type : IntType) (value : Int) : Prop := type.min ≤ value ∧ value ≤ type.max

instance (type : IntType) (value : Int) : Decidable (type.Holds value) :=
  inferInstanceAs (Decidable (_ ∧ _))

theorem cast_of_holds {type : IntType} {value : Int} (held : type.Holds value) : type.cast value = value := by
  cases type <;> simp only [Holds,cast,min,max,Int.bmod_def] at held ⊢
  case bool => split <;> omega
  case int8 | int16 | int32 | int64 => split <;> omega
  all_goals omega

end IntType

structure StdString where
  data : List UInt8
  capacity : Nat
  fits : data.length ≤ capacity

namespace StdString

def empty : StdString := ⟨[],0,Nat.le_refl _⟩

def reserve (s : StdString) (room : Nat) : StdString :=
  ⟨s.data,Nat.max s.capacity room,Nat.le_trans s.fits (Nat.le_max_left _ _)⟩

-- Cleared and copied into; room once allocated is kept.
def refill (s : StdString) (bytes : List UInt8) : StdString :=
  ⟨bytes,Nat.max s.capacity bytes.length,Nat.le_max_right _ _⟩

end StdString

-- A reference member of a decoder or encoder, over the memory it refers into.
structure Ref (σ τ : Type) where
  read : σ → τ
  write : τ → σ → σ

structure ElementDecoder (σ : Type) where
  decode : List UInt8 → σ → Bool × σ

def decimalDigit (v : UInt8) : Option Nat :=
  if v < 48 ∨ v > 57 then none else some (v.toNat - 48)

def hexDigit (v : UInt8) : Option Nat :=
  if v ≥ 48 ∧ v ≤ 57 then some (v.toNat - 48)
  else if v ≥ 65 ∧ v ≤ 70 then some (v.toNat - 55)
  else none

def readDigits (base : Nat) (digit : UInt8 → Option Nat) (narrow : Int → Int) (tmpValue : Int) : List UInt8 → Option Int
  | [] => some tmpValue
  | v :: rest => match digit v with
    | none => none
    | some d => readDigits base digit narrow (narrow (tmpValue * base + d)) rest

def toUint32 (value : Int) : Int := value % 2^32

-- Every decoder reads its element into a value or rejects it, and assigns the
-- value through its reference.
def assign (value : Ref σ τ) (memory : σ) : Option τ → Bool × σ
  | none => (false,memory)
  | some v => (true,value.write v memory)

namespace ElementUintDecoder

def parse (type : IntType) (length : Nat) (element : List UInt8) : Option Int :=
  if element.length ≠ length then none else (readDigits 10 decimalDigit toUint32 0 element).map type.cast

def decode (type : IntType) (value : Ref σ Int) (length : Nat) (element : List UInt8) (memory : σ) : Bool × σ :=
  assign value memory (parse type length element)

end ElementUintDecoder

namespace ElementHexUintDecoder

def parse (type : IntType) (length : Nat) (element : List UInt8) : Option Int :=
  match element with
  | [] => none
  | first :: digits =>
    if digits.length ≠ length ∨ first ≠ 104 then none else (readDigits 16 hexDigit toUint32 0 digits).map type.cast

def decode (type : IntType) (value : Ref σ Int) (length : Nat) (element : List UInt8) (memory : σ) : Bool × σ :=
  assign value memory (parse type length element)

end ElementHexUintDecoder

namespace ElementIntDecoder

def saturate (type : IntType) (tmpValue : Int) : Int :=
  if type.compared tmpValue > type.max then type.max else if type.compared tmpValue < type.min then type.min else tmpValue

def parse (type : IntType) (length : Nat) (element : List UInt8) : Option Int :=
  match element with
  | [] => none
  | v :: digits =>
    if digits.length ≠ length then none
    else if v ≠ 32 ∧ v ≠ 45 then none
    else (readDigits 10 decimalDigit int32 0 digits).map fun tmpValue =>
      type.cast (saturate type (if v = 45 then int32 (-tmpValue) else tmpValue))

def decode (type : IntType) (value : Ref σ Int) (length : Nat) (element : List UInt8) (memory : σ) : Bool × σ :=
  assign value memory (parse type length element)

end ElementIntDecoder

namespace ElementStringDecoder

def parse (value : StdString) (length : Nat) (element : List UInt8) : Option StdString :=
  if (element.length : Int) ≠ int32 length ∨ value.capacity < length then none else some (value.refill element)

def decode (value : Ref σ StdString) (length : Nat) (element : List UInt8) (memory : σ) : Bool × σ :=
  assign value memory (parse (value.read memory) length element)

def construct (value : Ref σ StdString) (length : Nat) (memory : σ) : σ :=
  value.write ((value.read memory).reserve (length+1)) memory

end ElementStringDecoder

def elementUintDecoder (type : IntType) (value : Ref σ Int) (length : Nat) : ElementDecoder σ :=
  ⟨ElementUintDecoder.decode type value length⟩

def elementHexUintDecoder (type : IntType) (value : Ref σ Int) (length : Nat) : ElementDecoder σ :=
  ⟨ElementHexUintDecoder.decode type value length⟩

def elementIntDecoder (type : IntType) (value : Ref σ Int) (length : Nat) : ElementDecoder σ :=
  ⟨ElementIntDecoder.decode type value length⟩

def elementStringDecoder (value : Ref σ StdString) (length : Nat) : ElementDecoder σ :=
  ⟨ElementStringDecoder.decode value length⟩

def ElementDecoder.within (part : Ref σ τ) (decoder : ElementDecoder τ) : ElementDecoder σ where
  decode element memory :=
    let (ret,inner) := decoder.decode element (part.read memory)
    (ret,part.write inner memory)

end HsrbDrivers.PowerEcu

import Mathlib.Data.Rat.Floor
import Mathlib.Data.UInt

namespace HsrbDrivers.DigitalIo

structure Sensors where
  magneticSensor1 : Bool
  magneticSensor2 : Bool
  emergencyButton : Bool
  pressureSensor : Bool
  frontBumperSensor : Bool
  rearBumperSensor : Bool
deriving DecidableEq,Repr

structure SerialConnection where
  colorR : Int
  colorG : Int
  colorB : Int
  headLed : Int
  handLed : Int
  drivePower : Int
  suction : Int
  sensors : Sensors
deriving DecidableEq,Repr

-- `bytes(values)`, or `none` when it raises.
def bytesOf (values : List Int) : Option (List UInt8) :=
  values.mapM fun value => if 0 ≤ value ∧ value < 256 then some (UInt8.ofNat value.toNat) else none

def continuation (b : UInt8) : Bool := 0x80 ≤ b && b < 0xC0

def decode : List UInt8 → Option (List Char)
  | [] => some []
  | a :: rest => if a < 0x80 then (decode rest).map (Char.ofNat a.toNat :: ·) else match rest with
    | [] => none
    | b :: rest => if !continuation b then none
      else if 0xC2 ≤ a && a < 0xE0 then
        (decode rest).map (Char.ofNat (a.toNat % 0x20 * 0x40 + b.toNat % 0x40) :: ·)
      else match rest with
      | [] => none
      | c :: rest => if !continuation c then none
        else if 0xE0 ≤ a && a < 0xF0 && !(a == 0xE0 && b < 0xA0) && !(a == 0xED && 0xA0 ≤ b) then
          (decode rest).map (Char.ofNat (a.toNat % 0x10 * 0x1000 + b.toNat % 0x40 * 0x40 + c.toNat % 0x40) :: ·)
        else match rest with
        | [] => none
        | d :: rest => if !continuation d then none
          else if 0xF0 ≤ a && a < 0xF5 && !(a == 0xF0 && b < 0x90) && !(a == 0xF4 && 0x90 ≤ b) then
            (decode rest).map (Char.ofNat (a.toNat % 8 * 0x40000 + b.toNat % 0x40 * 0x1000 + c.toNat % 0x40 * 0x40 +
              d.toNat % 0x40) :: ·)
          else none

-- The zeros of the decimal digits of Unicode, each followed by its nine others.
def decimalZeros : List Nat :=
  [0x30,0x660,0x6F0,0x7C0,0x966,0x9E6,0xA66,0xAE6,0xB66,0xBE6,0xC66,0xCE6,0xD66,0xDE6,0xE50,0xED0,0xF20,0x1040,0x1090,
    0x17E0,0x1810,0x1946,0x19D0,0x1A80,0x1A90,0x1B50,0x1BB0,0x1C40,0x1C50,0xA620,0xA8D0,0xA900,0xA9D0,0xA9F0,0xAA50,0xABF0,
    0xFF10,0x104A0,0x10D30,0x11066,0x110F0,0x11136,0x111D0,0x112F0,0x11450,0x114D0,0x11650,0x116C0,0x11730,0x118E0,0x11950,
    0x11C50,0x11D50,0x11DA0,0x16A60,0x16AC0,0x16B50,0x1D7CE,0x1D7D8,0x1D7E2,0x1D7EC,0x1D7F6,0x1E140,0x1E2F0,0x1E950,0x1FBF0]

-- `int(value)` of one character, or `none` when it raises.
def intOf (value : Char) : Option Nat :=
  (decimalZeros.find? fun nought => nought ≤ value.toNat && value.toNat < nought + 10).map fun nought => value.toNat - nought

def setters : List (Sensors → Bool → Sensors) :=
  [fun s value => {s with magneticSensor1 := value},fun s value => {s with magneticSensor2 := value},
    fun s value => {s with emergencyButton := value},fun s value => {s with pressureSensor := value},
    fun s value => {s with frontBumperSensor := value},fun s value => {s with rearBumperSensor := value}]

def assign : List (Sensors → Bool → Sensors) → List Char → Sensors → Bool × Sensors
  | set :: setters,value :: values,s => match intOf value with
    | some n => assign setters values (set s (n != 0))
    | none => (false,s)
  | _,_,s => (true,s)

inductive ReadResult where
  | unchanged
  | updated
  | raised
deriving DecidableEq,Repr

namespace SerialConnection

def kColorInputMax : Int := 255

def initial : SerialConnection := ⟨255,255,255,0,0,1,0,false,false,false,false,false,false⟩

-- `round` rounds the product to a double, one that overflows counting as the largest. `int`
-- truncates, which is the floor here.
def toColorInput (round : ℚ → ℚ) (value : ℚ) : Int := ⌊min (max 0 (round (value * kColorInputMax))) kColorInputMax⌋

def setColor (c : SerialConnection) (round : ℚ → ℚ) (r g b : ℚ) : SerialConnection :=
  {c with colorR := toColorInput round r,colorG := toColorInput round g,colorB := toColorInput round b}

def setHeadLed (c : SerialConnection) (state : Bool) : SerialConnection := {c with headLed := state.toInt}
def setHandLed (c : SerialConnection) (state : Bool) : SerialConnection := {c with handLed := state.toInt}
def setDrivePower (c : SerialConnection) (state : Bool) : SerialConnection := {c with drivePower := state.toInt}
def setSuction (c : SerialConnection) (state : Bool) : SerialConnection := {c with suction := state.toInt}

def frame (c : SerialConnection) : Option (List UInt8) :=
  bytesOf [c.colorR,c.colorG,c.colorB,c.headLed,c.handLed,c.drivePower,c.suction]

def read (c : SerialConnection) (data : List UInt8) : ReadResult × SerialConnection :=
  match decode data with
  | none => (.raised,c)
  | some values => if values.length < 6 then (.unchanged,c) else
    match assign setters values c.sensors with
    | (true,sensors) => (.updated,{c with sensors := sensors})
    | (false,sensors) => (.raised,{c with sensors := sensors})

-- The colour components are values of a byte, and those of the switches are 0 or 1.
def Colored (c : SerialConnection) : Prop := ∀ value ∈ [c.colorR,c.colorG,c.colorB], 0 ≤ value ∧ value < 256

def Switched (c : SerialConnection) : Prop :=
  ∃ head hand drive suction : Bool, c.headLed = head.toInt ∧ c.handLed = hand.toInt ∧ c.drivePower = drive.toInt ∧
    c.suction = suction.toInt

theorem toColorInput_range (round : ℚ → ℚ) (value : ℚ) : 0 ≤ toColorInput round value ∧ toColorInput round value < 256 := by
  unfold toColorInput
  constructor
  · exact Int.floor_nonneg.mpr (le_min (le_max_left _ _) (by decide))
  · refine Int.floor_lt.mpr (lt_of_le_of_lt (min_le_right _ _) ?_)
    decide

theorem setColor_colored (c : SerialConnection) (round : ℚ → ℚ) (r g b : ℚ) : (c.setColor round r g b).Colored := by
  intro value member
  rcases List.mem_cons.mp member with rfl | member
  · exact toColorInput_range round r
  · rcases List.mem_cons.mp member with rfl | member
    · exact toColorInput_range round g
    · exact List.mem_singleton.mp member ▸ toColorInput_range round b

section Switches
variable {c : SerialConnection} (switched : c.Switched) (state : Bool)
include switched

theorem setHeadLed_switched : (c.setHeadLed state).Switched :=
  let ⟨_,hand,drive,suction,_,rest⟩ := switched
  ⟨state,hand,drive,suction,rfl,rest⟩

theorem setHandLed_switched : (c.setHandLed state).Switched :=
  let ⟨head,_,drive,suction,isHead,_,rest⟩ := switched
  ⟨head,state,drive,suction,isHead,rfl,rest⟩

theorem setDrivePower_switched : (c.setDrivePower state).Switched :=
  let ⟨head,hand,_,suction,isHead,isHand,_,rest⟩ := switched
  ⟨head,hand,state,suction,isHead,isHand,rfl,rest⟩

theorem setSuction_switched : (c.setSuction state).Switched :=
  let ⟨head,hand,drive,_,isHead,isHand,isDrive,_⟩ := switched
  ⟨head,hand,drive,state,isHead,isHand,isDrive,rfl⟩

end Switches

theorem bytesOf_range {values : List Int} (range : ∀ value ∈ values, 0 ≤ value ∧ value < 256) :
    bytesOf values = some (values.map fun value => UInt8.ofNat value.toNat) := by
  unfold bytesOf
  induction values with
  | nil => rfl
  | cons value values ih =>
      have first := range value List.mem_cons_self
      have rest := ih fun one member => range one (List.mem_cons_of_mem _ member)
      rw [List.mapM_cons,if_pos first,rest]
      rfl

def command (c : SerialConnection) : List UInt8 :=
  [c.colorR,c.colorG,c.colorB,c.headLed,c.handLed,c.drivePower,c.suction].map fun value => UInt8.ofNat value.toNat

theorem command_length (c : SerialConnection) : c.command.length = 7 := rfl

theorem toInt_range (state : Bool) : 0 ≤ state.toInt ∧ state.toInt < 256 := by
  cases state <;> decide

theorem frame_command {c : SerialConnection} (colored : c.Colored) (switched : c.Switched) : c.frame = some c.command := by
  apply bytesOf_range
  obtain ⟨head,hand,drive,suction,isHead,isHand,isDrive,isSuction⟩ := switched
  rw [isHead,isHand,isDrive,isSuction]
  simp only [Colored,List.forall_mem_cons] at colored ⊢
  obtain ⟨red,green,blue,_⟩ := colored
  refine ⟨red,green,blue,toInt_range head,toInt_range hand,toInt_range drive,toInt_range suction,?_⟩
  intro value member
  cases member

end SerialConnection

def digit (value : Bool) : UInt8 := if value then 49 else 48

def Sensors.values (s : Sensors) : List Bool :=
  [s.magneticSensor1,s.magneticSensor2,s.emergencyButton,s.pressureSensor,s.frontBumperSensor,s.rearBumperSensor]

theorem Sensors.values_injective {s t : Sensors} (same : s.values = t.values) : s = t := by
  cases s
  cases t
  cases same
  rfl

theorem Sensors.exists_values {values : List Bool} (six : values.length = 6) : ∃ s : Sensors, values = s.values := by
  obtain ⟨a,values,rfl⟩ := List.exists_cons_of_length_eq_add_one six
  obtain ⟨b,values,rfl⟩ := List.exists_cons_of_length_eq_add_one (Nat.succ.inj six)
  obtain ⟨c,values,rfl⟩ := List.exists_cons_of_length_eq_add_one (Nat.succ.inj (Nat.succ.inj six))
  obtain ⟨d,e,f,rfl⟩ := List.length_eq_three.mp (Nat.succ.inj (Nat.succ.inj (Nat.succ.inj six)))
  exact ⟨⟨a,b,c,d,e,f⟩,rfl⟩

def digitChar (value : Bool) : Char := if value then '1' else '0'

theorem decode_digits (values : List Bool) : decode (values.map digit) = some (values.map digitChar) := by
  induction values with
  | nil => rfl
  | cons value values ih =>
      have first : decode (digit value :: values.map digit) = (decode (values.map digit)).map (digitChar value :: ·) := by
        have ascii : digit value < 0x80 ∧ Char.ofNat (digit value).toNat = digitChar value := by cases value <;> decide
        rw [decode.eq_def]
        dsimp only
        rw [if_pos ascii.1,ascii.2]
      rw [List.map_cons,first,ih]
      rfl

theorem intOf_digit (value : Bool) : intOf (digitChar value) = some value.toNat := by cases value <;> decide

theorem assign_digits (s t : Sensors) : assign setters (s.values.map digitChar) t = (true,s) := by
  have back : ∀ value : Bool, (value.toNat != 0) = value := by decide
  simp only [setters,Sensors.values,List.map_cons,List.map_nil,assign,intOf_digit,back]

namespace SerialConnection

theorem read_sensors (c : SerialConnection) (data : List UInt8) : ∃ sensors, (c.read data).2 = {c with sensors := sensors} := by
  unfold read
  split
  · exact ⟨c.sensors,rfl⟩
  · split
    · exact ⟨c.sensors,rfl⟩
    · split
      · exact ⟨_,rfl⟩
      · exact ⟨_,rfl⟩

theorem read_values (c : SerialConnection) (s : Sensors) : c.read (s.values.map digit) = (.updated,{c with sensors := s}) := by
  unfold read
  rw [decode_digits]
  dsimp only
  rw [if_neg (by rw [List.length_map]; exact Nat.lt_irrefl 6),assign_digits]

theorem read_short (c : SerialConnection) {values : List Bool} (short : values.length < 6) :
    c.read (values.map digit) = (.unchanged,c) := by
  unfold read
  rw [decode_digits]
  dsimp only
  rw [if_pos (by rw [List.length_map]; exact short)]

end SerialConnection
end HsrbDrivers.DigitalIo

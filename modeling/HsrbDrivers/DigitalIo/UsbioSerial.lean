import HsrbDrivers.DigitalIo.SerialConnection
import Mathlib.Logic.Function.Basic

namespace HsrbDrivers.DigitalIo

def kStatusLedRed : Nat := 9
def kStatusLedGreen : Nat := 10
def kStatusLedBlue : Nat := 11

def kHeadLed : Nat := 5
def kHandLed : Nat := 3
def kDrivePower : Nat := 4
def kSuction : Nat := 2

def kMagneticSensor1 : Nat := 8
def kMagneticSensor2 : Nat := 7
def kEmergencySwitch : Nat := 6
def kFrontBumperSensor : Nat := 18
def kRearBumperSensor : Nat := 19

def kCeaseComunicate : Nat := 4000
def kBlinkWait : Nat := 1000

-- What the pins give to one pass of `loop`. The emergency switch is read twice, for the
-- blinking and for the reply.
structure Inputs where
  frontBumper : Bool
  rearBumper : Bool
  emergencySwitch : Bool
  magneticSensor1 : Bool
  magneticSensor2 : Bool
  emergencySwitchAgain : Bool
  pressureAnalog : Nat

-- The globals of the sketch and what it put on its pins. An `unsigned int` has 16 bits.
structure Sketch where
  prevHeadLed : Bool
  prevHandLed : Bool
  prevDrivePower : Bool
  prevSuction : Bool
  frontBumper : Bool
  rearBumper : Bool
  frontBumperCount : Nat
  rearBumperCount : Nat
  countTimeout : Nat
  countBlinking : Nat
  isLedOn : Bool
  levels : Nat → Bool
  duties : Nat → UInt8

namespace Sketch

def digitalWrite (s : Sketch) (pinId : Nat) (level : Bool) : Sketch := {s with levels := Function.update s.levels pinId level}

def analogWrite (s : Sketch) (pinId : Nat) (duty : UInt8) : Sketch := {s with duties := Function.update s.duties pinId duty}

def statusLed (s : Sketch) (red green blue : UInt8) : Sketch :=
  ((s.analogWrite kStatusLedRed red).analogWrite kStatusLedGreen green).analogWrite kStatusLedBlue blue

def globals : Sketch := ⟨false,false,true,false,false,false,0,0,0,0,true,fun _ => false,fun _ => 0⟩

def setup : Sketch :=
  [kMagneticSensor1,kMagneticSensor2,kEmergencySwitch,kFrontBumperSensor,kRearBumperSensor,kDrivePower].foldl
    (fun s pinId => s.digitalWrite pinId true) globals

-- The reference `state` is given back.
def writeCommand (s : Sketch) (pinId : Nat) (state : Bool) (command : UInt8) : Bool × Sketch :=
  if command = 0 ∧ state then (false,s.digitalWrite pinId false)
  else if command = 1 ∧ ¬ state then (true,s.digitalWrite pinId true)
  else (state,s)

def countBumper (pressed : Bool) (count : Nat) (bumper : Bool) : Nat × Bool :=
  if pressed then ((count+1) % 2^16,if (count+1) % 2^16 ≥ 10 then true else bumper) else (0,bumper)

def watchInputs (s : Sketch) (i : Inputs) : Sketch :=
  let s := {s with countBlinking := (s.countBlinking+1) % 2^16,countTimeout := (s.countTimeout+1) % 2^16}
  let (frontBumperCount,frontBumper) := countBumper i.frontBumper s.frontBumperCount s.frontBumper
  let (rearBumperCount,rearBumper) := countBumper i.rearBumper s.rearBumperCount s.rearBumper
  let s := {s with frontBumperCount := frontBumperCount,frontBumper := frontBumper}
  let s := {s with rearBumperCount := rearBumperCount,rearBumper := rearBumper}
  if i.emergencySwitch then
    if s.countBlinking % kBlinkWait = 0 then {s with countBlinking := 0,isLedOn := !s.isLedOn} else s
  else {s with isLedOn := true}

def writeOutput (pinId : Nat) (state : Sketch → Bool) (assign : Sketch → Bool → Sketch) (s : Sketch) (command : UInt8) : Sketch :=
  assign (s.writeCommand pinId (state s) command).2 (s.writeCommand pinId (state s) command).1

def writeHeadLed : Sketch → UInt8 → Sketch := writeOutput kHeadLed prevHeadLed fun s state => {s with prevHeadLed := state}
def writeHandLed : Sketch → UInt8 → Sketch := writeOutput kHandLed prevHandLed fun s state => {s with prevHandLed := state}
def writeDrivePower : Sketch → UInt8 → Sketch := writeOutput kDrivePower prevDrivePower fun s state => {s with prevDrivePower := state}
def writeSuction : Sketch → UInt8 → Sketch := writeOutput kSuction prevSuction fun s state => {s with prevSuction := state}

def reply (s : Sketch) (i : Inputs) : Sensors :=
  ⟨!i.magneticSensor1,!i.magneticSensor2,i.emergencySwitchAgain,decide (i.pressureAnalog ≤ 512),s.frontBumper,s.rearBumper⟩

def ceaseComunicate (s : Sketch) : Sketch :=
  if s.countTimeout > kCeaseComunicate then
    let s := {s with countTimeout := kCeaseComunicate}
    if s.isLedOn then s.statusLed 255 255 255 else s.statusLed 0 0 0
  else s

-- One pass. When a whole command frame is available, its seven bytes are read and the
-- reply is printed.
def loop (s : Sketch) (i : Inputs) (available : List UInt8) : Option Sensors × Sketch :=
  let s := s.watchInputs i
  match available with
  | red :: green :: blue :: head :: hand :: drive :: suction :: _ =>
    let s := {s with countTimeout := 0}
    let s := if s.isLedOn then s.statusLed red green blue else s.statusLed 0 0 0
    let s := (((s.writeHeadLed head).writeHandLed hand).writeDrivePower drive).writeSuction suction
    (some (s.reply i),ceaseComunicate {s with frontBumper := false,rearBumper := false})
  | _ => (none,s.ceaseComunicate)

def Mirrors (s : Sketch) : Prop :=
  s.levels kHeadLed = s.prevHeadLed ∧ s.levels kHandLed = s.prevHandLed ∧
    s.levels kDrivePower = s.prevDrivePower ∧ s.levels kSuction = s.prevSuction

def Shows (s : Sketch) (held : SerialConnection) : Prop :=
  (s.levels kHeadLed).toInt = held.headLed ∧ (s.levels kHandLed).toInt = held.handLed ∧
    (s.levels kDrivePower).toInt = held.drivePower ∧ (s.levels kSuction).toInt = held.suction

theorem setup_mirrors : setup.Mirrors := by
  refine ⟨?_,?_,?_,?_⟩ <;> decide

def commandByte (level : Bool) : UInt8 := UInt8.ofNat level.toInt.toNat

theorem writeCommand_level (s : Sketch) {pinId : Nat} {state : Bool} (mirrored : s.levels pinId = state) (level : Bool) :
    s.writeCommand pinId state (commandByte level) = (level,s.digitalWrite pinId level) := by
  have kept : s.levels pinId = level → s = s.digitalWrite pinId level := by
    rintro rfl
    rw [digitalWrite,Function.update_eq_self]
  cases level with
  | false =>
      cases state with
      | false => exact congrArg (Prod.mk false) (kept mirrored)
      | true => rfl
  | true =>
      cases state with
      | false => rfl
      | true => exact congrArg (Prod.mk true) (kept mirrored)

theorem writeOutput_level {s : Sketch} {pinId : Nat} {state : Sketch → Bool} (mirrored : s.levels pinId = state s)
    (assign : Sketch → Bool → Sketch) (level : Bool) :
    writeOutput pinId state assign s (commandByte level) = assign (s.digitalWrite pinId level) level := by
  unfold writeOutput
  rw [writeCommand_level s mirrored]

theorem writeHeadLed_level {s : Sketch} (mirrored : s.levels kHeadLed = s.prevHeadLed) (level : Bool) :
    s.writeHeadLed (commandByte level) = {s.digitalWrite kHeadLed level with prevHeadLed := level} :=
  writeOutput_level mirrored _ level

theorem writeHandLed_level {s : Sketch} (mirrored : s.levels kHandLed = s.prevHandLed) (level : Bool) :
    s.writeHandLed (commandByte level) = {s.digitalWrite kHandLed level with prevHandLed := level} :=
  writeOutput_level mirrored _ level

theorem writeDrivePower_level {s : Sketch} (mirrored : s.levels kDrivePower = s.prevDrivePower) (level : Bool) :
    s.writeDrivePower (commandByte level) = {s.digitalWrite kDrivePower level with prevDrivePower := level} :=
  writeOutput_level mirrored _ level

theorem writeSuction_level {s : Sketch} (mirrored : s.levels kSuction = s.prevSuction) (level : Bool) :
    s.writeSuction (commandByte level) = {s.digitalWrite kSuction level with prevSuction := level} :=
  writeOutput_level mirrored _ level

theorem writes_level {s : Sketch} (mirrors : s.Mirrors) (head hand drive suction : Bool) :
    (((s.writeHeadLed (commandByte head)).writeHandLed (commandByte hand)).writeDrivePower (commandByte drive)).writeSuction
      (commandByte suction) =
        {(((s.digitalWrite kHeadLed head).digitalWrite kHandLed hand).digitalWrite kDrivePower drive).digitalWrite kSuction suction with
          prevHeadLed := head
          prevHandLed := hand
          prevDrivePower := drive
          prevSuction := suction} := by
  obtain ⟨mirrorsHead,mirrorsHand,mirrorsDrive,mirrorsSuction⟩ := mirrors
  have other : ∀ {levels : Nat → Bool} (pinId : Nat) (level : Bool) {pin : Nat} {state : Bool}, pin ≠ pinId →
      levels pin = state → Function.update levels pinId level pin = state :=
    fun _ level _ _ apart mirrored => (Function.update_of_ne apart level _).trans mirrored
  rw [writeHeadLed_level mirrorsHead,writeHandLed_level,writeDrivePower_level,writeSuction_level]
  · rfl
  · exact other kDrivePower drive (by decide) (other kHandLed hand (by decide) (other kHeadLed head (by decide) mirrorsSuction))
  · exact other kHandLed hand (by decide) (other kHeadLed head (by decide) mirrorsDrive)
  · exact other kHeadLed head (by decide) mirrorsHand

def Agrees (s t : Sketch) : Prop :=
  t.levels = s.levels ∧ t.prevHeadLed = s.prevHeadLed ∧ t.prevHandLed = s.prevHandLed ∧
    t.prevDrivePower = s.prevDrivePower ∧ t.prevSuction = s.prevSuction

theorem Agrees.mirrors {s t : Sketch} (agrees : s.Agrees t) (mirrors : s.Mirrors) : t.Mirrors := by
  obtain ⟨levels,head,hand,drive,suction⟩ := agrees
  unfold Mirrors
  rw [levels,head,hand,drive,suction]
  exact mirrors

theorem Agrees.shows {s t : Sketch} (agrees : s.Agrees t) {held : SerialConnection} (shown : s.Shows held) : t.Shows held := by
  unfold Shows
  rw [agrees.1]
  exact shown

theorem watchInputs_agrees (s : Sketch) (i : Inputs) : s.Agrees (s.watchInputs i) := by
  unfold watchInputs
  dsimp only
  split
  · split
    · exact ⟨rfl,rfl,rfl,rfl,rfl⟩
    · exact ⟨rfl,rfl,rfl,rfl,rfl⟩
  · exact ⟨rfl,rfl,rfl,rfl,rfl⟩

theorem ceaseComunicate_agrees (s : Sketch) : s.Agrees s.ceaseComunicate := by
  unfold ceaseComunicate
  dsimp only
  split
  · split
    · exact ⟨rfl,rfl,rfl,rfl,rfl⟩
    · exact ⟨rfl,rfl,rfl,rfl,rfl⟩
  · exact ⟨rfl,rfl,rfl,rfl,rfl⟩

theorem Agrees.trans {s t u : Sketch} (one : s.Agrees t) (two : t.Agrees u) : s.Agrees u :=
  ⟨two.1.trans one.1,two.2.1.trans one.2.1,two.2.2.1.trans one.2.2.1,two.2.2.2.1.trans one.2.2.2.1,
    two.2.2.2.2.trans one.2.2.2.2⟩

theorem loop_short (s : Sketch) (i : Inputs) {available : List UInt8} (short : available.length < 7) :
    s.loop i available = (none,(s.watchInputs i).ceaseComunicate) := by
  unfold loop
  dsimp only
  split
  · exact absurd short (by simp)
  · rfl

theorem loop_idle (s : Sketch) (i : Inputs) {available : List UInt8} (short : available.length < 7) :
    (s.loop i available).1 = none ∧ s.Agrees (s.loop i available).2 := by
  rw [loop_short s i short]
  exact ⟨rfl,(watchInputs_agrees s i).trans (ceaseComunicate_agrees _)⟩

theorem loop_frame {s : Sketch} (mirrors : s.Mirrors) (i : Inputs) (red green blue : UInt8) (head hand drive suction : Bool)
    (rest : List UInt8) :
    ∃ sensors t, s.loop i (red :: green :: blue :: commandByte head :: commandByte hand :: commandByte drive ::
        commandByte suction :: rest) = (some sensors,t) ∧ t.Mirrors ∧
      t.levels kHeadLed = head ∧ t.levels kHandLed = hand ∧ t.levels kDrivePower = drive ∧ t.levels kSuction = suction := by
  have watched := (watchInputs_agrees s i).mirrors mirrors
  unfold loop
  dsimp only
  generalize s.watchInputs i = w at watched
  generalize lit : (if w.isLedOn then {w with countTimeout := 0}.statusLed red green blue else
    {w with countTimeout := 0}.statusLed 0 0 0) = l
  have litMirrors : l.Mirrors := by
    rw [← lit]
    split
    · exact watched
    · exact watched
  rw [writes_level litMirrors]
  have shown : ∀ t : Sketch, {(((l.digitalWrite kHeadLed head).digitalWrite kHandLed hand).digitalWrite kDrivePower drive).digitalWrite
      kSuction suction with
        prevHeadLed := head
        prevHandLed := hand
        prevDrivePower := drive
        prevSuction := suction}.Agrees t →
      t.Mirrors ∧ t.levels kHeadLed = head ∧ t.levels kHandLed = hand ∧ t.levels kDrivePower = drive ∧ t.levels kSuction = suction := by
    intro t agrees
    refine ⟨agrees.mirrors ⟨rfl,rfl,rfl,rfl⟩,?_⟩
    rw [agrees.1]
    exact ⟨rfl,rfl,rfl,rfl⟩
  exact ⟨_,_,rfl,shown _ (Agrees.trans ⟨rfl,rfl,rfl,rfl,rfl⟩ (ceaseComunicate_agrees _))⟩

theorem loop_command {s : Sketch} (mirrors : s.Mirrors) (i : Inputs) {held : SerialConnection} (switched : held.Switched)
    (rest : List UInt8) : ∃ sensors t, s.loop i (held.command ++ rest) = (some sensors,t) ∧ t.Mirrors ∧ t.Shows held := by
  obtain ⟨head,hand,drive,suction,isHead,isHand,isDrive,isSuction⟩ := switched
  obtain ⟨sensors,t,looped,mirrored,showsHead,showsHand,showsDrive,showsSuction⟩ := loop_frame mirrors i
    (UInt8.ofNat held.colorR.toNat) (UInt8.ofNat held.colorG.toNat) (UInt8.ofNat held.colorB.toNat) head hand drive suction rest
  refine ⟨sensors,t,?_,mirrored,?_⟩
  · rw [SerialConnection.command,isHead,isHand,isDrive,isSuction]
    exact looped
  · unfold Shows
    rw [showsHead,showsHand,showsDrive,showsSuction,isHead,isHand,isDrive,isSuction]
    exact ⟨rfl,rfl,rfl,rfl⟩

end Sketch
end HsrbDrivers.DigitalIo

import HsrbDrivers.Library.Backlog
import HsrbDrivers.PowerEcu.MainLoop
import Mathlib.Data.List.ReduceOption

namespace HsrbDrivers.PowerEcu

structure BatteryState where
  percentage : Float32
  temperature : Float32
  voltage : Float32
  current : Float32
  charge : Float32
  capacity : Float32
  stamp : Int

structure Imu where
  orientation : List Float
  angularVelocity : List Float
  linearAcceleration : List Float
  frameId : String
  stamp : Int

inductive StateMessage where
  | bool (data : Bool)
  | batteryState (message : BatteryState)
  | imu (message : Imu)

def Param.toBool : Param → Bool
  | .bool value => value
  | _ => false

def Param.toDouble : Param → Float
  | .real value => value
  | _ => 0

def Param.toDoubles : Param → List Float
  | .reals values => values
  | _ => []

def PowerEcuProtocol.getParamPtr (p : PowerEcuProtocol) (name : String) (type : ParamType) : Option (Received → Param) :=
  (p.frameDecoder.decoders.filterMap fun d => d.getParamPtr name).find? fun read => (read p.received).type = type

def existParamPtr (p : PowerEcuProtocol) (name : String) (type : ParamType) : Except Stop (Received → Param) :=
  match p.getParamPtr name type with
  | none => .error .exit
  | some read => .ok read

-- Smaller than `std::numeric_limits<double>::min()`.
def getPositiveParameter (value defaultValue : Float) : Float :=
  if value < 2.2250738585072014e-308 then defaultValue else value

structure Call where
  currentTime : Int
  received : Received
  stamp : Int

structure StatePublisher (μ : Type) where
  createMessage : Received → Int → μ
  publishPeriod : Int
  nextPublishTime : Int

namespace StatePublisher

-- `fromSeconds` is that of the durations of ROS, and `publishRate` what the node has for the parameter.
def construct (fromSeconds : Float → Int) (publishRate : Float) (now : Int) (createMessage : Received → Int → μ) : StatePublisher μ :=
  let publishPeriod := fromSeconds (1 / getPositiveParameter publishRate 1)
  ⟨createMessage,publishPeriod,now + publishPeriod⟩

def publish (s : StatePublisher μ) (call : Call) : Option μ × StatePublisher μ :=
  if call.currentTime < s.nextPublishTime then (none,s) else
    (some (s.createMessage call.received call.stamp),{s with nextPublishTime := s.nextPublishTime + s.publishPeriod})

def publishes (s : StatePublisher μ) : List Call → List (Option μ) × StatePublisher μ
  | [] => ([],s)
  | call :: calls =>
    let (message,s) := s.publish call
    let (messages,s) := publishes s calls
    (message :: messages,s)

end StatePublisher

def boolStatePublisher (p : PowerEcuProtocol) (ecuParameterName : String) : Except Stop (Received → Int → StateMessage) := do
  let state ← existParamPtr p ecuParameterName .bool
  return fun m _ => .bool (state m).toBool

def runstopStatePublisher (p : PowerEcuProtocol) : Except Stop (Received → Int → StateMessage) := do
  let isPowerecuSwWSel ← existParamPtr p "is_powerecu_sw_w_sel" .bool
  let isPowerecuSwKinoko ← existParamPtr p "is_powerecu_sw_kinoko" .bool
  let isPowerecuSwWStop ← existParamPtr p "is_powerecu_sw_w_stop" .bool
  return fun m _ => .bool ((isPowerecuSwKinoko m).toBool || ((isPowerecuSwWSel m).toBool && (isPowerecuSwWStop m).toBool))

def batteryStatePublisher (p : PowerEcuProtocol) : Except Stop (Received → Int → StateMessage) := do
  let batteryRelativeCapacity ← existParamPtr p "battery_relative_capacity" .real
  let batteryTemperature ← existParamPtr p "battery_temperature" .real
  let batteryVoltage ← existParamPtr p "battery_voltage" .real
  let electricCurrent ← existParamPtr p "electric_current" .real
  let batteryRemainingCapacity ← existParamPtr p "battery_remaining_capacity" .real
  let batteryTotalCapacity ← existParamPtr p "battery_total_capacity" .real
  return fun m stamp => .batteryState {
    percentage := ((batteryRelativeCapacity m).toDouble / 100.0).toFloat32
    temperature := (batteryTemperature m).toDouble.toFloat32
    voltage := (batteryVoltage m).toDouble.toFloat32
    current := (-(electricCurrent m).toDouble).toFloat32
    charge := (batteryRemainingCapacity m).toDouble.toFloat32
    capacity := (batteryTotalCapacity m).toDouble.toFloat32
    stamp := stamp}

def imuStatePublisher (p : PowerEcuProtocol) (frameId : String) : Except Stop (Received → Int → StateMessage) := do
  let imuQuaternions ← existParamPtr p "imu_quaternions" .reals
  let imuAngularVelocities ← existParamPtr p "imu_angular_velocities" .reals
  let imuAccelerations ← existParamPtr p "imu_accelerations" .reals
  return fun m stamp => .imu {
    orientation := (imuQuaternions m).toDoubles
    angularVelocity := (imuAngularVelocities m).toDoubles
    linearAcceleration := (imuAccelerations m).toDoubles
    frameId := frameId
    stamp := stamp}

def kParamAndTopicNames : List (String × String) :=
  [("is_bumper_bumper1","base_f_bumper_sensor"),("is_bumper_bumper2","base_b_bumper_sensor"),
    ("is_powerecu_sw_kinoko","emergency_stop_button"),("is_powerecu_sw_w_stop","wireless_stop_button"),
    ("is_powerecu_sw_w_sel","wireless_stop_enable"),("is_powerecu_bat_stat","battery_charging"),
    ("is_bumper_prox1","base_magnetic_sensor_1"),("is_bumper_prox2","base_magnetic_sensor_2")]

def publishers (p : PowerEcuProtocol) (imuFrame : String) : Except Stop (List (String × (Received → Int → StateMessage))) := do
  let battery ← batteryStatePublisher p
  let runstop ← runstopStatePublisher p
  let imu ← imuStatePublisher p imuFrame
  let states ← kParamAndTopicNames.mapM fun (parameter,topic) => do
    let state ← boolStatePublisher p parameter
    return (topic,state)
  return ("battery_state",battery) :: ("runstop_button",runstop) :: ("imu/data",imu) :: states

namespace StatePublisher
open Backlog

-- How many whole periods have gone by.
def due (start period time : Int) : Nat := ((time - start) / period).toNat

def dues (start period : Int) (calls : List Call) : List Nat := calls.map fun call => due start period call.currentTime

def Forward (start : Int) (calls : List Call) : Prop :=
  List.IsChain (fun earlier later => earlier ≤ later) (start :: calls.map Call.currentTime)

-- Nor is the publisher without a call for longer than its period.
def Attended (start period : Int) (calls : List Call) : Prop :=
  List.IsChain (fun earlier later => earlier ≤ later ∧ later ≤ earlier + period) (start :: calls.map Call.currentTime)

def messages (s : StatePublisher μ) (calls : List Call) : List μ := (s.publishes calls).1.reduceOption

theorem publishes_append (s : StatePublisher μ) (calls more : List Call) :
    s.publishes (calls ++ more) =
      ((s.publishes calls).1 ++ ((s.publishes calls).2.publishes more).1,((s.publishes calls).2.publishes more).2) := by
  induction calls generalizing s with
  | nil => rfl
  | cons call calls ih => simp only [List.cons_append,publishes,ih]

theorem publishes_length (s : StatePublisher μ) (calls : List Call) : (s.publishes calls).1.length = calls.length := by
  induction calls generalizing s with
  | nil => rfl
  | cons call calls ih => simp [publishes,ih]

theorem due_mono {start period : Int} (positive : 0 < period) {earlier later : Int} (order : earlier ≤ later) :
    due start period earlier ≤ due start period later := by
  apply Int.toNat_le_toNat
  apply Int.ediv_le_ediv positive
  omega

theorem due_soon {start period : Int} (positive : 0 < period) {earlier later : Int} (soon : later ≤ earlier + period) :
    due start period later ≤ due start period earlier + 1 := by
  have shifted : (later - start) / period ≤ (earlier - start) / period + 1 := by
    rw [← Int.add_mul_ediv_right _ 1 positive.ne']
    apply Int.ediv_le_ediv positive
    omega
  unfold due
  omega

theorem lt_due_iff {start period : Int} (positive : 0 < period) (published : Nat) (time : Int) :
    published < due start period time ↔ start + (published + 1) * period ≤ time := by
  have whole : (published + 1 : Int) ≤ (time - start) / period ↔ (published + 1) * period ≤ time - start :=
    Int.le_ediv_iff_mul_le positive
  unfold due
  omega

def Published (s : StatePublisher μ) (start : Int) (count : Nat) (now : StatePublisher μ) : Prop :=
  now = {s with nextPublishTime := start + (count + 1) * s.publishPeriod}

theorem publish_visit {s now : StatePublisher μ} {start : Int} {count : Nat} (positive : 0 < s.publishPeriod)
    (published : Published s start count now) (call : Call) :
    (now.publish call).1 =
        (if count < due start s.publishPeriod call.currentTime then some (s.createMessage call.received call.stamp) else none) ∧
      Published s start (visit count (due start s.publishPeriod call.currentTime)) (now.publish call).2 := by
  have reached := @lt_due_iff start _ positive count call.currentTime
  cases published
  unfold publish visit Published
  by_cases early : call.currentTime < start + (count + 1) * s.publishPeriod
  · have waits : ¬ count < due start s.publishPeriod call.currentTime := by omega
    simp [early,waits]
  · have served : count < due start s.publishPeriod call.currentTime := by omega
    simp only [early,served,if_true,if_false,StatePublisher.mk.injEq,true_and]
    push_cast
    ring

theorem publishes_served {s : StatePublisher μ} {start : Int} (positive : 0 < s.publishPeriod)
    (begun : Published s start 0 s) (calls : List Call) :
    Published s start (served (dues start s.publishPeriod calls)) (s.publishes calls).2 ∧
      (s.messages calls).length = served (dues start s.publishPeriod calls) := by
  induction calls using List.reverseRecOn with
  | nil => exact ⟨begun,rfl⟩
  | append_singleton calls call ih =>
      obtain ⟨published,counted⟩ := ih
      obtain ⟨made,moved⟩ := publish_visit positive published call
      have split : dues start s.publishPeriod (calls ++ [call]) =
          dues start s.publishPeriod calls ++ [due start s.publishPeriod call.currentTime] := by
        simp [dues]
      rw [split,served_snoc]
      refine ⟨?_,?_⟩
      · rw [publishes_append]
        exact moved
      · unfold messages at counted ⊢
        rw [publishes_append]
        simp only [publishes,List.reduceOption_append,List.length_append,counted,made,visit]
        split <;> simp

theorem dues_growing {start period : Int} (positive : 0 < period) {calls : List Call} (forward : Forward start calls) :
    Growing (dues start period calls) := by
  unfold Forward at forward
  rw [List.isChain_iff_pairwise,List.pairwise_cons] at forward
  unfold Growing dues
  rw [List.pairwise_map]
  exact (List.pairwise_map.mp forward.2).imp fun order => due_mono positive order

theorem Attended.forward {start period : Int} {calls : List Call} (attended : Attended start period calls) : Forward start calls :=
  List.IsChain.imp (fun _ _ order => order.1) attended

theorem attended_served {start period : Int} (positive : 0 < period) {calls : List Call} {last : Call}
    (attended : Attended start period (calls ++ [last])) :
    served (dues start period (calls ++ [last])) = due start period last.currentTime := by
  have steady : List.IsChain (fun earlier due => earlier ≤ due ∧ due ≤ earlier + 1) (0 :: dues start period (calls ++ [last])) := by
    have first : due start period start = 0 := by simp [due]
    have mapped : 0 :: dues start period (calls ++ [last]) =
        (start :: (calls ++ [last]).map Call.currentTime).map (due start period) := by
      simp [dues,first]
    rw [mapped,List.isChain_map]
    exact attended.imp fun _ _ order => ⟨due_mono positive order.1,due_soon positive order.2⟩
  unfold served
  rw [served_steady steady]
  simp [dues]

-- Messages go out on the grid of whole periods behind the start of the publisher and never early, each made of what is
-- received at its call. However the calls of the loop fall, what is missed is made up for by one message a call, and a
-- loop that leaves no gap longer than the period is never behind.
theorem publishes_on_schedule {fromSeconds : Float → Int} {publishRate : Float} {start : Int} {createMessage : Received → Int → μ}
    {s : StatePublisher μ} (constructed : construct fromSeconds publishRate start createMessage = s) (positive : 0 < s.publishPeriod)
    {calls : List Call} (forward : Forward start calls) :
    (∀ before call after, calls = before ++ call :: after →
      (s.publishes calls).1[before.length]? =
        some (if start + ((s.messages before).length + 1) * s.publishPeriod ≤ call.currentTime then
          some (createMessage call.received call.stamp) else none)) ∧
    IsLeast (Bounds (dues start s.publishPeriod calls)) (s.messages calls).length ∧
    (∀ before last, calls = before ++ [last] → Attended start s.publishPeriod calls →
      (s.messages calls).length = due start s.publishPeriod last.currentTime) := by
  have begun : Published s start 0 s := by
    subst constructed
    simp [Published,construct]
  have creates : s.createMessage = createMessage := by
    subst constructed
    rfl
  refine ⟨?_,?_,?_⟩
  · rintro before call after rfl
    obtain ⟨published,counted⟩ := publishes_served positive begun before
    have made := (publish_visit positive published call).1
    rw [publishes_append,List.getElem?_append_right (by simp [publishes_length]),publishes_length,Nat.sub_self,counted]
    simp only [publishes,List.getElem?_cons_zero,made,creates,lt_due_iff positive]
  · rw [(publishes_served positive begun calls).2]
    exact served_least (dues_growing positive forward)
  · rintro before last rfl attended
    rw [(publishes_served positive begun (before ++ [last])).2]
    exact attended_served positive attended

def lateCalls : List Call :=
  [⟨990000000,Received.initial,0⟩,⟨1000000000,Received.initial,1⟩,⟨4000000000,Received.initial,2⟩,⟨4010000000,Received.initial,3⟩]

def everySecond : StatePublisher Int := construct (fun _ => 10^9) 1 0 fun _ stamp => stamp

theorem everySecond_least : (everySecond.publishes lateCalls).1 = [none,some 1,some 2,some 3] ∧
    IsLeast (Bounds [0,1,4,4]) (everySecond.messages lateCalls).length :=
  ⟨by decide,(publishes_on_schedule (rfl : construct _ _ _ _ = everySecond) (by decide)
    (by simp [Forward,lateCalls] : Forward 0 lateCalls)).2.1⟩

end StatePublisher
end HsrbDrivers.PowerEcu

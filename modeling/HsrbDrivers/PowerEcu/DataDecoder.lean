import HsrbDrivers.PowerEcu.FrameDecoder

namespace HsrbDrivers.PowerEcu
open CText

namespace DataDecoder

def within (part : Ref σ τ) (d : DataDecoder τ) : DataDecoder σ where
  packetName := d.packetName
  packetSize := d.packetSize
  elements := d.elements.map (ElementDecoder.within part)
  update memory :=
    let (ret,inner) := d.update (part.read memory)
    (ret,part.write inner memory)
  parameterMap := d.parameterMap.map fun (name,read) => (name,fun memory => read (part.read memory))

end DataDecoder

namespace Ecu1

def kEcu1DataDecoderPacketSize : Nat := 326
def kEcu1DataDecoderPacketName : String := "ecu1_"

structure RawData where
  timeStamp : Int
  date : StdString
  powerEcuStatusFlag : StdString
  powerEcuStatus : StdString
  diagStatus : StdString
  batteryTotalCapacity : Int
  batteryRemainingCapacity : Int
  electricCurrent : Int
  batteryVoltage : Int
  batteryTemperature : Int
  batteryStateFlag : Int
  batteryInitialLearningCapacity : Int
  batteryErrorStatus : Int
  batteryRelativeCapacity : Int
  bumperStatus : Int
  gyroStatus : StdString
  quaternionT : Int
  quaternionX : Int
  quaternionY : Int
  quaternionZ : Int
  angularVelocityX : Int
  angularVelocityY : Int
  angularVelocityZ : Int
  accelerationX : Int
  accelerationY : Int
  accelerationZ : Int
  chargerState : Int

structure PacketData where
  timeStamp : Int
  ecu1Date : StdString
  powerEcuStatusFlag : StdString
  diagStatus : StdString
  batteryTotalCapacity : Float
  batteryRemainingCapacity : Float
  electricCurrent : Float
  batteryVoltage : Float
  batteryTemperature : Float
  isBatteryCrgov : Bool
  isBattery23par : Bool
  isBatteryStd : Bool
  isBatteryFull : Bool
  isBatteryDiscov : Bool
  isBatteryChg : Bool
  isBatteryDisc : Bool
  isBattery0per : Bool
  isBattery45par : Bool
  isBatterySel : Bool
  isBatteryBal : Bool
  batteryInitialLearningCapacity : Int
  batteryErrorStatus : Int
  batteryRelativeCapacity : Float
  powerEcuInternalState : Int
  isPowerecuBatStat : Bool
  isPowerecuSwKinoko : Bool
  isPowerecuSwPwr : Bool
  isPowerecuSwDrv : Bool
  isPowerecuSwLatch : Bool
  isPowerecuSwWSel : Bool
  isPowerecuSwWStop : Bool
  isBumperBumper2 : Bool
  isBumperBumper1 : Bool
  isBumperProx5 : Bool
  isBumperProx4 : Bool
  isBumperProx3 : Bool
  isBumperProx2 : Bool
  isBumperProx1 : Bool
  gyroStatus : StdString
  imuQuaternions : List Float
  imuAngularVelocities : List Float
  imuAccelerations : List Float
  chargerState : Int

def rawElements : List (ElementDecoder RawData) :=
  [elementUintDecoder .uint32 ⟨fun m => m.timeStamp,fun v m => {m with timeStamp := v}⟩ 10,
    elementStringDecoder ⟨fun m => m.date,fun v m => {m with date := v}⟩ 14,
    elementStringDecoder ⟨fun m => m.powerEcuStatusFlag,fun v m => {m with powerEcuStatusFlag := v}⟩ 3,
    elementStringDecoder ⟨fun m => m.powerEcuStatus,fun v m => {m with powerEcuStatus := v}⟩ 17,
    elementStringDecoder ⟨fun m => m.diagStatus,fun v m => {m with diagStatus := v}⟩ 65,
    elementIntDecoder .uint16 ⟨fun m => m.batteryTotalCapacity,fun v m => {m with batteryTotalCapacity := v}⟩ 5,
    elementIntDecoder .uint16 ⟨fun m => m.batteryRemainingCapacity,fun v m => {m with batteryRemainingCapacity := v}⟩ 5,
    elementIntDecoder .int16 ⟨fun m => m.electricCurrent,fun v m => {m with electricCurrent := v}⟩ 5,
    elementIntDecoder .uint16 ⟨fun m => m.batteryVoltage,fun v m => {m with batteryVoltage := v}⟩ 5,
    elementIntDecoder .int8 ⟨fun m => m.batteryTemperature,fun v m => {m with batteryTemperature := v}⟩ 3,
    elementHexUintDecoder .uint16 ⟨fun m => m.batteryStateFlag,fun v m => {m with batteryStateFlag := v}⟩ 4,
    elementUintDecoder .uint16 ⟨fun m => m.batteryInitialLearningCapacity,fun v m => {m with batteryInitialLearningCapacity := v}⟩ 5,
    elementHexUintDecoder .uint16 ⟨fun m => m.batteryErrorStatus,fun v m => {m with batteryErrorStatus := v}⟩ 4,
    elementUintDecoder .uint8 ⟨fun m => m.batteryRelativeCapacity,fun v m => {m with batteryRelativeCapacity := v}⟩ 3,
    elementHexUintDecoder .uint8 ⟨fun m => m.bumperStatus,fun v m => {m with bumperStatus := v}⟩ 2,
    elementStringDecoder ⟨fun m => m.gyroStatus,fun v m => {m with gyroStatus := v}⟩ 17,
    elementIntDecoder .int32 ⟨fun m => m.quaternionT,fun v m => {m with quaternionT := v}⟩ 10,
    elementIntDecoder .int32 ⟨fun m => m.quaternionX,fun v m => {m with quaternionX := v}⟩ 10,
    elementIntDecoder .int32 ⟨fun m => m.quaternionY,fun v m => {m with quaternionY := v}⟩ 10,
    elementIntDecoder .int32 ⟨fun m => m.quaternionZ,fun v m => {m with quaternionZ := v}⟩ 10,
    elementIntDecoder .int32 ⟨fun m => m.angularVelocityX,fun v m => {m with angularVelocityX := v}⟩ 10,
    elementIntDecoder .int32 ⟨fun m => m.angularVelocityY,fun v m => {m with angularVelocityY := v}⟩ 10,
    elementIntDecoder .int32 ⟨fun m => m.angularVelocityZ,fun v m => {m with angularVelocityZ := v}⟩ 10,
    elementIntDecoder .int32 ⟨fun m => m.accelerationX,fun v m => {m with accelerationX := v}⟩ 10,
    elementIntDecoder .int32 ⟨fun m => m.accelerationY,fun v m => {m with accelerationY := v}⟩ 10,
    elementIntDecoder .int32 ⟨fun m => m.accelerationZ,fun v m => {m with accelerationZ := v}⟩ 10,
    elementHexUintDecoder .uint8 ⟨fun m => m.chargerState,fun v m => {m with chargerState := v}⟩ 2]

def parameterMap : List (String × (PacketData → Param)) :=
  [("time_stamp",fun m => .integer .uint32 m.timeStamp),
    ("ecu1_date",fun m => .text m.ecu1Date.data),
    ("power_ecu_status_flag",fun m => .text m.powerEcuStatusFlag.data),
    ("diag_status",fun m => .text m.diagStatus.data),
    ("battery_total_capacity",fun m => .real m.batteryTotalCapacity),
    ("battery_remaining_capacity",fun m => .real m.batteryRemainingCapacity),
    ("electric_current",fun m => .real m.electricCurrent),
    ("battery_voltage",fun m => .real m.batteryVoltage),
    ("battery_temperature",fun m => .real m.batteryTemperature),
    ("is_battery_crgov",fun m => .bool m.isBatteryCrgov),
    ("is_battery_23par",fun m => .bool m.isBattery23par),
    ("is_battery_std",fun m => .bool m.isBatteryStd),
    ("is_battery_full",fun m => .bool m.isBatteryFull),
    ("is_battery_discov",fun m => .bool m.isBatteryDiscov),
    ("is_battery_chg",fun m => .bool m.isBatteryChg),
    ("is_battery_disc",fun m => .bool m.isBatteryDisc),
    ("is_battery_0per",fun m => .bool m.isBattery0per),
    ("is_battery_45par",fun m => .bool m.isBattery45par),
    ("is_battery_sel",fun m => .bool m.isBatterySel),
    ("is_battery_bal",fun m => .bool m.isBatteryBal),
    ("battery_initial_learning_capacity",fun m => .integer .uint16 m.batteryInitialLearningCapacity),
    ("battery_error_status",fun m => .integer .uint16 m.batteryErrorStatus),
    ("battery_relative_capacity",fun m => .real m.batteryRelativeCapacity),
    ("power_ecu_internal_state",fun m => .integer .uint32 m.powerEcuInternalState),
    ("is_powerecu_bat_stat",fun m => .bool m.isPowerecuBatStat),
    ("is_powerecu_sw_kinoko",fun m => .bool m.isPowerecuSwKinoko),
    ("is_powerecu_sw_pwr",fun m => .bool m.isPowerecuSwPwr),
    ("is_powerecu_sw_drv",fun m => .bool m.isPowerecuSwDrv),
    ("is_powerecu_sw_latch",fun m => .bool m.isPowerecuSwLatch),
    ("is_powerecu_sw_w_sel",fun m => .bool m.isPowerecuSwWSel),
    ("is_powerecu_sw_w_stop",fun m => .bool m.isPowerecuSwWStop),
    ("is_bumper_bumper2",fun m => .bool m.isBumperBumper2),
    ("is_bumper_bumper1",fun m => .bool m.isBumperBumper1),
    ("is_bumper_prox5",fun m => .bool m.isBumperProx5),
    ("is_bumper_prox4",fun m => .bool m.isBumperProx4),
    ("is_bumper_prox3",fun m => .bool m.isBumperProx3),
    ("is_bumper_prox2",fun m => .bool m.isBumperProx2),
    ("is_bumper_prox1",fun m => .bool m.isBumperProx1),
    ("gyro_status",fun m => .text m.gyroStatus.data),
    ("imu_quaternions",fun m => .reals m.imuQuaternions),
    ("imu_angular_velocities",fun m => .reals m.imuAngularVelocities),
    ("imu_accelerations",fun m => .reals m.imuAccelerations),
    ("charger_state",fun m => .integer .uint8 m.chargerState)]

end Ecu1

-- The `ecu1_` decoder keeps what it decodes apart from what it publishes.
structure Ecu1 where
  raw : Ecu1.RawData
  out : Ecu1.PacketData

namespace Ecu1

def bit (value : Int) (position : Nat) : Bool := value.toNat.testBit position

-- `size() - 1` of an empty string is the largest `size_t`.
def sizeLessOne (s : StdString) : Nat := (((s.data.length : Int) - 1) % 2^64).toNat

def refillBehindLetter (out raw : StdString) : StdString :=
  if sizeLessOne raw ≤ out.capacity then out.refill raw.data.tail else out

def hexBeforeEnd (s : StdString) (back : Nat) : Int :=
  strtol 16 ((s.data.drop (s.data.length-back-2)).take 2)

def update (m : Ecu1) : Bool × Ecu1 :=
  let raw := m.raw
  let out := m.out
  let internalState := hexBeforeEnd raw.powerEcuStatus 4 % 2^32
  let bits := hexBeforeEnd raw.powerEcuStatus 0 % 2^8
  let flag := bit raw.batteryStateFlag
  (true,{m with out := {
    timeStamp := raw.timeStamp
    ecu1Date := if raw.date.data.length ≤ out.ecu1Date.capacity then out.ecu1Date.refill raw.date.data else out.ecu1Date
    powerEcuStatusFlag := refillBehindLetter out.powerEcuStatusFlag raw.powerEcuStatusFlag
    diagStatus := refillBehindLetter out.diagStatus raw.diagStatus
    batteryTotalCapacity := Float.ofInt raw.batteryTotalCapacity * 1e-3
    batteryRemainingCapacity := Float.ofInt raw.batteryRemainingCapacity * 1e-3
    electricCurrent := Float.ofInt raw.electricCurrent * 1e-3
    batteryVoltage := Float.ofInt raw.batteryVoltage * 1e-3
    batteryTemperature := Float.ofInt raw.batteryTemperature
    isBattery45par := flag (8+2)
    isBatterySel := flag (8+1)
    isBatteryBal := flag (8+0)
    isBatteryCrgov := flag 7
    isBattery23par := flag 6
    isBatteryStd := flag 5
    isBatteryFull := flag 4
    isBatteryDiscov := flag 3
    isBatteryChg := flag 2
    isBatteryDisc := flag 1
    isBattery0per := flag 0
    batteryInitialLearningCapacity := raw.batteryInitialLearningCapacity
    batteryErrorStatus := raw.batteryErrorStatus
    batteryRelativeCapacity := Float.ofInt raw.batteryRelativeCapacity
    powerEcuInternalState := internalState
    isPowerecuBatStat := bit bits 6
    -- the two emergency stop switches arrive inverted
    isPowerecuSwKinoko := !bit bits 5
    isPowerecuSwPwr := bit bits 4
    isPowerecuSwDrv := internalState ≠ 9
    isPowerecuSwLatch := bit bits 2
    isPowerecuSwWSel := bit bits 1
    isPowerecuSwWStop := !bit bits 0
    isBumperBumper2 := bit raw.bumperStatus 6
    isBumperBumper1 := bit raw.bumperStatus 5
    isBumperProx5 := bit raw.bumperStatus 4
    isBumperProx4 := bit raw.bumperStatus 3
    isBumperProx3 := bit raw.bumperStatus 2
    isBumperProx2 := bit raw.bumperStatus 1
    isBumperProx1 := bit raw.bumperStatus 0
    gyroStatus := out.gyroStatus.refill raw.gyroStatus.data.tail
    imuQuaternions := [raw.quaternionX,raw.quaternionY,raw.quaternionZ,raw.quaternionT].map (Float.ofInt · * 1e-9)
    imuAngularVelocities := [raw.angularVelocityX,raw.angularVelocityY,raw.angularVelocityZ].map (Float.ofInt · * 1e-8)
    imuAccelerations := [raw.accelerationX,raw.accelerationY,raw.accelerationZ].map (Float.ofInt · * 1e-8)
    chargerState := raw.chargerState}})

def kEcu1DateLengh : Nat := 14 + 1
def kEcu1DiagStatusLength : Nat := 65 + 1
def kEcu1PowerEcuStatusFlagLength : Nat := 3 + 1
def kEcu1EcuStatusLength : Nat := 17 + 1
def kEcu1GyroStatusLength : Nat := 17 + 1

-- The raw numbers are not initialized by the constructor; the model starts them at 0.
def initial : Ecu1 where
  raw := {
    timeStamp := 0
    date := StdString.empty.reserve kEcu1DateLengh
    powerEcuStatusFlag := StdString.empty.reserve kEcu1PowerEcuStatusFlagLength
    powerEcuStatus := StdString.empty.reserve kEcu1EcuStatusLength
    diagStatus := StdString.empty.reserve kEcu1DiagStatusLength
    batteryTotalCapacity := 0
    batteryRemainingCapacity := 0
    electricCurrent := 0
    batteryVoltage := 0
    batteryTemperature := 0
    batteryStateFlag := 0
    batteryInitialLearningCapacity := 0
    batteryErrorStatus := 0
    batteryRelativeCapacity := 0
    bumperStatus := 0
    gyroStatus := StdString.empty.reserve kEcu1GyroStatusLength
    quaternionT := 0
    quaternionX := 0
    quaternionY := 0
    quaternionZ := 0
    angularVelocityX := 0
    angularVelocityY := 0
    angularVelocityZ := 0
    accelerationX := 0
    accelerationY := 0
    accelerationZ := 0
    chargerState := 0}
  out := {
    timeStamp := 0
    ecu1Date := StdString.empty.reserve kEcu1DateLengh
    powerEcuStatusFlag := StdString.empty.reserve kEcu1PowerEcuStatusFlagLength
    diagStatus := StdString.empty.reserve kEcu1DiagStatusLength
    batteryTotalCapacity := 0
    batteryRemainingCapacity := 0
    electricCurrent := 0
    batteryVoltage := 0
    batteryTemperature := 0
    isBatteryCrgov := false
    isBattery23par := false
    isBatteryStd := false
    isBatteryFull := false
    isBatteryDiscov := false
    isBatteryChg := false
    isBatteryDisc := false
    isBattery0per := false
    isBattery45par := false
    isBatterySel := false
    isBatteryBal := false
    batteryInitialLearningCapacity := 0
    batteryErrorStatus := 0
    batteryRelativeCapacity := 0
    powerEcuInternalState := 0
    isPowerecuBatStat := false
    isPowerecuSwKinoko := false
    isPowerecuSwPwr := false
    isPowerecuSwDrv := false
    isPowerecuSwLatch := false
    isPowerecuSwWSel := false
    isPowerecuSwWStop := false
    isBumperBumper2 := false
    isBumperBumper1 := false
    isBumperProx5 := false
    isBumperProx4 := false
    isBumperProx3 := false
    isBumperProx2 := false
    isBumperProx1 := false
    gyroStatus := StdString.empty.reserve kEcu1GyroStatusLength
    imuQuaternions := [0,0,0,0]
    imuAngularVelocities := [0,0,0]
    imuAccelerations := [0,0,0]
    chargerState := 0}

def rawPart : Ref Ecu1 RawData := ⟨fun m => m.raw,fun v m => {m with raw := v}⟩

def decoder : DataDecoder Ecu1 where
  packetName := ascii kEcu1DataDecoderPacketName
  packetSize := kEcu1DataDecoderPacketSize
  elements := rawElements.map (ElementDecoder.within rawPart)
  update := update
  parameterMap := parameterMap.map fun (name,read) => (name,fun m => read m.out)

end Ecu1

namespace Ecu2

def kEcu2DataDecoderPacketSize : Nat := 291
def kEcu2DataDecoderPacketName : String := "ecu2_"

inductive Field where
  | d12VD0V
  | d12VD0A
  | d12VD1V
  | d12VD1A
  | d12VD2V
  | d12VD2A
  | d12VD3V
  | d12VD3A
  | d12VO1V
  | d12VO1A
  | d12VO2V
  | d12VO2A
  | d5VAV
  | d5VD1V
  | d5VD1A
  | d5VD2V
  | d5VD2A
  | d5VD3V
  | d5VD3A
  | d5VD4V
  | d5VD4A
  | d5VD5V
  | d5VD5A
  | chgsense
  | d2V5VDA1V
  | d2V5VDA2V
  | acdcV
  | adcdA
  | battV
  | battA
  | battA2
  | pbmV
  | pbmA
  | pbmA2
  | pumpV
  | ecuTemp
  | ecuTemp1
  | ecuTemp2
  | ecuTemp3
deriving DecidableEq,Repr

def layout : List (Field × IntType × Nat × String) :=
  [(.d12VD0V,.uint16,5,"d12V_D0_V"),
    (.d12VD0A,.int16,5,"d12V_D0_A"),
    (.d12VD1V,.uint16,5,"d12V_D1_V"),
    (.d12VD1A,.int16,5,"d12V_D1_A"),
    (.d12VD2V,.uint16,5,"d12V_D2_V"),
    (.d12VD2A,.int16,5,"d12V_D2_A"),
    (.d12VD3V,.uint16,5,"d12V_D3_V"),
    (.d12VD3A,.int16,5,"d12V_D3_A"),
    (.d12VO1V,.uint16,5,"d12V_O1_V"),
    (.d12VO1A,.int16,5,"d12V_O1_A"),
    (.d12VO2V,.uint16,5,"d12V_O2_V"),
    (.d12VO2A,.int16,5,"d12V_O2_A"),
    (.d5VAV,.uint16,5,"d5VA_V"),
    (.d5VD1V,.uint16,5,"d5VD1_V"),
    (.d5VD1A,.int16,5,"d5VD1_A"),
    (.d5VD2V,.uint16,5,"d5VD2_V"),
    (.d5VD2A,.int16,5,"d5VD2_A"),
    (.d5VD3V,.uint16,5,"d5VD3_V"),
    (.d5VD3A,.int16,5,"d5VD3_A"),
    (.d5VD4V,.uint16,5,"d5VD4_V"),
    (.d5VD4A,.int16,5,"d5VD4_A"),
    (.d5VD5V,.uint16,5,"d5VD5_V"),
    (.d5VD5A,.int16,5,"d5VD5_A"),
    (.chgsense,.uint16,5,"Chgsense"),
    (.d2V5VDA1V,.uint16,5,"d2V5VDA1_V"),
    (.d2V5VDA2V,.uint16,5,"d2V5VDA2_V"),
    (.acdcV,.uint16,5,"ACDC_V"),
    (.adcdA,.int16,5,"ADCD_A"),
    (.battV,.uint16,5,"BATT_V"),
    (.battA,.int16,5,"BATT_A"),
    (.battA2,.int16,5,"BATT_A2"),
    (.pbmV,.uint16,5,"PBM_V"),
    (.pbmA,.int16,5,"PBM_A"),
    (.pbmA2,.int16,5,"PBM_A2"),
    (.pumpV,.uint16,5,"PUMP_V"),
    (.ecuTemp,.int16,3,"ECU_TEMP"),
    (.ecuTemp1,.int16,3,"ECU_TEMP1"),
    (.ecuTemp2,.int16,3,"ECU_TEMP2"),
    (.ecuTemp3,.int16,3,"ECU_TEMP3")]

end Ecu2

structure Ecu2 where
  ecu2Date : StdString
  values : Ecu2.Field → Int

namespace Ecu2

def date : Ref Ecu2 StdString := ⟨fun m => m.ecu2Date,fun v m => {m with ecu2Date := v}⟩

def value (field : Field) : Ref Ecu2 Int :=
  ⟨fun m => m.values field,fun v m => {m with values := Function.update m.values field v}⟩

def initial : Ecu2 := ElementStringDecoder.construct date 14 ⟨.empty,fun _ => 0⟩

def decoder : DataDecoder Ecu2 where
  packetName := ascii kEcu2DataDecoderPacketName
  packetSize := kEcu2DataDecoderPacketSize
  elements := elementStringDecoder date 14 ::
    layout.map fun (field,type,length,_) => elementIntDecoder type (value field) length
  update m := (true,m)
  parameterMap := ("ecu2_date",fun m => .text m.ecu2Date.data) ::
    layout.map fun (field,type,_,name) => (name,fun m => .integer type (m.values field))

end Ecu2

structure Rxack where
  isReceiveAck : Bool
  ackValue : Int

namespace Rxack

def kRxackDataDecoderPacketSize : Nat := 15
def kRxackDataDecoderPacketName : String := "rxack"

def initial : Rxack := ⟨false,0⟩

def ackValueRef : Ref Rxack Int := ⟨fun m => m.ackValue,fun v m => {m with ackValue := v}⟩

def decoder : DataDecoder Rxack where
  packetName := ascii kRxackDataDecoderPacketName
  packetSize := kRxackDataDecoderPacketSize
  elements := [elementHexUintDecoder .uint8 ackValueRef 2]
  update m := (true,{m with isReceiveAck := true})
  parameterMap :=
    [("is_receive_ack",fun m => .bool m.isReceiveAck),
    ("ack_value",fun m => .integer .uint8 m.ackValue)]

end Rxack

structure Ver where
  powerEcuVersionRaw : StdString
  powerEcuComVersionRaw : StdString
  verPowerEcuVersion : StdString
  verPowerEcuComVersion : StdString
  isReceiveVersion : Bool

namespace Ver

def kVerDataDecoderPacketSize : Nat := 95
def kVerDataDecoderPacketName : String := "ver__"
def kEcu2PowerEcuVersionLength : Nat := 41 + 1
def kEcu2PowerEcuComVersionLength : Nat := 41 + 1

def versionRaw : Ref Ver StdString := ⟨fun m => m.powerEcuVersionRaw,fun v m => {m with powerEcuVersionRaw := v}⟩
def comVersionRaw : Ref Ver StdString := ⟨fun m => m.powerEcuComVersionRaw,fun v m => {m with powerEcuComVersionRaw := v}⟩

def initial : Ver :=
  ElementStringDecoder.construct versionRaw 41 (ElementStringDecoder.construct comVersionRaw 41
    { powerEcuVersionRaw := StdString.empty.reserve kEcu2PowerEcuVersionLength
      powerEcuComVersionRaw := StdString.empty.reserve kEcu2PowerEcuComVersionLength
      verPowerEcuVersion := StdString.empty.reserve kEcu2PowerEcuVersionLength
      verPowerEcuComVersion := StdString.empty.reserve kEcu2PowerEcuComVersionLength
      isReceiveVersion := false })

def decoder : DataDecoder Ver where
  packetName := ascii kVerDataDecoderPacketName
  packetSize := kVerDataDecoderPacketSize
  elements := [elementStringDecoder versionRaw 41,elementStringDecoder comVersionRaw 41]
  update m := (true,{m with
    isReceiveVersion := true
    verPowerEcuVersion := m.verPowerEcuVersion.refill m.powerEcuVersionRaw.data.tail
    verPowerEcuComVersion := m.verPowerEcuComVersion.refill m.powerEcuComVersionRaw.data.tail})
  parameterMap :=
    [("ver_power_ecu_version",fun m => .text m.verPowerEcuVersion.data),
    ("ver_power_ecu_com_version",fun m => .text m.verPowerEcuComVersion.data),
    ("is_receive_version",fun m => .bool m.isReceiveVersion)]

end Ver

structure Received where
  rxack : Rxack
  ver : Ver
  ecu1 : Ecu1
  ecu2 : Ecu2

namespace Received

def initial : Received := ⟨Rxack.initial,Ver.initial,Ecu1.initial,Ecu2.initial⟩

def rxackPart : Ref Received Rxack := ⟨fun m => m.rxack,fun v m => {m with rxack := v}⟩
def verPart : Ref Received Ver := ⟨fun m => m.ver,fun v m => {m with ver := v}⟩
def ecu1Part : Ref Received Ecu1 := ⟨fun m => m.ecu1,fun v m => {m with ecu1 := v}⟩
def ecu2Part : Ref Received Ecu2 := ⟨fun m => m.ecu2,fun v m => {m with ecu2 := v}⟩

def rxackDecoder : DataDecoder Received := Rxack.decoder.within rxackPart
def verDecoder : DataDecoder Received := Ver.decoder.within verPart
def ecu1Decoder : DataDecoder Received := Ecu1.decoder.within ecu1Part
def ecu2Decoder : DataDecoder Received := Ecu2.decoder.within ecu2Part

end Received
end HsrbDrivers.PowerEcu

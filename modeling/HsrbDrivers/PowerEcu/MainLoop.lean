import HsrbDrivers.PowerEcu.Protocol

namespace HsrbDrivers.PowerEcu
open CText

inductive ParamType where
  | bool
  | integer (type : IntType)
  | text
  | real
  | reals
  | color
deriving DecidableEq

def Param.type : Param → ParamType
  | .bool _ => .bool
  | .integer type _ => .integer type
  | .text _ => .text
  | .real _ => .real
  | .reals _ => .reals

def encoderParameters : List (List UInt8 × List (String × ParamType)) :=
  [(ascii "time_",[("start_time",.text)]),
    (ascii "start",[("is_enable_ecu1",.bool),("is_enable_ecu2",.bool)]),
    (ascii "heart",[("error_state",.integer .uint16),("counts",.integer .uint32)]),
    (ascii "pump_",[("is_pump_enable",.integer .uint8)]),
    (ascii "pbmsw",[("is_motor_enable",.integer .uint8)]),
    (ascii "ledc_",[("led_color",.color)]),
    (ascii "g_res",[("is_quaternion_reset",.bool),("is_gyro_reset",.bool)]),
    (ascii "solsw",[("is_solenoid_enable",.integer .uint8)]),
    (ascii "pdcmd",[("is_cpu_shutdown",.bool),("is_gpu_shutdown",.bool),("is_ex1_shutdown",.bool)]),
    (ascii "mute_",[("is_amp_mute",.bool)]),
    (ascii "undck",[("is_undck",.bool)]),
    (ascii "12vu_",[("is_12vu_enable",.bool)]),
    (ascii "5vd3_",[("is_5vd3_enable",.bool)]),
    (ascii "5vd4_",[("is_5vd4_enable",.bool)]),
    (ascii "5vd5_",[("is_5vd5_enable",.bool)]),
    (ascii "rpros",[("repro_version",.text)]),
    (ascii "rprod",[("repro_data",.text)])]

def DataDecoder.hasParam (d : DataDecoder σ) (memory : σ) (name : String) (type : ParamType) : Bool :=
  (d.getParamPtr name).any fun read => (read memory).type = type

def DataEncoder.hasParam (d : DataEncoder π) (name : String) (type : ParamType) : Bool :=
  (encoderParameters.lookup d.packetName).any fun parameters => parameters.lookup name = some type

def timeCommandName : List UInt8 := ascii "time_"
def startCommandName : List UInt8 := ascii "start"
def stopCommandName : List UInt8 := ascii "stop_"
def muteCommandName : List UInt8 := ascii "mute_"
def ledcCommandName : List UInt8 := ascii "ledc_"

def kProcessCommandQueueTimeOut : Int := 5 * 10^9
def kCycleHz : Rat := 100

-- One turn of the loop of `ProcessCommandQueue`: whether ROS is up at its head, the clock and
-- the network as `SendAll` and `ReceiveAll` find them, and the clock at the time check.
structure Turn where
  ok : Bool
  sendTime : Int
  sent : ErrorCode
  receiveTime : Int
  received : ErrorCode
  chunk : List UInt8
  checked : Int

structure Record where
  transmissions : List Transmission
  releases : List Release

namespace Record

def nothing : Record := ⟨[],[]⟩

def and (r s : Record) : Record := ⟨r.transmissions ++ s.transmissions,r.releases ++ s.releases⟩

def sent (transmission : Option Transmission) : Record := ⟨transmission.toList,[]⟩

def received (released : Option Release) : Record := ⟨[],released.toList⟩

def queued (r : Record) : List (List UInt8) := (r.transmissions.filter Transmission.queued).map Transmission.command

end Record

namespace PowerEcuProtocol

def hasParam (p : PowerEcuProtocol) (name : String) (type : ParamType) : Bool :=
  p.frameDecoder.decoders.any (fun d => d.hasParam p.received name type) ||
    p.frameEncoder.encoders.any fun d => d.hasParam name type

def assign (p : PowerEcuProtocol) (name : String) (type : ParamType) (set : Parameters → Parameters) : Except Stop PowerEcuProtocol :=
  if p.hasParam name type then .ok {p with parameters := set p.parameters} else .error .fault

-- The loop of `ProcessCommandQueue`, which looks at the queue before it asks for ROS.
def processTurns (checkRos : Bool) (errorRate : Rat) (startTime : Int) :
    List Turn → PowerEcuProtocol → Except Stop (ErrorCode × Record × PowerEcuProtocol)
  | [],p => if p.commandQueue.size = 0 then .ok (.success,.nothing,p) else .error .unfinished
  | turn :: turns,p =>
    if p.commandQueue.size = 0 ∨ (checkRos ∧ turn.ok = false) then .ok (.success,.nothing,p) else do
      let (ret,transmission,p) ← p.sendAll turn.sendTime turn.sent
      if ret ≠ .success ∧ p.writeErrorCounter.getErrorRate > errorRate then return (.operationCanceled,.sent transmission,p) else
      let (reception,p) ← p.receiveAll turn.receiveTime turn.received turn.chunk
      let record := (Record.sent transmission).and (.received reception.released)
      if reception.code ≠ .success ∧ p.readErrorCounter.getErrorRate > errorRate then return (.operationCanceled,record,p) else
      if turn.checked - startTime > kProcessCommandQueueTimeOut then return (.timedOut,record,p) else
      let (result,rest,p) ← processTurns checkRos errorRate startTime turns p
      return (result,record.and rest,p)

def processCommandQueue (p : PowerEcuProtocol) (checkRos : Bool) (cycleHz errorRate : Rat) (startTime : Int) (turns : List Turn) :
    Except Stop (ErrorCode × Record × PowerEcuProtocol) :=
  if cycleHz < 1 / 5 then .ok (.invalidArgument,.nothing,p) else processTurns checkRos errorRate startTime turns p

theorem processCommandQueue_turns (p : PowerEcuProtocol) (checkRos : Bool) (errorRate : Rat) (startTime : Int) (turns : List Turn) :
    p.processCommandQueue checkRos kCycleHz errorRate startTime turns = processTurns checkRos errorRate startTime turns p :=
  if_neg (by decide +kernel)

def start (p : PowerEcuProtocol) (timeString : List UInt8) (startTime : Int) (turns : List Turn) :
    Except Stop (ErrorCode × Record × PowerEcuProtocol) := do
  if timeString.length ≠ 14 then .error .exit else
  let p ← p.assign "start_time" .text fun m => {m with startTime := timeString}
  let p := (p.addCommandQueue timeCommandName).2
  let p ← p.assign "is_amp_mute" .bool fun m => {m with isAmpMute := false}
  let p := (p.addCommandQueue muteCommandName).2
  let p ← p.assign "is_enable_ecu1" .bool fun m => {m with isEnableEcu1 := true}
  let p ← p.assign "is_enable_ecu2" .bool fun m => {m with isEnableEcu2 := true}
  let p := (p.addCommandQueue startCommandName).2
  p.processCommandQueue true kCycleHz kRetryRate startTime turns

def stop (p : PowerEcuProtocol) (startTime : Int) (turns : List Turn) : Except Stop (ErrorCode × Record × PowerEcuProtocol) :=
  (p.addCommandQueue stopCommandName).2.processCommandQueue true kCycleHz kRetryRate startTime turns

end PowerEcuProtocol

-- A component of a colour message, a `float`: its product with 255 is exact as a `double`.
inductive Level where
  | number (value : Rat)
  | infinite (negative : Bool)
  | notANumber
deriving DecidableEq

-- `clamp` and the cast. That of what is no number has no defined result.
def Level.toByte : Level → Except Stop UInt8
  | .number value =>
    if value * 255 < 0 then .ok 0 else if 255 < value * 255 then .ok 255 else .ok (UInt8.ofNat (value * 255).floor.toNat)
  | .infinite negative => .ok (if negative then 0 else 255)
  | .notANumber => .error .fault

structure ColorRGBA where
  r : Level
  g : Level
  b : Level

def ColorRGBA.toColor (msg : ColorRGBA) : Except Stop Color := do
  let r ← msg.r.toByte
  let g ← msg.g.toByte
  let b ← msg.b.toByte
  return ⟨r,g,b⟩

namespace PowerEcuProtocol

def ledCommand (p : PowerEcuProtocol) (msg : ColorRGBA) : Except Stop PowerEcuProtocol := do
  let latestLedColor ← msg.toColor
  if latestLedColor.r ≠ p.parameters.ledColor.r ∨ latestLedColor.g ≠ p.parameters.ledColor.g ∨
      latestLedColor.b ≠ p.parameters.ledColor.b then
    return ({p with parameters := {p.parameters with ledColor := latestLedColor}}.addCommandQueue ledcCommandName).2
  else return p

end PowerEcuProtocol

def existParams : List (String × ParamType) :=
  [("led_color",.color),
    ("battery_relative_capacity",.real),("battery_temperature",.real),("battery_voltage",.real),("electric_current",.real),
    ("battery_remaining_capacity",.real),("battery_total_capacity",.real),
    ("is_powerecu_sw_w_sel",.bool),("is_powerecu_sw_kinoko",.bool),("is_powerecu_sw_w_stop",.bool),
    ("imu_quaternions",.reals),("imu_angular_velocities",.reals),("imu_accelerations",.reals),
    ("is_bumper_bumper1",.bool),("is_bumper_bumper2",.bool),("is_powerecu_bat_stat",.bool),("is_bumper_prox1",.bool),
    ("is_bumper_prox2",.bool),
    ("is_battery_0per",.bool),("is_battery_disc",.bool),("is_battery_discov",.bool),("is_battery_full",.bool),
    ("is_battery_std",.bool),("is_battery_23par",.bool),("is_battery_crgov",.bool)]

structure Round where
  receiveTime : Int
  received : ErrorCode
  chunk : List UInt8
  sendTime : Int
  sent : ErrorCode
  commands : List ColorRGBA

-- What a run of `main` meets: the clock, the network and the commands. Its loop is left behind
-- the rounds, when ROS is no longer up.
structure Environment where
  constructed : Int
  opened : Bool
  versionStart : Int
  outcomes : List ErrorCode
  arrivals : List Arrival
  timeString : List UInt8
  started : Int
  startTurns : List Turn
  rounds : List Round
  stopped : Int
  stopTurns : List Turn

inductive ExitStatus where
  | success
  | failure
deriving DecidableEq

def runRounds : List Round → PowerEcuProtocol → Except Stop (Record × PowerEcuProtocol)
  | [],p => .ok (.nothing,p)
  | round :: rounds,p => do
    let (reception,p) ← p.receiveAll round.receiveTime round.received round.chunk
    let (_,transmission,p) ← p.sendAll round.sendTime round.sent
    let p ← round.commands.foldlM PowerEcuProtocol.ledCommand p
    let (rest,p) ← runRounds rounds p
    return (((Record.received reception.released).and (.sent transmission)).and rest,p)

def mainLoop (e : Environment) : Except Stop (ExitStatus × Record) := do
  let p ← PowerEcuProtocol.construct e.constructed
  if e.opened = false then return (.failure,.nothing) else
  let (ready,receptions,p) ← p.init e.versionStart e.outcomes e.arrivals
  let answered := Record.mk [] (receptions.filterMap Reception.released)
  if ready = false then return (.failure,answered) else
  let (started,starting,p) ← p.start e.timeString e.started e.startTurns
  if started ≠ .success then return (.failure,answered.and starting) else
  if existParams.all (fun (name,type) => p.hasParam name type) = false then return (.failure,answered.and starting) else
  let (running,p) ← runRounds e.rounds p
  let (stopped,stopping,_) ← p.stop e.stopped e.stopTurns
  return (if stopped ≠ .success then .failure else .success,((answered.and starting).and running).and stopping)

end HsrbDrivers.PowerEcu

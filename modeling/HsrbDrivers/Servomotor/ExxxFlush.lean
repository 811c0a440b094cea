import HsrbDrivers.Servomotor.Firmware

namespace HsrbDrivers.Servomotor
open Session CText

def kEraseCommand : UInt8 := 0x65
def kFlushCommand : UInt8 := 0x77
def kRunCommand : UInt8 := 0x67
def kExecuteCommand : UInt8 := 0x79
def kEraseCheckMessage : List UInt8 := ascii "ERASE ALL FLASH"
def kEraseFinishMessage : List UInt8 := ascii "COMPLETED"
def kFlushCheckMessage : List UInt8 := ascii "START UPLOAD"
def kRunCheckMessage : List UInt8 := ascii "GO"
def kEraseWaitTime : Int := 1000000000

namespace ExxxReprograming

def eraseTurn (r : ExxxReprograming) (start : Int) (_ : Unit) : Session Exchange (Unit ⊕ ErrorCode) := do
  let error ← r.checkReceivedMessage kEraseFinishMessage
  if error.value = 0 then pure (.inr error)
  else if error.value ≠ ErrorCode.illegalByteSequence.value ∧ error.value ≠ ErrorCode.timedOut.value then pure (.inr error)
  else do
    let waited ← waitNanoSec kCommandIntervalTime
    if waited.value ≠ 0 then pure (.inr waited) else do
      let elapsed ← now
      if elapsed - start ≥ kEraseWaitTime then pure (.inr .timedOut)
      else if elapsed < start then pure (.inr .valueTooLarge)
      else pure (.inl ())

-- A command that is never answered is told apart from a time-out behind it.
def erase (r : ExxxReprograming) : Session Exchange ErrorCode := do
  let asked ← r.sendCommand kEraseCommand kEraseCheckMessage
  let error := if asked.value = ErrorCode.timedOut.value then .noMessage else asked
  if error.value ≠ 0 then pure error else do
    let sent ← r.sendData [kExecuteCommand]
    if sent.value ≠ 0 then pure sent else do
      let start ← now
      loop (r.eraseTurn start) ()

-- The rest of the answer, up to a time-out, is thrown away.
def confirmFlush (r : ExxxReprograming) : Session Exchange ErrorCode := do
  let error ← loop drainTurn ()
  if error.value = ErrorCode.timedOut.value then r.sendData [kExecuteCommand] else pure error

def flush (r : ExxxReprograming) (flushData : List UInt8) : Session Exchange ErrorCode := do
  let asked ← r.sendCommand kFlushCommand kFlushCheckMessage
  if asked.value = ErrorCode.timedOut.value then pure .noMessage
  else if asked.value ≠ 0 then pure asked
  else do
    let error ← r.confirmFlush
    if error.value = 0 then r.flushXmodem flushData else pure error

def run (r : ExxxReprograming) : Session Exchange ErrorCode := do
  let asked ← r.sendCommand kRunCommand kRunCheckMessage
  pure (if asked.value = ErrorCode.timedOut.value then .noMessage else asked)

end ExxxReprograming

def kExxxflushArgcMax : Nat := 7
def kExxxflushArgcMin : Nat := 4
def kFlushAxisInvalidID : UInt8 := 0xFF
def kReproBootWaitTime : Int := 500000000
def kCompulsionReproBootWaitTime : Int := 10000000000

def flushAxisIDTable : List (UInt8 × UInt8) :=
  [(11,0x31),(12,0x32),(13,0x33),(21,0x34),(22,0x35),(23,0x36),(24,0x37),(25,0x38),(31,0x39),(32,0x41),(41,0x42)]

inductive Baudrate where
  | b115200
  | b3000000
deriving DecidableEq

structure FlushOptions where
  isUsb : Bool
  isCompulsion : Bool
  baudrate : Option Baudrate
deriving DecidableEq

structure FlushPlan where
  devicename : List UInt8
  id : UInt8
  axisId : UInt8
  flushData : List UInt8
  bootloaderVersion : Int
  options : FlushOptions
deriving DecidableEq

inductive Complaint where
  | text (text : List UInt8)
  | message (error : ErrorCode)

inductive FlushEnd where
  | usage
  | failure (complaint : Complaint)
  | success

-- The baud rate that is given first is taken.
def flushOption (options : FlushOptions) (arg : List UInt8) : Except FlushEnd FlushOptions :=
  let options := if arg = ascii "-u" ∨ arg = ascii "--usb" then {options with isUsb := true} else options
  let options := if arg = ascii "-c" ∨ arg = ascii "--compulsion" then {options with isCompulsion := true} else options
  if arg.take 2 = ascii "-b" then
    if arg ≠ ascii "-b115200" ∧ arg ≠ ascii "-b3000000" then .error (.failure (.text (arg ++ ascii " invalid value")))
    else if options.baudrate = none then
      .ok {options with baudrate := some (if arg = ascii "-b115200" then .b115200 else .b3000000)}
    else .ok options
  else .ok options

def bootAxis (id : UInt8) : UInt8 := (flushAxisIDTable.lookup id).getD kFlushAxisInvalidID

def flushPlan (arguments : List (List UInt8)) (file : List UInt8 → Option (List UInt8)) : Except FlushEnd FlushPlan :=
  match arguments with
  | devicename :: idText :: filename :: args =>
    if args.length + kExxxflushArgcMin > kExxxflushArgcMax then .error .usage else
    match lexicalCastInt idText with
    | none => .error (.failure (.text (ascii "bad lexical cast: source type value could not be interpreted as target")))
    | some number =>
      let id := UInt8.ofInt number
      let axisId := bootAxis id
      if axisId = kFlushAxisInvalidID then .error (.failure (.text (idText ++ ascii " invalid value"))) else
      match readFirmware filename (file filename) with
      | .error text => .error (.failure (.text text))
      | .ok (flushData,bootloaderVersion) => do
        let options ← args.foldlM flushOption ⟨false,false,none⟩
        return ⟨devicename,id,axisId,flushData,bootloaderVersion,options⟩
  | _ => .error .usage

-- How the steps in front of the boot loader end: the network's and the protocol's `Reset`, and `Open`.
structure Devices where
  network : ErrorCode
  reset : ErrorCode
  opened : ErrorCode

def complaint (texts : List (ErrorCode × String)) (error : ErrorCode) : Complaint :=
  match texts.find? fun entry => entry.1.value = error.value with
  | some entry => .text (ascii entry.2)
  | none => .message error

def bootTexts : List (ErrorCode × String) :=
  [(.noMessage,"Boot no response"),(.valueTooLarge,"Boot wait time overflow"),
    (.notSupported,"Boot loader does not supported this file format.")]

def eraseTexts : List (ErrorCode × String) :=
  [(.timedOut,"Erase timeout"),(.noMessage,"Erase no response"),(.valueTooLarge,"Erase wait time overflow")]

def flushTexts : List (ErrorCode × String) :=
  [(.timedOut,"Failed to Flush"),(.noMessage,"Flush no response"),(.valueTooLarge,"Flush wait time overflow")]

def runTexts : List (ErrorCode × String) := [(.noMessage,"Run no response"),(.valueTooLarge,"Run wait time overflow")]

def flushStep (step : Session Exchange ErrorCode) (texts : List (ErrorCode × String)) (rest : Session Exchange FlushEnd) :
    Session Exchange FlushEnd := do
  let error ← step
  if error.value ≠ 0 then pure (.failure (complaint texts error)) else rest

def FlushPlan.bootTimeout (plan : FlushPlan) : Int :=
  if plan.options.isCompulsion then kCompulsionReproBootWaitTime else kReproBootWaitTime

def reprogram (plan : FlushPlan) : Session Exchange FlushEnd :=
  flushStep (repro.waitBoot plan.bootloaderVersion plan.axisId plan.bootTimeout) bootTexts <|
  flushStep repro.erase eraseTexts <|
  flushStep (repro.flush plan.flushData) flushTexts <|
  flushStep repro.run runTexts (pure .success)

-- `main` of `exxx_flush`. An amplifier that is not reprogrammed by compulsion is reset first.
def exxxFlush (arguments : List (List UInt8)) (file : List UInt8 → Option (List UInt8)) (devices : Devices) :
    Session Exchange FlushEnd :=
  match flushPlan arguments file with
  | .error ended => pure ended
  | .ok plan =>
    if plan.options.isCompulsion = false ∧ devices.network.value ≠ 0 then pure (.failure (.message devices.network))
    else if plan.options.isCompulsion = false ∧ devices.reset.value ≠ 0 then pure (.failure (.message devices.reset))
    else if devices.opened.value ≠ 0 then pure (.failure (.message devices.opened))
    else reprogram plan

end HsrbDrivers.Servomotor

import HsrbDrivers.Library.Session
import HsrbDrivers.Library.CText
import HsrbDrivers.Servomotor.Network

namespace HsrbDrivers.Servomotor
open Session CText

def ErrorCode.noMessage : ErrorCode := .system 42
def ErrorCode.valueTooLarge : ErrorCode := .system 75
def ErrorCode.illegalByteSequence : ErrorCode := .system 84
def ErrorCode.notSupported : ErrorCode := .system 95

def kSendCommandMaxRetryCount : Nat := 10
def kFlushXmodemMaxRetryCount : Nat := 100
def kBootMessage : List UInt8 := ascii "Bootloader"
def kFlushFinishMessage : List UInt8 := ascii "SUCCESS"
def kXmodemSOH : UInt8 := 0x01
def kXmodemEOT : UInt8 := 0x04
def kXmodemACK : UInt8 := 0x06
def kXmodemNAK : UInt8 := 0x15
def kXmodemCAN : UInt8 := 0x18
def kXmodemEOF : UInt8 := 0xFF
def kXmodemDataSize : Nat := 128
def kBootStartUpWaitTime : Int := 3000000000
def kReproIntervalTime : Int := 1000000000
def kCommandIntervalTime : Int := 50000000
def kFlushIntervalTime : Int := 10000000
def kReceiveLineDelimiter1 : UInt8 := 0x0A
def kReceiveLineDelimiter2 : UInt8 := 0x3F

def again : Int := 11

-- What passes between the program and the system. `send` marks a call of `SendData`, the
-- others are answers: of the clock, of a `write` and of a sleep, and for a byte to receive
-- that none came in time, that `ppoll` or `read` failed, or the byte.
inductive Exchange where
  | send (data : List UInt8)
  | clock (now : Int)
  | written (count : Nat)
  | writeFailed (errno : Int) (set : errno ≠ 0)
  | slept (nsec : Int)
  | sleepFailed (nsec : Int)
  | silent
  | receiveFailed (errno : Int) (set : errno ≠ 0)
  | received (data : UInt8)
deriving DecidableEq

def now : Session Exchange Int := meet fun
  | .clock now => some now
  | _ => none

def waitNanoSec (nsec : Int) : Session Exchange ErrorCode := meet fun
  | .slept slept => if slept = nsec then some .success else none
  | .sleepFailed slept => if slept = nsec then some .invalidArgument else none
  | _ => none

def write (bytes : Nat) : Session Exchange (Except Int Nat) := meet fun
  | .written count => if count ≤ bytes then some (.ok count) else none
  | .writeFailed errno _ => some (.error errno)
  | _ => none

structure ExxxReprograming where
  timeout : Int
  sleepTick : Int

structure Sending where
  elapsed : Int
  error : ErrorCode
  numDone : Nat

structure Receiving where
  elapsed : Int
  error : ErrorCode
  message : List UInt8

structure Booting where
  bootMessage : List UInt8
  start : Int
  outputCount : Nat

namespace ExxxReprograming

def sendClock (s : Sending) : Session Exchange (Sending ⊕ Sending) := do
  let elapsed ← now
  if elapsed < s.elapsed then pure (.inr {s with elapsed := elapsed,error := .valueTooLarge})
  else pure (.inl {s with elapsed := elapsed})

def sendTurn (r : ExxxReprograming) (dataBytes : Nat) (start : Int) (s : Sending) : Session Exchange (Sending ⊕ Sending) :=
  if s.elapsed - start < r.timeout then do
    let result ← write (dataBytes - s.numDone)
    match result with
    | .error errno =>
      if errno ≠ again then pure (.inr {s with error := .system errno}) else do
        let error ← waitNanoSec r.sleepTick
        if error.value ≠ 0 then pure (.inr {s with error := error}) else sendClock {s with error := error}
    | .ok count =>
      if s.numDone + count = dataBytes then pure (.inr {s with error := .success,numDone := s.numDone + count})
      else sendClock {s with numDone := s.numDone + count}
  else pure (.inr s)

def sendData (r : ExxxReprograming) (data : List UInt8) : Session Exchange ErrorCode := do
  emit (.send data)
  let start ← now
  let s ← loop (r.sendTurn data.length start) ⟨start,.success,0⟩
  pure (if s.numDone ≠ data.length then .timedOut else s.error)

def receiveByte : Session Exchange (Except ErrorCode UInt8) := meet fun
  | .silent => some (.error .timedOut)
  | .receiveFailed errno _ => some (.error (.system errno))
  | .received data => some (.ok data)
  | _ => none

def lineClock (s : Receiving) : Session Exchange (Receiving ⊕ (ErrorCode × List UInt8)) := do
  let elapsed ← now
  if elapsed < s.elapsed then pure (.inr (.valueTooLarge,[])) else pure (.inl {s with elapsed := elapsed})

-- A line that time runs out on is taken as far as it came.
def lineTurn (r : ExxxReprograming) (start : Int) (s : Receiving) : Session Exchange (Receiving ⊕ (ErrorCode × List UInt8)) :=
  if s.elapsed - start < r.timeout then do
    let result ← receiveByte
    match result with
    | .error error =>
      if error.value = ErrorCode.timedOut.value then lineClock {s with error := error} else pure (.inr (error,[]))
    | .ok data =>
      if data = kReceiveLineDelimiter1 ∨ data = kReceiveLineDelimiter2 then pure (.inr (.success,s.message ++ [data]))
      else lineClock {s with error := .success,message := s.message ++ [data]}
  else pure (.inr (if s.message ≠ [] then (.success,s.message) else (s.error,[])))

def receiveLine (r : ExxxReprograming) : Session Exchange (ErrorCode × List UInt8) := do
  let start ← now
  loop (r.lineTurn start) ⟨start,.success,[]⟩

def drainTurn (_ : Unit) : Session Exchange (Unit ⊕ ErrorCode) := do
  let result ← receiveByte
  match result with
  | .error error => pure (.inr error)
  | .ok _ => pure (.inl ())

-- A line of the boot message. The turns end with the error, what has been received of the
-- message, and whether it is all there: then the version decides, behind what is thrown away.
def bootLine (r : ExxxReprograming) (bootVersion axisNumber bootMessage : List UInt8) :
    Session Exchange (List UInt8 ⊕ (ErrorCode × List UInt8 × Bool)) := do
  let received ← r.receiveLine
  if received.1.value ≠ 0 then pure (.inr (received.1,bootMessage,false)) else
  let bootMessage := bootMessage ++ received.2
  if kBootMessage <:+: bootMessage ∧ axisNumber <:+: bootMessage then
    if ¬bootVersion <:+: bootMessage then pure (.inr (.notSupported,bootMessage,true)) else do
      let error ← loop drainTurn ()
      pure (.inr (if error.value = ErrorCode.timedOut.value then .success else error,bootMessage,true))
  else pure (.inl bootMessage)

def dot (bootTimeout elapsed : Int) (s : Booting) : Booting :=
  if elapsed - s.start ≥ kReproIntervalTime ∧ (s.outputCount : Int) < bootTimeout.tdiv kReproIntervalTime then
    {s with start := elapsed,outputCount := (s.outputCount + 1) % 2^32}
  else s

def bootClock (bootTimeout bootStart : Int) (s : Booting) : Session Exchange (Booting ⊕ ErrorCode) := do
  let elapsed ← now
  let s := dot bootTimeout elapsed s
  if elapsed - bootStart ≥ bootTimeout + kBootStartUpWaitTime then pure (.inr .noMessage)
  else if elapsed < s.start then pure (.inr .valueTooLarge) else do
    let waited ← waitNanoSec kCommandIntervalTime
    if waited.value ≠ 0 then pure (.inr waited) else pure (.inl s)

def bootTurn (r : ExxxReprograming) (bootVersion axisNumber : List UInt8) (id : UInt8) (bootTimeout bootStart : Int)
    (s : Booting) : Session Exchange (Booting ⊕ ErrorCode) := do
  let sent ← r.sendData [id]
  if sent.value ≠ 0 then pure (.inr sent) else do
    let heard ← loop (r.bootLine bootVersion axisNumber) s.bootMessage
    if heard.2.2 then pure (.inr heard.1)
    else if heard.1.value ≠ 0 ∧ heard.1.value ≠ ErrorCode.timedOut.value then pure (.inr heard.1)
    else bootClock bootTimeout bootStart {s with bootMessage := heard.2.1}

def waitBoot (r : ExxxReprograming) (bootloaderVersion : Int) (id : UInt8) (bootTimeout : Int) : Session Exchange ErrorCode := do
  let bootStart ← now
  let bootVersion := ascii "Ver." ++ [UInt8.ofInt (bootloaderVersion + 0x30)]
  loop (r.bootTurn bootVersion (ascii "No_" ++ [id]) id bootTimeout bootStart) ⟨[],bootStart,0⟩

def checkReceivedMessage (r : ExxxReprograming) (checkMessage : List UInt8) : Session Exchange ErrorCode := do
  let received ← r.receiveLine
  pure (if received.1.value = 0 then if checkMessage <:+: received.2 then received.1 else .illegalByteSequence
    else received.1)

def commandTurn (r : ExxxReprograming) (command : UInt8) (checkMessage : List UInt8) (retryCount : Nat) :
    Session Exchange (Nat ⊕ ErrorCode) := do
  let sent ← r.sendData [command]
  if sent.value ≠ 0 then pure (.inr sent) else do
    let error ← r.checkReceivedMessage checkMessage
    if error.value = 0 then pure (.inr error)
    else if error.value ≠ ErrorCode.timedOut.value ∧ error.value ≠ ErrorCode.illegalByteSequence.value then pure (.inr error)
    else if retryCount + 1 ≥ kSendCommandMaxRetryCount then pure (.inr .timedOut) else do
      let waited ← waitNanoSec kCommandIntervalTime
      if waited.value ≠ 0 then pure (.inr waited) else pure (.inl (retryCount + 1))

def sendCommand (r : ExxxReprograming) (command : UInt8) (checkMessage : List UInt8) : Session Exchange ErrorCode :=
  loop (r.commandTurn command checkMessage) 0

-- The block at a position, or `none` when it reaches out of the data. Lengths are `size_t`.
def flushBlock (flushData : List UInt8) (sendPos : Nat) : Option (List UInt8) :=
  let left := (flushData.length + 2^64 - sendPos) % 2^64
  let dataSize := if left < kXmodemDataSize then left else kXmodemDataSize
  if sendPos + dataSize ≤ flushData.length then
    some ((flushData.drop sendPos).take dataSize ++ List.replicate (kXmodemDataSize - dataSize) kXmodemEOF)
  else none

def sendFlushBlockData (r : ExxxReprograming) (flushData : List UInt8) (sendPos : Nat) (blockNumber : UInt8) :
    Session Exchange ErrorCode :=
  (flushBlock flushData sendPos).elim (halt .fault) fun block =>
    r.sendData ([kXmodemSOH,blockNumber,~~~ blockNumber] ++ block ++ [block.sum])

def waitTurn (retryCount : Nat) : Session Exchange (Nat ⊕ ErrorCode) := do
  let result ← receiveByte
  match result with
  | .ok data =>
    if data = kXmodemNAK then pure (.inr .success)
    else if retryCount + 1 ≥ kFlushXmodemMaxRetryCount then pure (.inr .timedOut) else pure (.inl (retryCount + 1))
  | .error error =>
    if error.value ≠ 0 ∧ error.value ≠ ErrorCode.timedOut.value then pure (.inr error)
    else if retryCount + 1 ≥ kFlushXmodemMaxRetryCount then pure (.inr .timedOut) else pure (.inl (retryCount + 1))

structure Transfer where
  retryCount : Nat
  sendPos : Nat
  outputCount : Nat
  blockNumber : UInt8

-- The end of a turn of the transfer: `is_flush_xmodem` guards an error that is there.
def transferEnd (s : Transfer) (isFlushXmodem : Bool) (error : ErrorCode) : Session Exchange (Transfer ⊕ ErrorCode) :=
  if s.retryCount ≥ kFlushXmodemMaxRetryCount then pure (.inr .timedOut)
  else if isFlushXmodem then do
    let waited ← waitNanoSec kFlushIntervalTime
    if waited.value ≠ 0 then pure (.inr waited) else pure (.inl s)
  else pure (.inr error)

def transferNext (r : ExxxReprograming) (flushData : List UInt8) (s : Transfer) : Session Exchange (Transfer ⊕ ErrorCode) :=
  let sendPos := (s.sendPos + kXmodemDataSize) % 2^32
  if flushData.length = 0 then halt .fault else
  let flushRatio := min (sendPos * 10 % 2^32 / flushData.length % 2^32) 10
  let s : Transfer := ⟨0,sendPos,flushRatio,s.blockNumber + 1⟩
  if s.sendPos ≥ flushData.length then do
    let error ← r.sendCommand kXmodemEOT kFlushFinishMessage
    transferEnd s false error
  else do
    let error ← r.sendFlushBlockData flushData s.sendPos s.blockNumber
    transferEnd s (error.value = 0) error

def transferAgain (r : ExxxReprograming) (flushData : List UInt8) (s : Transfer) : Session Exchange (Transfer ⊕ ErrorCode) :=
  let s := {s with retryCount := s.retryCount + 1}
  if s.retryCount < kFlushXmodemMaxRetryCount then do
    let error ← r.sendFlushBlockData flushData s.sendPos s.blockNumber
    transferEnd s (error.value = 0) error
  else transferEnd s true .success

def transferTurn (r : ExxxReprograming) (flushData : List UInt8) (s : Transfer) : Session Exchange (Transfer ⊕ ErrorCode) := do
  let result ← receiveByte
  match result with
  | .error error =>
    if error.value = ErrorCode.timedOut.value then transferEnd {s with retryCount := s.retryCount + 1} true error
    else pure (.inr error)
  | .ok data =>
    if data = kXmodemACK then r.transferNext flushData s
    else if data = kXmodemNAK then r.transferAgain flushData s
    else if data = kXmodemCAN then transferEnd s false .timedOut
    else transferEnd {s with retryCount := s.retryCount + 1} true .success

def flushXmodem (r : ExxxReprograming) (flushData : List UInt8) : Session Exchange ErrorCode := do
  let waited ← loop waitTurn 0
  if waited.value ≠ 0 then pure waited else do
    let sent ← r.sendFlushBlockData flushData 0 1
    if sent.value ≠ 0 then pure sent else do
      let slept ← waitNanoSec kFlushIntervalTime
      if slept.value ≠ 0 then pure slept else loop (r.transferTurn flushData) ⟨0,0,0,1⟩

end ExxxReprograming
end HsrbDrivers.Servomotor

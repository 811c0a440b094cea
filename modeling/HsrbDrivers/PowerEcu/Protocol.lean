import HsrbDrivers.Library.Transition
import HsrbDrivers.PowerEcu.DataEncoder
import HsrbDrivers.PowerEcu.ErrorCounter
import HsrbDrivers.PowerEcu.PublishedValues
import HsrbDrivers.PowerEcu.ReceiveLoop

namespace HsrbDrivers.PowerEcu
open CText

def kCommandQueueSize : Nat := 1000
def kErrorCounterSize : Nat := 1000
def kRetryCount : Nat := 10
def kRetryRate : Rat := 9 / 10

-- Times and durations in nanoseconds; a difference exceeds a number of seconds
-- exactly when it exceeds that many nanoseconds.
def kCommandTimeout : Int := 10 * 10^9
def kHeartbeatDuration : Int := 5 * 10^9

def kEcuComVersion1String : String := "B7335B767D0FA2E6925BC8E965E443291A16A26A"

def heartCommandName : List UInt8 := ascii "heart"
def getvCommandName : List UInt8 := ascii "getv_"

structure CommandState where
  commandName : List UInt8
  returnValue : UInt8
  isProcessing : Bool
  retryCount : UInt32
deriving DecidableEq

structure PowerEcuVersions where
  powerEcuVersion : List UInt8
  powerEcuComVersion : List UInt8
deriving DecidableEq

-- The queue shares the entries of the command map; a name stands for its entry.
structure PowerEcuProtocol where
  receiveBuffer : PacketBuffer
  frameDecoder : FrameDecoder Received
  received : Received
  frameEncoder : FrameEncoder Parameters
  parameters : Parameters
  commandMap : List CommandState
  commandQueue : CircularBuffer (List UInt8) kCommandQueueSize
  lastSendCommandTime : Int
  lastHeartbeatTime : Int
  isWaitingAck : Bool
  readErrorCounter : ErrorCounter
  writeErrorCounter : ErrorCounter

structure Transmission where
  command : List UInt8
  queued : Bool
  frame : List UInt8
deriving DecidableEq

structure Release where
  command : List UInt8
  acked : Bool
deriving DecidableEq

structure Reception where
  code : ErrorCode
  reports : List Report
  released : Option Release
deriving DecidableEq

-- One turn of the receive loop of `GetPowerEcuVersions`: the clock and the network
-- as `ReceiveAll` finds them, and the clock at the timeout check.
structure Arrival where
  time : Int
  outcome : ErrorCode
  chunk : List UInt8
  checked : Int

namespace PowerEcuProtocol

-- A shared pointer that is null has no name to ask for.
def getCommandState (p : PowerEcuProtocol) (name : List UInt8) : Except Stop CommandState :=
  match p.commandMap.find? (fun c => c.commandName = name) with
  | none => .error .fault
  | some command => .ok command

def hasCommand (p : PowerEcuProtocol) (name : List UInt8) : Bool :=
  p.commandMap.any (fun c => c.commandName = name)

def registerDataDecoder (p : PowerEcuProtocol) (decoder : DataDecoder Received) : Except Stop PowerEcuProtocol :=
  match p.frameDecoder.registerDataDecoder decoder with
  | (.success,frameDecoder) => .ok {p with frameDecoder := frameDecoder}
  | _ => .error .exit

def registerDataEncoder (p : PowerEcuProtocol) (encoder : DataEncoder Parameters) : Except Stop PowerEcuProtocol :=
  match p.frameEncoder.registerDataEncoder encoder with
  | (.success,frameEncoder) =>
    if p.hasCommand encoder.packetName then .error .exit else
    .ok {p with frameEncoder := frameEncoder,commandMap := ⟨encoder.packetName,0,false,0⟩ :: p.commandMap}
  | _ => .error .exit

def blank (time : Int) : PowerEcuProtocol where
  receiveBuffer := .empty
  frameDecoder := .empty
  received := Received.initial
  frameEncoder := .empty
  parameters := Parameters.initial
  commandMap := []
  commandQueue := .empty
  lastSendCommandTime := 0
  lastHeartbeatTime := time
  isWaitingAck := false
  readErrorCounter := .construct kErrorCounterSize (by decide)
  writeErrorCounter := .construct kErrorCounterSize (by decide)

def construct (time : Int) : Except Stop PowerEcuProtocol := do
  let p ← (blank time).registerDataDecoder Received.rxackDecoder
  let p ← p.registerDataDecoder Received.verDecoder
  constructorEncoders.foldlM registerDataEncoder p

def addCommandQueue (p : PowerEcuProtocol) (commandName : List UInt8) : Bool × PowerEcuProtocol :=
  if p.hasCommand commandName then
    (true,{p with
      commandMap := p.commandMap.map fun c =>
        if c.commandName = commandName then {c with isProcessing := true,retryCount := 0} else c
      commandQueue := p.commandQueue.pushBack commandName})
  else (false,p)

def dropAck (p : PowerEcuProtocol) : PowerEcuProtocol :=
  {p with received := {p.received with rxack := {p.received.rxack with isReceiveAck := false}}}

def sendCommand (p : PowerEcuProtocol) (command : List UInt8) (outcome : ErrorCode) :
    Except Stop (ErrorCode × List UInt8 × PowerEcuProtocol) :=
  match p.frameEncoder.encode p.parameters (.empty : PacketBuffer) command with
  | (.success,sendBuffer) =>
    if outcome ≠ .success then .ok (.networkDown,sendBuffer.data,p) else
    .ok (.success,sendBuffer.data,p.dropAck)
  | _ => .error .exit

def frontCommand (p : PowerEcuProtocol) : Except Stop (List UInt8) :=
  match p.commandQueue.front? with
  | none => .error .fault
  | some command => .ok command

def popCommand (p : PowerEcuProtocol) : Except Stop PowerEcuProtocol :=
  match p.commandQueue.popFront with
  | none => .error .fault
  | some commandQueue => .ok {p with commandQueue := commandQueue}

def sendAll (p : PowerEcuProtocol) (time : Int) (outcome : ErrorCode) :
    Except Stop (ErrorCode × Option Transmission × PowerEcuProtocol) :=
  if p.commandQueue.size ≠ 0 ∧ p.isWaitingAck = false then do
    let currentCommand ← p.frontCommand
    let (ret,frame,p) ← p.sendCommand currentCommand outcome
    if ret ≠ .success then return (ret,none,{p with writeErrorCounter := p.writeErrorCounter.register false}) else
    return (.success,some ⟨currentCommand,true,frame⟩,{p with
      lastSendCommandTime := time
      isWaitingAck := true
      writeErrorCounter := p.writeErrorCounter.register true})
  else if time - p.lastHeartbeatTime > kHeartbeatDuration then do
    let p := {p with parameters := {p.parameters with counts := p.parameters.counts + 1}}
    let heart ← p.getCommandState heartCommandName
    let (ret,frame,p) ← p.sendCommand heart.commandName outcome
    if ret ≠ .success then return (ret,none,{p with writeErrorCounter := p.writeErrorCounter.register false}) else
    return (.success,some ⟨heart.commandName,false,frame⟩,{p with
      lastHeartbeatTime := p.lastHeartbeatTime + kHeartbeatDuration
      writeErrorCounter := p.writeErrorCounter.register true})
  else .ok (.success,none,{p with writeErrorCounter := p.writeErrorCounter.register true})

def confirmAck (p : PowerEcuProtocol) (time : Int) (result : ErrorCode) :
    Except Stop (ErrorCode × Option Release × PowerEcuProtocol) :=
  if p.isWaitingAck = false then .ok (result,none,p) else
  if p.received.rxack.isReceiveAck then do
    let currentCommand ← p.frontCommand
    let result := if p.received.rxack.ackValue ≠ 0 then .operationCanceled else result
    let p ← p.popCommand
    return (result,some ⟨currentCommand,true⟩,{p with isWaitingAck := false})
  else if time - p.lastSendCommandTime > kCommandTimeout then do
    let currentCommand ← p.frontCommand
    let p ← p.popCommand
    return (.timedOut,some ⟨currentCommand,false⟩,{p with isWaitingAck := false})
  else .ok (result,none,p)

-- `outcome` is the answer of the network and `chunk` what it appended.
def receiveAll (p : PowerEcuProtocol) (time : Int) (outcome : ErrorCode) (chunk : List UInt8) :
    Except Stop (Reception × PowerEcuProtocol) :=
  if outcome ≠ .success then
    .ok (⟨.networkDown,[],none⟩,{p with
      receiveBuffer := p.receiveBuffer.pushBacks chunk
      readErrorCounter := p.readErrorCounter.register false})
  else do
    let (left,decoding) ← receiveChunk p.frameDecoder p.receiveBuffer p.received chunk
    let (result,released,p) ← {p with receiveBuffer := left,received := decoding.memory}.confirmAck time decoding.result
    return (⟨result,decoding.reports,released⟩,{p with readErrorCounter := p.readErrorCounter.register (result = .success)})

-- The send loop of `GetPowerEcuVersions`, one answer of the network a turn.
def requestVersions : List ErrorCode → Nat → PowerEcuProtocol → Except Stop (Bool × PowerEcuProtocol)
  | [],_,_ => .error .unfinished
  | outcome :: outcomes,retry,p => do
    let getv ← p.getCommandState getvCommandName
    let (ret,_,p) ← p.sendCommand getv.commandName outcome
    if ret = .success then return (true,p) else
    let retry := retry + 1
    if retry ≤ kRetryCount then return (false,p) else
    requestVersions outcomes retry p

def awaitVersions (startTime : Int) : List Arrival → PowerEcuProtocol →
    Except Stop (Option PowerEcuVersions × List Reception × PowerEcuProtocol)
  | [],_ => .error .unfinished
  | arrival :: arrivals,p => do
    let (reception,p) ← p.receiveAll arrival.time arrival.outcome arrival.chunk
    if reception.code ≠ .success ∧ p.readErrorCounter.getErrorRate > kRetryRate then return (none,[reception],p) else
    if p.received.ver.isReceiveVersion then
      return (some ⟨p.received.ver.verPowerEcuVersion.data,p.received.ver.verPowerEcuComVersion.data⟩,[reception],p) else
    if arrival.checked - startTime > kCommandTimeout then return (none,[reception],p) else
    let (version,receptions,p) ← awaitVersions startTime arrivals p
    return (version,reception :: receptions,p)

def getPowerEcuVersions (p : PowerEcuProtocol) (startTime : Int) (outcomes : List ErrorCode) (arrivals : List Arrival) :
    Except Stop (Option PowerEcuVersions × List Reception × PowerEcuProtocol) := do
  let p := {p with received := {p.received with ver := {p.received.ver with isReceiveVersion := false}}}
  let (requested,p) ← requestVersions outcomes 0 p
  if requested then awaitVersions startTime arrivals p else return (none,[],p)

def init (p : PowerEcuProtocol) (startTime : Int) (outcomes : List ErrorCode) (arrivals : List Arrival) :
    Except Stop (Bool × List Reception × PowerEcuProtocol) := do
  let (version,receptions,p) ← p.getPowerEcuVersions startTime outcomes arrivals
  match version with
  | none => return (false,receptions,p)
  | some version =>
    if version.powerEcuComVersion ≠ ascii kEcuComVersion1String then return (true,receptions,p) else
    let p ← p.registerDataDecoder Received.ecu1Decoder
    let p ← p.registerDataDecoder Received.ecu2Decoder
    let p ← initEncoders.foldlM registerDataEncoder p
    return (true,receptions,p)

theorem hasCommand_iff {p : PowerEcuProtocol} {name : List UInt8} :
    p.hasCommand name = true ↔ name ∈ p.commandMap.map CommandState.commandName := by
  simp only [hasCommand,List.any_eq_true,decide_eq_true_eq,List.mem_map]

theorem sendCommand_parts {p q : PowerEcuProtocol} {command frame : List UInt8} {outcome ret : ErrorCode}
    (sent : p.sendCommand command outcome = .ok (ret,frame,q)) :
    frame = (p.frameEncoder.encode p.parameters (.empty : PacketBuffer) command).2.data ∧
      ((outcome = .success ∧ ret = .success ∧ q = p.dropAck) ∨ (outcome ≠ .success ∧ ret = .networkDown ∧ q = p)) := by
  unfold sendCommand at sent
  split at sent
  · rename_i sendBuffer encoded
    rw [encoded]
    by_cases taken : outcome = .success
    · simp only [taken,ne_eq,not_true_eq_false,if_false,Except.ok.injEq,Prod.mk.injEq] at sent
      exact ⟨sent.2.1.symm,.inl ⟨taken,sent.1.symm,sent.2.2.symm⟩⟩
    · simp only [taken,ne_eq,not_false_eq_true,if_true,Except.ok.injEq,Prod.mk.injEq] at sent
      exact ⟨sent.2.1.symm,.inr ⟨taken,sent.1.symm,sent.2.2.symm⟩⟩
  · cases sent

theorem getCommandState_name {p : PowerEcuProtocol} {name : List UInt8} {command : CommandState}
    (mapped : p.getCommandState name = .ok command) : command.commandName = name := by
  unfold getCommandState at mapped
  split at mapped
  · cases mapped
  · rename_i state found
    cases mapped
    simpa using List.find?_some found

theorem frontCommand_ok {p : PowerEcuProtocol} {command : List UInt8} (front : p.frontCommand = .ok command) :
    p.commandQueue.front? = some command := by
  unfold frontCommand at front
  split at front
  · cases front
  · rename_i first held
    rw [held,Except.ok.inj front]

theorem popCommand_ok {p q : PowerEcuProtocol} (popped : p.popCommand = .ok q) :
    ∃ commandQueue, p.commandQueue.popFront = some commandQueue ∧ q = {p with commandQueue := commandQueue} := by
  unfold popCommand at popped
  split at popped
  · cases popped
  · rename_i commandQueue removed
    exact ⟨commandQueue,removed,(Except.ok.inj popped).symm⟩

theorem sendAll_parts {p q : PowerEcuProtocol} {time : Int} {outcome ret : ErrorCode} {transmission : Option Transmission}
    (sent : p.sendAll time outcome = .ok (ret,transmission,q)) :
    (transmission = none ∧ ∃ parameters counter,
      q = {p with parameters := parameters,writeErrorCounter := counter}) ∨
    (∃ command counter, p.isWaitingAck = false ∧ p.commandQueue.front? = some command ∧ outcome = .success ∧
      transmission = some ⟨command,true,(p.frameEncoder.encode p.parameters (.empty : PacketBuffer) command).2.data⟩ ∧
      q = {p.dropAck with lastSendCommandTime := time,isWaitingAck := true,writeErrorCounter := counter}) ∨
    ∃ parameters heartbeatTime counter, outcome = .success ∧
      transmission = some ⟨heartCommandName,false,
        (p.frameEncoder.encode parameters (.empty : PacketBuffer) heartCommandName).2.data⟩ ∧
      q = {p.dropAck with parameters := parameters,lastHeartbeatTime := heartbeatTime,writeErrorCounter := counter} := by
  unfold sendAll at sent
  by_cases ready : p.commandQueue.size ≠ 0 ∧ p.isWaitingAck = false
  · rw [if_pos ready] at sent
    obtain ⟨command,front,continued⟩ := except_bind_ok.mp sent
    obtain ⟨⟨code,frame,after⟩,commandSent,finished⟩ := except_bind_ok.mp continued
    obtain ⟨frameEq,⟨taken,codeEq,afterEq⟩ | ⟨refused,codeEq,afterEq⟩⟩ := sendCommand_parts commandSent
    · subst frameEq codeEq afterEq
      cases finished
      exact .inr (.inl ⟨command,_,ready.2,frontCommand_ok front,taken,rfl,rfl⟩)
    · subst codeEq afterEq
      cases finished
      exact .inl ⟨rfl,_,_,rfl⟩
  rw [if_neg ready] at sent
  by_cases late : time - p.lastHeartbeatTime > kHeartbeatDuration
  · rw [if_pos late] at sent
    obtain ⟨heart,mapped,continued⟩ := except_bind_ok.mp sent
    obtain ⟨⟨code,frame,after⟩,commandSent,finished⟩ := except_bind_ok.mp continued
    have name := getCommandState_name mapped
    obtain ⟨frameEq,⟨taken,codeEq,afterEq⟩ | ⟨refused,codeEq,afterEq⟩⟩ := sendCommand_parts commandSent
    · subst frameEq codeEq afterEq
      rw [name] at finished
      cases finished
      exact .inr (.inr ⟨_,_,_,taken,rfl,rfl⟩)
    · subst codeEq afterEq
      cases finished
      exact .inl ⟨rfl,_,_,rfl⟩
  · rw [if_neg late] at sent
    cases sent
    exact .inl ⟨rfl,_,_,rfl⟩

theorem release_ok {p q : PowerEcuProtocol} {result ret : ErrorCode} {success : Bool} {released : Option Release}
    (finished : (do
      let currentCommand ← p.frontCommand
      let p ← p.popCommand
      return (result,some ⟨currentCommand,success⟩,{p with isWaitingAck := false})) = (.ok (ret,released,q) : Except Stop _)) :
    ∃ command commandQueue, p.commandQueue.front? = some command ∧ p.commandQueue.popFront = some commandQueue ∧
      released = some ⟨command,success⟩ ∧ q = {p with isWaitingAck := false,commandQueue := commandQueue} := by
  obtain ⟨command,front,finished⟩ := except_bind_ok.mp finished
  obtain ⟨after,popped,finished⟩ := except_bind_ok.mp finished
  obtain ⟨commandQueue,removed,afterEq⟩ := popCommand_ok popped
  subst afterEq
  cases finished
  exact ⟨command,commandQueue,frontCommand_ok front,removed,rfl,rfl⟩

theorem confirmAck_parts {p q : PowerEcuProtocol} {time : Int} {result ret : ErrorCode} {released : Option Release}
    (confirmed : p.confirmAck time result = .ok (ret,released,q)) :
    (released = none ∧ q = p ∧ (p.isWaitingAck = true → p.received.rxack.isReceiveAck = false)) ∨
    ∃ command commandQueue, p.isWaitingAck = true ∧ p.commandQueue.front? = some command ∧
      p.commandQueue.popFront = some commandQueue ∧ released = some ⟨command,p.received.rxack.isReceiveAck⟩ ∧
      q = {p with isWaitingAck := false,commandQueue := commandQueue} := by
  unfold confirmAck at confirmed
  by_cases idle : p.isWaitingAck = false
  · rw [if_pos idle] at confirmed
    cases confirmed
    exact .inl ⟨rfl,rfl,fun waiting => absurd (idle.symm.trans waiting) (by decide)⟩
  rw [if_neg idle] at confirmed
  have waiting := eq_true_of_ne_false idle
  cases acked : p.received.rxack.isReceiveAck with
  | true =>
      rw [if_pos acked] at confirmed
      obtain ⟨command,commandQueue,front,removed,rfl,rfl⟩ := release_ok confirmed
      exact .inr ⟨command,commandQueue,waiting,front,removed,rfl,rfl⟩
  | false =>
      rw [acked,if_neg (by decide)] at confirmed
      by_cases late : time - p.lastSendCommandTime > kCommandTimeout
      · rw [if_pos late] at confirmed
        obtain ⟨command,commandQueue,front,removed,rfl,rfl⟩ := release_ok confirmed
        exact .inr ⟨command,commandQueue,waiting,front,removed,rfl,rfl⟩
      · rw [if_neg late] at confirmed
        cases confirmed
        exact .inl ⟨rfl,rfl,fun _ => rfl⟩

theorem receiveAll_parts {p q : PowerEcuProtocol} {time : Int} {outcome : ErrorCode} {chunk : List UInt8} {reception : Reception}
    (received : p.receiveAll time outcome chunk = .ok (reception,q)) :
    (outcome ≠ .success ∧ reception = ⟨.networkDown,[],none⟩ ∧ ∃ counter,
      q = {p with receiveBuffer := p.receiveBuffer.pushBacks chunk,readErrorCounter := counter}) ∨
    ∃ left decoding counter, outcome = .success ∧
      receiveChunk p.frameDecoder p.receiveBuffer p.received chunk = .ok (left,decoding) ∧
      reception.reports = decoding.reports ∧
      ((reception.released = none ∧ (p.isWaitingAck = true → decoding.memory.rxack.isReceiveAck = false) ∧
        q = {p with receiveBuffer := left,received := decoding.memory,readErrorCounter := counter}) ∨
      ∃ command commandQueue, p.isWaitingAck = true ∧ p.commandQueue.front? = some command ∧
        p.commandQueue.popFront = some commandQueue ∧
        reception.released = some ⟨command,decoding.memory.rxack.isReceiveAck⟩ ∧
        q = {p with
          receiveBuffer := left
          received := decoding.memory
          isWaitingAck := false
          commandQueue := commandQueue
          readErrorCounter := counter}) := by
  unfold receiveAll at received
  by_cases taken : outcome = .success
  · rw [if_neg (not_not.mpr taken)] at received
    obtain ⟨⟨left,decoding⟩,decoded,received⟩ := except_bind_ok.mp received
    obtain ⟨⟨result,released,after⟩,confirmed,received⟩ := except_bind_ok.mp received
    rcases confirmAck_parts confirmed with ⟨none,afterEq,unacked⟩ | ⟨command,commandQueue,waiting,front,removed,some,afterEq⟩
    · subst none afterEq
      cases received
      exact .inr ⟨left,decoding,_,taken,decoded,rfl,.inl ⟨rfl,unacked,rfl⟩⟩
    · subst some afterEq
      cases received
      exact .inr ⟨left,decoding,_,taken,decoded,rfl,.inr ⟨command,commandQueue,waiting,front,removed,rfl,rfl⟩⟩
  · rw [if_pos taken] at received
    cases received
    exact .inl ⟨taken,rfl,_,rfl⟩

theorem registerDataDecoder_free (p : PowerEcuProtocol) (decoder : DataDecoder Received)
    (free : decoder.packetName ∉ p.frameDecoder.decoders.map DataDecoder.packetName) :
    ∃ q, p.registerDataDecoder decoder = .ok q ∧ q = {p with frameDecoder := q.frameDecoder} ∧
      q.frameDecoder.decoders = decoder :: p.frameDecoder.decoders := by
  have distinct := List.nodup_cons.mpr ⟨free,p.frameDecoder.distinct⟩
  refine ⟨{p with frameDecoder := ⟨decoder :: p.frameDecoder.decoders,distinct⟩},?_,rfl,rfl⟩
  simp only [registerDataDecoder,FrameDecoder.registerDataDecoder,dif_neg free]

theorem registerDataEncoder_free (p : PowerEcuProtocol) (encoder : DataEncoder Parameters)
    (free : encoder.packetName ∉ p.frameEncoder.encoders.map DataEncoder.packetName)
    (unmapped : encoder.packetName ∉ p.commandMap.map CommandState.commandName) :
    ∃ q, p.registerDataEncoder encoder = .ok q ∧
      q = {p with
        frameEncoder := q.frameEncoder
        commandMap := ⟨encoder.packetName,0,false,0⟩ :: p.commandMap} ∧
      q.frameEncoder.encoders = encoder :: p.frameEncoder.encoders := by
  have distinct := p.frameEncoder.registered_distinct encoder free
  have missing : p.hasCommand encoder.packetName = false := by
    rw [← Bool.not_eq_true,hasCommand_iff]
    exact unmapped
  refine ⟨{p with
    frameEncoder := ⟨encoder :: p.frameEncoder.encoders,distinct⟩
    commandMap := ⟨encoder.packetName,0,false,0⟩ :: p.commandMap},?_,rfl,rfl⟩
  simp only [registerDataEncoder,FrameEncoder.registerDataEncoder,dif_neg free,missing,Bool.false_eq_true,if_false]

theorem construct_parts (time : Int) :
    ∃ p, construct time = .ok p ∧
      p = {blank time with
        frameDecoder := p.frameDecoder
        frameEncoder := p.frameEncoder
        commandMap := [⟨getvCommandName,0,false,0⟩,⟨heartCommandName,0,false,0⟩]} ∧
      p.frameDecoder.decoders = [Received.verDecoder,Received.rxackDecoder] ∧
      p.frameEncoder.encoders = [powerEcuComGetvDataEncoder,powerEcuComHeartDataEncoder] := by
  have decoderNames : Received.verDecoder.packetName ∉ [Received.rxackDecoder].map DataDecoder.packetName := by decide +kernel
  have encoderNames : powerEcuComGetvDataEncoder.packetName ∉ [powerEcuComHeartDataEncoder].map DataEncoder.packetName := by
    decide +kernel
  obtain ⟨one,rxackRegistered,oneEq,oneDecoders⟩ :=
    registerDataDecoder_free (blank time) Received.rxackDecoder List.not_mem_nil
  obtain ⟨two,verRegistered,twoEq,twoDecoders⟩ :=
    registerDataDecoder_free one Received.verDecoder (by rw [oneDecoders]; exact decoderNames)
  obtain ⟨three,heartRegistered,threeEq,threeEncoders⟩ :=
    registerDataEncoder_free two powerEcuComHeartDataEncoder (by rw [twoEq,oneEq]; exact List.not_mem_nil)
      (by rw [twoEq,oneEq]; exact List.not_mem_nil)
  have threeBefore : three.frameEncoder.encoders = [powerEcuComHeartDataEncoder] := by
    rw [threeEncoders,twoEq,oneEq]
    rfl
  obtain ⟨four,getvRegistered,fourEq,fourEncoders⟩ :=
    registerDataEncoder_free three powerEcuComGetvDataEncoder (by rw [threeBefore]; exact encoderNames)
      (by rw [threeEq,twoEq,oneEq]; exact encoderNames)
  refine ⟨four,?_,?_,?_,?_⟩
  · simp only [construct,rxackRegistered,verRegistered,bind,Except.bind,constructorEncoders,List.foldlM_cons,List.foldlM_nil,
      heartRegistered,getvRegistered,pure,Except.pure]
  · rw [fourEq,threeEq,twoEq,oneEq]
    rfl
  · rw [fourEq,threeEq]
    simp only [twoDecoders,oneDecoders]
    rfl
  · rw [fourEncoders,threeBefore]

structure Fresh (time : Int) (p : PowerEcuProtocol) : Prop where
  buffer : p.receiveBuffer = .empty
  queue : p.commandQueue = .empty
  idle : p.isWaitingAck = false
  heartbeat : p.lastHeartbeatTime = time
  commands : p.commandMap = [⟨getvCommandName,0,false,0⟩,⟨heartCommandName,0,false,0⟩]
  decoders : p.frameDecoder.decoders = [Received.verDecoder,Received.rxackDecoder]
  encoders : p.frameEncoder.encoders = [powerEcuComGetvDataEncoder,powerEcuComHeartDataEncoder]

theorem construct_fresh {p : PowerEcuProtocol} {time : Int} (constructed : construct time = .ok p) : Fresh time p := by
  obtain ⟨p',returned,fields,decoders,encoders⟩ := construct_parts time
  cases constructed.symm.trans returned
  refine ⟨?_,?_,?_,?_,?_,decoders,encoders⟩
  all_goals rw [fields] <;> rfl

theorem confirmAck_returns {p : PowerEcuProtocol} (time : Int) (result : ErrorCode)
    (queued : p.isWaitingAck = true → p.commandQueue.data ≠ []) :
    ∃ confirmed, p.confirmAck time result = .ok confirmed := by
  unfold confirmAck
  cases waiting : p.isWaitingAck with
  | false => exact ⟨_,if_pos rfl⟩
  | true =>
      obtain ⟨command,rest,held⟩ := List.exists_cons_of_ne_nil (queued waiting)
      obtain ⟨commandQueue,popped,_⟩ := CircularBuffer.popFront_cons held
      have front : p.frontCommand = .ok command := by
        simp only [frontCommand,CircularBuffer.front?,held,List.head?_cons]
      have pop : p.popCommand = .ok {p with commandQueue := commandQueue} := by
        simp only [popCommand,popped]
      rw [if_neg (by decide)]
      by_cases acked : p.received.rxack.isReceiveAck = true
      · rw [if_pos acked,front]
        simp only [bind,Except.bind,pop]
        exact ⟨_,rfl⟩
      rw [if_neg acked]
      by_cases late : time - p.lastSendCommandTime > kCommandTimeout
      · rw [if_pos late,front]
        simp only [bind,Except.bind,pop]
        exact ⟨_,rfl⟩
      · exact ⟨_,if_neg late⟩

theorem receiveAll_returns {p : PowerEcuProtocol} (time : Int) (outcome : ErrorCode) (chunk : List UInt8)
    (queued : p.isWaitingAck = true → p.commandQueue.data ≠ []) :
    ∃ reception q, p.receiveAll time outcome chunk = .ok (reception,q) := by
  unfold receiveAll
  by_cases taken : outcome = .success
  · obtain ⟨reports,next,left,_,decoded,_⟩ := decodeBuffer_drain p.frameDecoder (p.receiveBuffer.pushBacks chunk) p.received
    rw [if_neg (not_not.mpr taken),receiveChunk,decoded]
    obtain ⟨⟨ret,released,after⟩,confirmed⟩ :=
      confirmAck_returns (p := {p with receiveBuffer := left,received := next}) time (resultOf .success reports) queued
    simp only [bind,Except.bind,confirmed]
    exact ⟨_,_,rfl⟩
  · exact ⟨_,_,if_pos taken⟩

end PowerEcuProtocol
end HsrbDrivers.PowerEcu

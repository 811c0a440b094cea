import HsrbDrivers.PowerEcu.CommandProcessing

namespace HsrbDrivers.PowerEcu
open CText

namespace PowerEcuProtocol

structure Untouched (p q : PowerEcuProtocol) : Prop where
  decoder : q.frameDecoder = p.frameDecoder
  encoder : q.frameEncoder = p.frameEncoder
  commands : q.commandMap = p.commandMap
  parameters : q.parameters = p.parameters
  queue : q.commandQueue = p.commandQueue
  waiting : q.isWaitingAck = p.isWaitingAck

theorem Untouched.refl (p : PowerEcuProtocol) : Untouched p p := ⟨rfl,rfl,rfl,rfl,rfl,rfl⟩

theorem Untouched.trans {p q r : PowerEcuProtocol} (one : Untouched p q) (other : Untouched q r) : Untouched p r :=
  ⟨other.decoder.trans one.decoder,other.encoder.trans one.encoder,other.commands.trans one.commands,
    other.parameters.trans one.parameters,other.queue.trans one.queue,other.waiting.trans one.waiting⟩

theorem sendCommand_untouched {p q : PowerEcuProtocol} {command frame : List UInt8} {outcome ret : ErrorCode}
    (sent : p.sendCommand command outcome = .ok (ret,frame,q)) : Untouched p q := by
  rcases (sendCommand_parts sent).2 with ⟨_,_,rfl⟩ | ⟨_,_,rfl⟩
  · exact ⟨rfl,rfl,rfl,rfl,rfl,rfl⟩
  · exact Untouched.refl _

theorem receiveAll_untouched {p q : PowerEcuProtocol} {time : Int} {outcome : ErrorCode} {chunk : List UInt8} {reception : Reception}
    (idle : p.isWaitingAck = false) (received : p.receiveAll time outcome chunk = .ok (reception,q)) :
    Untouched p q ∧ reception.released = none := by
  rcases receiveAll_parts received with ⟨_,rfl,_,rfl⟩ | ⟨_,_,_,_,_,_,⟨none,_,rfl⟩ | ⟨_,_,waiting,_⟩⟩
  · exact ⟨⟨rfl,rfl,rfl,rfl,rfl,rfl⟩,rfl⟩
  · exact ⟨⟨rfl,rfl,rfl,rfl,rfl,rfl⟩,none⟩
  · rw [idle] at waiting
    cases waiting

theorem requestVersions_untouched {outcomes : List ErrorCode} {retry : Nat} {p q : PowerEcuProtocol} {requested : Bool}
    (returned : requestVersions outcomes retry p = .ok (requested,q)) : Untouched p q := by
  induction outcomes generalizing p retry with
  | nil => cases returned
  | cons outcome outcomes ih =>
      rw [requestVersions] at returned
      obtain ⟨getv,_,returned⟩ := except_bind_ok.mp returned
      obtain ⟨⟨ret,frame,after⟩,sent,returned⟩ := except_bind_ok.mp returned
      have next := sendCommand_untouched sent
      simp only at returned
      split at returned
      · cases returned
        exact next
      split at returned
      · cases returned
        exact next
      · exact next.trans (ih returned)

theorem awaitVersions_untouched {startTime : Int} {arrivals : List Arrival} {p q : PowerEcuProtocol}
    {version : Option PowerEcuVersions} {receptions : List Reception} (idle : p.isWaitingAck = false)
    (returned : awaitVersions startTime arrivals p = .ok (version,receptions,q)) :
    Untouched p q ∧ receptions.filterMap Reception.released = [] ∧
      ∀ found, version = some found → found.powerEcuComVersion = q.received.ver.verPowerEcuComVersion.data := by
  induction arrivals generalizing p receptions with
  | nil => cases returned
  | cons arrival arrivals ih =>
      rw [awaitVersions] at returned
      obtain ⟨⟨reception,after⟩,received,returned⟩ := except_bind_ok.mp returned
      obtain ⟨next,none⟩ := receiveAll_untouched idle received
      simp only at returned
      split at returned
      · cases returned
        exact ⟨next,by simp [none],fun found absent => by cases absent⟩
      split at returned
      · cases returned
        refine ⟨next,by simp [none],fun found same => ?_⟩
        cases same
        rfl
      split at returned
      · cases returned
        exact ⟨next,by simp [none],fun found absent => by cases absent⟩
      · obtain ⟨⟨found,later,last⟩,rest,returned⟩ := except_bind_ok.mp returned
        cases returned
        obtain ⟨final,others,told⟩ := ih (next.waiting.trans idle) rest
        exact ⟨next.trans final,by simp [none,others],told⟩

theorem getPowerEcuVersions_untouched {p q : PowerEcuProtocol} {startTime : Int} {outcomes : List ErrorCode}
    {arrivals : List Arrival} {version : Option PowerEcuVersions} {receptions : List Reception} (idle : p.isWaitingAck = false)
    (returned : p.getPowerEcuVersions startTime outcomes arrivals = .ok (version,receptions,q)) :
    Untouched p q ∧ receptions.filterMap Reception.released = [] ∧
      ∀ found, version = some found → found.powerEcuComVersion = q.received.ver.verPowerEcuComVersion.data := by
  unfold getPowerEcuVersions at returned
  obtain ⟨⟨requested,after⟩,request,returned⟩ := except_bind_ok.mp returned
  have cleared : Untouched p {p with received := {p.received with ver := {p.received.ver with isReceiveVersion := false}}} :=
    ⟨rfl,rfl,rfl,rfl,rfl,rfl⟩
  have asked := cleared.trans (requestVersions_untouched request)
  cases requested with
  | true =>
      obtain ⟨answered,nothing,told⟩ := awaitVersions_untouched (asked.waiting.trans idle) returned
      exact ⟨asked.trans answered,nothing,told⟩
  | false =>
      cases returned
      exact ⟨asked,rfl,fun found absent => by cases absent⟩

structure Holds (p : PowerEcuProtocol) (decoders : List (DataDecoder Received)) (encoders : List (DataEncoder Parameters))
    (parameters : Parameters) (queue : List (List UInt8)) : Prop where
  decoder : p.frameDecoder.decoders = decoders
  encoder : p.frameEncoder.encoders = encoders
  commands : p.commandMap.map CommandState.commandName = encoders.map DataEncoder.packetName
  parameter : p.parameters = parameters
  queued : p.commandQueue.data = queue
  idle : p.isWaitingAck = false

section
variable {p q : PowerEcuProtocol} {decoders : List (DataDecoder Received)} {encoders : List (DataEncoder Parameters)}
variable {parameters : Parameters} {queue : List (List UInt8)}

theorem Holds.untouched (holds : Holds p decoders encoders parameters queue) (untouched : Untouched p q) :
    Holds q decoders encoders parameters queue :=
  ⟨untouched.decoder ▸ holds.decoder,untouched.encoder ▸ holds.encoder,untouched.commands ▸ holds.commands,
    untouched.parameters ▸ holds.parameter,untouched.queue ▸ holds.queued,untouched.waiting ▸ holds.idle⟩

theorem Holds.addDecoder {decoder : DataDecoder Received} (holds : Holds p decoders encoders parameters queue)
    (returned : p.registerDataDecoder decoder = .ok q) :
    Holds q (decoder :: decoders) encoders parameters queue ∧ q.received = p.received := by
  obtain ⟨added,same⟩ := registerDataDecoder_decoders returned
  rw [holds.decoder] at added
  rw [same]
  exact ⟨⟨added,holds.encoder,holds.commands,holds.parameter,holds.queued,holds.idle⟩,rfl⟩

theorem Holds.addEncoders {more : List (DataEncoder Parameters)} (holds : Holds p decoders encoders parameters queue)
    (returned : more.foldlM registerDataEncoder p = .ok q) :
    Holds q decoders (more.reverse ++ encoders) parameters queue ∧ q.received = p.received := by
  induction more generalizing p encoders with
  | nil =>
      cases returned
      exact ⟨holds,rfl⟩
  | cons encoder more ih =>
      rw [List.foldlM_cons] at returned
      obtain ⟨next,first,rest⟩ := except_bind_ok.mp returned
      obtain ⟨added,same⟩ := registerDataEncoder_encoders first
      rw [holds.encoder] at added
      have one : Holds next decoders (encoder :: encoders) parameters queue := by
        rw [same]
        refine ⟨holds.decoder,added,?_,holds.parameter,holds.queued,holds.idle⟩
        rw [List.map_cons,holds.commands,List.map_cons]
      obtain ⟨whole,received⟩ := ih one rest
      rw [List.reverse_cons,List.append_assoc]
      exact ⟨whole,received.trans (by rw [same])⟩

theorem Holds.addCommand (holds : Holds p decoders encoders parameters queue) {name : List UInt8}
    (known : name ∈ encoders.map DataEncoder.packetName) (room : queue.length < kCommandQueueSize) :
    Holds (p.addCommandQueue name).2 decoders encoders parameters (queue ++ [name]) := by
  rcases addCommandQueue_parts p name with ⟨_,unknown⟩ | ⟨commandMap,added,names,_⟩
  · exact absurd (holds.commands ▸ known) unknown
  · rw [added]
    refine ⟨holds.decoder,holds.encoder,names.trans holds.commands,holds.parameter,?_,holds.idle⟩
    rw [CircularBuffer.data_pushBack _ _ (holds.queued ▸ room),holds.queued]

theorem Holds.hasParam (holds : Holds p decoders encoders parameters queue) (name : String) (type : ParamType) :
    p.hasParam name type =
      (decoders.any (fun d => d.hasParam p.received name type) || encoders.any fun d => d.hasParam name type) := by
  rw [PowerEcuProtocol.hasParam,holds.decoder,holds.encoder]

theorem Holds.assign (holds : Holds p decoders encoders parameters queue) (name : String) (type : ParamType)
    (there : encoders.any (fun d => d.hasParam name type) = true) (set : Parameters → Parameters) :
    ∃ q, p.assign name type set = .ok q ∧ Holds q decoders encoders (set parameters) queue := by
  have found : p.hasParam name type = true := by rw [holds.hasParam,there,Bool.or_true]
  exact ⟨_,if_pos found,holds.decoder,holds.encoder,holds.commands,congrArg set holds.parameter,holds.queued,holds.idle⟩

end

def constructedDecoders : List (DataDecoder Received) := [Received.verDecoder,Received.rxackDecoder]
def initDecoders : List (DataDecoder Received) := [Received.ecu2Decoder,Received.ecu1Decoder] ++ constructedDecoders

theorem construct_holds {p : PowerEcuProtocol} {time : Int} (constructed : construct time = .ok p) :
    Holds p constructedDecoders constructorEncoders.reverse Parameters.initial [] := by
  obtain ⟨p',returned,fields,_,_⟩ := construct_parts time
  cases constructed.symm.trans returned
  have fresh := construct_fresh constructed
  refine ⟨fresh.decoders,fresh.encoders,?_,?_,?_,fresh.idle⟩
  · rw [fresh.commands]
    rfl
  · rw [fields]
    rfl
  · rw [fresh.queue]
    exact CircularBuffer.data_empty

theorem init_holds {p q : PowerEcuProtocol} {time startTime : Int} {outcomes : List ErrorCode} {arrivals : List Arrival}
    {receptions : List Reception} {ready : Bool} (constructed : construct time = .ok p)
    (returned : p.init startTime outcomes arrivals = .ok (ready,receptions,q)) :
    receptions.filterMap Reception.released = [] ∧ (ready = true →
      if q.received.ver.verPowerEcuComVersion.data = ascii kEcuComVersion1String then
        Holds q initDecoders protocolEncoders.reverse Parameters.initial []
      else Holds q constructedDecoders constructorEncoders.reverse Parameters.initial []) := by
  have begun := construct_holds constructed
  unfold init at returned
  obtain ⟨⟨version,found,after⟩,versions,returned⟩ := except_bind_ok.mp returned
  obtain ⟨untouched,nothing,told⟩ := getPowerEcuVersions_untouched begun.idle versions
  have asked := begun.untouched untouched
  cases version with
  | none =>
      cases returned
      exact ⟨nothing,fun absent => by cases absent⟩
  | some version =>
      have same := told version rfl
      dsimp only at returned
      split at returned
      · rename_i other
        cases returned
        rw [if_neg (same ▸ other)]
        exact ⟨nothing,fun _ => asked⟩
      · rename_i known
        obtain ⟨one,ecu1,returned⟩ := except_bind_ok.mp returned
        obtain ⟨two,ecu2,returned⟩ := except_bind_ok.mp returned
        obtain ⟨three,registered,returned⟩ := except_bind_ok.mp returned
        cases returned
        obtain ⟨first,firstSame⟩ := asked.addDecoder ecu1
        obtain ⟨second,secondSame⟩ := first.addDecoder ecu2
        obtain ⟨third,thirdSame⟩ := second.addEncoders registered
        rw [thirdSame,secondSame,firstSame,if_pos (same ▸ not_not.mp known)]
        rw [protocolEncoders,List.reverse_append]
        exact ⟨nothing,fun _ => third⟩

def started (timeString : List UInt8) : Parameters :=
  {Parameters.initial with startTime := timeString,isAmpMute := false,isEnableEcu1 := true,isEnableEcu2 := true}

theorem startCommands_known : ∀ name ∈ [timeCommandName,muteCommandName,startCommandName],
    name ∈ protocolEncoders.reverse.map DataEncoder.packetName := by decide +kernel

theorem start_prepares {p : PowerEcuProtocol} (holds : Holds p initDecoders protocolEncoders.reverse Parameters.initial [])
    {timeString : List UInt8} (length : timeString.length = 14) :
    ∃ q, Holds q initDecoders protocolEncoders.reverse (started timeString) [timeCommandName,muteCommandName,startCommandName] ∧
      ∀ startTime turns, p.start timeString startTime turns = processTurns true kRetryRate startTime turns q := by
  obtain ⟨one,time,held⟩ := holds.assign "start_time" .text rfl fun m => {m with startTime := timeString}
  have held := held.addCommand (startCommands_known timeCommandName (by decide)) (by decide)
  obtain ⟨two,mute,held⟩ := held.assign "is_amp_mute" .bool rfl fun m => {m with isAmpMute := false}
  have held := held.addCommand (startCommands_known muteCommandName (by decide)) (by decide)
  obtain ⟨three,ecu1,held⟩ := held.assign "is_enable_ecu1" .bool rfl fun m => {m with isEnableEcu1 := true}
  obtain ⟨four,ecu2,held⟩ := held.assign "is_enable_ecu2" .bool rfl fun m => {m with isEnableEcu2 := true}
  refine ⟨_,held.addCommand (startCommands_known startCommandName (by decide)) (by decide),fun startTime turns => ?_⟩
  unfold start
  rw [if_neg (not_not.mpr length),time]
  simp only [bind,Except.bind,mute,ecu1,ecu2,processCommandQueue_turns]

theorem start_faults {p : PowerEcuProtocol} (holds : Holds p constructedDecoders constructorEncoders.reverse Parameters.initial [])
    {timeString : List UInt8} (length : timeString.length = 14) (startTime : Int) (turns : List Turn) :
    p.start timeString startTime turns = .error .fault := by
  have missing : p.hasParam "start_time" .text = false := by
    rw [holds.hasParam]
    rfl
  unfold start assign
  rw [if_neg (not_not.mpr length),missing]
  rfl

theorem commandFrame_eq {p : PowerEcuProtocol} {d : DataEncoder Parameters} (registered : d ∈ p.frameEncoder.encoders)
    (listed : d ∈ protocolEncoders) (other : d ≠ powerEcuComRprodDataEncoder) :
    p.commandFrame d.packetName = frameText 72 d.packetName (d.getPacketSizeStr p.parameters) (d.written p.parameters) := by
  have sized := protocolEncoders_sized listed other
  have short := d.written_length_le p.parameters
  have room : (frameText 72 d.packetName (d.getPacketSizeStr p.parameters) (d.written p.parameters)).length ≤ kBufferSize := by
    have size := sized.size
    have full : d.fullLength p.parameters = d.fullWidth := by rw [DataEncoder.fullLength,sized.inherited]
    rw [frameText_length,sized.name,sized.digits,numeral_length]
    unfold kBufferSize
    omega
  obtain ⟨buffer,encoded,text⟩ := FrameEncoder.encode_eq p.parameters registered room
  rw [commandFrame,encoded]
  exact text

theorem inherited_other {d : DataEncoder Parameters} (none : d.overridden = none) : d ≠ powerEcuComRprodDataEncoder := by
  rintro rfl
  cases none

def startFrames (timeString : List UInt8) : List Transmission :=
  [⟨timeCommandName,true,frameText 72 timeCommandName (ascii "026") (timeString ++ [44])⟩,
    ⟨muteCommandName,true,frameText 72 muteCommandName (ascii "015") (ascii "h00,")⟩,
    ⟨startCommandName,true,frameText 72 startCommandName (ascii "015") (ascii "h03,")⟩]

theorem written_startTime {d : DataEncoder Parameters} (other : d = powerEcuComMuteDataEncoder ∨ d = powerEcuComStartDataEncoder)
    (m : Parameters) (timeString : List UInt8) : d.written {m with startTime := timeString} = d.written m := by
  rcases other with rfl | rfl
  · rfl
  · rfl

theorem started_frames {p : PowerEcuProtocol} {timeString : List UInt8} (length : timeString.length = 14)
    {queue : List (List UInt8)} (holds : Holds p initDecoders protocolEncoders.reverse (started timeString) queue) :
    [timeCommandName,muteCommandName,startCommandName].map (fun name => ⟨name,true,p.commandFrame name⟩) = startFrames timeString := by
  have listed : ∀ d ∈ [powerEcuComTimeDataEncoder,powerEcuComMuteDataEncoder,powerEcuComStartDataEncoder], d ∈ protocolEncoders := by
    simp [protocolEncoders,constructorEncoders,initEncoders]
  have frame : ∀ d ∈ [powerEcuComTimeDataEncoder,powerEcuComMuteDataEncoder,powerEcuComStartDataEncoder], d.overridden = none →
      p.commandFrame d.packetName =
        frameText 72 d.packetName (d.getPacketSizeStr (started timeString)) (d.written (started timeString)) := by
    intro d member none
    rw [← holds.parameter]
    exact commandFrame_eq (holds.encoder ▸ List.mem_reverse.mpr (listed d member)) (listed d member) (inherited_other none)
  have time := frame powerEcuComTimeDataEncoder (by simp) rfl
  have mute := frame powerEcuComMuteDataEncoder (by simp) rfl
  have start := frame powerEcuComStartDataEncoder (by simp) rfl
  have string : powerEcuComTimeDataEncoder.written (started timeString) = timeString ++ [44] := by
    have converted : (elementStringEncoder (fun m : Parameters => m.startTime) 14).convert (started timeString) = some timeString :=
      if_neg (not_not.mpr length)
    change DataEncoder.writtenElements [elementStringEncoder (fun m : Parameters => m.startTime) 14] (started timeString) = _
    simp only [DataEncoder.writtenElements,converted]
  have muted : powerEcuComMuteDataEncoder.written (started timeString) = ascii "h00," := by
    refine (written_startTime (.inl rfl) (started []) timeString).trans ?_
    decide +kernel
  have enabled : powerEcuComStartDataEncoder.written (started timeString) = ascii "h03," := by
    refine (written_startTime (.inr rfl) (started []) timeString).trans ?_
    decide +kernel
  rw [string] at time
  rw [muted] at mute
  rw [enabled] at start
  change [Transmission.mk timeCommandName true (p.commandFrame powerEcuComTimeDataEncoder.packetName),
    ⟨muteCommandName,true,p.commandFrame powerEcuComMuteDataEncoder.packetName⟩,
    ⟨startCommandName,true,p.commandFrame powerEcuComStartDataEncoder.packetName⟩] = _
  rw [time,mute,start]
  rfl

theorem init_consistent {p : PowerEcuProtocol} {parameters : Parameters} {queue : List (List UInt8)}
    (holds : Holds p initDecoders protocolEncoders.reverse parameters queue)
    (known : ∀ name ∈ queue, name ∈ protocolEncoders.reverse.map DataEncoder.packetName) : Consistent p := by
  refine ⟨⟨?_,?_,?_,?_,?_,?_⟩,⟨?_,?_⟩⟩
  · rw [holds.decoder]
    simp [initDecoders,constructedDecoders,Received.protocolDecoders]
  · rw [holds.decoder]
    simp [initDecoders,constructedDecoders]
  · rw [holds.commands,holds.encoder]
    exact fun _ member => member
  · rw [holds.commands]
    decide +kernel
  · rw [holds.commands]
    decide +kernel
  · rw [holds.queued,holds.commands]
    exact known
  · rw [holds.idle]
    exact fun waiting => by cases waiting
  · rw [holds.idle]
    exact fun waiting => by cases waiting

-- Behind an `Init` that knows the version, `Start` either outlasts its turns or returns, and when it
-- returns a success the time, the amplifier's and the start command went out in this order and
-- each was acknowledged; behind one that does not, it writes through a null pointer.
theorem start_announces {p q : PowerEcuProtocol} {time versionStart : Int} {outcomes : List ErrorCode} {arrivals : List Arrival}
    {receptions : List Reception} (constructed : construct time = .ok p)
    (initialised : p.init versionStart outcomes arrivals = .ok (true,receptions,q)) {timeString : List UInt8}
    (length : timeString.length = 14) (startTime : Int) (turns : List Turn) :
    if q.received.ver.verPowerEcuComVersion.data = ascii kEcuComVersion1String then
      (∀ stop, q.start timeString startTime turns = .error stop → stop = .unfinished) ∧
      (Chronological startTime turns → (∀ turn ∈ turns, turn.ok = true) →
        ∀ record r, q.start timeString startTime turns = .ok (.success,record,r) →
          record.transmissions.filter Transmission.queued = startFrames timeString ∧
            record.releases = (startFrames timeString).map (fun t => ⟨t.command,true⟩) ∧ r.commandQueue.data = [])
    else q.start timeString startTime turns = .error .fault := by
  have ready := (init_holds constructed initialised).2 rfl
  split
  · rename_i known
    rw [if_pos known] at ready
    obtain ⟨prepared,holds,same⟩ := start_prepares ready length
    have valid := init_consistent holds startCommands_known
    rw [same]
    refine ⟨fun stop => processTurns_stop valid,fun forward up record r returned => ?_⟩
    have listed : ∀ d ∈ prepared.frameEncoder.encoders, d ∈ protocolEncoders := by
      rw [holds.encoder]
      exact fun d member => List.mem_reverse.mp member
    have worked := processTurns_works listed forward (Int.le_refl _) (fun _ => up) (by simp [holds.idle]) returned
    have pending : prepared.pending = [timeCommandName,muteCommandName,startCommandName] := by
      simp [PowerEcuProtocol.pending,holds.idle,holds.queued]
    have transmitted := worked.transmitted (by rw [pending]; decide +kernel)
    rw [pending,started_frames length holds] at transmitted
    refine ⟨transmitted,?_,worked.empty⟩
    rw [worked.releases,holds.queued]
    rfl
  · rename_i other
    rw [if_neg other] at ready
    exact start_faults ready length startTime turns

def verData : List UInt8 := (104 :: ascii kEcuComVersion1String ++ [44]) ++ (104 :: ascii kEcuComVersion1String ++ [44])
def verFrame : Frame := Frame.make 69 (ascii Ver.kVerDataDecoderPacketName) verData rfl

def initialised : Except Stop (Bool × List Reception × PowerEcuProtocol) := do
  let p ← construct 0
  p.init 0 [.success] [⟨0,.success,verFrame.bytes 69,0⟩]

def announced : Except Stop (Bool × List UInt8 × ErrorCode) := do
  let (ready,_,q) ← initialised
  let (result,_,_) ← q.start (ascii "20170210095651") 0 [answeredTurn,answeredTurn,answeredTurn]
  return (ready,q.received.ver.verPowerEcuComVersion.data,result)

set_option maxRecDepth 20000 in
theorem announced_result : announced.toOption = some (true,ascii kEcuComVersion1String,.success) := by decide +kernel

theorem initialised_version : initialised.toOption.map (fun (ready,_,q) => (ready,q.received.ver.verPowerEcuComVersion.data)) =
    some (true,ascii kEcuComVersion1String) := by
  have evaluated := announced_result
  unfold announced at evaluated
  cases begun : initialised with
  | error stop =>
      rw [begun] at evaluated
      cases evaluated
  | ok returned =>
      obtain ⟨ready,receptions,q⟩ := returned
      rw [begun] at evaluated
      simp only [bind,Except.bind] at evaluated
      split at evaluated
      · cases evaluated
      · obtain ⟨rfl,version⟩ := Prod.mk.inj (Option.some.inj evaluated)
        exact congrArg (fun data => some (true,data)) (Prod.mk.inj version).1

theorem known_version_announced : ∃ p receptions q record r, construct 0 = .ok p ∧
    p.init 0 [.success] [⟨0,.success,verFrame.bytes 69,0⟩] = .ok (true,receptions,q) ∧
    q.start (ascii "20170210095651") 0 [answeredTurn,answeredTurn,answeredTurn] = .ok (.success,record,r) ∧
    record.transmissions.filter Transmission.queued = startFrames (ascii "20170210095651") ∧ r.commandQueue.data = [] := by
  have evaluated := announced_result
  cases result : announced with
  | error stop =>
      rw [result] at evaluated
      cases evaluated
  | ok returned =>
      rw [result] at evaluated
      cases Option.some.inj evaluated
      obtain ⟨⟨ready,receptions,q⟩,initial,behind⟩ := except_bind_ok.mp result
      obtain ⟨⟨code,record,r⟩,started,same⟩ := except_bind_ok.mp behind
      obtain ⟨p,constructed,called⟩ := except_bind_ok.mp initial
      obtain ⟨rfl,known⟩ := Prod.mk.inj (Except.ok.inj same)
      obtain ⟨version,rfl⟩ := Prod.mk.inj known
      have told := start_announces constructed called (show (ascii "20170210095651").length = 14 from rfl) 0
        [answeredTurn,answeredTurn,answeredTurn]
      rw [if_pos version] at told
      have forward : Chronological 0 [answeredTurn,answeredTurn,answeredTurn] := by simp [Chronological,answeredTurn]
      obtain ⟨transmitted,_,empty⟩ := told.2 forward (by simp [answeredTurn]) record r started
      exact ⟨p,receptions,q,record,r,constructed,called,started,transmitted,empty⟩

end PowerEcuProtocol
end HsrbDrivers.PowerEcu

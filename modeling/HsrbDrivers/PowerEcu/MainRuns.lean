import HsrbDrivers.PowerEcu.Startup

namespace HsrbDrivers.PowerEcu
open CText

namespace PowerEcuProtocol

theorem processTurns_empties {checkRos : Bool} {errorRate : Rat} {startTime : Int} {turns : List Turn} {p q : PowerEcuProtocol}
    {record : Record} (up : checkRos = true → ∀ turn ∈ turns, turn.ok = true)
    (returned : processTurns checkRos errorRate startTime turns p = .ok (.success,record,q)) : q.commandQueue.data = [] := by
  induction turns generalizing p record with
  | nil =>
      rcases processTurns_parts returned with ⟨_,_,rfl,empty | ⟨_,_,none,_⟩⟩ | ⟨_,_,_,_,_,none,_⟩
      · exact empty
      · cases none
      · cases none
  | cons turn turns ih =>
      rcases processTurns_parts returned with ⟨_,_,rfl,empty | ⟨_,_,split,checked,down⟩⟩ |
        ⟨_,_,ret,transmission,after,split,sent,⟨none,_⟩ | ⟨reception,next,received,⟨none | ⟨none,_⟩,_⟩ | ⟨rest,inTime,continued,rfl⟩⟩⟩
      · exact empty
      · cases split
        exact absurd (up checked turn List.mem_cons_self) (by simp [down])
      · cases none
      · cases none
      · cases none
      cases split
      exact ih (fun checked turn member => up checked turn (List.mem_cons_of_mem _ member)) continued

def Queues (names : List (List UInt8)) (p : PowerEcuProtocol) : Prop := ∀ c ∈ p.commandQueue.data, c ∈ names

theorem pending_queued {p : PowerEcuProtocol} {c : List UInt8} (member : c ∈ p.pending) : c ∈ p.commandQueue.data := by
  unfold PowerEcuProtocol.pending at member
  split at member
  · exact List.mem_of_mem_tail member
  · exact member

theorem Keeps.queues {p q : PowerEcuProtocol} {record : Record} {names : List (List UInt8)} (keeps : Keeps p q record)
    (queues : Queues names p) : Queues names q ∧ ∀ c ∈ record.queued, c ∈ names := by
  refine ⟨fun c member => queues c ?_,fun c member => queues c (pending_queued ?_)⟩
  · rw [← keeps.queue]
    exact List.mem_append_right _ member
  · rw [← keeps.pending]
    exact List.mem_append_left _ member

theorem addCommandQueue_queues {p : PowerEcuProtocol} {names : List (List UInt8)} {name : List UInt8} (queues : Queues names p)
    (listed : name ∈ names) : Queues names (p.addCommandQueue name).2 := by
  rcases addCommandQueue_parts p name with ⟨refused,_⟩ | ⟨_,pushed,_,_⟩
  · rw [refused]
    exact queues
  · rw [pushed]
    intro c member
    rcases CircularBuffer.mem_pushBack member with old | rfl
    · exact queues c old
    · exact listed

theorem ledCommand_queues {p q : PowerEcuProtocol} {msg : ColorRGBA} (queues : Queues [ledcCommandName] p)
    (returned : p.ledCommand msg = .ok q) : Queues [ledcCommandName] q := by
  obtain ⟨color,_,returned⟩ := except_bind_ok.mp returned
  split at returned
  · cases returned
    exact addCommandQueue_queues (p := {p with parameters := {p.parameters with ledColor := color}}) queues List.mem_cons_self
  · cases returned
    exact queues

theorem runRounds_leds {rounds : List Round} {p q : PowerEcuProtocol} {record : Record} (queues : Queues [ledcCommandName] p)
    (returned : runRounds rounds p = .ok (record,q)) :
    Queues [ledcCommandName] q ∧ ∀ c ∈ record.queued, c ∈ [ledcCommandName] := by
  induction rounds generalizing p record with
  | nil =>
      cases returned
      exact ⟨queues,nofun⟩
  | cons round rounds ih =>
      rw [runRounds] at returned
      obtain ⟨⟨reception,one⟩,received,returned⟩ := except_bind_ok.mp returned
      obtain ⟨⟨ret,transmission,two⟩,sent,returned⟩ := except_bind_ok.mp returned
      obtain ⟨three,called,returned⟩ := except_bind_ok.mp returned
      obtain ⟨⟨rest,last⟩,continued,returned⟩ := except_bind_ok.mp returned
      cases returned
      have first := (receiveAll_receives received).keeps.queues queues
      have second := (sendAll_sends sent).keeps.queues first.1
      have third : Queues [ledcCommandName] three :=
        foldlM_preserves (fun _ _ _ held same => ledCommand_queues held same) second.1 called
      obtain ⟨after,later⟩ := ih third continued
      refine ⟨after,fun c member => ?_⟩
      rw [Record.and_queued,Record.and_queued,Record.received_queued,List.nil_append] at member
      rcases List.mem_append.mp member with now | other
      · exact second.2 c now
      · exact later c other

theorem start_transmits {p q r : PowerEcuProtocol} {time versionStart : Int} {outcomes : List ErrorCode} {arrivals : List Arrival}
    {receptions : List Reception} (constructed : construct time = .ok p)
    (initialised : p.init versionStart outcomes arrivals = .ok (true,receptions,q)) {timeString : List UInt8} {startTime : Int}
    {turns : List Turn} {result : ErrorCode} {record : Record} (returned : q.start timeString startTime turns = .ok (result,record,r)) :
    record.queued <+: [timeCommandName,muteCommandName,startCommandName] ∧
      (result = .success → (∀ turn ∈ turns, turn.ok = true) → r.commandQueue.data = []) := by
  have length : timeString.length = 14 := by
    unfold start at returned
    split at returned
    · cases returned
    · rename_i fine
      exact not_not.mp fine
  have ready := (init_holds constructed initialised).2 rfl
  split at ready
  · obtain ⟨prepared,holds,same⟩ := start_prepares ready length
    rw [same] at returned
    have pending : prepared.pending = [timeCommandName,muteCommandName,startCommandName] := by
      simp [PowerEcuProtocol.pending,holds.idle,holds.queued]
    refine ⟨⟨r.pending,?_⟩,?_⟩
    · rw [← pending]
      exact (processTurns_keeps returned).pending
    · rintro rfl up
      exact processTurns_empties (fun _ => up) returned
  · rw [start_faults ready length] at returned
    cases returned

theorem stop_silent {p q : PowerEcuProtocol} {startTime : Int} {turns : List Turn} {result : ErrorCode} {record : Record}
    (down : ∀ turn ∈ turns, turn.ok = false) (returned : p.stop startTime turns = .ok (result,record,q)) :
    result = .success ∧ record = .nothing := by
  rw [stop,processCommandQueue_turns] at returned
  rcases processTurns_parts returned with ⟨rfl,rfl,_⟩ | ⟨turn,rest,ret,transmission,after,rfl,sent,_⟩
  · exact ⟨rfl,rfl⟩
  · unfold processTurns at returned
    rw [if_pos (.inr ⟨rfl,down turn List.mem_cons_self⟩)] at returned
    cases returned
    exact ⟨rfl,rfl⟩

end PowerEcuProtocol

open PowerEcuProtocol

structure Environment.Once (e : Environment) : Prop where
  entered : (∃ turn ∈ e.startTurns, turn.ok = false) → e.rounds = []
  left : ∀ turn ∈ e.stopTurns, turn.ok = false

theorem queued_leds {names : List (List UInt8)} (leds : ∀ c ∈ names, c ∈ [ledcCommandName]) :
    names = List.replicate names.length ledcCommandName :=
  List.eq_replicate_iff.mpr ⟨rfl,fun c member => List.mem_singleton.mp (leds c member)⟩

def Told (queued : List (List UInt8)) : Prop :=
  ∃ n leds, queued = [timeCommandName,muteCommandName,startCommandName].take n ++ List.replicate leds ledcCommandName

theorem told_front {queued : List (List UInt8)} (front : queued <+: [timeCommandName,muteCommandName,startCommandName]) : Told queued :=
  ⟨queued.length,0,by rw [List.replicate_zero,List.append_nil]; exact List.prefix_iff_eq_take.mp front⟩

theorem told_leds {queued leds : List (List UInt8)} (front : queued <+: [timeCommandName,muteCommandName,startCommandName])
    (only : ∀ c ∈ leds, c ∈ [ledcCommandName]) : Told (queued ++ leds) :=
  ⟨queued.length,leds.length,by rw [← List.prefix_iff_eq_take.mp front,← queued_leds only]⟩

theorem Told.unstopped {queued : List (List UInt8)} (told : Told queued) : stopCommandName ∉ queued := by
  obtain ⟨n,leds,rfl⟩ := told
  intro member
  rcases List.mem_append.mp member with early | late
  · have listed := List.mem_of_mem_take early
    revert listed
    decide +kernel
  · have same := List.eq_of_mem_replicate late
    revert same
    decide +kernel

-- Whatever a run of `main` meets, the power ECU is told nothing from the queue but the time, the amplifier's
-- and the start command, in this order, and colours of the LED behind them. It is never told to stop,
-- also by a run that exits as a success.
theorem mainLoop_never_stops {e : Environment} (once : e.Once) {status : ExitStatus} {record : Record}
    (returned : mainLoop e = .ok (status,record)) : Told record.queued ∧ stopCommandName ∉ record.queued := by
  suffices told : Told record.queued from ⟨told,told.unstopped⟩
  obtain ⟨p,constructed,returned⟩ := except_bind_ok.mp returned
  split at returned
  · cases returned
    exact told_front (List.nil_prefix)
  obtain ⟨⟨ready,receptions,q⟩,initialised,returned⟩ := except_bind_ok.mp returned
  dsimp only at returned
  cases ready with
  | false =>
      cases returned
      exact told_front (List.nil_prefix)
  | true =>
      rw [if_neg (by decide)] at returned
      obtain ⟨⟨starting,startRecord,r⟩,began,returned⟩ := except_bind_ok.mp returned
      obtain ⟨front,emptied⟩ := start_transmits constructed initialised began
      dsimp only at returned
      have before : ((Record.mk [] (receptions.filterMap Reception.released)).and startRecord).queued = startRecord.queued := by
        rw [Record.and_queued]
        rfl
      split at returned
      · cases returned
        exact before ▸ told_front front
      rename_i succeeded
      split at returned
      · cases returned
        exact before ▸ told_front front
      obtain ⟨⟨running,s⟩,looped,returned⟩ := except_bind_ok.mp returned
      obtain ⟨⟨stopped,stopping,last⟩,ended,returned⟩ := except_bind_ok.mp returned
      cases returned
      obtain ⟨_,silent⟩ := stop_silent once.left ended
      rw [Record.and_queued,Record.and_queued,before,silent,Record.nothing_queued,List.append_nil]
      by_cases up : ∀ turn ∈ e.startTurns, turn.ok = true
      · have empty := emptied (not_not.mp succeeded) up
        refine told_leds front (runRounds_leds (fun c member => ?_) looped).2
        rw [empty] at member
        cases member
      · have none : e.rounds = [] := once.entered (by simpa using up)
        rw [none] at looped
        cases looped
        rw [Record.nothing_queued,List.append_nil]
        exact told_front front

def interrupted : Environment where
  constructed := 0
  opened := true
  versionStart := 0
  outcomes := [.success]
  arrivals := [⟨0,.success,verFrame.bytes 69,0⟩]
  timeString := ascii "20170210095651"
  started := 0
  startTurns := [answeredTurn,answeredTurn,answeredTurn]
  rounds := [⟨0,.timedOut,[],0,.success,[⟨.number 1,.number 0,.number 0⟩]⟩,⟨0,.timedOut,[],0,.success,[]⟩]
  stopped := 0
  stopTurns := [{answeredTurn with ok := false}]

set_option maxRecDepth 20000 in
theorem interrupted_result : (mainLoop interrupted).toOption.map (fun (status,record) => (status,record.queued)) =
    some (.success,[timeCommandName,muteCommandName,startCommandName,ledcCommandName]) := by decide +kernel

theorem interrupted_never_stops : ∃ record, mainLoop interrupted = .ok (.success,record) ∧
    record.queued = [timeCommandName,muteCommandName,startCommandName,ledcCommandName] ∧ stopCommandName ∉ record.queued := by
  have evaluated := interrupted_result
  have once : interrupted.Once := ⟨by simp [interrupted,answeredTurn],by simp [interrupted]⟩
  cases result : mainLoop interrupted with
  | error stop =>
      rw [result] at evaluated
      cases evaluated
  | ok returned =>
      obtain ⟨status,record⟩ := returned
      rw [result] at evaluated
      obtain ⟨rfl,queued⟩ := Prod.mk.inj (Option.some.inj evaluated)
      exact ⟨record,rfl,queued,(mainLoop_never_stops once result).2⟩

namespace PowerEcuProtocol

theorem Holds.addEncoders_returns {p : PowerEcuProtocol} {decoders : List (DataDecoder Received)} {encoders more : List (DataEncoder Parameters)}
    {parameters : Parameters} {queue : List (List UInt8)} (holds : Holds p decoders encoders parameters queue)
    (distinct : ((more.reverse ++ encoders).map DataEncoder.packetName).Nodup) : ∃ q, more.foldlM registerDataEncoder p = .ok q := by
  induction more generalizing p encoders with
  | nil => exact ⟨p,rfl⟩
  | cons encoder more ih =>
      rw [List.reverse_cons,List.append_assoc,List.singleton_append] at distinct
      have free : encoder.packetName ∉ encoders.map DataEncoder.packetName := by
        rw [List.map_append,List.map_cons] at distinct
        exact (List.nodup_cons.mp (List.nodup_append.mp distinct).2.1).1
      obtain ⟨q,registered,_⟩ := p.registerDataEncoder_free encoder (holds.encoder ▸ free) (holds.commands ▸ free)
      have one : [encoder].foldlM registerDataEncoder p = .ok q := by
        rw [List.foldlM_cons,registered]
        rfl
      obtain ⟨last,rest⟩ := ih (holds.addEncoders one).1 distinct
      refine ⟨last,?_⟩
      rw [List.foldlM_cons,registered]
      exact rest

theorem init_stop {p : PowerEcuProtocol} {time startTime : Int} {outcomes : List ErrorCode} {arrivals : List Arrival} {stop : Stop}
    (constructed : construct time = .ok p) (stopped : p.init startTime outcomes arrivals = .error stop) : stop = .unfinished := by
  have begun := construct_holds constructed
  unfold init at stopped
  rcases except_bind_error.mp stopped with stopped | ⟨⟨version,receptions,after⟩,versions,stopped⟩
  · exact getPowerEcuVersions_stop (construct_consistent ⟨time,constructed⟩) stopped
  have asked := begun.untouched (getPowerEcuVersions_untouched begun.idle versions).1
  cases version with
  | none => cases stopped
  | some version =>
      dsimp only at stopped
      split at stopped
      · cases stopped
      have free1 : Received.ecu1Decoder.packetName ∉ constructedDecoders.map DataDecoder.packetName := by decide +kernel
      have free2 : Received.ecu2Decoder.packetName ∉ (Received.ecu1Decoder :: constructedDecoders).map DataDecoder.packetName := by
        decide +kernel
      obtain ⟨one,ecu1,_,_⟩ := after.registerDataDecoder_free Received.ecu1Decoder (asked.decoder ▸ free1)
      have first := (asked.addDecoder ecu1).1
      obtain ⟨two,ecu2,_,_⟩ := one.registerDataDecoder_free Received.ecu2Decoder (first.decoder ▸ free2)
      have second := (first.addDecoder ecu2).1
      obtain ⟨three,registered⟩ := second.addEncoders_returns (by decide +kernel : ((initEncoders.reverse ++ constructorEncoders.reverse).map
        DataEncoder.packetName).Nodup)
      simp only [bind,Except.bind,ecu1,ecu2,registered] at stopped
      cases stopped

theorem ledCommand_preserves {p q : PowerEcuProtocol} {msg : ColorRGBA} (valid : Consistent p) (returned : p.ledCommand msg = .ok q) :
    Consistent q := by
  obtain ⟨color,_,returned⟩ := except_bind_ok.mp returned
  split at returned
  · cases returned
    have assigned : Consistent {p with parameters := {p.parameters with ledColor := color}} := ⟨valid.toEquipped,valid.toSettled⟩
    exact addCommandQueue_preserves assigned (Prod.mk.eta).symm
  · cases returned
    exact valid

theorem ledCommand_stop {p : PowerEcuProtocol} {msg : ColorRGBA} {stop : Stop} (stopped : p.ledCommand msg = .error stop) :
    msg.toColor = .error stop := by
  rcases except_bind_error.mp stopped with stopped | ⟨color,_,stopped⟩
  · exact stopped
  · split at stopped <;> cases stopped

end PowerEcuProtocol

def ColorRGBA.Undefined (msg : ColorRGBA) : Prop := msg.r = .notANumber ∨ msg.g = .notANumber ∨ msg.b = .notANumber

theorem toByte_stop {level : Level} {stop : Stop} (stopped : level.toByte = .error stop) : level = .notANumber ∧ stop = .fault := by
  cases level with
  | number value =>
      simp only [Level.toByte] at stopped
      split at stopped
      · cases stopped
      split at stopped <;> cases stopped
  | infinite negative => cases stopped
  | notANumber =>
      cases stopped
      exact ⟨rfl,rfl⟩

theorem toColor_stop {msg : ColorRGBA} {stop : Stop} (stopped : msg.toColor = .error stop) : msg.Undefined ∧ stop = .fault := by
  rcases except_bind_error.mp stopped with red | ⟨_,_,stopped⟩
  · exact ⟨.inl (toByte_stop red).1,(toByte_stop red).2⟩
  rcases except_bind_error.mp stopped with green | ⟨_,_,stopped⟩
  · exact ⟨.inr (.inl (toByte_stop green).1),(toByte_stop green).2⟩
  rcases except_bind_error.mp stopped with blue | ⟨_,_,stopped⟩
  · exact ⟨.inr (.inr (toByte_stop blue).1),(toByte_stop blue).2⟩
  · cases stopped

theorem ledCommands_stop {commands : List ColorRGBA} {p : PowerEcuProtocol} {stop : Stop}
    (stopped : commands.foldlM PowerEcuProtocol.ledCommand p = .error stop) : stop = .fault ∧ ∃ msg ∈ commands, msg.Undefined := by
  induction commands generalizing p with
  | nil => cases stopped
  | cons msg commands ih =>
      rw [List.foldlM_cons] at stopped
      rcases except_bind_error.mp stopped with stopped | ⟨q,_,stopped⟩
      · obtain ⟨undefined,fault⟩ := toColor_stop (ledCommand_stop stopped)
        exact ⟨fault,msg,List.mem_cons_self,undefined⟩
      · obtain ⟨fault,other,member,undefined⟩ := ih stopped
        exact ⟨fault,other,List.mem_cons_of_mem _ member,undefined⟩

theorem runRounds_stop {rounds : List Round} {p : PowerEcuProtocol} {stop : Stop} (valid : Consistent p)
    (stopped : runRounds rounds p = .error stop) : stop = .fault ∧ ∃ round ∈ rounds, ∃ msg ∈ round.commands, msg.Undefined := by
  induction rounds generalizing p with
  | nil => cases stopped
  | cons round rounds ih =>
      rw [runRounds] at stopped
      rcases except_bind_error.mp stopped with stopped | ⟨⟨reception,one⟩,received,stopped⟩
      · obtain ⟨_,_,received⟩ := receiveAll_returns round.receiveTime round.received round.chunk valid.queued
        rw [received] at stopped
        cases stopped
      have first := receiveAll_preserves valid received
      rcases except_bind_error.mp stopped with stopped | ⟨⟨ret,transmission,two⟩,sent,stopped⟩
      · obtain ⟨_,_,_,sent⟩ := sendAll_returns round.sendTime round.sent first
        rw [sent] at stopped
        cases stopped
      have second := sendAll_preserves first sent
      rcases except_bind_error.mp stopped with stopped | ⟨three,called,stopped⟩
      · obtain ⟨fault,msg,member,undefined⟩ := ledCommands_stop stopped
        exact ⟨fault,round,List.mem_cons_self,msg,member,undefined⟩
      have third : Consistent three := foldlM_preserves (fun _ _ _ held same => ledCommand_preserves held same) second called
      rcases except_bind_error.mp stopped with stopped | ⟨_,_,stopped⟩
      · obtain ⟨fault,other,member,undefined⟩ := ih third stopped
        exact ⟨fault,other,List.mem_cons_of_mem _ member,undefined⟩
      · cases stopped

theorem runRounds_preserves {rounds : List Round} {p q : PowerEcuProtocol} {record : Record} (valid : Consistent p)
    (returned : runRounds rounds p = .ok (record,q)) : Consistent q := by
  induction rounds generalizing p record with
  | nil =>
      cases returned
      exact valid
  | cons round rounds ih =>
      rw [runRounds] at returned
      obtain ⟨⟨reception,one⟩,received,returned⟩ := except_bind_ok.mp returned
      obtain ⟨⟨ret,transmission,two⟩,sent,returned⟩ := except_bind_ok.mp returned
      obtain ⟨three,called,returned⟩ := except_bind_ok.mp returned
      obtain ⟨⟨rest,last⟩,continued,returned⟩ := except_bind_ok.mp returned
      cases returned
      have second := sendAll_preserves (receiveAll_preserves valid received) sent
      exact ih (foldlM_preserves (fun _ _ _ held same => ledCommand_preserves held same) second called) continued

theorem processTurns_preserves {checkRos : Bool} {errorRate : Rat} {startTime : Int} {turns : List Turn} {p q : PowerEcuProtocol}
    {result : ErrorCode} {record : Record} (valid : Consistent p)
    (returned : processTurns checkRos errorRate startTime turns p = .ok (result,record,q)) : Consistent q := by
  induction turns generalizing p record with
  | nil =>
      rcases processTurns_parts returned with ⟨_,_,rfl,_⟩ | ⟨_,_,_,_,_,none,_⟩
      · exact valid
      · cases none
  | cons turn turns ih =>
      rcases processTurns_parts returned with ⟨_,_,rfl,_⟩ | ⟨_,_,ret,transmission,after,split,sent,rest⟩
      · exact valid
      cases split
      have next := sendAll_preserves valid sent
      rcases rest with ⟨_,_,rfl⟩ | ⟨reception,last,received,⟨_,_,rfl⟩ | ⟨rest,_,continued,_⟩⟩
      · exact next
      · exact receiveAll_preserves next received
      · exact ih (receiveAll_preserves next received) continued

theorem start_defined {p q : PowerEcuProtocol} {time versionStart : Int} {outcomes : List ErrorCode} {arrivals : List Arrival}
    {receptions : List Reception} (constructed : construct time = .ok p)
    (initialised : p.init versionStart outcomes arrivals = .ok (true,receptions,q)) (timeString : List UInt8) (startTime : Int)
    (turns : List Turn) :
    (∀ stop, q.start timeString startTime turns = .error stop → stop = .unfinished ∨ (stop = .exit ∧ timeString.length ≠ 14) ∨
      (stop = .fault ∧ q.received.ver.verPowerEcuComVersion.data ≠ ascii kEcuComVersion1String)) ∧
    ∀ result record r, q.start timeString startTime turns = .ok (result,record,r) → Consistent r := by
  by_cases length : timeString.length = 14
  · have ready := (init_holds constructed initialised).2 rfl
    split at ready
    · obtain ⟨prepared,holds,same⟩ := start_prepares ready length
      have valid := init_consistent holds startCommands_known
      rw [same]
      exact ⟨fun stop stopped => .inl (processTurns_stop valid stopped),fun _ _ _ returned => processTurns_preserves valid returned⟩
    · rename_i other
      rw [start_faults ready length]
      refine ⟨fun stop stopped => ?_,fun _ _ _ returned => by cases returned⟩
      cases stopped
      exact .inr (.inr ⟨rfl,other⟩)
  · unfold start
    rw [if_pos length]
    refine ⟨fun stop stopped => ?_,fun _ _ _ returned => by cases returned⟩
    cases stopped
    exact .inr (.inl ⟨rfl,length⟩)

theorem stop_stop {p : PowerEcuProtocol} {startTime : Int} {turns : List Turn} {halted : Stop} (valid : Consistent p)
    (stopped : p.stop startTime turns = .error halted) : halted = .unfinished := by
  rw [stop,processCommandQueue_turns] at stopped
  exact processTurns_stop (addCommandQueue_preserves valid (Prod.mk.eta).symm) stopped

def Environment.Unknown (e : Environment) : Prop :=
  ∃ p receptions q, construct e.constructed = .ok p ∧ p.init e.versionStart e.outcomes e.arrivals = .ok (true,receptions,q) ∧
    q.received.ver.verPowerEcuComVersion.data ≠ ascii kEcuComVersion1String

-- A run of `main` that does not return is one that the events end for, or the time is no text of 14
-- characters, or nothing defined happens: a version of the power ECU was admitted that is unknown, or a
-- colour is no number. The first of these always comes to that.
theorem mainLoop_undefined (e : Environment) :
    (∀ stop, mainLoop e = .error stop → stop = .unfinished ∨ (stop = .exit ∧ e.timeString.length ≠ 14) ∨
      (stop = .fault ∧ (e.Unknown ∨ ∃ round ∈ e.rounds, ∃ msg ∈ round.commands, msg.Undefined))) ∧
    (e.opened = true → e.timeString.length = 14 → e.Unknown → mainLoop e = .error .fault) := by
  refine ⟨fun stop stopped => ?_,fun opened length unknown => ?_⟩
  · rcases except_bind_error.mp stopped with stopped | ⟨p,constructed,stopped⟩
    · obtain ⟨_,constructed,_⟩ := construct_parts e.constructed
      rw [constructed] at stopped
      cases stopped
    split at stopped
    · cases stopped
    rcases except_bind_error.mp stopped with stopped | ⟨⟨ready,receptions,q⟩,initialised,stopped⟩
    · exact .inl (init_stop constructed stopped)
    dsimp only at stopped
    cases ready with
    | false => cases stopped
    | true =>
        rw [if_neg (by decide)] at stopped
        obtain ⟨defined,valid⟩ := start_defined constructed initialised e.timeString e.started e.startTurns
        rcases except_bind_error.mp stopped with stopped | ⟨⟨starting,startRecord,r⟩,began,stopped⟩
        · rcases defined stop stopped with unfinished | exited | ⟨fault,unknown⟩
          · exact .inl unfinished
          · exact .inr (.inl exited)
          · exact .inr (.inr ⟨fault,.inl ⟨p,receptions,q,constructed,initialised,unknown⟩⟩)
        dsimp only at stopped
        split at stopped
        · cases stopped
        split at stopped
        · cases stopped
        rcases except_bind_error.mp stopped with stopped | ⟨⟨running,s⟩,looped,stopped⟩
        · obtain ⟨fault,undefined⟩ := runRounds_stop (valid _ _ _ began) stopped
          exact .inr (.inr ⟨fault,.inr undefined⟩)
        rcases except_bind_error.mp stopped with stopped | ⟨_,_,stopped⟩
        · exact .inl (stop_stop (runRounds_preserves (valid _ _ _ began) looped) stopped)
        · cases stopped
  · obtain ⟨p,receptions,q,constructed,initialised,version⟩ := unknown
    have ready := (init_holds constructed initialised).2 rfl
    rw [if_neg version] at ready
    have faulted := start_faults ready length e.started e.startTurns
    unfold mainLoop
    simp only [bind,Except.bind,constructed,opened,initialised,faulted]
    rfl

end HsrbDrivers.PowerEcu

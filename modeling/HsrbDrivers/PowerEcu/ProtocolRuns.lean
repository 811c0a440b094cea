import HsrbDrivers.PowerEcu.Acknowledgement
import HsrbDrivers.PowerEcu.Protocol

namespace HsrbDrivers.PowerEcu.PowerEcuProtocol

inductive Step (p : PowerEcuProtocol) : PowerEcuProtocol → Prop where
  | added : p.addCommandQueue name = (accepted,q) → Step p q
  | sent : p.sendAll time outcome = .ok (ret,transmission,q) → Step p q
  | received : p.receiveAll time outcome chunk = .ok (reception,q) → Step p q
  | versions : p.getPowerEcuVersions startTime outcomes arrivals = .ok (version,receptions,q) → Step p q
  | initialized : p.init startTime outcomes arrivals = .ok (ready,receptions,q) → Step p q
  | assigned (parameters : Parameters) : Step p {p with parameters := parameters}

def Constructed (p : PowerEcuProtocol) : Prop := ∃ time, construct time = .ok p

structure Equipped (registered : List (DataDecoder Received)) (encoders : List (DataEncoder Parameters))
    (commandMap : List CommandState) (commandQueue : List (List UInt8)) : Prop where
  decoders : ∀ d ∈ registered, d ∈ Received.protocolDecoders
  rxack : Received.rxackDecoder ∈ registered
  encodable : ∀ name ∈ commandMap.map CommandState.commandName, name ∈ encoders.map DataEncoder.packetName
  heart : heartCommandName ∈ commandMap.map CommandState.commandName
  getv : getvCommandName ∈ commandMap.map CommandState.commandName
  mapped : ∀ name ∈ commandQueue, name ∈ commandMap.map CommandState.commandName

-- Between calls, what is awaited is at hand and not yet acknowledged.
structure Settled (isWaitingAck : Bool) (commandQueue : List (List UInt8)) (isReceiveAck : Bool) : Prop where
  queued : isWaitingAck = true → commandQueue ≠ []
  unacked : isWaitingAck = true → isReceiveAck = false

structure Consistent (p : PowerEcuProtocol) : Prop extends
    Equipped p.frameDecoder.decoders p.frameEncoder.encoders p.commandMap p.commandQueue.data,
    Settled p.isWaitingAck p.commandQueue.data p.received.rxack.isReceiveAck

theorem construct_consistent {p : PowerEcuProtocol} (constructed : Constructed p) : Consistent p := by
  obtain ⟨time,returned⟩ := constructed
  have fresh := construct_fresh returned
  have empty : p.commandQueue.data = [] := congrArg _ fresh.queue
  refine ⟨⟨?_,?_,?_,?_,?_,?_⟩,⟨?_,?_⟩⟩
  · intro d registered
    rw [fresh.decoders] at registered
    simp only [List.mem_cons,List.not_mem_nil,or_false] at registered
    rcases registered with rfl | rfl
    · exact List.mem_cons_of_mem _ List.mem_cons_self
    · exact List.mem_cons_self
  · rw [fresh.decoders]
    exact List.mem_cons_of_mem _ List.mem_cons_self
  · rw [fresh.commands,fresh.encoders]
    exact fun name member => member
  · rw [fresh.commands]
    exact List.mem_cons_of_mem _ List.mem_cons_self
  · rw [fresh.commands]
    exact List.mem_cons_self
  · rw [empty]
    exact nofun
  · rw [fresh.idle]
    exact nofun
  · rw [fresh.idle]
    exact nofun

theorem addCommandQueue_parts (p : PowerEcuProtocol) (name : List UInt8) :
    (p.addCommandQueue name = (false,p) ∧ name ∉ p.commandMap.map CommandState.commandName) ∨
    ∃ commandMap, p.addCommandQueue name =
        (true,{p with commandMap := commandMap,commandQueue := p.commandQueue.pushBack name}) ∧
      commandMap.map CommandState.commandName = p.commandMap.map CommandState.commandName ∧
      name ∈ p.commandMap.map CommandState.commandName := by
  by_cases known : p.hasCommand name = true
  · refine .inr ⟨_,if_pos known,?_,hasCommand_iff.mp known⟩
    rw [List.map_map]
    apply List.map_congr_left
    intro c _
    rw [Function.comp_apply]
    split <;> rfl
  · exact .inl ⟨if_neg known,fun member => known (hasCommand_iff.mpr member)⟩

theorem addCommandQueue_preserves {p q : PowerEcuProtocol} {name : List UInt8} {accepted : Bool} (valid : Consistent p)
    (added : p.addCommandQueue name = (accepted,q)) : Consistent q := by
  rcases addCommandQueue_parts p name with ⟨refused,_⟩ | ⟨commandMap,pushed,names,known⟩
  · cases added.symm.trans refused
    exact valid
  · cases added.symm.trans pushed
    refine ⟨⟨valid.decoders,valid.rxack,?_,?_,?_,?_⟩,⟨?_,valid.unacked⟩⟩
    · rw [names]
      exact valid.encodable
    · rw [names]
      exact valid.heart
    · rw [names]
      exact valid.getv
    · intro command held
      rw [names]
      rcases CircularBuffer.mem_pushBack held with old | rfl
      · exact valid.mapped command old
      · exact known
    · exact fun _ => CircularBuffer.pushBack_ne_nil _ _ (by decide)

theorem construct_added {p : PowerEcuProtocol} (constructed : construct time = .ok p) :
    ∃ q, p.addCommandQueue heartCommandName = (true,q) ∧ q.Consistent ∧ q.isWaitingAck = false ∧
      q.commandQueue.data = [heartCommandName] := by
  have fresh := construct_fresh constructed
  have valid := construct_consistent ⟨time,constructed⟩
  rcases addCommandQueue_parts p heartCommandName with ⟨_,unknown⟩ | ⟨commandMap,pushed,_,_⟩
  · exact absurd valid.heart unknown
  · refine ⟨_,pushed,addCommandQueue_preserves valid pushed,fresh.idle,?_⟩
    rw [fresh.queue]
    rfl

theorem dropAck_preserves {p : PowerEcuProtocol} (valid : Consistent p) : Consistent p.dropAck :=
  ⟨valid.toEquipped,⟨valid.queued,fun _ => rfl⟩⟩

theorem sendAll_preserves {p q : PowerEcuProtocol} {time : Int} {outcome ret : ErrorCode} {transmission : Option Transmission}
    (valid : Consistent p) (sent : p.sendAll time outcome = .ok (ret,transmission,q)) : Consistent q := by
  have dropped := dropAck_preserves valid
  rcases sendAll_parts sent with ⟨_,_,_,rfl⟩ | ⟨command,_,_,front,_,_,rfl⟩ | ⟨_,_,_,_,_,rfl⟩
  · exact ⟨valid.toEquipped,valid.toSettled⟩
  · obtain ⟨rest,held⟩ := CircularBuffer.front?_eq_some front
    refine ⟨valid.toEquipped,⟨fun _ => ?_,fun _ => rfl⟩⟩
    exact held ▸ List.cons_ne_nil command rest
  · exact ⟨valid.toEquipped,dropped.toSettled⟩

theorem receiveAll_preserves {p q : PowerEcuProtocol} {time : Int} {outcome : ErrorCode} {chunk : List UInt8} {reception : Reception}
    (valid : Consistent p) (received : p.receiveAll time outcome chunk = .ok (reception,q)) : Consistent q := by
  rcases receiveAll_parts received with ⟨_,_,_,rfl⟩ |
    ⟨left,decoding,_,_,_,_,⟨_,unacked,rfl⟩ | ⟨command,commandQueue,_,_,popped,_,rfl⟩⟩
  · exact ⟨valid.toEquipped,valid.toSettled⟩
  · exact ⟨valid.toEquipped,⟨valid.queued,unacked⟩⟩
  · obtain ⟨first,held⟩ := CircularBuffer.popFront_some popped
    refine ⟨⟨valid.decoders,valid.rxack,valid.encodable,valid.heart,valid.getv,?_⟩,⟨nofun,nofun⟩⟩
    exact fun name member => valid.mapped name (held ▸ List.mem_cons_of_mem first member)

-- An acknowledgement that removes a command was decoded in the call that counts it.
def Reception.Answered (r : Reception) : Prop :=
  ∀ command, r.released = some ⟨command,true⟩ → acknowledgements r.reports ≠ []

theorem receiveAll_answered {p q : PowerEcuProtocol} {time : Int} {outcome : ErrorCode} {chunk : List UInt8}
    {reception : Reception} (valid : Consistent p) (received : p.receiveAll time outcome chunk = .ok (reception,q)) :
    Reception.Answered reception := by
  intro command acked
  rcases receiveAll_parts received with ⟨_,rfl,_⟩ |
    ⟨left,decoding,_,_,decoded,reports,⟨none,_⟩ | ⟨first,commandQueue,waiting,_,_,released,_⟩⟩
  · cases acked
  · rw [none] at acked
    cases acked
  · rw [released,Option.some.injEq,Release.mk.injEq] at acked
    have rxack := Received.receiveChunk_rxack valid.decoders decoded
    rw [rxack,absorb_isReceiveAck,valid.unacked waiting] at acked
    rw [reports]
    exact acked.2.resolve_left (by decide)

theorem sendCommand_preserves {p q : PowerEcuProtocol} {command frame : List UInt8} {outcome ret : ErrorCode} (valid : Consistent p)
    (sent : p.sendCommand command outcome = .ok (ret,frame,q)) : Consistent q := by
  rcases (sendCommand_parts sent).2 with ⟨_,_,rfl⟩ | ⟨_,_,rfl⟩
  · exact dropAck_preserves valid
  · exact valid

theorem requestVersions_preserves {outcomes : List ErrorCode} {retry : Nat} {p q : PowerEcuProtocol} {requested : Bool}
    (valid : Consistent p) (returned : requestVersions outcomes retry p = .ok (requested,q)) : Consistent q := by
  induction outcomes generalizing p retry with
  | nil => cases returned
  | cons outcome outcomes ih =>
      rw [requestVersions] at returned
      obtain ⟨getv,_,returned⟩ := except_bind_ok.mp returned
      obtain ⟨⟨ret,frame,after⟩,sent,returned⟩ := except_bind_ok.mp returned
      have next := sendCommand_preserves valid sent
      simp only at returned
      split at returned
      · cases returned
        exact next
      split at returned
      · cases returned
        exact next
      · exact ih next returned

theorem awaitVersions_preserves {startTime : Int} {arrivals : List Arrival} {p q : PowerEcuProtocol}
    {version : Option PowerEcuVersions} {receptions : List Reception} (valid : Consistent p)
    (returned : awaitVersions startTime arrivals p = .ok (version,receptions,q)) :
    Consistent q ∧ ∀ reception ∈ receptions, Reception.Answered reception := by
  induction arrivals generalizing p receptions with
  | nil => cases returned
  | cons arrival arrivals ih =>
      rw [awaitVersions] at returned
      obtain ⟨⟨reception,after⟩,received,returned⟩ := except_bind_ok.mp returned
      have next := receiveAll_preserves valid received
      have answered := receiveAll_answered valid received
      have one : ∀ r ∈ [reception], Reception.Answered r := fun r member => List.mem_singleton.mp member ▸ answered
      simp only at returned
      split at returned
      · cases returned
        exact ⟨next,one⟩
      split at returned
      · cases returned
        exact ⟨next,one⟩
      split at returned
      · cases returned
        exact ⟨next,one⟩
      · obtain ⟨⟨found,later,last⟩,rest,returned⟩ := except_bind_ok.mp returned
        cases returned
        obtain ⟨final,others⟩ := ih next rest
        exact ⟨final,List.forall_mem_cons.mpr ⟨answered,others⟩⟩

theorem getPowerEcuVersions_preserves {p q : PowerEcuProtocol} {startTime : Int} {outcomes : List ErrorCode}
    {arrivals : List Arrival} {version : Option PowerEcuVersions} {receptions : List Reception} (valid : Consistent p)
    (returned : p.getPowerEcuVersions startTime outcomes arrivals = .ok (version,receptions,q)) :
    Consistent q ∧ ∀ reception ∈ receptions, Reception.Answered reception := by
  unfold getPowerEcuVersions at returned
  obtain ⟨⟨requested,after⟩,request,returned⟩ := except_bind_ok.mp returned
  have cleared : Consistent {p with received := {p.received with ver := {p.received.ver with isReceiveVersion := false}}} :=
    ⟨valid.toEquipped,valid.toSettled⟩
  have next := requestVersions_preserves cleared request
  cases requested with
  | true => exact awaitVersions_preserves next returned
  | false =>
      cases returned
      exact ⟨next,nofun⟩

theorem registerDataDecoder_preserves {p q : PowerEcuProtocol} {decoder : DataDecoder Received}
    (listed : decoder ∈ Received.protocolDecoders) (valid : Consistent p)
    (registered : p.registerDataDecoder decoder = .ok q) : Consistent q := by
  unfold registerDataDecoder at registered
  by_cases taken : decoder.packetName ∈ p.frameDecoder.decoders.map DataDecoder.packetName
  · simp only [FrameDecoder.registerDataDecoder,dif_pos taken] at registered
    cases registered
  · simp only [FrameDecoder.registerDataDecoder,dif_neg taken] at registered
    cases registered
    exact ⟨⟨List.forall_mem_cons.mpr ⟨listed,valid.decoders⟩,List.mem_cons_of_mem _ valid.rxack,valid.encodable,valid.heart,
      valid.getv,valid.mapped⟩,valid.toSettled⟩

theorem registerDataEncoder_preserves {p q : PowerEcuProtocol} {encoder : DataEncoder Parameters} (valid : Consistent p)
    (registered : p.registerDataEncoder encoder = .ok q) : Consistent q := by
  unfold registerDataEncoder at registered
  by_cases taken : encoder.packetName ∈ p.frameEncoder.encoders.map DataEncoder.packetName
  · simp only [FrameEncoder.registerDataEncoder,dif_pos taken] at registered
    cases registered
  · simp only [FrameEncoder.registerDataEncoder,dif_neg taken] at registered
    split at registered
    · cases registered
    · cases registered
      refine ⟨⟨valid.decoders,valid.rxack,?_,List.mem_cons_of_mem _ valid.heart,List.mem_cons_of_mem _ valid.getv,
        fun name held => List.mem_cons_of_mem _ (valid.mapped name held)⟩,valid.toSettled⟩
      exact List.forall_mem_cons.mpr ⟨List.mem_cons_self,fun name known => List.mem_cons_of_mem _ (valid.encodable name known)⟩

theorem init_preserves {p q : PowerEcuProtocol} {startTime : Int} {outcomes : List ErrorCode} {arrivals : List Arrival}
    {ready : Bool} {receptions : List Reception} (valid : Consistent p)
    (returned : p.init startTime outcomes arrivals = .ok (ready,receptions,q)) : Consistent q := by
  unfold init at returned
  obtain ⟨⟨version,found,after⟩,versions,returned⟩ := except_bind_ok.mp returned
  have next := (getPowerEcuVersions_preserves valid versions).1
  cases version with
  | none =>
      cases returned
      exact next
  | some version =>
      simp only at returned
      split at returned
      · cases returned
        exact next
      · obtain ⟨first,ecu1,returned⟩ := except_bind_ok.mp returned
        obtain ⟨second,ecu2,returned⟩ := except_bind_ok.mp returned
        obtain ⟨third,encoders,returned⟩ := except_bind_ok.mp returned
        cases returned
        have one := registerDataDecoder_preserves (by simp [Received.protocolDecoders]) next ecu1
        have two := registerDataDecoder_preserves (by simp [Received.protocolDecoders]) one ecu2
        exact foldlM_preserves (fun _ _ _ held registered => registerDataEncoder_preserves held registered) two encoders

theorem step_preserves {p q : PowerEcuProtocol} (valid : Consistent p) (step : Step p q) : Consistent q := by
  cases step with
  | added added => exact addCommandQueue_preserves valid added
  | sent sent => exact sendAll_preserves valid sent
  | received received => exact receiveAll_preserves valid received
  | versions returned => exact (getPowerEcuVersions_preserves valid returned).1
  | initialized returned => exact init_preserves valid returned
  | assigned parameters =>
      exact ⟨valid.toEquipped,valid.toSettled⟩

theorem reached_consistent {p : PowerEcuProtocol} (reached : Reachable Constructed Step p) : Consistent p :=
  reached.invariant (fun _ constructed => construct_consistent constructed) (fun _ _ valid step => step_preserves valid step)

theorem getCommandState_returns {p : PowerEcuProtocol} {name : List UInt8}
    (known : name ∈ p.commandMap.map CommandState.commandName) : ∃ command, p.getCommandState name = .ok command := by
  unfold getCommandState
  cases found : p.commandMap.find? (fun c => c.commandName = name) with
  | some command => exact ⟨command,rfl⟩
  | none =>
      obtain ⟨c,member,same⟩ := List.mem_map.mp known
      exact absurd (decide_eq_true same) (List.find?_eq_none.mp found c member)

theorem sendCommand_eq {p : PowerEcuProtocol} {name : List UInt8} (outcome : ErrorCode)
    (known : name ∈ p.frameEncoder.encoders.map DataEncoder.packetName) :
    p.sendCommand name outcome = .ok (if outcome = .success then
        (.success,(p.frameEncoder.encode p.parameters (.empty : PacketBuffer) name).2.data,p.dropAck) else
        (.networkDown,(p.frameEncoder.encode p.parameters (.empty : PacketBuffer) name).2.data,p)) := by
  obtain ⟨encoder,registered,named⟩ := List.mem_map.mp known
  have found := FrameEncoder.find_eq_some.mpr ⟨registered,named⟩
  unfold sendCommand FrameEncoder.encode
  rw [found]
  simp only
  by_cases taken : outcome = .success
  · rw [if_neg (not_not.mpr taken),if_pos taken]
  · rw [if_pos taken,if_neg taken]

theorem sendCommand_returns {p : PowerEcuProtocol} {name : List UInt8} (outcome : ErrorCode)
    (known : name ∈ p.frameEncoder.encoders.map DataEncoder.packetName) :
    ∃ ret frame q, p.sendCommand name outcome = .ok (ret,frame,q) := by
  rw [sendCommand_eq outcome known]
  exact ⟨_,_,_,rfl⟩

theorem sendAll_queue {p : PowerEcuProtocol} {command : List UInt8} (time : Int) (front : p.commandQueue.front? = some command)
    (idle : p.isWaitingAck = false) (known : command ∈ p.frameEncoder.encoders.map DataEncoder.packetName) :
    p.sendAll time .success = .ok (.success,
      some ⟨command,true,(p.frameEncoder.encode p.parameters (.empty : PacketBuffer) command).2.data⟩,
      {p.dropAck with
        lastSendCommandTime := time
        isWaitingAck := true
        writeErrorCounter := p.writeErrorCounter.register true}) := by
  obtain ⟨rest,held⟩ := CircularBuffer.front?_eq_some front
  have ready : p.commandQueue.size ≠ 0 ∧ p.isWaitingAck = false := by
    refine ⟨?_,idle⟩
    rw [CircularBuffer.size,held]
    exact Nat.succ_ne_zero _
  have first : p.frontCommand = .ok command := by rw [frontCommand,front]
  rw [sendAll,if_pos ready,first]
  simp only [bind,Except.bind,sendCommand_eq .success known,if_true]
  rfl

theorem sendAll_heartbeat {p : PowerEcuProtocol} {time : Int} (empty : p.commandQueue.data = [])
    (due : time - p.lastHeartbeatTime > kHeartbeatDuration) (valid : Consistent p) :
    ∃ parameters, p.sendAll time .success = .ok (.success,
      some ⟨heartCommandName,false,(p.frameEncoder.encode parameters (.empty : PacketBuffer) heartCommandName).2.data⟩,
      {p.dropAck with
        parameters := parameters
        lastHeartbeatTime := p.lastHeartbeatTime + kHeartbeatDuration
        writeErrorCounter := p.writeErrorCounter.register true}) := by
  have idle : ¬ (p.commandQueue.size ≠ 0 ∧ p.isWaitingAck = false) := by
    rintro ⟨queued,_⟩
    exact queued (by rw [CircularBuffer.size,empty]; rfl)
  let counted : PowerEcuProtocol := {p with parameters := {p.parameters with counts := p.parameters.counts + 1}}
  obtain ⟨heart,mapped⟩ := getCommandState_returns (p := counted) valid.heart
  have name := getCommandState_name mapped
  have sent := sendCommand_eq (p := counted) .success (valid.encodable heartCommandName valid.heart)
  refine ⟨counted.parameters,?_⟩
  rw [sendAll,if_neg idle,if_pos due]
  simp only [bind,Except.bind]
  rw [mapped]
  simp only [name]
  rw [sent]
  rfl

theorem sendAll_returns {p : PowerEcuProtocol} (time : Int) (outcome : ErrorCode) (valid : Consistent p) :
    ∃ ret transmission q, p.sendAll time outcome = .ok (ret,transmission,q) := by
  unfold sendAll
  by_cases ready : p.commandQueue.size ≠ 0 ∧ p.isWaitingAck = false
  · obtain ⟨command,rest,held⟩ := List.exists_cons_of_ne_nil (fun none => ready.1 (List.length_eq_zero_iff.mpr none))
    have front : p.frontCommand = .ok command := by
      simp only [frontCommand,CircularBuffer.front?,held,List.head?_cons]
    have known := valid.mapped command (held ▸ List.mem_cons_self)
    obtain ⟨ret,frame,q,sent⟩ := sendCommand_returns outcome (valid.encodable command known)
    rw [if_pos ready,front]
    simp only [bind,Except.bind,sent]
    split
    · exact ⟨_,_,_,rfl⟩
    · exact ⟨_,_,_,rfl⟩
  rw [if_neg ready]
  by_cases late : time - p.lastHeartbeatTime > kHeartbeatDuration
  · let counted : PowerEcuProtocol := {p with parameters := {p.parameters with counts := p.parameters.counts + 1}}
    obtain ⟨heart,mapped⟩ := getCommandState_returns (p := counted) valid.heart
    have name := getCommandState_name mapped
    obtain ⟨ret,frame,q,sent⟩ := sendCommand_returns (p := counted) outcome (valid.encodable heartCommandName valid.heart)
    rw [← name] at sent
    rw [if_pos late]
    simp only [bind,Except.bind]
    rw [mapped]
    simp only
    rw [sent]
    simp only
    split
    · exact ⟨_,_,_,rfl⟩
    · exact ⟨_,_,_,rfl⟩
  · exact ⟨_,_,_,if_neg late⟩

theorem requestVersions_stop {outcomes : List ErrorCode} {retry : Nat} {p : PowerEcuProtocol} {stop : Stop} (valid : Consistent p)
    (stopped : requestVersions outcomes retry p = .error stop) : stop = .unfinished := by
  induction outcomes generalizing p retry with
  | nil =>
      cases stopped
      rfl
  | cons outcome outcomes ih =>
      obtain ⟨getv,mapped⟩ := getCommandState_returns valid.getv
      have name := getCommandState_name mapped
      obtain ⟨ret,frame,after,sent⟩ := sendCommand_returns outcome (valid.encodable getvCommandName valid.getv)
      have next := sendCommand_preserves valid sent
      rw [← name] at sent
      rw [requestVersions,mapped] at stopped
      simp only [bind,Except.bind,sent] at stopped
      split at stopped
      · cases stopped
      split at stopped
      · cases stopped
      · exact ih next stopped

theorem awaitVersions_stop {startTime : Int} {arrivals : List Arrival} {p : PowerEcuProtocol} {stop : Stop} (valid : Consistent p)
    (stopped : awaitVersions startTime arrivals p = .error stop) : stop = .unfinished := by
  induction arrivals generalizing p with
  | nil =>
      cases stopped
      rfl
  | cons arrival arrivals ih =>
      obtain ⟨reception,after,received⟩ := receiveAll_returns arrival.time arrival.outcome arrival.chunk valid.queued
      have next := receiveAll_preserves valid received
      rw [awaitVersions,received] at stopped
      simp only [bind,Except.bind] at stopped
      split at stopped
      · cases stopped
      split at stopped
      · cases stopped
      split at stopped
      · cases stopped
      · cases rest : awaitVersions startTime arrivals after with
        | error e =>
            rw [rest] at stopped
            cases stopped
            exact ih next rest
        | ok result =>
            rw [rest] at stopped
            cases stopped

theorem getPowerEcuVersions_stop {p : PowerEcuProtocol} {startTime : Int} {outcomes : List ErrorCode} {arrivals : List Arrival}
    {stop : Stop} (valid : Consistent p) (stopped : p.getPowerEcuVersions startTime outcomes arrivals = .error stop) :
    stop = .unfinished := by
  have cleared : Consistent {p with received := {p.received with ver := {p.received.ver with isReceiveVersion := false}}} :=
    ⟨valid.toEquipped,valid.toSettled⟩
  unfold getPowerEcuVersions at stopped
  rcases except_bind_error.mp stopped with stopped | ⟨⟨requested,after⟩,request,stopped⟩
  · exact requestVersions_stop cleared stopped
  · cases requested with
    | true => exact awaitVersions_stop (requestVersions_preserves cleared request) stopped
    | false => cases stopped

-- In every state between calls what is awaited is in the queue and not yet acknowledged;
-- no call asks an empty queue for its front, and an acknowledgement that removes a command
-- was decoded while the command was awaited.
theorem waiting_settled {p : PowerEcuProtocol} (reached : Reachable Constructed Step p) :
    (p.isWaitingAck = true → p.commandQueue.data ≠ [] ∧ p.received.rxack.isReceiveAck = false) ∧
    (∀ time outcome, ∃ sent, p.sendAll time outcome = .ok sent) ∧
    (∀ time outcome chunk, ∃ reception q, p.receiveAll time outcome chunk = .ok (reception,q) ∧
      ∀ command, reception.released = some ⟨command,true⟩ →
        p.isWaitingAck = true ∧ acknowledgements reception.reports ≠ []) ∧
    ∀ startTime outcomes arrivals,
      p.getPowerEcuVersions startTime outcomes arrivals = .error .unfinished ∨
      ∃ version receptions q, p.getPowerEcuVersions startTime outcomes arrivals = .ok (version,receptions,q) ∧
        ∀ reception ∈ receptions, ∀ command, reception.released = some ⟨command,true⟩ →
          acknowledgements reception.reports ≠ [] := by
  have valid := reached_consistent reached
  refine ⟨fun waiting => ⟨valid.queued waiting,valid.unacked waiting⟩,?_,?_,?_⟩
  · intro time outcome
    obtain ⟨ret,transmission,q,sent⟩ := sendAll_returns time outcome valid
    exact ⟨_,sent⟩
  · intro time outcome chunk
    obtain ⟨reception,q,received⟩ := receiveAll_returns time outcome chunk valid.queued
    refine ⟨reception,q,received,fun command acked => ⟨?_,receiveAll_answered valid received command acked⟩⟩
    rcases receiveAll_parts received with ⟨_,rfl,_⟩ | ⟨_,_,_,_,_,_,⟨none,_⟩ | ⟨_,_,waiting,_⟩⟩
    · cases acked
    · rw [none] at acked
      cases acked
    · exact waiting
  · intro startTime outcomes arrivals
    cases result : p.getPowerEcuVersions startTime outcomes arrivals with
    | error stop => exact .inl (congrArg _ (getPowerEcuVersions_stop valid result))
    | ok returned =>
        obtain ⟨version,receptions,q⟩ := returned
        exact .inr ⟨version,receptions,q,rfl,(getPowerEcuVersions_preserves valid result).2⟩

theorem waiting_settled_heart :
    ∃ p : PowerEcuProtocol, p.isWaitingAck = true ∧ p.commandQueue.data ≠ [] ∧ p.received.rxack.isReceiveAck = false := by
  obtain ⟨p,constructed,_⟩ := construct_parts 0
  have start : Reachable Constructed Step p := .initial ⟨0,constructed⟩
  obtain ⟨q,added,valid,idle,held⟩ := construct_added constructed
  have front : q.commandQueue.front? = some heartCommandName := by rw [CircularBuffer.front?,held,List.head?_cons]
  have sent := sendAll_queue 0 front idle (valid.encodable _ valid.heart)
  have last := (start.step (.added added)).step (.sent sent)
  exact ⟨_,rfl,(waiting_settled last).1 rfl⟩

end HsrbDrivers.PowerEcu.PowerEcuProtocol

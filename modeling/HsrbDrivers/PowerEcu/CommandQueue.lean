import HsrbDrivers.PowerEcu.ProtocolRuns

namespace HsrbDrivers.PowerEcu

inductive Operation where
  | addCommandQueue (name : List UInt8)
  | sendAll (time : Int) (outcome : ErrorCode)
  | receiveAll (time : Int) (outcome : ErrorCode) (chunk : List UInt8)

-- A protocol with a record of its run: the commands accepted, those transmitted from
-- the queue, and those removed, each beside the one most recently transmitted then.
structure History where
  protocol : PowerEcuProtocol
  accepted : List (List UInt8)
  transmitted : List (List UInt8)
  popped : List (List UInt8 × Option (List UInt8))

namespace History

def after (h : History) : Operation → Except Stop History
  | .addCommandQueue name =>
    let (accepted,protocol) := h.protocol.addCommandQueue name
    .ok {h with protocol := protocol,accepted := h.accepted ++ if accepted then [name] else []}
  | .sendAll time outcome => do
    let (_,transmission,protocol) ← h.protocol.sendAll time outcome
    return {h with
      protocol := protocol
      transmitted := h.transmitted ++ (transmission.toList.filter Transmission.queued).map Transmission.command}
  | .receiveAll time outcome chunk => do
    let (reception,protocol) ← h.protocol.receiveAll time outcome chunk
    return {h with
      protocol := protocol
      popped := h.popped ++ reception.released.toList.map fun release => (release.command,h.transmitted.getLast?)}

def run (h : History) (operations : List Operation) : Except Stop History := operations.foldlM after h

structure Begun (h : History) : Prop where
  consistent : h.protocol.Consistent
  idle : h.protocol.isWaitingAck = false
  empty : h.protocol.commandQueue.data = []
  accepted : h.accepted = []
  transmitted : h.transmitted = []
  popped : h.popped = []

structure Ordered (h : History) : Prop where
  kept : h.accepted = h.popped.map Prod.fst ++ h.protocol.commandQueue.data
  inOrder : h.transmitted <+: h.accepted
  latest : ∀ pop ∈ h.popped, pop.2 = some pop.1
  awaited : h.protocol.isWaitingAck = true →
    ∃ command, h.protocol.commandQueue.front? = some command ∧ h.transmitted.getLast? = some command

def FindsRoom (h : History) : Operation → Prop
  | .addCommandQueue name => h.protocol.hasCommand name = true → h.protocol.commandQueue.size < kCommandQueueSize
  | _ => True

def RoomStep (h h' : History) : Prop := ∃ operation, h.FindsRoom operation ∧ h.after operation = .ok h'

-- The queue holds what was accepted and not yet removed, and what was transmitted is
-- what was removed, with the front behind it while that is awaited.
structure Ledger (h : History) : Prop where
  accepted : h.accepted = h.popped.map Prod.fst ++ h.protocol.commandQueue.data
  transmitted : h.transmitted = h.popped.map Prod.fst ++ if h.protocol.isWaitingAck then h.protocol.commandQueue.data.take 1 else []
  latest : ∀ pop ∈ h.popped, pop.2 = some pop.1
  queued : h.protocol.isWaitingAck = true → h.protocol.commandQueue.data ≠ []

theorem begun_ledger {h : History} (begun : h.Begun) : h.Ledger where
  accepted := by rw [begun.accepted,begun.popped,begun.empty]; rfl
  transmitted := by rw [begun.transmitted,begun.popped,begun.idle]; rfl
  latest := by rw [begun.popped]; exact nofun
  queued := by rw [begun.idle]; exact nofun

theorem addCommandQueue_ledger {h h' : History} {name : List UInt8} (ledger : h.Ledger)
    (room : h.FindsRoom (.addCommandQueue name)) (step : h.after (.addCommandQueue name) = .ok h') : h'.Ledger := by
  rcases h.protocol.addCommandQueue_parts name with ⟨refused,_⟩ | ⟨commandMap,pushed,_,known⟩
  · simp only [after,refused,Bool.false_eq_true,if_false,List.append_nil] at step
    cases step
    exact ledger
  · have enough := room (PowerEcuProtocol.hasCommand_iff.mpr known)
    have data := CircularBuffer.data_pushBack _ name enough
    simp only [after,pushed,if_true] at step
    cases step
    refine ⟨?_,?_,ledger.latest,?_⟩
    · simp only [data,ledger.accepted,List.append_assoc]
    · simp only [data,ledger.transmitted]
      cases waiting : h.protocol.isWaitingAck with
      | false => rfl
      | true =>
          obtain ⟨command,rest,held⟩ := List.exists_cons_of_ne_nil (ledger.queued waiting)
          rw [held]
          rfl
    · exact fun _ => CircularBuffer.pushBack_ne_nil _ _ (by decide)

theorem sendAll_ledger {h h' : History} {time : Int} {outcome : ErrorCode} (ledger : h.Ledger)
    (step : h.after (.sendAll time outcome) = .ok h') : h'.Ledger := by
  obtain ⟨⟨ret,transmission,protocol⟩,sent,step⟩ := except_bind_ok.mp step
  rcases PowerEcuProtocol.sendAll_parts sent with ⟨rfl,_,_,rfl⟩ | ⟨command,_,idle,front,_,rfl,rfl⟩ | ⟨_,_,_,_,rfl,rfl⟩
  · cases step
    exact ⟨ledger.accepted,by rw [ledger.transmitted]; exact List.append_nil _,ledger.latest,ledger.queued⟩
  · obtain ⟨rest,held⟩ := CircularBuffer.front?_eq_some front
    have before : h.transmitted = h.popped.map Prod.fst := by
      rw [ledger.transmitted,idle]
      exact List.append_nil _
    cases step
    refine ⟨ledger.accepted,?_,ledger.latest,fun _ => ?_⟩
    · rw [before]
      simp only [PowerEcuProtocol.dropAck,if_true,held]
      rfl
    · exact held ▸ List.cons_ne_nil command rest
  · cases step
    exact ⟨ledger.accepted,by rw [ledger.transmitted]; exact List.append_nil _,ledger.latest,ledger.queued⟩

theorem receiveAll_ledger {h h' : History} {time : Int} {outcome : ErrorCode} {chunk : List UInt8} (ledger : h.Ledger)
    (step : h.after (.receiveAll time outcome chunk) = .ok h') : h'.Ledger := by
  obtain ⟨⟨reception,protocol⟩,received,step⟩ := except_bind_ok.mp step
  have unchanged : h.popped ++ [] = h.popped := List.append_nil _
  rcases PowerEcuProtocol.receiveAll_parts received with ⟨_,rfl,_,rfl⟩ |
    ⟨_,_,_,_,_,_,⟨none,_,rfl⟩ | ⟨command,commandQueue,waiting,front,removed,released,rfl⟩⟩
  · cases step
    exact ⟨by rw [ledger.accepted]; simp,by rw [ledger.transmitted]; simp,by simpa using ledger.latest,ledger.queued⟩
  · cases step
    rw [none]
    exact ⟨by rw [ledger.accepted]; simp,by rw [ledger.transmitted]; simp,by simpa using ledger.latest,ledger.queued⟩
  · obtain ⟨first,held⟩ := CircularBuffer.popFront_some removed
    obtain ⟨rest,same⟩ := CircularBuffer.front?_eq_some front
    cases held.symm.trans same
    have before : h.transmitted = h.popped.map Prod.fst ++ [command] := by
      rw [ledger.transmitted,waiting,held]
      rfl
    cases step
    rw [released]
    refine ⟨?_,?_,?_,nofun⟩
    · rw [ledger.accepted,held]
      simp
    · rw [before]
      simp
    · intro pop member
      simp only [Option.toList_some,List.map_cons,List.map_nil,List.mem_append,List.mem_singleton] at member
      rcases member with old | rfl
      · exact ledger.latest pop old
      · rw [before,List.getLast?_concat]

theorem ledger_preserved {h h' : History} {operation : Operation} (ledger : h.Ledger) (room : h.FindsRoom operation)
    (step : h.after operation = .ok h') : h'.Ledger := by
  cases operation with
  | addCommandQueue name => exact addCommandQueue_ledger ledger room step
  | sendAll time outcome => exact sendAll_ledger ledger step
  | receiveAll time outcome chunk => exact receiveAll_ledger ledger step

theorem reached_ledger {h : History} (reached : Reachable Begun RoomStep h) : h.Ledger :=
  reached.invariant (fun _ begun => begun_ledger begun) (fun _ _ ledger ⟨_,room,step⟩ => ledger_preserved ledger room step)

theorem Ledger.ordered {h : History} (ledger : h.Ledger) : h.Ordered where
  kept := ledger.accepted
  inOrder := by
    rw [ledger.accepted,ledger.transmitted]
    apply (List.prefix_append_right_inj _).mpr
    split
    · exact List.take_prefix 1 _
    · exact List.nil_prefix
  latest := ledger.latest
  awaited := by
    intro waiting
    obtain ⟨command,rest,held⟩ := List.exists_cons_of_ne_nil (ledger.queued waiting)
    refine ⟨command,by rw [CircularBuffer.front?,held,List.head?_cons],?_⟩
    rw [ledger.transmitted,waiting,held]
    exact List.getLast?_concat

theorem full_not_ordered {h h' : History} {name : List UInt8} (ledger : h.Ledger) (known : h.protocol.hasCommand name = true)
    (full : ¬ h.protocol.commandQueue.size < kCommandQueueSize) (step : h.after (.addCommandQueue name) = .ok h') :
    ¬ h'.Ordered := by
  intro ordered
  have kept := congrArg List.length ordered.kept
  have before := congrArg List.length ledger.accepted
  rcases h.protocol.addCommandQueue_parts name with ⟨_,unknown⟩ | ⟨commandMap,pushed,_,_⟩
  · exact unknown (PowerEcuProtocol.hasCommand_iff.mp known)
  · have length : h.protocol.commandQueue.data.length = kCommandQueueSize :=
      Nat.le_antisymm h.protocol.commandQueue.fits (Nat.not_lt.mp full)
    have data := CircularBuffer.data_pushBack_full _ name length
    simp only [after,pushed,if_true] at step
    cases step
    simp only [data,List.length_append,List.length_map,List.length_tail,List.length_singleton] at kept before
    omega

theorem ordered_iff_room {h : History} (reached : Reachable Begun RoomStep h) :
    h.Ordered ∧ ∀ operation h', h.after operation = .ok h' → (h'.Ordered ↔ h.FindsRoom operation) := by
  have ledger := reached_ledger reached
  refine ⟨ledger.ordered,fun operation h' step => ⟨fun ordered => ?_,fun room => (ledger_preserved ledger room step).ordered⟩⟩
  cases operation with
  | addCommandQueue name => exact fun known => Classical.byContradiction fun full => full_not_ordered ledger known full step ordered
  | sendAll time outcome => trivial
  | receiveAll time outcome chunk => trivial

theorem construct_begun {p : PowerEcuProtocol} (constructed : PowerEcuProtocol.construct time = .ok p) :
    Begun ⟨p,[],[],[]⟩ := by
  have fresh := PowerEcuProtocol.construct_fresh constructed
  exact ⟨PowerEcuProtocol.construct_consistent ⟨time,constructed⟩,fresh.idle,congrArg _ fresh.queue,rfl,rfl,rfl⟩

theorem construct_awaiting (time : Int) :
    ∃ p first h, PowerEcuProtocol.construct time = .ok p ∧
      History.after ⟨p,[],[],[]⟩ (.addCommandQueue heartCommandName) = .ok first ∧
      first.after (.sendAll time .success) = .ok h ∧ h.protocol.isWaitingAck = true ∧
      h.protocol.commandQueue.data = [heartCommandName] ∧ h.transmitted = [heartCommandName] ∧
      h.protocol.hasCommand getvCommandName = true := by
  obtain ⟨p,constructed,_⟩ := PowerEcuProtocol.construct_parts time
  obtain ⟨q,added,valid,idle,held⟩ := PowerEcuProtocol.construct_added constructed
  have front : q.commandQueue.front? = some heartCommandName := by rw [CircularBuffer.front?,held,List.head?_cons]
  have sent := PowerEcuProtocol.sendAll_queue time front idle (valid.encodable _ valid.heart)
  have first : History.after ⟨p,[],[],[]⟩ (.addCommandQueue heartCommandName) = .ok ⟨q,[heartCommandName],[],[]⟩ := by
    rw [after,added]
    rfl
  have second : History.after ⟨q,[heartCommandName],[],[]⟩ (.sendAll time .success) = .ok ⟨{q.dropAck with
      lastSendCommandTime := time
      isWaitingAck := true
      writeErrorCounter := q.writeErrorCounter.register true},[heartCommandName],[heartCommandName],[]⟩ := by
    rw [after,sent]
    rfl
  exact ⟨p,_,_,constructed,first,second,rfl,held,rfl,PowerEcuProtocol.hasCommand_iff.mpr valid.getv⟩

theorem ordered_iff_room_heart :
    ∃ h : History, h.protocol.isWaitingAck = true ∧ h.transmitted = [heartCommandName] ∧ h.Ordered := by
  obtain ⟨p,first,h,constructed,added,sent,waiting,_,transmitted,_⟩ := construct_awaiting 0
  have begun := construct_begun constructed
  have room : History.FindsRoom ⟨p,[],[],[]⟩ (.addCommandQueue heartCommandName) := by
    intro _
    rw [CircularBuffer.size,begun.empty]
    decide
  have second : Reachable Begun RoomStep first := .step (.initial begun) ⟨_,room,added⟩
  have last : RoomStep first h := ⟨.sendAll 0 .success,trivial,sent⟩
  exact ⟨h,waiting,transmitted,(ordered_iff_room (second.step last)).1⟩

theorem addCommandQueue_repeat {h : History} {name : List UInt8} (known : h.protocol.hasCommand name = true) (count : Nat) :
    ∃ h', h.run (List.replicate count (.addCommandQueue name)) = .ok h' ∧
      h'.protocol.commandQueue.data = (h.protocol.commandQueue.pushBacks (List.replicate count name)).data ∧
      h'.protocol.isWaitingAck = h.protocol.isWaitingAck ∧ h'.transmitted = h.transmitted := by
  induction count generalizing h with
  | zero => exact ⟨h,rfl,rfl,rfl,rfl⟩
  | succ count ih =>
      rcases h.protocol.addCommandQueue_parts name with ⟨_,unknown⟩ | ⟨commandMap,pushed,names,member⟩
      · exact absurd (PowerEcuProtocol.hasCommand_iff.mp known) unknown
      · have step : h.after (.addCommandQueue name) = .ok {h with
            protocol := {h.protocol with commandMap := commandMap,commandQueue := h.protocol.commandQueue.pushBack name}
            accepted := h.accepted ++ [name]} := by
          rw [after,pushed]
          rfl
        have later := ih (h := {h with
            protocol := {h.protocol with commandMap := commandMap,commandQueue := h.protocol.commandQueue.pushBack name}
            accepted := h.accepted ++ [name]}) (PowerEcuProtocol.hasCommand_iff.mpr (names ▸ member))
        obtain ⟨h',returned,data,waiting,transmitted⟩ := later
        refine ⟨h',?_,data,waiting,transmitted⟩
        rw [run,List.replicate_succ,List.foldlM_cons,step]
        exact returned

theorem full_queue_drops_awaited :
    ∃ p h, PowerEcuProtocol.construct 0 = .ok p ∧ Begun ⟨p,[],[],[]⟩ ∧
      History.run ⟨p,[],[],[]⟩ (.addCommandQueue heartCommandName :: .sendAll 0 .success ::
        List.replicate kCommandQueueSize (.addCommandQueue getvCommandName)) = .ok h ∧
      h.protocol.isWaitingAck = true ∧ h.transmitted = [heartCommandName] ∧
      h.protocol.commandQueue.front? = some getvCommandName ∧ ¬ h.Ordered := by
  obtain ⟨p,first,second,constructed,added,sent,waiting,held,transmitted,known⟩ := construct_awaiting 0
  obtain ⟨h,returned,data,same,kept⟩ := addCommandQueue_repeat known kCommandQueueSize
  have queue : h.protocol.commandQueue.data = List.replicate kCommandQueueSize getvCommandName := by
    rw [data,CircularBuffer.data_pushBacks_eq,held,List.length_singleton,List.length_replicate,Nat.add_sub_cancel]
    rfl
  have front : h.protocol.commandQueue.front? = some getvCommandName := by
    rw [CircularBuffer.front?,queue,List.head?_replicate,if_neg (by decide)]
  refine ⟨p,h,constructed,construct_begun constructed,?_,same.trans waiting,kept.trans transmitted,front,?_⟩
  · rw [run,List.foldlM_cons,added]
    refine except_bind_ok.mpr ⟨first,rfl,?_⟩
    rw [List.foldlM_cons,sent]
    exact except_bind_ok.mpr ⟨second,rfl,returned⟩
  · intro ordered
    obtain ⟨command,there,last⟩ := ordered.awaited (same.trans waiting)
    rw [kept,transmitted,List.getLast?_singleton,Option.some.injEq] at last
    rw [front,← last,Option.some.injEq] at there
    exact absurd there (by decide +kernel)

end History
end HsrbDrivers.PowerEcu

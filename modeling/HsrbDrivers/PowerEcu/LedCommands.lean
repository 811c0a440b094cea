import HsrbDrivers.PowerEcu.CommandQueue
import HsrbDrivers.PowerEcu.MainRuns

namespace HsrbDrivers.PowerEcu
open CText Numeral PowerEcuProtocol

inductive Deed where
  | operation (operation : Operation)
  | ledCommand (msg : ColorRGBA)

-- A protocol with the last colour frame that went out from its queue.
structure LedHistory where
  protocol : PowerEcuProtocol
  told : Option (List UInt8)

def colourFrame (transmission : Option Transmission) : Option (List UInt8) :=
  (transmission.filter fun t => t.queued ∧ t.command = ledcCommandName).map Transmission.frame

namespace LedHistory

def after (h : LedHistory) : Deed → Except Stop LedHistory
  | .operation (.addCommandQueue name) => .ok {h with protocol := (h.protocol.addCommandQueue name).2}
  | .operation (.sendAll time outcome) => do
    let (_,transmission,protocol) ← h.protocol.sendAll time outcome
    return ⟨protocol,(colourFrame transmission).or h.told⟩
  | .operation (.receiveAll time outcome chunk) => do
    let (_,protocol) ← h.protocol.receiveAll time outcome chunk
    return {h with protocol := protocol}
  | .ledCommand msg => do
    let protocol ← h.protocol.ledCommand msg
    return {h with protocol := protocol}

def Deed.FindsRoom (h : LedHistory) : Deed → Prop
  | .operation (.addCommandQueue name) => name = ledcCommandName ∨ h.protocol.commandQueue.data.length < kCommandQueueSize
  | _ => True

def Step (h h' : LedHistory) : Prop := ∃ deed, Deed.FindsRoom h deed ∧ h.after deed = .ok h'

inductive Begun : LedHistory → Prop where
  | started {p q r : PowerEcuProtocol} {time versionStart startTime : Int} {outcomes : List ErrorCode} {arrivals : List Arrival}
      {receptions : List Reception} {timeString : List UInt8} {turns : List Turn} {result : ErrorCode} {record : Record}
      (constructed : construct time = .ok p) (initialised : p.init versionStart outcomes arrivals = .ok (true,receptions,q))
      (returned : q.start timeString startTime turns = .ok (result,record,r)) : Begun ⟨r,none⟩

end LedHistory

def ledFrame (color : Color) : List UInt8 :=
  frameText 72 ledcCommandName (ascii "023")
    (numeral 10 3 color.r.toNat ++ 44 :: (numeral 10 3 color.g.toNat ++ 44 :: (numeral 10 3 color.b.toNat ++ [44])))

theorem ledc_frame {p : PowerEcuProtocol} (registered : powerEcuComLedcDataEncoder ∈ p.frameEncoder.encoders) :
    p.commandFrame ledcCommandName = ledFrame p.parameters.ledColor := by
  have byte : ∀ v : UInt8, ElementUintEncoder.convert 3 v.toNat = some (numeral 10 3 v.toNat) := fun v =>
    uintConvert_some (lt_trans v.toNat_lt (by decide)) (lt_trans v.toNat_lt (by decide))
  have written : powerEcuComLedcDataEncoder.written p.parameters = numeral 10 3 p.parameters.ledColor.r.toNat ++
      44 :: (numeral 10 3 p.parameters.ledColor.g.toNat ++ 44 :: (numeral 10 3 p.parameters.ledColor.b.toNat ++ [44])) := by
    have red : (elementUintEncoder (fun m : Parameters => m.ledColor.r.toNat) 3).convert p.parameters = _ := byte p.parameters.ledColor.r
    have green : (elementUintEncoder (fun m : Parameters => m.ledColor.g.toNat) 3).convert p.parameters = _ := byte p.parameters.ledColor.g
    have blue : (elementUintEncoder (fun m : Parameters => m.ledColor.b.toNat) 3).convert p.parameters = _ := byte p.parameters.ledColor.b
    change DataEncoder.writtenElements [elementUintEncoder (fun m : Parameters => m.ledColor.r.toNat) 3,
      elementUintEncoder (fun m : Parameters => m.ledColor.g.toNat) 3,elementUintEncoder (fun m : Parameters => m.ledColor.b.toNat) 3]
      p.parameters = _
    simp only [DataEncoder.writtenElements,red,green,blue]
  have listed : powerEcuComLedcDataEncoder ∈ protocolEncoders := by simp [protocolEncoders,constructorEncoders,initEncoders]
  have frame := commandFrame_eq registered listed (inherited_other rfl)
  rw [written] at frame
  exact frame

namespace LedHistory

-- The power ECU was told the colour there is, or will be: the command waits in the queue.
def Follows (h : LedHistory) : Prop :=
  ledcCommandName ∈ h.protocol.pending ∨ h.told = some (ledFrame h.protocol.parameters.ledColor) ∨
    (h.told = none ∧ h.protocol.parameters.ledColor = ⟨0,0,0⟩)

structure Following (h : LedHistory) : Prop where
  valid : Consistent h.protocol
  listed : Listed h.protocol
  registered : powerEcuComLedcDataEncoder ∈ h.protocol.frameEncoder.encoders
  known : ledcCommandName ∈ h.protocol.commandMap.map CommandState.commandName
  follows : h.Follows

theorem addCommandQueue_pending {p : PowerEcuProtocol} (valid : Consistent p) {name : List UInt8} (known : p.hasCommand name = true) :
    (p.commandQueue.data.length < kCommandQueueSize → (p.addCommandQueue name).2.pending = p.pending ++ [name]) ∧
      name ∈ (p.addCommandQueue name).2.pending := by
  rcases addCommandQueue_parts p name with ⟨_,unknown⟩ | ⟨commandMap,pushed,_,_⟩
  · exact absurd (hasCommand_iff.mp known) unknown
  rw [pushed]
  unfold PowerEcuProtocol.pending
  dsimp only
  constructor
  · intro room
    rw [CircularBuffer.data_pushBack _ _ room]
    split
    · rename_i waiting
      exact List.tail_append_of_ne_nil (valid.queued waiting)
    · rfl
  · by_cases room : p.commandQueue.data.length < kCommandQueueSize
    · rw [CircularBuffer.data_pushBack _ _ room]
      split
      · rename_i waiting
        rw [List.tail_append_of_ne_nil (valid.queued waiting)]
        exact List.mem_append_right _ (List.mem_singleton_self _)
      · exact List.mem_append_right _ (List.mem_singleton_self _)
    · have full : p.commandQueue.data.length = kCommandQueueSize := Nat.le_antisymm p.commandQueue.fits (Nat.not_lt.mp room)
      have rest : p.commandQueue.data.tail ≠ [] := by
        intro none
        have short := congrArg List.length none
        rw [List.length_tail,full] at short
        cases short
      have held : p.commandQueue.data ≠ [] := fun none => rest (by rw [none]; rfl)
      rw [CircularBuffer.data_pushBack_full _ _ full,List.tail_append_of_ne_nil held]
      split
      · rw [List.tail_append_of_ne_nil rest]
        exact List.mem_append_right _ (List.mem_singleton_self _)
      · exact List.mem_append_right _ (List.mem_singleton_self _)

theorem addCommandQueue_parameters (p : PowerEcuProtocol) (name : List UInt8) :
    (p.addCommandQueue name).2.parameters = p.parameters ∧ (p.addCommandQueue name).2.frameEncoder = p.frameEncoder ∧
      (p.addCommandQueue name).2.commandMap.map CommandState.commandName = p.commandMap.map CommandState.commandName := by
  rcases addCommandQueue_parts p name with ⟨refused,_⟩ | ⟨_,pushed,names,_⟩
  · rw [refused]
    exact ⟨rfl,rfl,rfl⟩
  · rw [pushed]
    exact ⟨rfl,rfl,names⟩

theorem queued_following {p : PowerEcuProtocol} (valid : Consistent p) (listed : Listed p)
    (registered : powerEcuComLedcDataEncoder ∈ p.frameEncoder.encoders)
    (known : ledcCommandName ∈ p.commandMap.map CommandState.commandName) (told : Option (List UInt8)) : Following ⟨(p.addCommandQueue ledcCommandName).2,told⟩ := by
  obtain ⟨_,encoder,names⟩ := addCommandQueue_parameters p ledcCommandName
  refine ⟨addCommandQueue_preserves valid (Prod.mk.eta).symm,?_,?_,names ▸ known,.inl ?_⟩
  · unfold Listed
    rw [encoder]
    exact listed
  · rw [encoder]
    exact registered
  · exact (addCommandQueue_pending valid (hasCommand_iff.mpr known)).2

theorem added_following {h : LedHistory} (following : h.Following) {name : List UInt8}
    (room : h.protocol.commandQueue.data.length < kCommandQueueSize) :
    Following {h with protocol := (h.protocol.addCommandQueue name).2} := by
  obtain ⟨parameters,encoder,names⟩ := addCommandQueue_parameters h.protocol name
  refine ⟨addCommandQueue_preserves following.valid (Prod.mk.eta).symm,?_,?_,names ▸ following.known,?_⟩
  · unfold Listed
    rw [encoder]
    exact following.listed
  · rw [encoder]
    exact following.registered
  · unfold Follows
    rw [parameters]
    refine following.follows.imp_left fun waiting => ?_
    by_cases known : h.protocol.hasCommand name = true
    · rw [(addCommandQueue_pending following.valid known).1 room]
      exact List.mem_append_left _ waiting
    · rcases addCommandQueue_parts h.protocol name with ⟨refused,_⟩ | ⟨_,_,_,member⟩
      · rw [refused]
        exact waiting
      · exact absurd (hasCommand_iff.mpr member) known

theorem sent_following {h : LedHistory} (following : h.Following) {time : Int} {outcome ret : ErrorCode}
    {transmission : Option Transmission} {q : PowerEcuProtocol} (sent : h.protocol.sendAll time outcome = .ok (ret,transmission,q)) :
    Following ⟨q,(colourFrame transmission).or h.told⟩ := by
  have sends := sendAll_sends sent
  have color : q.parameters.ledColor = h.protocol.parameters.ledColor := by rw [sends.alike.parameters]
  refine ⟨sendAll_preserves following.valid sent,sends.alike.listed following.listed,?_,sends.alike.commands ▸ following.known,?_⟩
  · rw [sends.alike.encoders]
    exact following.registered
  unfold Follows
  dsimp only
  rw [color]
  by_cases own : ∃ t, transmission = some t ∧ t.queued = true ∧ t.command = ledcCommandName
  · obtain ⟨t,rfl,queued,name⟩ := own
    have frame := sends.frame t rfl queued
    rw [name,ledc_frame following.registered] at frame
    refine .inr (.inl ?_)
    simp [colourFrame,queued,name,frame]
  · have none : colourFrame transmission = none := by
      cases transmission with
      | none => rfl
      | some t =>
          have other : ¬ (t.queued = true ∧ t.command = ledcCommandName) := fun both => own ⟨t,rfl,both⟩
          simp [colourFrame,Option.filter,other]
    have kept : ledcCommandName ∈ h.protocol.pending → ledcCommandName ∈ q.pending := by
      intro waiting
      rw [← sends.pending] at waiting
      rcases List.mem_append.mp waiting with now | later
      · obtain ⟨t,member,name⟩ := List.mem_map.mp now
        obtain ⟨member,queued⟩ := List.mem_filter.mp member
        exact absurd ⟨t,Option.mem_toList.mp member,queued,name⟩ own
      · exact later
    rw [none]
    exact following.follows.imp_left kept

theorem received_following {h : LedHistory} (following : h.Following) {time : Int} {outcome : ErrorCode} {chunk : List UInt8}
    {reception : Reception} {q : PowerEcuProtocol} (received : h.protocol.receiveAll time outcome chunk = .ok (reception,q)) :
    Following {h with protocol := q} := by
  have receives := receiveAll_receives received
  refine ⟨receiveAll_preserves following.valid received,receives.alike.listed following.listed,?_,
    receives.alike.commands ▸ following.known,?_⟩
  · rw [receives.alike.encoders]
    exact following.registered
  · unfold Follows
    dsimp only
    rw [receives.pending,receives.alike.parameters]
    exact following.follows

theorem ledCommand_following {h : LedHistory} (following : h.Following) {msg : ColorRGBA} {q : PowerEcuProtocol}
    (returned : h.protocol.ledCommand msg = .ok q) : Following {h with protocol := q} := by
  obtain ⟨color,_,returned⟩ := except_bind_ok.mp returned
  split at returned
  · cases returned
    have assigned : Consistent {h.protocol with parameters := {h.protocol.parameters with ledColor := color}} :=
      ⟨following.valid.toEquipped,following.valid.toSettled⟩
    exact queued_following assigned following.listed following.registered following.known h.told
  · cases returned
    exact following

theorem begun_following {h : LedHistory} (begun : Begun h) : h.Following := by
  obtain @⟨p,q,r,_,_,startTime,_,_,_,timeString,turns,result,record,constructed,initialised,returned⟩ := begun
  have length : timeString.length = 14 := by
    by_contra other
    unfold start at returned
    rw [if_pos other] at returned
    cases returned
  have ready := (init_holds constructed initialised).2 rfl
  split at ready
  · obtain ⟨prepared,holds,same⟩ := start_prepares ready length
    have valid := init_consistent holds startCommands_known
    rw [same] at returned
    have alike := (processTurns_keeps returned).alike
    have listed : Listed prepared := by
      unfold Listed
      rw [holds.encoder]
      exact fun d member => List.mem_reverse.mp member
    have member : powerEcuComLedcDataEncoder ∈ protocolEncoders.reverse := by
      simp [protocolEncoders,constructorEncoders,initEncoders]
    refine ⟨processTurns_preserves valid returned,alike.listed listed,?_,?_,.inr (.inr ⟨rfl,?_⟩)⟩
    · rw [alike.encoders,holds.encoder]
      exact member
    · rw [alike.commands,holds.commands]
      exact List.mem_map_of_mem member
    · rw [alike.parameters,holds.parameter]
      rfl
  · rw [start_faults ready length] at returned
    cases returned

theorem step_following {h h' : LedHistory} (following : h.Following) (step : Step h h') : h'.Following := by
  obtain ⟨deed,room,taken⟩ := step
  cases deed with
  | operation operation =>
      cases operation with
      | addCommandQueue name =>
          cases taken
          rcases room with rfl | room
          · exact queued_following following.valid following.listed following.registered following.known h.told
          · exact added_following following room
      | sendAll time outcome =>
          obtain ⟨⟨ret,transmission,q⟩,sent,taken⟩ := except_bind_ok.mp taken
          cases taken
          exact sent_following following sent
      | receiveAll time outcome chunk =>
          obtain ⟨⟨reception,q⟩,received,taken⟩ := except_bind_ok.mp taken
          cases taken
          exact received_following following received
  | ledCommand msg =>
      obtain ⟨q,returned,taken⟩ := except_bind_ok.mp taken
      cases taken
      exact ledCommand_following following returned

-- In every interleaving of the driver's calls with LED commands and others that find room in the queue, also
-- where LED commands make it overflow: unless the colour's command waits in the queue, the last colour that
-- went out is the one there is now, or no colour was ever other than dark.
theorem led_follows {h : LedHistory} (reached : Reachable Begun Step h) (waits : ledcCommandName ∉ h.protocol.pending) :
    h.told = some (ledFrame h.protocol.parameters.ledColor) ∨ (h.told = none ∧ h.protocol.parameters.ledColor = ⟨0,0,0⟩) := by
  have following : h.Following := reached.invariant (fun _ begun => begun_following begun) (fun _ _ held step => step_following held step)
  exact following.follows.resolve_left waits

def reddened : Except Stop LedHistory := do
  let (_,_,q) ← initialised
  let (_,_,r) ← q.start (ascii "20170210095651") 0 [answeredTurn,answeredTurn,answeredTurn]
  let h ← after ⟨r,none⟩ (.ledCommand ⟨.number 1,.number 0,.number 0⟩)
  h.after (.operation (.sendAll 0 .success))

set_option maxRecDepth 20000 in
theorem reddened_result : (reddened.toOption.map fun h => (h.protocol.pending,h.protocol.parameters.ledColor)) =
    some ([],⟨255,0,0⟩) := by decide +kernel

theorem red_told : ∃ h, Reachable Begun Step h ∧ h.told = some (ledFrame ⟨255,0,0⟩) := by
  have evaluated := reddened_result
  cases result : reddened with
  | error stop =>
      rw [result] at evaluated
      cases evaluated
  | ok h =>
      rw [result] at evaluated
      obtain ⟨pending,color⟩ := Prod.mk.inj (Option.some.inj evaluated)
      obtain ⟨⟨ready,receptions,q⟩,made,result⟩ := except_bind_ok.mp result
      obtain ⟨⟨code,record,r⟩,returned,result⟩ := except_bind_ok.mp result
      obtain ⟨commanded,command,sent⟩ := except_bind_ok.mp result
      obtain ⟨p,constructed,called⟩ := except_bind_ok.mp made
      have version := initialised_version
      rw [made] at version
      obtain ⟨rfl,_⟩ := Prod.mk.inj (Option.some.inj version)
      have lit : Step ⟨r,none⟩ commanded := ⟨.ledCommand _,trivial,command⟩
      have shown : Step commanded h := ⟨.operation (.sendAll 0 .success),trivial,sent⟩
      have reached := ((Reachable.initial (Begun.started constructed called returned)).step lit).step shown
      refine ⟨h,reached,?_⟩
      rcases led_follows reached (by rw [pending]; decide) with told | ⟨_,dark⟩
      · rw [told,color]
      · rw [color] at dark
        exact absurd dark (by decide)

end LedHistory
end HsrbDrivers.PowerEcu

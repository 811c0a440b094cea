import HsrbDrivers.DigitalIo.UsbioSerial
import HsrbDrivers.Library.Channel
import HsrbDrivers.Library.Placement
import HsrbDrivers.Library.Transition

namespace HsrbDrivers.DigitalIo
open Placement

-- What happens at the host, at the sketch or on the line between them. A poll is a `write`
-- and the `read` behind it, which returns `count` of the bytes that are there.
inductive Event where
  | setColor (r g b : ℚ)
  | setHeadLed (state : Bool)
  | setHandLed (state : Bool)
  | setDrivePower (state : Bool)
  | setSuction (state : Bool)
  | write
  | read (count : Nat)
  | carryCommands (count : Nat)
  | carryReplies (count : Nat)
  | loop (inputs : Inputs)

-- The host and the sketch with the line in both directions. `polling` says that the host
-- holds its lock. Beside the state there is its history: what the host held at each
-- `write`, the replies printed, and where in their characters each update began and what
-- the sensors were after it.
structure UsbIo where
  host : SerialConnection
  polling : Bool
  device : Sketch
  commands : Channel UInt8
  replies : Channel UInt8
  written : List SerialConnection
  answered : List Sensors
  updates : List (Nat × Sensors)

namespace UsbIo

def initial : UsbIo := ⟨.initial,false,.setup,.empty,.empty,[],[],[]⟩

def whenFree (s : UsbIo) (host : SerialConnection) : Option UsbIo := if s.polling then none else some {s with host := host}

-- `none` where an event cannot happen, or raises at the host.
def step (round : ℚ → ℚ) (s : UsbIo) : Event → Option UsbIo
  | .setColor r g b => s.whenFree (s.host.setColor round r g b)
  | .setHeadLed state => s.whenFree (s.host.setHeadLed state)
  | .setHandLed state => s.whenFree (s.host.setHandLed state)
  | .setDrivePower state => s.whenFree (s.host.setDrivePower state)
  | .setSuction state => s.whenFree (s.host.setSuction state)
  | .write => if s.polling then none else s.host.frame.map fun data =>
      {s with polling := true,commands := s.commands.send data,written := s.written ++ [s.host]}
  | .read count => if ¬ s.polling ∨ 6 < count then none else (s.replies.receive count).bind fun received =>
      match s.host.read received.1 with
      | (.raised,_) => none
      | (.unchanged,host) => some {s with host := host,polling := false,replies := received.2}
      | (.updated,host) => some {s with
          host := host
          polling := false
          replies := received.2
          updates := s.updates ++ [(s.replies.taken,host.sensors)]}
  | .carryCommands count => (s.commands.deliver count).map fun commands => {s with commands := commands}
  | .carryReplies count => (s.replies.deliver count).map fun replies => {s with replies := replies}
  | .loop inputs => match s.device.loop inputs s.commands.waiting with
    | (none,device) => some {s with device := device}
    | (some sensors,device) => (s.commands.receive 7).map fun received => {s with
        device := device
        commands := received.2
        replies := s.replies.send (sensors.values.map digit)
        answered := s.answered ++ [sensors]}

def run (round : ℚ → ℚ) (s : UsbIo) (events : List Event) : Option UsbIo := events.foldlM (step round) s

def FromOneReply (s : UsbIo) (update : Nat × Sensors) : Prop :=
  ∃ k, s.answered[k]? = some update.2 ∧ update.1 = 6 * k

-- Every `read` that returns six bytes begins behind a multiple of six.
def ReadsAligned : Nat → List Event → Prop
  | _,[] => True
  | taken,.read count :: events => (count = 6 → taken % 6 = 0) ∧ ReadsAligned (taken + count) events
  | taken,_ :: events => ReadsAligned taken events

structure Linked (s : UsbIo) : Prop where
  colored : s.host.Colored
  switched : s.host.Switched
  heldSwitched : ∀ held ∈ s.written, held.Switched
  sent : s.commands.sent = (s.written.map SerialConnection.command).flatten
  processed : s.commands.taken = s.answered.length * 7
  mirrors : s.device.Mirrors
  shows : ∀ k, s.answered.length = k + 1 → ∃ held, s.written[k]? = some held ∧ s.device.Shows held

structure Replied (s : UsbIo) : Prop where
  printed : s.replies.sent = ((s.answered.map Sensors.values).flatten).map digit
  whole : ∀ update ∈ s.updates, update.1 % 6 = 0 → s.FromOneReply update

theorem initial_linked : initial.Linked := by
  refine ⟨?_,⟨false,false,true,false,rfl,rfl,rfl,rfl⟩,?_,rfl,rfl,Sketch.setup_mirrors,?_⟩
  · unfold SerialConnection.Colored
    decide
  · intro held member
    cases member
  · intro k counted
    cases counted

theorem initial_replied : initial.Replied := by
  refine ⟨rfl,?_⟩
  intro update member
  cases member

theorem whenFree_linked {s t : UsbIo} (linked : s.Linked) (host : SerialConnection) (colored : host.Colored)
    (switched : host.Switched) (stepped : s.whenFree host = some t) : t.Linked := by
  unfold whenFree at stepped
  split at stepped
  · cases stepped
  · cases stepped
    exact {linked with colored := colored,switched := switched}

theorem waiting_frame {s : UsbIo} (linked : s.Linked) (there : 7 ≤ s.commands.waiting.length) :
    ∃ held, s.written[s.answered.length]? = some held ∧ s.commands.waiting.take 7 = held.command := by
  have uniform : ∀ block ∈ s.written.map SerialConnection.command, block.length = 7 := by
    intro block member
    obtain ⟨held,_,rfl⟩ := List.mem_map.mp member
    exact held.command_length
  obtain ⟨_,received⟩ := s.commands.receive_waiting there
  obtain ⟨front,room,_,_⟩ := Channel.receive_parts received
  rw [linked.sent,linked.processed] at room front
  have inside := flatten_inside uniform (by decide) room
  have present := List.getElem?_eq_getElem inside
  rw [List.length_map] at inside
  refine ⟨s.written[s.answered.length],List.getElem?_eq_getElem inside,?_⟩
  rw [front,flatten_block uniform present,List.getElem_map]

theorem loop_parts {s t : UsbIo} (linked : s.Linked) {round : ℚ → ℚ} {inputs : Inputs}
    (stepped : s.step round (.loop inputs) = some t) :
    (∃ device, t = {s with device := device} ∧ s.device.Agrees device) ∨
      ∃ device commands sensors held, s.written[s.answered.length]? = some held ∧ device.Mirrors ∧ device.Shows held ∧
        commands.sent = s.commands.sent ∧ commands.taken = s.commands.taken + 7 ∧
        t = {s with
          device := device
          commands := commands
          replies := s.replies.send (sensors.values.map digit)
          answered := s.answered ++ [sensors]} := by
  rw [step] at stepped
  by_cases there : 7 ≤ s.commands.waiting.length
  · obtain ⟨held,present,front⟩ := waiting_frame linked there
    obtain ⟨sensors,device,looped,mirrors,shown⟩ := Sketch.loop_command linked.mirrors inputs
      (linked.heldSwitched held (List.mem_of_getElem? present)) (s.commands.waiting.drop 7)
    obtain ⟨commands,received⟩ := s.commands.receive_waiting there
    obtain ⟨_,_,sent,taken⟩ := Channel.receive_parts received
    rw [← front,List.take_append_drop] at looped
    rw [looped,received] at stepped
    cases stepped
    exact .inr ⟨device,commands,sensors,held,present,mirrors,shown,sent,taken,rfl⟩
  · obtain ⟨silent,agrees⟩ := Sketch.loop_idle s.device inputs (Nat.not_le.mp there)
    rcases looped : s.device.loop inputs s.commands.waiting with ⟨reply,device⟩
    rw [looped] at silent agrees stepped
    cases silent
    cases stepped
    exact .inl ⟨device,rfl,agrees⟩

theorem loop_linked {s t : UsbIo} (linked : s.Linked) {round : ℚ → ℚ} {inputs : Inputs}
    (stepped : s.step round (.loop inputs) = some t) : t.Linked := by
  rcases loop_parts linked stepped with ⟨device,rfl,agrees⟩ |
    ⟨device,commands,sensors,held,present,mirrors,shown,sent,taken,rfl⟩
  · refine {linked with mirrors := agrees.mirrors linked.mirrors,shows := ?_}
    intro k counted
    obtain ⟨held,present,shown⟩ := linked.shows k counted
    exact ⟨held,present,agrees.shows shown⟩
  · have grown : (s.answered ++ [sensors]).length = s.answered.length + 1 := List.length_append
    refine {linked with mirrors := mirrors,sent := sent.trans linked.sent,processed := ?_,shows := ?_}
    · exact taken.trans (by rw [linked.processed,grown,Nat.succ_mul])
    · intro k counted
      obtain rfl := Nat.succ.inj (grown.symm.trans counted)
      exact ⟨held,present,shown⟩

theorem write_linked {s t : UsbIo} (linked : s.Linked) {round : ℚ → ℚ} (stepped : s.step round .write = some t) : t.Linked := by
  rw [step] at stepped
  split at stepped
  · cases stepped
  · obtain ⟨data,framed,rfl⟩ := Option.map_eq_some_iff.mp stepped
    rw [SerialConnection.frame_command linked.colored linked.switched] at framed
    cases framed
    refine {linked with heldSwitched := ?_,sent := ?_,shows := ?_}
    · intro held member
      rcases List.mem_append.mp member with before | now
      · exact linked.heldSwitched held before
      · exact List.mem_singleton.mp now ▸ linked.switched
    · have line : (s.commands.send s.host.command).sent = s.commands.sent ++ s.host.command := rfl
      rw [line,linked.sent,List.map_append,List.flatten_append]
      exact congrArg _ (List.append_nil _).symm
    · intro k counted
      obtain ⟨held,present,shown⟩ := linked.shows k counted
      exact ⟨held,(List.getElem?_append_left (List.getElem?_eq_some_iff.mp present).1).trans present,shown⟩

theorem read_linked {s t : UsbIo} (linked : s.Linked) {round : ℚ → ℚ} {count : Nat}
    (stepped : s.step round (.read count) = some t) : t.Linked := by
  rw [step] at stepped
  split at stepped
  · cases stepped
  · obtain ⟨received,_,taken⟩ := Option.bind_eq_some_iff.mp stepped
    obtain ⟨sensors,same⟩ := s.host.read_sensors received.1
    rcases result : s.host.read received.1 with ⟨outcome,host⟩
    rw [result] at taken same
    subst same
    cases outcome with
    | raised => cases taken
    | unchanged =>
        cases taken
        exact {linked with}
    | updated =>
        cases taken
        exact {linked with}

theorem step_linked {s t : UsbIo} (linked : s.Linked) {round : ℚ → ℚ} {event : Event}
    (stepped : s.step round event = some t) : t.Linked := by
  cases event with
  | setColor r g b => exact whenFree_linked linked _ (s.host.setColor_colored round r g b) linked.switched stepped
  | setHeadLed state =>
      exact whenFree_linked linked (s.host.setHeadLed state) linked.colored (SerialConnection.setHeadLed_switched linked.switched state) stepped
  | setHandLed state =>
      exact whenFree_linked linked (s.host.setHandLed state) linked.colored (SerialConnection.setHandLed_switched linked.switched state) stepped
  | setDrivePower state =>
      exact whenFree_linked linked (s.host.setDrivePower state) linked.colored (SerialConnection.setDrivePower_switched linked.switched state) stepped
  | setSuction state =>
      exact whenFree_linked linked (s.host.setSuction state) linked.colored (SerialConnection.setSuction_switched linked.switched state) stepped
  | write => exact write_linked linked stepped
  | read count => exact read_linked linked stepped
  | carryCommands count =>
      obtain ⟨commands,delivered,rfl⟩ := Option.map_eq_some_iff.mp stepped
      obtain ⟨sent,taken⟩ := Channel.deliver_parts delivered
      exact {linked with sent := sent.trans linked.sent,processed := taken.trans linked.processed}
  | carryReplies count =>
      obtain ⟨replies,_,rfl⟩ := Option.map_eq_some_iff.mp stepped
      exact {linked with}
  | loop inputs => exact loop_linked linked stepped

-- In every run, whatever was set and however the bytes travel, `bytes` does not raise, and
-- once the sketch has processed as many frames its outputs show what the host held when it
-- wrote the last of them.
theorem outputs_follow {round : ℚ → ℚ} {events : List Event} {s : UsbIo} (ran : run round initial events = some s) :
    s.host.frame.isSome ∧ ∀ k, s.answered.length = k + 1 → ∃ held, s.written[k]? = some held ∧ s.device.Shows held := by
  have linked : s.Linked := foldlM_option_preserves (fun _ _ _ holds stepped => step_linked holds stepped) initial_linked ran
  rw [SerialConnection.frame_command linked.colored linked.switched]
  exact ⟨rfl,linked.shows⟩

def quiet : Inputs := ⟨false,false,false,true,true,false,1023⟩

theorem outputs_follow_head : ∃ s, run id initial [.setHeadLed true,.write,.carryCommands 7,.loop quiet] = some s ∧
    s.answered.length = 1 ∧ ∃ held, s.written[0]? = some held ∧ held.headLed = 1 ∧ s.device.Shows held := by
  have returns : (run id initial [.setHeadLed true,.write,.carryCommands 7,.loop quiet]).map (fun s =>
      (s.answered.length,s.written.map SerialConnection.headLed)) = some (1,[1]) := by decide +kernel
  obtain ⟨s,ran,seen⟩ := Option.map_eq_some_iff.mp returns
  have one : s.answered.length = 1 := congrArg Prod.fst seen
  obtain ⟨held,present,shown⟩ := (outputs_follow ran).2 0 one
  have lit : (s.written.map SerialConnection.headLed)[0]? = some held.headLed := by rw [List.getElem?_map,present]; rfl
  have seenLit : s.written.map SerialConnection.headLed = [1] := congrArg Prod.snd seen
  rw [seenLit] at lit
  exact ⟨s,ran,one,held,present,(Option.some.inj lit).symm,shown⟩

theorem received_values {s : UsbIo} (replied : s.Replied) {count : Nat} {received : List UInt8 × Channel UInt8}
    (taken : s.replies.receive count = some received) :
    ∃ values, received.1 = values.map digit ∧ values.length = count ∧
      values = (((s.answered.map Sensors.values).flatten).drop s.replies.taken).take count ∧
      received.2.sent = s.replies.sent ∧ received.2.taken = s.replies.taken + count := by
  obtain ⟨front,room,sent,next⟩ := Channel.receive_parts taken
  refine ⟨_,?_,?_,rfl,sent,next⟩
  · rw [front,replied.printed,← List.map_drop,← List.map_take]
  · rw [replied.printed,List.length_map] at room
    rw [List.length_take,List.length_drop]
    omega

theorem values_reply {s : UsbIo} {start : Nat} {sensors : Sensors} (aligned : start % 6 = 0)
    (front : sensors.values = (((s.answered.map Sensors.values).flatten).drop start).take 6) :
    s.FromOneReply (start,sensors) := by
  have uniform : ∀ block ∈ s.answered.map Sensors.values, block.length = 6 := by
    intro block member
    obtain ⟨reply,_,rfl⟩ := List.mem_map.mp member
    rfl
  have multiple : start = start / 6 * 6 := by omega
  have room : start / 6 * 6 + 6 ≤ (s.answered.map Sensors.values).flatten.length := by
    have six := congrArg List.length front
    have sized : sensors.values.length = 6 := rfl
    rw [sized,List.length_take,List.length_drop] at six
    omega
  have inside := flatten_inside uniform (by decide) room
  have present := List.getElem?_eq_getElem inside
  have block := flatten_block uniform present
  rw [← multiple,← front] at block
  rw [List.length_map] at inside
  refine ⟨start / 6,?_,by omega⟩
  rw [List.getElem?_eq_getElem inside]
  rw [List.getElem_map] at block
  exact congrArg some (Sensors.values_injective block).symm

def readCount : Event → Nat
  | .read count => count
  | _ => 0

-- Where an event that reads a whole reply's worth begins an update.
def begins (taken : Nat) : Event → List Nat
  | .read count => if count = 6 then [taken] else []
  | _ => []

structure Follows (s t : UsbIo) (event : Event) : Prop where
  replied : t.Replied
  taken : t.replies.taken = s.replies.taken + readCount event
  updated : t.updates.map Prod.fst = s.updates.map Prod.fst ++ begins s.replies.taken event

theorem Follows.of_quiet {s t : UsbIo} (replied : s.Replied) {event : Event} (nothing : ∀ count, event ≠ .read count)
    (sent : t.replies.sent = s.replies.sent) (taken : t.replies.taken = s.replies.taken) (answered : t.answered = s.answered)
    (updates : t.updates = s.updates) : s.Follows t event := by
  have none : readCount event = 0 ∧ begins s.replies.taken event = [] := by
    cases event with
    | read count => exact absurd rfl (nothing count)
    | _ => exact ⟨rfl,rfl⟩
  refine ⟨⟨?_,?_⟩,?_,?_⟩
  · rw [sent,answered]
    exact replied.printed
  · rw [updates]
    unfold FromOneReply
    rw [answered]
    exact replied.whole
  · rw [none.1]
    exact taken
  · rw [none.2,updates,List.append_nil]

theorem whenFree_follows {s t : UsbIo} (replied : s.Replied) {host : SerialConnection} (stepped : s.whenFree host = some t)
    {event : Event} (nothing : ∀ count, event ≠ .read count) : s.Follows t event := by
  unfold whenFree at stepped
  split at stepped
  · cases stepped
  · cases stepped
    exact .of_quiet replied nothing rfl rfl rfl rfl

theorem read_follows {s t : UsbIo} (replied : s.Replied) {round : ℚ → ℚ} {count : Nat}
    (stepped : s.step round (.read count) = some t) : s.Follows t (.read count) := by
  rw [step] at stepped
  split at stepped
  · cases stepped
  · rename_i allowed
    obtain ⟨received,taken,rest⟩ := Option.bind_eq_some_iff.mp stepped
    obtain ⟨values,printed,counted,front,sent,next⟩ := received_values replied taken
    rw [printed] at rest
    rcases Nat.lt_or_eq_of_le (Nat.not_lt.mp fun more => allowed (.inr more)) with short | six
    · rw [SerialConnection.read_short _ (counted ▸ short)] at rest
      cases rest
      refine ⟨⟨sent.trans replied.printed,replied.whole⟩,next,?_⟩
      rw [begins,if_neg (Nat.ne_of_lt short),List.append_nil]
    · subst six
      obtain ⟨sensors,rfl⟩ := Sensors.exists_values counted
      rw [SerialConnection.read_values] at rest
      cases rest
      refine ⟨⟨sent.trans replied.printed,?_⟩,next,?_⟩
      · intro update member aligned
        rcases List.mem_append.mp member with before | now
        · exact replied.whole update before aligned
        · rw [List.mem_singleton.mp now] at aligned ⊢
          exact values_reply aligned front
      · rw [begins,if_pos rfl,List.map_append]
        rfl

theorem loop_follows {s t : UsbIo} (linked : s.Linked) (replied : s.Replied) {round : ℚ → ℚ} {inputs : Inputs}
    (stepped : s.step round (.loop inputs) = some t) : s.Follows t (.loop inputs) := by
  rcases loop_parts linked stepped with ⟨device,rfl,_⟩ | ⟨device,commands,sensors,held,_,_,_,_,_,rfl⟩
  · exact .of_quiet replied (fun _ same => by cases same) rfl rfl rfl rfl
  · refine ⟨⟨?_,?_⟩,rfl,(List.append_nil _).symm⟩
    · have line : (s.replies.send (sensors.values.map digit)).sent = s.replies.sent ++ sensors.values.map digit := rfl
      rw [line,replied.printed,List.map_append,List.flatten_append,List.map_append]
      exact congrArg _ (congrArg _ (List.append_nil _).symm)
    · intro update member aligned
      obtain ⟨k,present,start⟩ := replied.whole update member aligned
      exact ⟨k,(List.getElem?_append_left (List.getElem?_eq_some_iff.mp present).1).trans present,start⟩

theorem step_follows {s t : UsbIo} (linked : s.Linked) (replied : s.Replied) {round : ℚ → ℚ} {event : Event}
    (stepped : s.step round event = some t) : s.Follows t event := by
  cases event with
  | setColor r g b => exact whenFree_follows replied stepped fun _ same => by cases same
  | setHeadLed state => exact whenFree_follows replied stepped fun _ same => by cases same
  | setHandLed state => exact whenFree_follows replied stepped fun _ same => by cases same
  | setDrivePower state => exact whenFree_follows replied stepped fun _ same => by cases same
  | setSuction state => exact whenFree_follows replied stepped fun _ same => by cases same
  | write =>
      rw [step] at stepped
      split at stepped
      · cases stepped
      · obtain ⟨data,_,rfl⟩ := Option.map_eq_some_iff.mp stepped
        exact .of_quiet replied (fun _ same => by cases same) rfl rfl rfl rfl
  | read count => exact read_follows replied stepped
  | carryCommands count =>
      obtain ⟨commands,_,rfl⟩ := Option.map_eq_some_iff.mp stepped
      exact .of_quiet replied (fun _ same => by cases same) rfl rfl rfl rfl
  | carryReplies count =>
      obtain ⟨replies,delivered,rfl⟩ := Option.map_eq_some_iff.mp stepped
      obtain ⟨sent,taken⟩ := Channel.deliver_parts delivered
      exact .of_quiet replied (fun _ same => by cases same) sent taken rfl rfl
  | loop inputs => exact loop_follows linked replied stepped

theorem readsAligned_cons (taken : Nat) (event : Event) (events : List Event) :
    ReadsAligned taken (event :: events) ↔
      (∀ start ∈ begins taken event, start % 6 = 0) ∧ ReadsAligned (taken + readCount event) events := by
  cases event with
  | read count =>
      by_cases six : count = 6
      · simp [ReadsAligned,begins,readCount,six]
      · simp [ReadsAligned,begins,readCount,six]
  | _ => simp [ReadsAligned,begins,readCount]

theorem run_aligned {s t : UsbIo} {round : ℚ → ℚ} {events : List Event} (linked : s.Linked) (replied : s.Replied)
    (ran : run round s events = some t) : t.Replied ∧
      ((∀ start ∈ t.updates.map Prod.fst, start % 6 = 0) ↔
        (∀ start ∈ s.updates.map Prod.fst, start % 6 = 0) ∧ ReadsAligned s.replies.taken events) := by
  induction events generalizing s with
  | nil =>
      cases ran
      exact ⟨replied,(and_iff_left trivial).symm⟩
  | cons event events ih =>
      rw [run,List.foldlM_cons] at ran
      obtain ⟨middle,first,rest⟩ := Option.bind_eq_some_iff.mp ran
      obtain ⟨middleReplied,taken,updated⟩ := step_follows linked replied first
      obtain ⟨lastReplied,aligned⟩ := ih (step_linked linked first) middleReplied rest
      refine ⟨lastReplied,aligned.trans ?_⟩
      rw [readsAligned_cons,updated,taken,List.forall_mem_append,and_assoc]

theorem updates_aligned_iff {round : ℚ → ℚ} {events : List Event} {s : UsbIo} (ran : run round initial events = some s) :
    (∀ update ∈ s.updates, s.FromOneReply update) ↔ ReadsAligned 0 events := by
  obtain ⟨replied,aligned⟩ := run_aligned initial_linked initial_replied ran
  have begun : (∀ start ∈ s.updates.map Prod.fst, start % 6 = 0) ↔ ReadsAligned 0 events :=
    aligned.trans (and_iff_right fun start member => by cases member)
  rw [← begun]
  constructor
  · intro whole start member
    obtain ⟨update,inside,rfl⟩ := List.mem_map.mp member
    obtain ⟨k,_,multiple⟩ := whole update inside
    omega
  · intro multiple update member
    exact replied.whole update member (multiple _ (List.mem_map_of_mem member))

def poll (inputs : Inputs) (carried count : Nat) : List Event :=
  [.write,.carryCommands 7,.loop inputs,.carryReplies carried,.read count]

theorem whole_reads_aligned : ∃ s, run id initial (poll quiet 6 6 ++ poll quiet 6 6) = some s ∧ s.updates.length = 2 ∧
    ∀ update ∈ s.updates, s.FromOneReply update := by
  have returns : (run id initial (poll quiet 6 6 ++ poll quiet 6 6)).map (fun s => s.updates.length) = some 2 := by
    decide +kernel
  obtain ⟨s,ran,two⟩ := Option.map_eq_some_iff.mp returns
  exact ⟨s,ran,two,(updates_aligned_iff ran).mpr ⟨fun _ => rfl,fun _ => rfl,trivial⟩⟩

theorem late_half_shifts : ∃ s, run id initial (poll quiet 3 3 ++ poll {quiet with emergencySwitchAgain := true} 9 6) = some s ∧
    s.updates = [(3,⟨false,false,false,false,false,true⟩)] ∧ ∃ update ∈ s.updates, ¬ s.FromOneReply update := by
  have returns : (run id initial (poll quiet 3 3 ++ poll {quiet with emergencySwitchAgain := true} 9 6)).map UsbIo.updates =
      some [(3,⟨false,false,false,false,false,true⟩)] := by decide +kernel
  obtain ⟨s,ran,seen⟩ := Option.map_eq_some_iff.mp returns
  refine ⟨s,ran,seen,_,seen ▸ List.mem_singleton_self _,?_⟩
  rintro ⟨k,_,start⟩
  omega

end UsbIo
end HsrbDrivers.DigitalIo

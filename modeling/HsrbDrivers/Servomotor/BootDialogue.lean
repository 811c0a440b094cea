import HsrbDrivers.Library.Locality
import HsrbDrivers.Servomotor.ExxxFlush

namespace HsrbDrivers.Servomotor
open Session ExxxReprograming CText

inductive Command where
  | erase
  | flush
  | run
deriving DecidableEq

def Command.byte : Command → UInt8
  | .erase => kEraseCommand
  | .flush => kFlushCommand
  | .run => kRunCommand

def Command.checkMessage : Command → List UInt8
  | .erase => kEraseCheckMessage
  | .flush => kFlushCheckMessage
  | .run => kRunCheckMessage

-- How far the conversation with the boot loader has come. While the image is transferred, the
-- events since then belong to the stage.
inductive Stage where
  | calling
  | asking (command : Command) (attempts : Nat)
  | erasing
  | transferring (transfer : List Exchange)

def Stage.behind : Stage → Exchange → Stage
  | .transferring transfer,event => .transferring (transfer ++ [event])
  | stage,_ => stage

def heard (trace : List Exchange) : List UInt8 :=
  trace.foldl (fun bytes event => if event.isSend then [] else bytes ++ event.byte.toList) []

structure Booted (plan : FlushPlan) (bytes : List UInt8) : Prop where
  boot : kBootMessage <:+: bytes
  axis : ascii "No_" ++ [plan.axisId] <:+: bytes
  version : ascii "Ver." ++ [UInt8.ofInt (plan.bootloaderVersion + 0x30)] <:+: bytes

def Ready (plan : FlushPlan) (trace : List Exchange) : Command → Stage → Prop
  | .erase,.calling => Booted plan (receivedBytes trace)
  | .flush,.erasing => kEraseFinishMessage <:+: heard trace
  | .run,.transferring transfer => Finished transfer
  | _,_ => False

-- The conversations there may be. Nothing is erased before the boot loader has told its axis and
-- its version, nothing is confirmed before it was asked back, no image is sent to a flash that is
-- not erased, and the firmware is started only behind an image that was announced as written.
inductive Dialogue (plan : FlushPlan) : Stage → List Exchange → Prop where
  | silence : Dialogue plan .calling []
  | quiet : Dialogue plan stage trace → event.isSend = false → Dialogue plan (stage.behind event) (trace ++ [event])
  | call : Dialogue plan .calling trace → Dialogue plan .calling (trace ++ [.send [plan.axisId]])
  | ask : Dialogue plan stage trace → Ready plan trace command stage →
      Dialogue plan (.asking command 1) (trace ++ [.send [command.byte]])
  | askAgain : Dialogue plan (.asking command attempts) trace → attempts < kSendCommandMaxRetryCount →
      Dialogue plan (.asking command (attempts + 1)) (trace ++ [.send [command.byte]])
  | erase : Dialogue plan (.asking .erase attempts) trace → kEraseCheckMessage <:+: heard trace →
      Dialogue plan .erasing (trace ++ [.send [kExecuteCommand]])
  | transfer : Dialogue plan (.asking .flush attempts) trace → kFlushCheckMessage <:+: heard trace →
      Dialogue plan (.transferring []) (trace ++ [.send [kExecuteCommand]])
  | packet : Dialogue plan (.transferring transfer) trace → Allowed plan.flushData transfer (.send data) →
      Dialogue plan (.transferring (transfer ++ [.send data])) (trace ++ [.send data])

def Reached (plan : FlushPlan) (trace : List Exchange) : Prop := ∃ stage, Dialogue plan stage trace

-- What no event disturbs that is not a send.
def Steadfast (holds : List Exchange → Prop) : Prop :=
  ∀ trace event, event.isSend = false → holds trace → holds (trace ++ [event])

def Gathers (bytes : List Exchange → List UInt8) : Prop :=
  ∀ trace event, event.isSend = false → bytes (trace ++ [event]) = bytes trace ++ event.byte.toList

theorem heard_gathers : Gathers heard := by
  intro trace event silent
  simp [heard,List.foldl_append,silent]

theorem receivedBytes_gathers : Gathers receivedBytes := by
  intro trace event _
  rw [receivedBytes_append]
  cases told : event.byte <;> simp [receivedBytes,told]

theorem gathers_inside {bytes : List Exchange → List UInt8} (gathers : Gathers bytes) (message : List UInt8) :
    Steadfast fun trace => message <:+: bytes trace := by
  intro trace event silent inside
  rw [gathers trace event silent]
  exact inside.trans (List.prefix_append _ _).isInfix

theorem Steadfast.stable {holds : List Exchange → Prop} (steadfast : Steadfast holds) : Stable holds :=
  fun trace event working => steadfast trace event working.1

theorem Steadfast.and {one other : List Exchange → Prop} (first : Steadfast one) (second : Steadfast other) :
    Steadfast fun trace => one trace ∧ other trace :=
  fun trace event silent holds => ⟨first trace event silent holds.1,second trace event silent holds.2⟩

theorem Steadfast.exists {ι : Sort*} {holds : ι → List Exchange → Prop} (each : ∀ i, Steadfast (holds i)) :
    Steadfast fun trace => ∃ i, holds i trace :=
  fun trace event silent ⟨i,held⟩ => ⟨i,each i trace event silent held⟩

section
variable {plan : FlushPlan}

theorem calling_steadfast : Steadfast (Dialogue plan .calling) := fun _ _ silent dialogue => dialogue.quiet silent

theorem asking_steadfast (command : Command) (attempts : Nat) : Steadfast (Dialogue plan (.asking command attempts)) :=
  fun _ _ silent dialogue => dialogue.quiet silent

theorem erasing_steadfast : Steadfast (Dialogue plan .erasing) := fun _ _ silent dialogue => dialogue.quiet silent

theorem booted_steadfast : Steadfast fun trace => Booted plan (receivedBytes trace) := by
  intro trace event silent booted
  have more := fun message => gathers_inside receivedBytes_gathers message trace event silent
  exact ⟨more _ booted.boot,more _ booted.axis,more _ booted.version⟩

theorem transferring_goes {trace transfer : List Exchange} (begun : Dialogue plan (.transferring []) trace)
    (orderly : Orderly (Allowed plan.flushData) transfer) : Dialogue plan (.transferring transfer) (trace ++ transfer) := by
  induction transfer using List.reverseRecOn with
  | nil => rwa [List.append_nil]
  | append_singleton transfer event ih =>
      have before : Orderly (Allowed plan.flushData) transfer := by
        intro front other rest split
        refine orderly front other (rest ++ [event]) ?_
        simp [split]
      have dialogue := ih before
      rw [← List.append_assoc]
      cases event with
      | send data => exact dialogue.packet (orderly transfer (.send data) [] rfl)
      | _ => exact dialogue.quiet rfl

end

section Conversation
variable {plan : FlushPlan} (r : ExxxReprograming)

theorem work_keeps {α : Type} {m : Session Exchange α} (working : Composed Working m) {holds : List Exchange → Prop}
    (cut : ∀ trace, holds trace → Reached plan trace) (stable : Stable holds) : Keeps (Reached plan) holds m fun _ => holds :=
  working.confined.keeps cut stable

theorem listening_keeps {α : Type} {m : Session Exchange α} (listening : Composed Listening m) {holds : List Exchange → Prop}
    (cut : ∀ trace, holds trace → Reached plan trace) (steadfast : Steadfast holds) : Keeps (Reached plan) holds m fun _ => holds :=
  listening.confined.keeps cut fun trace event fine => steadfast trace event (listening_silent fine)

theorem sendData_keeps {data : List UInt8} {pre post : List Exchange → Prop} (sent : ∀ trace, pre trace → post (trace ++ [.send data]))
    (cut : ∀ trace, post trace → Reached plan trace) (stable : Stable post) :
    Keeps (Reached plan) pre (r.sendData data) fun _ => post := by
  have called : Keeps (Reached plan) pre (emit (.send data)) fun _ => post := Keeps.emit sent
  refine Keeps.bind called fun _ => work_keeps ?_ cut stable
  refine Composed.bind now_working fun start => ?_
  exact Composed.bind (Composed.loop (sendTurn_working r data.length start) _) fun s => Composed.pure _

section Gathering
variable {bytes : List Exchange → List UInt8} {holds : List Exchange → Prop} {before : List UInt8}

def Heard (holds : List Exchange → Prop) (bytes : List Exchange → List UInt8) (before : List UInt8) :
    Except ErrorCode UInt8 → List Exchange → Prop
  | .error error,trace => error.value ≠ 0 ∧ holds trace ∧ bytes trace = before
  | .ok data,trace => holds trace ∧ bytes trace = before ++ [data]

structure HeardLine (holds : List Exchange → Prop) (bytes : List Exchange → List UInt8) (before : List UInt8)
    (line : ErrorCode × List UInt8) (trace : List Exchange) : Prop where
  held : holds trace
  gathered : line.1.value = 0 ∨ line.1.value = ErrorCode.timedOut.value → bytes trace = before ++ line.2
  empty : line.1.value ≠ 0 → line.2 = []

theorem receiveByte_hears (cut : ∀ trace, holds trace → Reached plan trace) (steadfast : Steadfast holds) (gathers : Gathers bytes) :
    Keeps (Reached plan) (fun trace => holds trace ∧ bytes trace = before) receiveByte (Heard holds bytes before) := by
  refine Keeps.meet (fun trace held => cut trace held.1) fun trace event a held answer => ?_
  obtain ⟨held,rfl⟩ := held
  cases event with
  | silent =>
      cases answer
      exact ⟨by decide,steadfast trace _ rfl held,by rw [gathers trace _ rfl]; exact List.append_nil _⟩
  | receiveFailed errno set =>
      cases answer
      exact ⟨set,steadfast trace _ rfl held,by rw [gathers trace _ rfl]; exact List.append_nil _⟩
  | received data =>
      cases answer
      exact ⟨steadfast trace _ rfl held,gathers trace _ rfl⟩
  | _ => cases answer

theorem gathered_stable (steadfast : Steadfast holds) (gathers : Gathers bytes) (before : List UInt8) :
    Stable fun trace => holds trace ∧ bytes trace = before := by
  rintro trace event ⟨silent,nothing⟩ ⟨held,gathered⟩
  refine ⟨steadfast trace event silent held,?_⟩
  rw [gathers trace event silent,nothing,gathered]
  exact List.append_nil before

theorem lineClock_hears (cut : ∀ trace, holds trace → Reached plan trace) (steadfast : Steadfast holds) (gathers : Gathers bytes)
    (s : Receiving) : Keeps (Reached plan) (fun trace => holds trace ∧ bytes trace = before ++ s.message) (lineClock s)
      (Sum.elim (fun next trace => holds trace ∧ bytes trace = before ++ next.message) (HeardLine holds bytes before)) := by
  have clock : Keeps (Reached plan) (fun trace => holds trace ∧ bytes trace = before ++ s.message) now
      fun _ trace => holds trace ∧ bytes trace = before ++ s.message :=
    work_keeps now_working (fun trace held => cut trace held.1) (gathered_stable steadfast gathers _)
  refine Keeps.bind clock fun elapsed => ?_
  split
  · refine Keeps.pure fun trace held => ⟨held.1,fun fine => ?_,fun _ => rfl⟩
    rcases fine with fine | fine <;> cases fine
  · exact Keeps.pure fun trace held => held

theorem lineTurn_hears (cut : ∀ trace, holds trace → Reached plan trace) (steadfast : Steadfast holds) (gathers : Gathers bytes)
    (start : Int) (s : Receiving) : Keeps (Reached plan) (fun trace => holds trace ∧ bytes trace = before ++ s.message) (r.lineTurn start s)
      (Sum.elim (fun next trace => holds trace ∧ bytes trace = before ++ next.message) (HeardLine holds bytes before)) := by
  unfold lineTurn
  split
  · refine Keeps.bind (receiveByte_hears cut steadfast gathers) fun result => ?_
    cases result with
    | error error =>
        dsimp only
        split
        · exact (lineClock_hears cut steadfast gathers {s with error := error}).before fun trace heard => heard.2
        · rename_i other
          refine Keeps.pure fun trace heard => ⟨heard.2.1,fun fine => ?_,fun _ => rfl⟩
          exact absurd fine (not_or.mpr ⟨heard.1,other⟩)
    | ok data =>
        dsimp only
        split
        · refine Keeps.pure fun trace heard => ⟨heard.1,fun _ => ?_,fun failed => absurd rfl failed⟩
          rw [heard.2,List.append_assoc]
        · refine (lineClock_hears cut steadfast gathers {s with error := .success,message := s.message ++ [data]}).before ?_
          intro trace heard
          refine ⟨heard.1,?_⟩
          rw [heard.2,List.append_assoc]
  · refine Keeps.pure fun trace held => ?_
    split
    · exact ⟨held.1,fun _ => held.2,fun failed => absurd rfl failed⟩
    · rename_i empty
      rw [not_not.mp empty] at held
      exact ⟨held.1,fun _ => held.2,fun _ => rfl⟩

theorem receiveLine_hears (cut : ∀ trace, holds trace → Reached plan trace) (steadfast : Steadfast holds) (gathers : Gathers bytes)
    (before : List UInt8) : Keeps (Reached plan) (fun trace => holds trace ∧ bytes trace = before) r.receiveLine
      (HeardLine holds bytes before) := by
  have clock : Keeps (Reached plan) (fun trace => holds trace ∧ bytes trace = before) now
      fun _ trace => holds trace ∧ bytes trace = before ++ [] := by
    rw [List.append_nil]
    exact work_keeps now_working (fun trace held => cut trace held.1) (gathered_stable steadfast gathers _)
  refine Keeps.bind clock fun start => ?_
  exact Keeps.loop (fun _ trace held => cut trace held.1) (lineTurn_hears r cut steadfast gathers start) ⟨start,.success,[]⟩

theorem checkReceivedMessage_hears (cut : ∀ trace, holds trace → Reached plan trace) (steadfast : Steadfast holds) (message : List UInt8) :
    Keeps (Reached plan) holds (r.checkReceivedMessage message) fun error trace =>
      holds trace ∧ (error.value = 0 → message <:+: heard trace) := by
  have all : Keeps (Reached plan) holds r.receiveLine fun line trace =>
      holds trace ∧ (line.1.value = 0 → line.2 <:+: heard trace) := by
    intro w held
    obtain ⟨returned,cutOff⟩ := receiveLine_hears r cut steadfast heard_gathers (heard w.trace) w ⟨held,rfl⟩
    refine ⟨fun line same => ⟨(returned line same).held,fun fine => ?_⟩,cutOff⟩
    rw [(returned line same).gathered (.inl fine)]
    exact (List.suffix_append _ _).isInfix
  refine Keeps.bind all fun line => Keeps.pure fun trace heardLine => ⟨heardLine.1,fun fine => ?_⟩
  split at fine
  · rename_i came
    split at fine
    · rename_i inside
      exact inside.trans (heardLine.2 came)
    · cases fine
  · rename_i failed
    exact absurd fine failed

end Gathering

-- A command that is asked for, repeated as often as it may be, ends with its answer or an error.
def Asked (plan : FlushPlan) (command : Command) (error : ErrorCode) (trace : List Exchange) : Prop :=
  Reached plan trace ∧ (error.value = 0 → ∃ attempts, Dialogue plan (.asking command attempts) trace ∧ command.checkMessage <:+: heard trace)

def Asking (plan : FlushPlan) (command : Command) (retryCount : Nat) (trace : List Exchange) : Prop :=
  retryCount < kSendCommandMaxRetryCount ∧
    ((retryCount = 0 ∧ ∃ stage, Dialogue plan stage trace ∧ Ready plan trace command stage) ∨
      (0 < retryCount ∧ Dialogue plan (.asking command retryCount) trace))

theorem asking_reached {command : Command} {retryCount : Nat} {trace : List Exchange} (asking : Asking plan command retryCount trace) :
    Reached plan trace := by
  obtain ⟨_,⟨_,stage,dialogue,_⟩ | ⟨_,dialogue⟩⟩ := asking
  · exact ⟨stage,dialogue⟩
  · exact ⟨_,dialogue⟩

theorem asking_sent {command : Command} {retryCount : Nat} {trace : List Exchange} (asking : Asking plan command retryCount trace) :
    Dialogue plan (.asking command (retryCount + 1)) (trace ++ [.send [command.byte]]) := by
  obtain ⟨left,⟨rfl,stage,dialogue,ready⟩ | ⟨_,dialogue⟩⟩ := asking
  · exact dialogue.ask ready
  · exact dialogue.askAgain left

theorem commandTurn_asks (command : Command) (retryCount : Nat) :
    Keeps (Reached plan) (Asking plan command retryCount) (r.commandTurn command.byte command.checkMessage retryCount)
      (Sum.elim (Asking plan command) (Asked plan command)) := by
  have cut : ∀ trace, Dialogue plan (.asking command (retryCount + 1)) trace → Reached plan trace := fun trace dialogue => ⟨_,dialogue⟩
  have steadfast := @asking_steadfast plan command (retryCount + 1)
  refine Keeps.bind (sendData_keeps r (fun trace => asking_sent) cut steadfast.stable) fun sent => ?_
  split
  · rename_i failed
    exact Keeps.pure fun trace dialogue => ⟨cut trace dialogue,fun fine => absurd fine failed⟩
  refine Keeps.bind (checkReceivedMessage_hears r cut steadfast command.checkMessage) fun error => ?_
  split
  · rename_i fine
    exact Keeps.pure fun trace heard => ⟨cut trace heard.1,fun _ => ⟨_,heard.1,heard.2 fine⟩⟩
  split
  · rename_i failed _
    exact Keeps.pure fun trace heard => ⟨cut trace heard.1,fun fine => absurd fine failed⟩
  split
  · exact Keeps.pure fun trace heard => ⟨cut trace heard.1,fun fine => by cases fine⟩
  rename_i left
  have waits : Keeps (Reached plan) (fun trace => Dialogue plan (.asking command (retryCount + 1)) trace ∧
      (error.value = 0 → command.checkMessage <:+: heard trace)) (waitNanoSec kCommandIntervalTime)
      fun _ trace => Dialogue plan (.asking command (retryCount + 1)) trace :=
    (work_keeps (waitNanoSec_working _) cut steadfast.stable).before fun trace heard => heard.1
  refine Keeps.bind waits fun waited => ?_
  split
  · rename_i failed
    exact Keeps.pure fun trace dialogue => ⟨cut trace dialogue,fun fine => absurd fine failed⟩
  · exact Keeps.pure fun trace dialogue => ⟨Nat.not_le.mp left,.inr ⟨Nat.succ_pos _,dialogue⟩⟩

theorem sendCommand_asks (command : Command) :
    Keeps (Reached plan) (fun trace => ∃ stage, Dialogue plan stage trace ∧ Ready plan trace command stage)
      (r.sendCommand command.byte command.checkMessage) (Asked plan command) := by
  have turns : Keeps (Reached plan) (Asking plan command 0) (r.sendCommand command.byte command.checkMessage) (Asked plan command) :=
    Keeps.loop (fun retryCount trace asking => asking_reached asking) (commandTurn_asks r command) 0
  exact turns.before fun trace ready => ⟨by decide,.inl ⟨rfl,ready⟩⟩

end Conversation

section Steps
variable {plan : FlushPlan} (r : ExxxReprograming)

def Calling (plan : FlushPlan) (bootMessage : List UInt8) (trace : List Exchange) : Prop :=
  Dialogue plan .calling trace ∧ receivedBytes trace = bootMessage

def Called (plan : FlushPlan) (error : ErrorCode) (trace : List Exchange) : Prop :=
  Dialogue plan .calling trace ∧ (error.value = 0 → Booted plan (receivedBytes trace))

def bootVersion (plan : FlushPlan) : List UInt8 := ascii "Ver." ++ [UInt8.ofInt (plan.bootloaderVersion + 0x30)]
def axisNumber (plan : FlushPlan) : List UInt8 := ascii "No_" ++ [plan.axisId]

theorem calling_cut (trace : List Exchange) (dialogue : Dialogue plan .calling trace) : Reached plan trace := ⟨_,dialogue⟩

def BootHeard (plan : FlushPlan) (result : ErrorCode × List UInt8 × Bool) (trace : List Exchange) : Prop :=
  Dialogue plan .calling trace ∧
    if result.2.2 then result.1.value = 0 → Booted plan (receivedBytes trace)
    else result.1.value ≠ 0 ∧ (result.1.value = ErrorCode.timedOut.value → receivedBytes trace = result.2.1)

theorem bootLine_calls (bootMessage : List UInt8) :
    Keeps (Reached plan) (Calling plan bootMessage) (r.bootLine (bootVersion plan) (axisNumber plan) bootMessage)
      (Sum.elim (Calling plan) (BootHeard plan)) := by
  refine Keeps.bind (receiveLine_hears r calling_cut calling_steadfast receivedBytes_gathers bootMessage) fun received => ?_
  dsimp only
  split
  · rename_i failed
    refine Keeps.pure fun trace heard => ⟨heard.held,failed,fun timedOut => ?_⟩
    rw [heard.gathered (.inr timedOut),heard.empty failed,List.append_nil]
  rename_i came
  have whole : ∀ trace, HeardLine (Dialogue plan .calling) receivedBytes bootMessage received trace →
      receivedBytes trace = bootMessage ++ received.2 := fun trace heard => heard.gathered (.inl (not_not.mp came))
  split
  · rename_i named
    split
    · exact Keeps.pure fun trace heard => ⟨heard.held,fun fine => by cases fine⟩
    rename_i version
    have drained : Keeps (Reached plan) (HeardLine (Dialogue plan .calling) receivedBytes bootMessage received) (loop drainTurn ())
        fun _ trace => Dialogue plan .calling trace ∧ Booted plan (receivedBytes trace) := by
      refine (listening_keeps (Composed.loop drainTurn_listening ()) (fun trace held => calling_cut trace held.1)
        (calling_steadfast.and booted_steadfast)).before fun trace heard => ⟨heard.held,?_⟩
      rw [whole trace heard]
      exact ⟨named.1,named.2,not_not.mp version⟩
    exact Keeps.bind drained fun error => Keeps.pure fun trace held => ⟨held.1,fun _ => held.2⟩
  · exact Keeps.pure fun trace heard => ⟨heard.held,whole trace heard⟩

theorem bootClock_calls (bootTimeout bootStart : Int) (s : Booting) :
    Keeps (Reached plan) (Calling plan s.bootMessage) (bootClock bootTimeout bootStart s)
      (Sum.elim (fun next => Calling plan next.bootMessage) (Called plan)) := by
  have cut : ∀ trace, Calling plan s.bootMessage trace → Reached plan trace := fun trace calling => calling_cut trace calling.1
  have stable := gathered_stable (@calling_steadfast plan) receivedBytes_gathers s.bootMessage
  have same : ∀ elapsed, (dot bootTimeout elapsed s).bootMessage = s.bootMessage := by
    intro elapsed
    unfold dot
    split <;> rfl
  have clock : Keeps (Reached plan) (Calling plan s.bootMessage) now fun _ => Calling plan s.bootMessage :=
    work_keeps now_working cut stable
  refine Keeps.bind clock fun elapsed => ?_
  dsimp only
  split
  · exact Keeps.pure fun trace calling => ⟨calling.1,fun fine => by cases fine⟩
  split
  · exact Keeps.pure fun trace calling => ⟨calling.1,fun fine => by cases fine⟩
  have waits : Keeps (Reached plan) (Calling plan s.bootMessage) (waitNanoSec kCommandIntervalTime) fun _ => Calling plan s.bootMessage :=
    work_keeps (waitNanoSec_working _) cut stable
  refine Keeps.bind waits fun waited => ?_
  split
  · rename_i failed
    exact Keeps.pure fun trace calling => ⟨calling.1,fun fine => absurd fine failed⟩
  · refine Keeps.pure fun trace calling => ?_
    simp only [Sum.elim_inl,same]
    exact calling

theorem bootTurn_calls (bootTimeout bootStart : Int) (s : Booting) :
    Keeps (Reached plan) (Calling plan s.bootMessage) (r.bootTurn (bootVersion plan) (axisNumber plan) plan.axisId bootTimeout bootStart s)
      (Sum.elim (fun next => Calling plan next.bootMessage) (Called plan)) := by
  have cut : ∀ trace, Calling plan s.bootMessage trace → Reached plan trace := fun trace calling => calling_cut trace calling.1
  have sends : Keeps (Reached plan) (Calling plan s.bootMessage) (r.sendData [plan.axisId]) fun _ => Calling plan s.bootMessage := by
    refine sendData_keeps r (fun trace calling => ⟨calling.1.call,?_⟩) cut
      (gathered_stable calling_steadfast receivedBytes_gathers s.bootMessage)
    rw [receivedBytes_append,calling.2]
    exact List.append_nil _
  refine Keeps.bind sends fun sent => ?_
  split
  · rename_i failed
    exact Keeps.pure fun trace calling => ⟨calling.1,fun fine => absurd fine failed⟩
  refine Keeps.bind (Keeps.loop (fun _ trace calling => calling_cut trace calling.1) (bootLine_calls r) s.bootMessage) fun heard => ?_
  split
  · rename_i named
    refine Keeps.pure fun trace boot => ⟨boot.1,?_⟩
    have answered := boot.2
    rwa [if_pos named] at answered
  rename_i unnamed
  have missing : ∀ trace, BootHeard plan heard trace → Dialogue plan .calling trace ∧ heard.1.value ≠ 0 ∧
      (heard.1.value = ErrorCode.timedOut.value → receivedBytes trace = heard.2.1) := by
    intro trace boot
    have answered := boot.2
    rw [if_neg unnamed] at answered
    exact ⟨boot.1,answered⟩
  split
  · rename_i failed
    exact Keeps.pure fun trace boot => ⟨boot.1,fun fine => absurd fine failed.1⟩
  · rename_i silent
    refine (bootClock_calls bootTimeout bootStart {s with bootMessage := heard.2.1}).before fun trace boot => ?_
    obtain ⟨dialogue,failed,gathered⟩ := missing trace boot
    refine ⟨dialogue,gathered ?_⟩
    by_contra other
    exact silent ⟨failed,other⟩

theorem waitBoot_calls (bootTimeout : Int) :
    Keeps (Reached plan) (· = []) (r.waitBoot plan.bootloaderVersion plan.axisId bootTimeout) (Called plan) := by
  have begun : Keeps (Reached plan) (· = []) now fun _ => Calling plan [] := by
    refine (work_keeps now_working (fun trace calling => calling_cut trace calling.1)
      (gathered_stable calling_steadfast receivedBytes_gathers [])).before ?_
    rintro trace rfl
    exact ⟨.silence,rfl⟩
  refine Keeps.bind begun fun bootStart => ?_
  have turns : Keeps (Reached plan) (Calling plan []) (loop (r.bootTurn (bootVersion plan) (axisNumber plan) plan.axisId bootTimeout bootStart)
      ⟨[],bootStart,0⟩) (Called plan) :=
    Keeps.loop (fun s trace calling => calling_cut trace calling.1) (bootTurn_calls r bootTimeout bootStart) ⟨[],bootStart,0⟩
  exact turns

def Erased (plan : FlushPlan) (error : ErrorCode) (trace : List Exchange) : Prop :=
  Reached plan trace ∧ (error.value = 0 → Dialogue plan .erasing trace ∧ kEraseFinishMessage <:+: heard trace)

theorem erasing_cut (trace : List Exchange) (dialogue : Dialogue plan .erasing trace) : Reached plan trace := ⟨_,dialogue⟩

theorem eraseTurn_erases (start : Int) (s : Unit) :
    Keeps (Reached plan) (Dialogue plan .erasing) (r.eraseTurn start s) (Sum.elim (fun _ => Dialogue plan .erasing) (Erased plan)) := by
  refine Keeps.bind (checkReceivedMessage_hears r erasing_cut erasing_steadfast kEraseFinishMessage) fun error => ?_
  split
  · rename_i fine
    exact Keeps.pure fun trace heard => ⟨erasing_cut trace heard.1,fun _ => ⟨heard.1,heard.2 fine⟩⟩
  split
  · rename_i failed _
    exact Keeps.pure fun trace heard => ⟨erasing_cut trace heard.1,fun fine => absurd fine failed⟩
  have waits : Keeps (Reached plan) (fun trace => Dialogue plan .erasing trace ∧ (error.value = 0 → kEraseFinishMessage <:+: heard trace))
      (waitNanoSec kCommandIntervalTime) fun _ => Dialogue plan .erasing :=
    (work_keeps (waitNanoSec_working _) erasing_cut erasing_steadfast.stable).before fun trace heard => heard.1
  refine Keeps.bind waits fun waited => ?_
  split
  · rename_i failed
    exact Keeps.pure fun trace dialogue => ⟨erasing_cut trace dialogue,fun fine => absurd fine failed⟩
  refine Keeps.bind (work_keeps now_working erasing_cut erasing_steadfast.stable) fun elapsed => ?_
  split
  · exact Keeps.pure fun trace dialogue => ⟨erasing_cut trace dialogue,fun fine => by cases fine⟩
  split
  · exact Keeps.pure fun trace dialogue => ⟨erasing_cut trace dialogue,fun fine => by cases fine⟩
  · exact Keeps.pure fun trace dialogue => dialogue

theorem erase_erases : Keeps (Reached plan) (fun trace => Dialogue plan .calling trace ∧ Booted plan (receivedBytes trace)) r.erase
    (Erased plan) := by
  have asks := (sendCommand_asks r .erase).before fun trace (booted : Dialogue plan .calling trace ∧ Booted plan (receivedBytes trace)) =>
    (⟨.calling,booted⟩ : ∃ stage, Dialogue plan stage trace ∧ Ready plan trace .erase stage)
  refine Keeps.bind asks fun asked => ?_
  dsimp only
  split
  · rw [if_pos (by decide)]
    exact Keeps.pure fun trace heard => ⟨heard.1,fun fine => by cases fine⟩
  split
  · rename_i failed
    exact Keeps.pure fun trace heard => ⟨heard.1,fun fine => absurd fine failed⟩
  rename_i answered
  have sends : Keeps (Reached plan) (Asked plan .erase asked) (r.sendData [kExecuteCommand]) fun _ => Dialogue plan .erasing := by
    refine sendData_keeps r (fun trace heard => ?_) erasing_cut erasing_steadfast.stable
    obtain ⟨attempts,dialogue,inside⟩ := heard.2 (not_not.mp answered)
    exact dialogue.erase inside
  refine Keeps.bind sends fun sent => ?_
  split
  · rename_i failed
    exact Keeps.pure fun trace dialogue => ⟨erasing_cut trace dialogue,fun fine => absurd fine failed⟩
  refine Keeps.bind (work_keeps now_working erasing_cut erasing_steadfast.stable) fun start => ?_
  exact Keeps.loop (fun _ => erasing_cut) (eraseTurn_erases r start) ()

theorem sendFlushBlockData_local (flushData : List UInt8) (sendPos : Nat) (blockNumber : UInt8) :
    Local (r.sendFlushBlockData flushData sendPos blockNumber) := by
  unfold sendFlushBlockData
  cases flushBlock flushData sendPos with
  | none => exact Local.halt .fault
  | some block => exact (sendData_composed r _).isLocal

theorem transferTurn_local (flushData : List UInt8) (s : Transfer) : Local (r.transferTurn flushData s) := by
  have closing : ∀ s isFlushXmodem error, Local (transferEnd s isFlushXmodem error) :=
    fun s isFlushXmodem error => (transferEnd_resting s isFlushXmodem error).isLocal
  refine Local.bind (Local.meet _) fun result => ?_
  cases result with
  | error error =>
      dsimp only
      split
      · exact closing _ _ _
      · exact Local.pure _
  | ok data =>
      dsimp only
      split
      · unfold transferNext
        dsimp only
        split
        · exact Local.halt .fault
        split
        · exact Local.bind (sendCommand_composed r _ _).isLocal fun _ => closing _ _ _
        · exact Local.bind (sendFlushBlockData_local r _ _ _) fun _ => closing _ _ _
      split
      · unfold transferAgain
        dsimp only
        split
        · exact Local.bind (sendFlushBlockData_local r _ _ _) fun _ => closing _ _ _
        · exact closing _ _ _
      split
      · exact closing _ _ _
      · exact closing _ _ _

theorem flushXmodem_local (flushData : List UInt8) : Local (r.flushXmodem flushData) := by
  refine Local.bind (Composed.loop waitTurn_listening 0).isLocal fun waited => ?_
  split
  · exact Local.pure _
  refine Local.bind (sendFlushBlockData_local r flushData 0 1) fun sent => ?_
  split
  · exact Local.pure _
  refine Local.bind (waitNanoSec_resting _).isLocal fun slept => ?_
  split
  · exact Local.pure _
  · exact Local.loop (transferTurn_local r flushData) ⟨0,0,0,1⟩

def Flushed (plan : FlushPlan) (error : ErrorCode) (trace : List Exchange) : Prop :=
  Reached plan trace ∧ (error.value = 0 → ∃ transfer, Dialogue plan (.transferring transfer) trace ∧ Finished transfer)

def Confirmed (plan : FlushPlan) (trace : List Exchange) : Prop :=
  ∃ before quiet, trace = before ++ quiet ∧ Dialogue plan (.transferring []) before ∧ Unsent quiet

theorem unsent_orderly {flushData : List UInt8} {trace : List Exchange} (unsent : Unsent trace) : Orderly (Allowed flushData) trace := by
  rintro before event after rfl
  exact allowed_silent before (unsent event (List.mem_append_right _ List.mem_cons_self))

theorem confirmed_cut (trace : List Exchange) (confirmed : Confirmed plan trace) : Reached plan trace := by
  obtain ⟨before,quiet,rfl,begun,unsent⟩ := confirmed
  exact ⟨_,transferring_goes begun (unsent_orderly unsent)⟩

theorem confirmed_steadfast : Steadfast (Confirmed plan) := by
  rintro trace event silent ⟨before,quiet,rfl,begun,unsent⟩
  refine ⟨before,quiet ++ [event],List.append_assoc _ _ _,begun,fun other member => ?_⟩
  rcases List.mem_append.mp member with old | new
  · exact unsent other old
  · exact List.mem_singleton.mp new ▸ silent

theorem flushXmodem_flushes (present : plan.flushData ≠ []) (short : plan.flushData.length < 2^32 - 128) :
    Keeps (Reached plan) (Confirmed plan) (r.flushXmodem plan.flushData) (Flushed plan) := by
  have split : ∀ trace, Confirmed plan trace → ∃ before own, trace = before ++ own ∧ Dialogue plan (.transferring []) before ∧
      Orderly (Allowed plan.flushData) own ∧ Unsent own := by
    rintro trace ⟨before,quiet,rfl,begun,unsent⟩
    exact ⟨before,quiet,rfl,begun,unsent_orderly unsent,unsent⟩
  refine (flushXmodem_moves r present short).resumes (flushXmodem_local r plan.flushData) split ?_ ?_
  · exact fun before own begun orderly => ⟨_,transferring_goes begun orderly⟩
  · exact fun before own error begun orderly finished =>
      ⟨⟨_,transferring_goes begun orderly⟩,fun fine => ⟨own,transferring_goes begun orderly,finished fine⟩⟩

theorem drain_keeps {holds : List Exchange → Prop} (cut : ∀ trace, holds trace → Reached plan trace) (steadfast : Steadfast holds) :
    Keeps (Reached plan) holds (loop drainTurn ()) fun error trace => error.value ≠ 0 ∧ holds trace := by
  have receives : Keeps (Reached plan) holds receiveByte fun result trace =>
      holds trace ∧ ∀ error, result = .error error → error.value ≠ 0 := by
    refine Keeps.meet cut fun trace event result held answer => ?_
    cases event with
    | silent =>
        cases answer
        exact ⟨steadfast trace _ rfl held,fun error same => by cases same; decide⟩
    | receiveFailed errno set =>
        cases answer
        exact ⟨steadfast trace _ rfl held,fun error same => by cases same; exact set⟩
    | received data =>
        cases answer
        exact ⟨steadfast trace _ rfl held,nofun⟩
    | _ => cases answer
  have turn : ∀ s, Keeps (Reached plan) holds (drainTurn s)
      (Sum.elim (fun _ => holds) fun error trace => error.value ≠ 0 ∧ holds trace) := by
    intro s
    refine Keeps.bind receives fun result => ?_
    cases result with
    | error error => exact Keeps.pure fun trace received => ⟨received.2 error rfl,received.1⟩
    | ok data => exact Keeps.pure fun trace received => received.1
  exact Keeps.loop (fun _ => cut) turn ()

theorem flush_flushes (present : plan.flushData ≠ []) (short : plan.flushData.length < 2^32 - 128) :
    Keeps (Reached plan) (fun trace => Dialogue plan .erasing trace ∧ kEraseFinishMessage <:+: heard trace) (r.flush plan.flushData)
      (Flushed plan) := by
  have asks := (sendCommand_asks r .flush).before fun trace (erased : Dialogue plan .erasing trace ∧ kEraseFinishMessage <:+: heard trace) =>
    (⟨.erasing,erased⟩ : ∃ stage, Dialogue plan stage trace ∧ Ready plan trace .flush stage)
  refine Keeps.bind asks fun asked => ?_
  split
  · exact Keeps.pure fun trace heard => ⟨heard.1,fun fine => by cases fine⟩
  split
  · rename_i failed
    exact Keeps.pure fun trace heard => ⟨heard.1,fun fine => absurd fine failed⟩
  rename_i answered
  have ready : Steadfast fun trace => ∃ attempts, Dialogue plan (.asking .flush attempts) trace ∧ kFlushCheckMessage <:+: heard trace :=
    Steadfast.exists fun attempts => (asking_steadfast .flush attempts).and (gathers_inside heard_gathers kFlushCheckMessage)
  have cut : ∀ trace, (∃ attempts, Dialogue plan (.asking .flush attempts) trace ∧ kFlushCheckMessage <:+: heard trace) → Reached plan trace :=
    fun trace ⟨_,dialogue,_⟩ => ⟨_,dialogue⟩
  have confirms : Keeps (Reached plan) (Asked plan .flush asked) r.confirmFlush fun error trace =>
      Reached plan trace ∧ (error.value = 0 → Confirmed plan trace) := by
    refine Keeps.bind ((drain_keeps cut ready).before fun trace heard => heard.2 (not_not.mp answered)) fun error => ?_
    split
    · refine (sendData_keeps r (fun trace drained => ?_) confirmed_cut confirmed_steadfast.stable).weaken (fun _ => id)
        fun _ trace confirmed => ⟨confirmed_cut trace confirmed,fun _ => confirmed⟩
      obtain ⟨_,attempts,dialogue,inside⟩ := drained
      exact ⟨_,[],(List.append_nil _).symm,dialogue.transfer inside,nofun⟩
    · exact Keeps.pure fun trace drained => ⟨cut trace drained.2,fun fine => absurd fine drained.1⟩
  refine Keeps.bind confirms fun error => ?_
  split
  · rename_i fine
    exact (flushXmodem_flushes r present short).before fun trace confirmed => confirmed.2 fine
  · rename_i failed
    exact Keeps.pure fun trace confirmed => ⟨confirmed.1,fun fine => absurd fine failed⟩

def Started (plan : FlushPlan) (error : ErrorCode) (trace : List Exchange) : Prop :=
  Reached plan trace ∧ (error.value = 0 → ∃ attempts, Dialogue plan (.asking .run attempts) trace ∧ kRunCheckMessage <:+: heard trace)

theorem run_starts : Keeps (Reached plan) (fun trace => ∃ transfer, Dialogue plan (.transferring transfer) trace ∧ Finished transfer) r.run
    (Started plan) := by
  have asks := (sendCommand_asks r .run).before fun trace (finished : ∃ transfer, Dialogue plan (.transferring transfer) trace ∧ Finished transfer) =>
    (⟨_,finished.choose_spec⟩ : ∃ stage, Dialogue plan stage trace ∧ Ready plan trace .run stage)
  refine Keeps.bind asks fun asked => Keeps.pure fun trace heard => ⟨heard.1,fun fine => ?_⟩
  split at fine
  · cases fine
  · exact heard.2 fine

theorem flushStep_keeps {step : Session Exchange ErrorCode} {texts : List (ErrorCode × String)} {rest : Session Exchange FlushEnd}
    {pre middle : List Exchange → Prop} {success : List Exchange → Prop}
    (first : Keeps (Reached plan) pre step fun error trace => Reached plan trace ∧ (error.value = 0 → middle trace))
    (second : Keeps (Reached plan) middle rest fun ended trace => Reached plan trace ∧ (ended = .success → success trace)) :
    Keeps (Reached plan) pre (flushStep step texts rest) fun ended trace => Reached plan trace ∧ (ended = .success → success trace) := by
  refine Keeps.bind first fun error => ?_
  split
  · exact Keeps.pure fun trace failed => ⟨failed.1,nofun⟩
  · rename_i fine
    exact second.before fun trace reached => reached.2 (not_not.mp fine)

def Running (plan : FlushPlan) (trace : List Exchange) : Prop :=
  ∃ attempts, Dialogue plan (.asking .run attempts) trace ∧ kRunCheckMessage <:+: heard trace

theorem reprogram_converses (present : plan.flushData ≠ []) (short : plan.flushData.length < 2^32 - 128) :
    Keeps (Reached plan) (· = []) (reprogram plan) fun ended trace => Reached plan trace ∧ (ended = .success → Running plan trace) := by
  have boots := (waitBoot_calls repro plan.bootTimeout).weaken (fun _ => id) fun error trace (called : Called plan error trace) =>
    (⟨calling_cut trace called.1,fun fine => ⟨called.1,called.2 fine⟩⟩ :
      Reached plan trace ∧ (error.value = 0 → Dialogue plan .calling trace ∧ Booted plan (receivedBytes trace)))
  refine flushStep_keeps boots (flushStep_keeps (erase_erases repro) (flushStep_keeps (flush_flushes repro present short) ?_))
  exact flushStep_keeps (run_starts repro) (Keeps.pure fun trace running => ⟨⟨_,running.choose_spec.1⟩,fun _ => running⟩)

end Steps

-- Whatever the amplifier answers, and wherever the program is cut off: what was sent and received is
-- a conversation of the boot loader, and the program succeeds only when the firmware was started.
theorem exxxFlush_converses {arguments : List (List UInt8)} {file : List UInt8 → Option (List UInt8)} {plan : FlushPlan}
    (planned : flushPlan arguments file = .ok plan) (present : plan.flushData ≠ []) (short : plan.flushData.length < 2^32 - 128)
    (devices : Devices) (script : List Exchange) :
    Reached plan (exxxFlush arguments file devices ⟨[],script⟩).2.trace ∧
      ((exxxFlush arguments file devices ⟨[],script⟩).1 = .ok .success →
        Running plan (exxxFlush arguments file devices ⟨[],script⟩).2.trace) := by
  have main : Keeps (Reached plan) (· = []) (exxxFlush arguments file devices) fun ended trace =>
      Reached plan trace ∧ (ended = .success → Running plan trace) := by
    have silence : ∀ trace : List Exchange, trace = [] → Reached plan trace := by
      rintro trace rfl
      exact ⟨_,.silence⟩
    unfold exxxFlush
    rw [planned]
    dsimp only
    split
    · exact Keeps.pure fun trace begun => ⟨silence trace begun,nofun⟩
    split
    · exact Keeps.pure fun trace begun => ⟨silence trace begun,nofun⟩
    split
    · exact Keeps.pure fun trace begun => ⟨silence trace begun,nofun⟩
    · exact reprogram_converses present short
  obtain ⟨returned,cut⟩ := main ⟨[],script⟩ rfl
  cases result : (exxxFlush arguments file devices ⟨[],script⟩).1 with
  | ok ended => exact ⟨(returned ended result).1,fun same => (returned ended result).2 (Except.ok.inj same)⟩
  | error reason => exact ⟨cut reason result,nofun⟩

def oneBytePlan : FlushPlan := ⟨ascii "dev",11,0x31,[7],0,⟨false,false,none⟩⟩

theorem oneByte_planned : flushPlan [ascii "dev",ascii "11",ascii "a.bin"] (fun _ => some [7]) = .ok oneBytePlan := by
  have number : lexicalCastInt (ascii "11") = some 11 := by decide +kernel
  have axis : bootAxis (UInt8.ofInt 11) = 0x31 := by decide +kernel
  simp only [flushPlan,number,axis,bin_admitted]
  rfl

def arrivingLine (text : List UInt8) : List Exchange :=
  .clock 0 :: (text.flatMap fun data => [.received data,.clock 0]) ++ [.received kReceiveLineDelimiter1]

-- A boot loader that answers everything it is asked.
def oneByteDialogue : List Exchange :=
  [.clock 0,.clock 0,.written 1] ++ arrivingLine (ascii "Bootloader Ver.0 No_1") ++ [.silent] ++
  [.clock 0,.written 1] ++ arrivingLine kEraseCheckMessage ++ [.clock 0,.written 1,.clock 0] ++ arrivingLine kEraseFinishMessage ++
  [.clock 0,.written 1] ++ arrivingLine kFlushCheckMessage ++ [.silent,.clock 0,.written 1] ++ oneBlock ++
  [.clock 0,.written 1] ++ arrivingLine kRunCheckMessage

def FlushEnd.succeeds : FlushEnd → Bool
  | .success => true
  | _ => false

theorem FlushEnd.succeeds_eq {ended : FlushEnd} (success : ended.succeeds = true) : ended = .success := by
  cases ended with
  | success => rfl
  | usage => cases success
  | failure complaint => cases success

set_option maxRecDepth 20000 in
theorem oneByte_reprogrammed : (reprogram oneBytePlan ⟨[],oneByteDialogue⟩).1.toOption.map FlushEnd.succeeds = some true := by
  decide +kernel

theorem oneByte_converses : flushPlan [ascii "dev",ascii "11",ascii "a.bin"] (fun _ => some [7]) = .ok oneBytePlan ∧
    oneBytePlan.flushData ≠ [] ∧ Running oneBytePlan (exxxFlush [ascii "dev",ascii "11",ascii "a.bin"] (fun _ => some [7])
      ⟨.success,.success,.success⟩ ⟨[],oneByteDialogue⟩).2.trace := by
  have same : exxxFlush [ascii "dev",ascii "11",ascii "a.bin"] (fun _ => some [7]) ⟨.success,.success,.success⟩ =
      reprogram oneBytePlan := by
    unfold exxxFlush
    rw [oneByte_planned]
    rfl
  have evaluated := oneByte_reprogrammed
  refine ⟨oneByte_planned,by decide,?_⟩
  refine (exxxFlush_converses oneByte_planned (by decide) (by decide) ⟨.success,.success,.success⟩ oneByteDialogue).2 ?_
  rw [same]
  cases result : (reprogram oneBytePlan ⟨[],oneByteDialogue⟩).1 with
  | error reason =>
      rw [result] at evaluated
      cases evaluated
  | ok ended =>
      rw [result] at evaluated
      exact congrArg Except.ok (FlushEnd.succeeds_eq (Option.some.inj evaluated))

end HsrbDrivers.Servomotor

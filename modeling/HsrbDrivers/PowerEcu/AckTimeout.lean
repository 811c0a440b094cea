import HsrbDrivers.PowerEcu.ProtocolRuns

namespace HsrbDrivers.PowerEcu

-- What `Receive` of the serial network meets: nothing arrives while `ppoll` waits, `ppoll`
-- fails, or something is there to read, which fails or yields bytes.
inductive Polled where
  | idle
  | failed
  | readFailed
  | read (bytes : List UInt8)

namespace SerialNetwork

-- Each way through the loop of `Receive` leaves it in its first turn. An errno is taken for
-- `networkDown`, as which `ReceiveAll` reports all but a success. Pushing stops at a full
-- buffer, which at most as many bytes are read as there is room for prevents.
def receive (timeout : Int) (polled : Polled) (data : PacketBuffer) : ErrorCode × List UInt8 :=
  if timeout ≤ 0 then (.timedOut,[]) else
  match polled with
  | .idle => (.timedOut,[])
  | .failed => (.networkDown,[])
  | .readFailed => (.networkDown,[])
  | .read bytes => (.success,bytes.take data.reserve)

theorem receive_success {timeout : Int} {polled : Polled} {data : PacketBuffer} :
    (receive timeout polled data).1 = .success ↔ 0 < timeout ∧ ∃ bytes, polled = .read bytes := by
  unfold receive
  by_cases spent : timeout ≤ 0
  · simp [spent]
  · cases polled <;> simp [spent,Int.not_le.mp spent]

end SerialNetwork

namespace PowerEcuProtocol

-- The command that waits is given up: nothing is awaited, and the front of the queue is gone.
def GivenUp (p q : PowerEcuProtocol) : Prop :=
  q.isWaitingAck = false ∧ ∃ command, p.commandQueue.data = command :: q.commandQueue.data

theorem confirmAck_late {p q : PowerEcuProtocol} {time : Int} {result ret : ErrorCode} {released : Option Release}
    (waiting : p.isWaitingAck = true) (late : time - p.lastSendCommandTime > kCommandTimeout)
    (confirmed : p.confirmAck time result = .ok (ret,released,q)) : GivenUp p q := by
  have finish {code : ErrorCode} {success : Bool} (finished : (do
      let currentCommand ← p.frontCommand
      let p ← p.popCommand
      return (code,some ⟨currentCommand,success⟩,{p with isWaitingAck := false})) = (.ok (ret,released,q) : Except Stop _)) :
      GivenUp p q := by
    obtain ⟨_,commandQueue,_,removed,_,rfl⟩ := release_ok finished
    exact ⟨rfl,CircularBuffer.popFront_some removed⟩
  unfold confirmAck at confirmed
  rw [if_neg (by simp [waiting])] at confirmed
  split at confirmed
  · exact finish confirmed
  · exact finish confirmed

theorem receiveAll_late {p q : PowerEcuProtocol} {time : Int} {chunk : List UInt8} {reception : Reception}
    (waiting : p.isWaitingAck = true) (late : time - p.lastSendCommandTime > kCommandTimeout)
    (received : p.receiveAll time .success chunk = .ok (reception,q)) : GivenUp p q := by
  unfold receiveAll at received
  rw [if_neg (not_not.mpr rfl)] at received
  obtain ⟨⟨left,decoding⟩,_,received⟩ := except_bind_ok.mp received
  obtain ⟨⟨result,released,after⟩,confirmed,received⟩ := except_bind_ok.mp received
  cases received
  have given := confirmAck_late (p := {p with receiveBuffer := left,received := decoding.memory}) waiting late confirmed
  exact ⟨given.1,given.2⟩

-- A call that comes too late for the acknowledgement awaited gives the command up exactly
-- when the network delivers, and a serial network does so only if something is there to read.
theorem ack_timeout_iff {p : PowerEcuProtocol} (reached : Reachable Constructed Step p) (waiting : p.isWaitingAck = true)
    {time : Int} (late : time - p.lastSendCommandTime > kCommandTimeout) :
    (∀ outcome chunk, (∃ reception q, p.receiveAll time outcome chunk = .ok (reception,q) ∧ GivenUp p q) ↔ outcome = .success) ∧
      ∀ timeout polled, (SerialNetwork.receive timeout polled p.receiveBuffer).1 = .success ↔
        0 < timeout ∧ ∃ bytes, polled = .read bytes := by
  refine ⟨fun outcome chunk => ⟨?_,?_⟩,fun _ _ => SerialNetwork.receive_success⟩
  · rintro ⟨reception,q,received,idle,_⟩
    rcases receiveAll_parts received with ⟨_,_,_,rfl⟩ | ⟨_,_,_,taken,_⟩
    · rw [waiting] at idle
      cases idle
    · exact taken
  · rintro rfl
    obtain ⟨reception,q,received⟩ := receiveAll_returns time .success chunk (reached_consistent reached).queued
    exact ⟨reception,q,received,receiveAll_late waiting late received⟩

theorem exists_waiting (time : Int) :
    ∃ p, Reachable Constructed Step p ∧ p.isWaitingAck = true ∧ p.lastSendCommandTime = time := by
  obtain ⟨p,constructed,_⟩ := construct_parts time
  have start : Reachable Constructed Step p := .initial ⟨time,constructed⟩
  obtain ⟨q,added,valid,idle,held⟩ := construct_added constructed
  have front : q.commandQueue.front? = some heartCommandName := by rw [CircularBuffer.front?,held,List.head?_cons]
  have sent := sendAll_queue time front idle (valid.encodable _ valid.heart)
  exact ⟨_,(start.step (.added added)).step (.sent sent),rfl,rfl⟩

theorem ack_timeout_delivered : ∃ (p : PowerEcuProtocol) (reception : Reception) (q : PowerEcuProtocol),
    p.receiveAll (kCommandTimeout + 1) .success [] = .ok (reception,q) ∧ GivenUp p q := by
  obtain ⟨p,reached,waiting,sent⟩ := exists_waiting 0
  exact ⟨p,((ack_timeout_iff reached waiting (by rw [sent]; decide)).1 .success []).mpr rfl⟩

theorem silent_ecu_awaited : ∃ p, Reachable Constructed Step p ∧ p.isWaitingAck = true ∧ p.received.rxack.isReceiveAck = false ∧
    kCommandTimeout + 1 - p.lastSendCommandTime > kCommandTimeout ∧
    ∃ reception q, p.receiveAll (kCommandTimeout + 1) .timedOut [] = .ok (reception,q) ∧ q.isWaitingAck = true ∧
      q.commandQueue = p.commandQueue := by
  obtain ⟨p,reached,waiting,sent⟩ := exists_waiting 0
  refine ⟨p,reached,waiting,(reached_consistent reached).unacked waiting,by rw [sent]; decide,?_⟩
  exact ⟨_,_,if_pos (by decide),waiting,rfl⟩

end PowerEcuProtocol
end HsrbDrivers.PowerEcu

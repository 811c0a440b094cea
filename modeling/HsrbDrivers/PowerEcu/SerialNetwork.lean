import HsrbDrivers.Library.Storage
import HsrbDrivers.Library.WriteLoop
import HsrbDrivers.PowerEcu.AckTimeout

namespace HsrbDrivers.PowerEcu.Serial
open Session Storage WriteLoop

def kBufferSize : Nat := 4 * 1000
def kTimeoutNanoSec : UInt32 := 300000
def kSleepTickNanoSec : Int := 10000

def invalidArgument : Int := 22

structure SerialNetwork where
  receiveBuffer : List UInt8
  sendBuffer : List UInt8
  timeoutNs : UInt32
  sleepTick : Int
  receiveSized : receiveBuffer.length = kBufferSize
  sendSized : sendBuffer.length = kBufferSize

namespace SerialNetwork

def construct : SerialNetwork :=
  ⟨List.replicate kBufferSize 0,List.replicate kBufferSize 0,kTimeoutNanoSec,kSleepTickNanoSec,List.length_replicate,
    List.length_replicate⟩

-- More bytes than there are would only be logged, and the clock is taken as it is.
def policy (n : SerialNetwork) : Policy := ⟨n.timeoutNs.toNat,n.sleepTick,none,false⟩

def send (n : SerialNetwork) (data : CircularBuffer UInt8 capacity) : Session DeviceEvent Int :=
  if data.size > n.sendBuffer.length then pure invalidArgument
  else match storeAll n.sendBuffer 0 data.data with
  | none => halt .fault
  | some sendBuffer => writeAll n.policy (sendBuffer.take data.size)

theorem send_eq (n : SerialNetwork) (data : CircularBuffer UInt8 capacity) (fits : data.size ≤ n.sendBuffer.length) :
    n.send data = writeAll n.policy data.data := by
  have copied := storeAll_eq n.sendBuffer 0 data.data (Nat.zero_le _)
  unfold CircularBuffer.size at fits
  simp [send,CircularBuffer.size,copied,Nat.not_lt.mpr fits,fits]

theorem send_transmits (n : SerialNetwork) (data : CircularBuffer UInt8 capacity) (fits : data.size ≤ n.sendBuffer.length)
    (schedule : List DeviceEvent) :
    InOrder data.data (n.send data ⟨[],schedule⟩).2.trace ∧
      ((n.send data ⟨[],schedule⟩).1 = .ok 0 ↔ Complete data.data (n.send data ⟨[],schedule⟩).2.trace) := by
  rw [send_eq n data fits]
  exact writeAll_transmits n.policy data.data schedule

theorem parts_transmitted : ∃ schedule,
    Complete [1,2,3] (construct.send (⟨[1,2,3],by decide⟩ : CircularBuffer UInt8 10) ⟨[],schedule⟩).2.trace := by
  have fits : (⟨[1,2,3],by decide⟩ : CircularBuffer UInt8 10).size ≤ construct.sendBuffer.length := by
    rw [construct.sendSized]
    decide
  let schedule : List DeviceEvent := [.clock 0,.wrote 2,.clock 10,.writeFailed eagain eagain_set,.slept,.clock 20,.wrote 1]
  refine ⟨schedule,(send_transmits construct ⟨[1,2,3],by decide⟩ fits schedule).2.mp ?_⟩
  rw [send_eq construct _ fits]
  rfl

theorem empty_write_fails : ¬ ∀ (n : SerialNetwork) (capacity : Nat) (data : CircularBuffer UInt8 capacity),
    data.size ≤ n.sendBuffer.length → ∀ schedule, InOrder data.data (n.send data ⟨[],schedule⟩).2.trace ∧
      ((n.send data ⟨[],schedule⟩).1 = .ok 0 ↔ (∃ bytes, .write bytes ∈ (n.send data ⟨[],schedule⟩).2.trace) ∧
        accepted (n.send data ⟨[],schedule⟩).2.trace = data.data) := by
  intro every
  have made := (every construct 0 .empty (Nat.zero_le _) [.clock 0,.writeFailed 5 (by decide)]).2
  rw [send_eq construct .empty (Nat.zero_le _)] at made
  have told := made.mpr ⟨⟨[],List.mem_iff_getElem?.mpr ⟨1,rfl⟩⟩,rfl⟩
  exact absurd told (by decide)

end SerialNetwork

inductive Reception where
  | clock (now : Int)
  | ppoll (nsec : Int)
  | idle
  | ready
  | ppollFailed (errno : Int) (set : errno ≠ 0)
  | read (limit : Nat)
  | bytes (bytes : List UInt8)
  | readFailed (errno : Int) (set : errno ≠ 0)

def received (trace : List Reception) : List UInt8 :=
  (trace.filterMap fun | .bytes bytes => some bytes | _ => none).flatten

def clock : Session Reception Int := meet fun
  | .clock now => some now
  | _ => none

def ppoll (nsec : Int) : Session Reception (Except Int Bool) := do
  emit (.ppoll nsec)
  meet fun
    | .idle => some (.ok false)
    | .ready => some (.ok true)
    | .ppollFailed errno _ => some (.error errno)
    | _ => none

def read (limit : Nat) : Session Reception (Except Int (List UInt8)) := do
  emit (.read limit)
  meet fun
    | .bytes bytes => if bytes.length ≤ limit then some (.ok bytes) else none
    | .readFailed errno _ => some (.error errno)
    | _ => none

def pushUntilFull (data : CircularBuffer UInt8 capacity) : List UInt8 → CircularBuffer UInt8 capacity
  | [] => data
  | byte :: rest => if data.size = capacity then data else pushUntilFull (data.pushBack byte) rest

def limitSize (n : SerialNetwork) (data : CircularBuffer UInt8 capacity) : Nat :=
  if n.receiveBuffer.length < data.reserve then n.receiveBuffer.length else data.reserve

def SerialNetwork.fill (n : SerialNetwork) (bytes : List UInt8) : Option SerialNetwork :=
  match stored : storeAll n.receiveBuffer 0 bytes with
  | none => none
  | some receiveBuffer =>
    some {n with receiveBuffer := receiveBuffer,receiveSized := (storeAll_length stored).trans n.receiveSized}

-- Each way through the loop leaves it in its first turn, in which no time has passed.
def SerialNetwork.receive (n : SerialNetwork) (data : CircularBuffer UInt8 capacity) :
    Session Reception (Int × SerialNetwork × CircularBuffer UInt8 capacity) := do
  let _ ← clock
  if 0 < n.timeoutNs.toNat then do
    let ready ← ppoll n.timeoutNs.toNat
    match ready with
    | .error errno => pure (errno,n,data)
    | .ok false => pure (timedOut,n,data)
    | .ok true => do
      let result ← read (limitSize n data)
      match result with
      | .error errno => pure (errno,n,data)
      | .ok bytes => match n.fill bytes with
        | none => halt .fault
        | some n => pure (0,n,pushUntilFull data (n.receiveBuffer.take bytes.length))
  else pure (timedOut,n,data)

theorem le_limitSize {n : SerialNetwork} {data : CircularBuffer UInt8 capacity} {count : Nat} :
    count ≤ limitSize n data ↔ count ≤ n.receiveBuffer.length ∧ count ≤ data.reserve := by
  unfold limitSize
  split <;> omega

theorem fill_eq (n : SerialNetwork) {bytes : List UInt8} (few : bytes.length ≤ n.receiveBuffer.length) :
    ∃ after, n.fill bytes = some after ∧ after.receiveBuffer.take bytes.length = bytes := by
  have filled := storeAll_eq n.receiveBuffer 0 bytes (Nat.zero_le _)
  unfold SerialNetwork.fill
  split
  · rename_i stored
    rw [filled,if_pos (by omega)] at stored
    cases stored
  · rename_i receiveBuffer stored
    rw [filled,if_pos (by omega)] at stored
    refine ⟨_,rfl,?_⟩
    simp [← Option.some.inj stored]

theorem pushUntilFull_data (data : CircularBuffer UInt8 capacity) (bytes : List UInt8)
    (room : data.data.length + bytes.length ≤ capacity) : (pushUntilFull data bytes).data = data.data ++ bytes := by
  induction bytes generalizing data with
  | nil => simp [pushUntilFull]
  | cons byte rest ih =>
      simp only [List.length_cons] at room
      have one := CircularBuffer.data_pushBack data byte (by omega)
      rw [pushUntilFull,if_neg (by unfold CircularBuffer.size; omega),ih _ (by simp [one]; omega),one]
      simp

@[simp] theorem received_append (trace : List Reception) (event : Reception) :
    received (trace ++ [event]) = received trace ++ match event with | .bytes bytes => bytes | _ => [] := by
  cases event <;> simp [received]

theorem clock_reads : Keeps (fun _ => True) (fun trace => received trace = []) clock fun _ trace => received trace = [] := by
  refine Keeps.meet (fun _ _ => trivial) fun trace event now none taken => ?_
  cases event with
  | clock now => simp [none]
  | _ => cases taken

theorem ppoll_reads (nsec : Int) :
    Keeps (fun _ => True) (fun trace => received trace = []) (ppoll nsec) fun ready trace =>
      received trace = [] ∧ ∀ errno, ready = .error errno → errno ≠ 0 := by
  have asked : Keeps (fun _ => True) (fun trace => received trace = []) (emit (.ppoll nsec)) fun _ trace => received trace = [] :=
    Keeps.emit fun trace none => by simp [none]
  refine Keeps.bind asked fun _ => Keeps.meet (fun _ _ => trivial) fun trace event ready none taken => ?_
  cases event with
  | idle =>
      cases taken
      exact ⟨by simp [none],nofun⟩
  | ready =>
      cases taken
      exact ⟨by simp [none],nofun⟩
  | ppollFailed errno set =>
      cases taken
      exact ⟨by simp [none],fun _ same => Except.error.inj same ▸ set⟩
  | _ => cases taken

theorem read_reads (limit : Nat) :
    Keeps (fun _ => True) (fun trace => received trace = []) (read limit) fun result trace =>
      match result with
      | .error errno => received trace = [] ∧ errno ≠ 0
      | .ok bytes => received trace = bytes ∧ bytes.length ≤ limit := by
  have asked : Keeps (fun _ => True) (fun trace => received trace = []) (emit (.read limit)) fun _ trace => received trace = [] :=
    Keeps.emit fun trace none => by simp [none]
  refine Keeps.bind asked fun _ => Keeps.meet (fun _ _ => trivial) fun trace event result none taken => ?_
  cases event with
  | bytes bytes =>
      obtain ⟨few,same⟩ := Option.ite_none_right_eq_some.mp taken
      cases same
      simp [none,few]
  | readFailed errno set =>
      cases taken
      exact ⟨by simp [none],set⟩
  | _ => cases taken

namespace SerialNetwork

theorem receive_keeps (n : SerialNetwork) (data : CircularBuffer UInt8 capacity) :
    Keeps (fun _ => True) (fun trace => received trace = []) (n.receive data) fun result trace =>
      (result.1 ≠ 0 ∧ received trace = [] ∧ result.2.2 = data) ∨
        (result.1 = 0 ∧ 0 < n.timeoutNs.toNat ∧ (received trace).length ≤ data.reserve ∧
          result.2.2.data = data.data ++ received trace) := by
  have unchanged : ∀ {code : Int}, code ≠ 0 → Keeps (fun _ => True) (fun trace => received trace = []) (Pure.pure (code,n,data))
      fun result trace => (result.1 ≠ 0 ∧ received trace = [] ∧ result.2.2 = data) ∨
        (result.1 = 0 ∧ 0 < n.timeoutNs.toNat ∧ (received trace).length ≤ data.reserve ∧
          result.2.2.data = data.data ++ received trace) :=
    fun failed => Keeps.pure fun trace none => .inl ⟨failed,none,rfl⟩
  refine Keeps.bind clock_reads fun _ => ?_
  split
  · rename_i patient
    refine Keeps.bind (ppoll_reads _) fun ready => Keeps.of_and fun set => ?_
    match ready with
    | .error errno => exact unchanged (set errno rfl)
    | .ok false => exact unchanged (by decide)
    | .ok true =>
        refine Keeps.bind (read_reads _) fun result => ?_
        cases result with
        | error errno => exact Keeps.of_and unchanged
        | ok bytes =>
            refine Keeps.of_and fun few => ?_
            obtain ⟨small,room⟩ := le_limitSize.mp few
            obtain ⟨after,filled,shown⟩ := fill_eq n small
            dsimp only
            rw [filled]
            refine Keeps.pure fun trace read => .inr ⟨rfl,patient,read ▸ room,?_⟩
            have fits := data.fits
            unfold CircularBuffer.reserve at room
            rw [shown,read,pushUntilFull_data data bytes (by omega)]
  · exact unchanged (by decide)

theorem receive_appends {n : SerialNetwork} {capacity : Nat} {data : CircularBuffer UInt8 capacity} {schedule : List Reception}
    {code : Int} {after : SerialNetwork} {buffer : CircularBuffer UInt8 capacity} {w : World Reception}
    (ended : n.receive data ⟨[],schedule⟩ = (.ok (code,after,buffer),w)) : buffer.data = data.data ++ received w.trace := by
  have kept := (receive_keeps n data ⟨[],schedule⟩ rfl).1 (code,after,buffer)
  rw [ended] at kept
  rcases kept rfl with ⟨_,none,same⟩ | ⟨_,_,_,appended⟩
  · rw [none,List.append_nil]
    exact congrArg _ same
  · exact appended

theorem receive_reported {n : SerialNetwork} {data : PacketBuffer} {schedule : List Reception} {code : Int} {after : SerialNetwork}
    {buffer : PacketBuffer} {w : World Reception} (ended : n.receive data ⟨[],schedule⟩ = (.ok (code,after,buffer),w)) :
    ∃ polled result, PowerEcu.SerialNetwork.receive n.timeoutNs.toNat polled data = (result,received w.trace) ∧
      (result = .success ↔ code = 0) ∧ buffer.data = data.data ++ received w.trace := by
  have kept := (receive_keeps n data ⟨[],schedule⟩ rfl).1 (code,after,buffer)
  rw [ended] at kept
  have appended := receive_appends ended
  rcases kept rfl with ⟨failed,none,_⟩ | ⟨zero,patient,room,_⟩
  · refine ⟨.idle,.timedOut,?_,iff_of_false nofun failed,appended⟩
    rw [none]
    unfold PowerEcu.SerialNetwork.receive
    split <;> rfl
  · refine ⟨.read (received w.trace),.success,?_,iff_of_true rfl zero,appended⟩
    unfold PowerEcu.SerialNetwork.receive
    rw [if_neg (by omega)]
    simp [List.take_of_length_le room]

theorem receive_delivers (n : SerialNetwork) (patient : 0 < n.timeoutNs.toNat) (data : CircularBuffer UInt8 capacity) (time : Int)
    {bytes : List UInt8} (few : bytes.length ≤ n.receiveBuffer.length) (room : bytes.length ≤ data.reserve) :
    ∃ after buffer w, n.receive data ⟨[],[.clock time,.ready,.bytes bytes]⟩ = (.ok (0,after,buffer),w) ∧ received w.trace = bytes := by
  have waited : ppoll n.timeoutNs.toNat ⟨[.clock time],[.ready,.bytes bytes]⟩ =
      (.ok (.ok true),⟨[.clock time,.ppoll n.timeoutNs.toNat,.ready],[.bytes bytes]⟩) := rfl
  have given : ∀ {limit : Nat} (trace : List Reception), bytes.length ≤ limit → read limit ⟨trace,[.bytes bytes]⟩ =
      (.ok (.ok bytes),⟨trace ++ [.read limit] ++ [.bytes bytes],[]⟩) := by
    intro limit trace enough
    have asked : emit (Reception.read limit) ⟨trace,[.bytes bytes]⟩ = (.ok (),⟨trace ++ [.read limit],[.bytes bytes]⟩) := rfl
    exact (bind_ok asked _).trans (by simp [Session.meet,enough])
  unfold receive
  have told : clock ⟨[],[.clock time,.ready,.bytes bytes]⟩ = (.ok time,⟨[.clock time],[.ready,.bytes bytes]⟩) := rfl
  rw [bind_ok told,if_pos patient,bind_ok waited]
  dsimp only
  rw [bind_ok (given _ (le_limitSize.mpr ⟨few,room⟩))]
  dsimp only
  obtain ⟨after,filled,_⟩ := fill_eq n few
  rw [filled]
  exact ⟨_,_,_,rfl,by simp [received]⟩

theorem last_byte_appended : ∃ (after : SerialNetwork) (buffer : CircularBuffer UInt8 3) (w : World Reception),
    construct.receive ⟨[1,2],by decide⟩ ⟨[],[.clock 0,.ready,.bytes [7]]⟩ = (.ok (0,after,buffer),w) ∧ buffer.data = [1,2,7] := by
  obtain ⟨after,buffer,w,ended,read⟩ := @receive_delivers 3 construct (by decide) ⟨[1,2],by decide⟩ 0 [7]
    (by rw [construct.receiveSized]; decide) (by decide)
  have appended := receive_appends ended
  rw [read] at appended
  exact ⟨after,buffer,w,ended,appended⟩

end SerialNetwork
end HsrbDrivers.PowerEcu.Serial

import HsrbDrivers.ImuSensor.PacketParser

namespace HsrbDrivers.ImuSensor

structure ErrorCode where
  value : Int
deriving DecidableEq,Repr

namespace ErrorCode

def success : ErrorCode := ⟨0⟩
def noMessageAvailable : ErrorCode := ⟨61⟩
def protocolError : ErrorCode := ⟨71⟩
def timedOut : ErrorCode := ⟨110⟩

end ErrorCode

def kBufferSize : Nat := 4095

structure Chunk where
  bytes : List UInt8
  fits : bytes.length ≤ kBufferSize

-- What a turn of the receive loop meets: `read` would block and the sleep is over, `read`
-- or the sleep fails, or bytes are there; and the clock at the end of the turn.
inductive Arrival where
  | again
  | failed (errno : Int) (set : errno ≠ 0)
  | read (chunk : Chunk)

structure Turn where
  arrival : Arrival
  now : Int

structure MPU9150Network where
  timeout : Int
  parser : MPU9150PacketParser

namespace MPU9150Network

-- The loop of `Receive`; `none` when it goes on after all the turns it is given.
def receiveLoop (timeout start : Int) : Int → MPU9150PacketParser → List Turn → Option (ErrorCode × MPU9150PacketParser)
  | elapsed,parser,[] => if elapsed - start < timeout then none else some (.timedOut,parser)
  | elapsed,parser,turn :: turns =>
    if ¬ elapsed - start < timeout then some (.timedOut,parser) else
    match turn.arrival with
    | .again => if turn.now < elapsed then some (.timedOut,parser) else receiveLoop timeout start turn.now parser turns
    | .failed errno _ => some (⟨errno⟩,parser)
    | .read chunk => match parser.scan chunk.bytes with
      | (.done,parser) => some (.success,parser)
      | (.error,parser) => some (.protocolError,parser)
      | (.more,parser) => if parser.allPackets = [] then some (.noMessageAvailable,parser) else some (.success,parser)

def receive (n : MPU9150Network) (start : Int) (turns : List Turn) : Option (ErrorCode × MPU9150Network) :=
  (receiveLoop n.timeout start start n.parser.reset turns).map fun (error,parser) => (error,{n with parser := parser})

def bytesRead (timeout start : Int) : Int → List Turn → Option (List UInt8)
  | _,[] => none
  | elapsed,turn :: turns =>
    if ¬ elapsed - start < timeout then none else
    match turn.arrival with
    | .again => if turn.now < elapsed then none else bytesRead timeout start turn.now turns
    | .failed _ _ => none
    | .read chunk => some chunk.bytes

def received (n : MPU9150Network) (start : Int) (turns : List Turn) : Option (List UInt8) :=
  bytesRead n.timeout start start turns

theorem flatten_empty_iff (bytes : List UInt8) : (packetsIn bytes).flatten = [] ↔ packetsIn bytes = [] := by
  constructor
  · intro none
    cases found : packetsIn bytes with
    | nil => rfl
    | cons packet packets =>
        have long := (packetsIn_parts bytes).2 packet (found ▸ List.mem_cons_self)
        have empty := (List.flatten_eq_nil_iff.mp none) packet (found ▸ List.mem_cons_self)
        rw [empty] at long
        cases long
  · exact congrArg List.flatten

theorem receiveLoop_unread {timeout start elapsed : Int} {turns : List Turn} (unread : bytesRead timeout start elapsed turns = none)
    {p q : MPU9150PacketParser} {error : ErrorCode} (returned : receiveLoop timeout start elapsed p turns = some (error,q)) :
    error ≠ .success ∧ q = p := by
  have late : ErrorCode.timedOut ≠ .success := by decide
  induction turns generalizing elapsed with
  | nil =>
      rw [receiveLoop] at returned
      split at returned
      · cases returned
      · cases returned
        exact ⟨late,rfl⟩
  | cons turn turns ih =>
      rw [receiveLoop] at returned
      rw [bytesRead] at unread
      split at returned
      · cases returned
        exact ⟨late,rfl⟩
      · rename_i early
        rw [if_neg early] at unread
        cases met : turn.arrival with
        | failed errno set =>
            rw [met] at returned
            cases returned
            exact ⟨fun same => set (congrArg ErrorCode.value same),rfl⟩
        | read chunk =>
            rw [met] at unread
            cases unread
        | again =>
            rw [met] at returned unread
            dsimp only at returned unread
            split at returned
            · cases returned
              exact ⟨late,rfl⟩
            · rename_i onward
              rw [if_neg onward] at unread
              exact ih unread returned

theorem scan_answers {p : MPU9150PacketParser} (between : p.Between) (cleared : p.allPackets = []) (bytes : List UInt8) :
    ∃ q, q.allPackets = (packetsIn bytes).flatten ∧
      q.isReplyPacket = (p.isReplyPacket || decide (∃ packet ∈ packetsIn bytes, packet.length = 4)) ∧
      ((p.scan bytes = (.done,q) ∧ packetsIn bytes ≠ []) ∨
        (p.scan bytes = (.more,q) ∧ (q.allPackets = [] ↔ packetsIn bytes = []))) := by
  obtain ⟨recorded,stopped,replied⟩ := p.scan_records between bytes
  rw [cleared,List.nil_append] at recorded
  refine ⟨(p.scan bytes).2,recorded,replied,?_⟩
  by_cases reply : ∃ packet ∈ packetsIn bytes, packet.length = 4
  · rw [if_pos reply] at stopped
    refine .inl ⟨Prod.ext stopped rfl,fun none => ?_⟩
    obtain ⟨packet,member,_⟩ := reply
    rw [none] at member
    cases member
  · rw [if_neg reply] at stopped
    refine .inr ⟨Prod.ext stopped rfl,?_⟩
    rw [recorded]
    exact flatten_empty_iff _

theorem receiveLoop_read {timeout start elapsed : Int} {turns : List Turn} {bytes : List UInt8}
    (arrived : bytesRead timeout start elapsed turns = some bytes) {p : MPU9150PacketParser} (between : p.Between)
    (cleared : p.allPackets = []) : bytes.length ≤ kBufferSize ∧ ∃ q, q.allPackets = (packetsIn bytes).flatten ∧
      q.isReplyPacket = (p.isReplyPacket || decide (∃ packet ∈ packetsIn bytes, packet.length = 4)) ∧
      receiveLoop timeout start elapsed p turns =
        some (if packetsIn bytes = [] then .noMessageAvailable else .success,q) := by
  induction turns generalizing elapsed with
  | nil => cases arrived
  | cons turn turns ih =>
      rw [bytesRead] at arrived
      rw [receiveLoop]
      split at arrived
      · cases arrived
      · rename_i early
        rw [if_neg early]
        cases met : turn.arrival with
        | failed errno set =>
            rw [met] at arrived
            cases arrived
        | again =>
            rw [met] at arrived
            dsimp only at arrived ⊢
            split at arrived
            · cases arrived
            · rename_i onward
              rw [if_neg onward]
              exact ih arrived
        | read chunk =>
            rw [met] at arrived
            obtain rfl := Option.some.inj arrived
            obtain ⟨q,recorded,replied,⟨scanned,some⟩ | ⟨scanned,emptied⟩⟩ := scan_answers between cleared chunk.bytes
            · refine ⟨chunk.fits,q,recorded,replied,?_⟩
              rw [if_neg some]
              dsimp only
              rw [scanned]
            · refine ⟨chunk.fits,q,recorded,replied,?_⟩
              dsimp only
              rw [scanned]
              dsimp only
              by_cases none : packetsIn chunk.bytes = []
              · rw [if_pos none,if_pos (emptied.mpr none)]
              · rw [if_neg none,if_neg (fun empty => none (emptied.mp empty))]

end MPU9150Network
end HsrbDrivers.ImuSensor

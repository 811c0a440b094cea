import HsrbDrivers.Servomotor.PacketFormat
import HsrbDrivers.Library.Storage

namespace HsrbDrivers.Servomotor
open Bytes Storage

inductive Category where
  | system
  | exxxWarning
deriving DecidableEq,Repr

structure ErrorCode where
  category : Category
  value : Int
deriving DecidableEq,Repr

namespace ErrorCode

def system (value : Int) : ErrorCode := ⟨.system,value⟩
def success : ErrorCode := system 0
def invalidArgument : ErrorCode := system 22
def noBufferSpace : ErrorCode := system 105
def timedOut : ErrorCode := system 110

end ErrorCode

def kBufferBytes : Nat := 260

def kHeader1 : UInt8 := 0xAA
def kHeader2 : UInt8 := 0x55
def kFooter1 : UInt8 := 0x00
def kFooter2 : UInt8 := 0x00

def kHeaderBytes : Nat := 2
def kIdBytes : Nat := 1
def kInstructionBytes : Nat := 1
def kLengthBytes : Nat := 2
def kErrorBytes : Nat := 2
def kChecksumBytes : Nat := 1
def kFooterBytes : Nat := 2

structure Chunk where
  bytes : List UInt8
  fits : bytes.length ≤ kBufferBytes

-- What a turn of the receive loop meets: `ppoll` runs out or fails, or `read` fails or
-- delivers; and the clock at the end of the turn.
inductive Arrival where
  | none
  | pollFailed (errno : Int)
  | readFailed (errno : Int)
  | read (chunk : Chunk)

structure Turn where
  arrival : Arrival
  now : Int

structure Received where
  code : ErrorCode
  dataOut : List UInt8
  parser : ExxxPacketParser

structure ExxxNetwork where
  parser : ExxxPacketParser
  timeout : Int
  buffer : List UInt8
  sized : buffer.length = kBufferBytes

namespace ExxxNetwork

def initial : ExxxNetwork := ⟨ExxxPacketParser.initial,300000,List.replicate kBufferBytes 0,List.length_replicate⟩

def fillBuffer (buffer : List UInt8) (id inst : UInt8) (data : List UInt8) : Option (List UInt8) := do
  let length := kHeaderBytes + kIdBytes + kInstructionBytes + kLengthBytes + data.length + kChecksumBytes + kFooterBytes
  let buffer ← storeAll buffer 0 [kHeader1,kHeader2,id]
  let buffer ← storeAll buffer 3 (toLe 2 (data.length + kInstructionBytes + kChecksumBytes))
  let buffer ← storeAll buffer 5 [inst]
  let buffer ← storeAll buffer 6 data
  let headerToData := kHeaderBytes + kIdBytes + kInstructionBytes + kLengthBytes + data.length
  let buffer ← storeAll buffer headerToData [checksum ((buffer.take (length-3)).drop 2)]
  storeAll buffer (headerToData+kChecksumBytes) [kFooter1,kFooter2]

-- The bytes of a read up to a packet, an offending byte resetting the parser.
def scan (parser : ExxxPacketParser) : List UInt8 → Bool × ExxxPacketParser
  | [] => (false,parser)
  | input :: rest => match parser.tryParse input with
    | (.done,parser) => (true,parser)
    | (.error,parser) => scan parser.reset rest
    | (.more,parser) => scan parser rest

-- The answer once a packet is there. Its parameters must fit the vector's capacity.
def deliver (capacity : Nat) (dataOut : List UInt8) (parser : ExxxPacketParser) : Received :=
  let parameterSize := (ExxxPacketParser.lengthField parser.packet + 2^16 - (kErrorBytes + kChecksumBytes)) % 2^16
  if parameterSize > capacity then ⟨.noBufferSpace,dataOut,parser⟩ else
  let dataOut := (parser.packet.drop 7).take parameterSize
  let errorStatus := fromLe ((parser.packet.drop 5).take 2)
  if errorStatus ≠ 0 then ⟨⟨.exxxWarning,errorStatus⟩,dataOut,parser⟩ else ⟨.success,dataOut,parser⟩

-- The loop of `Receive`; `none` when it goes on after all the turns it is given.
def receiveLoop (timeout start : Int) (capacity : Nat) (dataOut : List UInt8) :
    Int → ExxxPacketParser → List Turn → Option Received
  | elapsed,parser,[] => if elapsed - start < timeout then none else some ⟨.timedOut,dataOut,parser⟩
  | elapsed,parser,turn :: turns =>
    if ¬ elapsed - start < timeout then some ⟨.timedOut,dataOut,parser⟩ else
    match turn.arrival with
    | .none => some ⟨.timedOut,dataOut,parser⟩
    | .pollFailed errno => some ⟨.system errno,dataOut,parser⟩
    | .readFailed errno => some ⟨.system errno,dataOut,parser⟩
    | .read chunk => match scan parser chunk.bytes with
      | (true,parser) => some (deliver capacity dataOut parser)
      | (false,parser) =>
        if turn.now < elapsed then some ⟨.timedOut,dataOut,parser⟩ else
        receiveLoop timeout start capacity dataOut turn.now parser turns

def receive (n : ExxxNetwork) (id : UInt8) (capacity : Nat) (dataOut : List UInt8) (start : Int) (turns : List Turn) :
    Option Received :=
  receiveLoop n.timeout start capacity dataOut start ((n.parser.reset.clearIds).addId id) turns

def frameBody (id inst : UInt8) (data : List UInt8) : List UInt8 :=
  [kHeader1,kHeader2,id] ++ toLe 2 (data.length + kInstructionBytes + kChecksumBytes) ++ [inst] ++ data

def frame (id inst : UInt8) (data : List UInt8) : List UInt8 :=
  frameBody id inst data ++ [checksum ((frameBody id inst data).drop 2)] ++ [kFooter1,kFooter2]

theorem frameBody_length (id inst : UInt8) (data : List UInt8) : (frameBody id inst data).length = data.length + 6 := by
  simp only [frameBody,List.length_append,toLe_length,List.length_cons,List.length_nil]
  omega

theorem fillBuffer_eq {buffer : List UInt8} (sized : buffer.length = kBufferBytes) (id inst : UInt8) (data : List UInt8) :
    fillBuffer buffer id inst data = if data.length ≤ 251 then
      some (frame id inst data ++ buffer.drop (data.length + 9)) else none := by
  have bodyLength := frameBody_length id inst data
  have filled : fillBuffer buffer id inst data = (storeAll buffer 0 (frameBody id inst data)).bind fun stored =>
      (storeAll stored (data.length+6) [checksum ((stored.take (data.length+6)).drop 2)]).bind fun stored =>
      storeAll stored (data.length+7) [kFooter1,kFooter2] := by
    have last : 2 + 1 + 1 + 2 + data.length = data.length + 6 := by omega
    rw [frameBody,storeAll_append,storeAll_append,storeAll_append]
    simp only [List.length_append,toLe_length,List.length_cons,List.length_nil,Option.bind_assoc]
    simp only [fillBuffer,kHeaderBytes,kIdBytes,kInstructionBytes,kLengthBytes,kChecksumBytes,kFooterBytes,last]
    rfl
  rw [filled,storeAll_eq _ _ _ (Nat.zero_le _),bodyLength,sized]
  rw [List.take_zero,List.nil_append,Nat.zero_add]
  by_cases room : data.length + 6 ≤ kBufferBytes
  · generalize body : frameBody id inst data = opened at bodyLength
    have held : (opened ++ buffer.drop (data.length+6)).length = kBufferBytes := by
      rw [List.length_append,bodyLength,List.length_drop,sized]
      omega
    have front : (opened ++ buffer.drop (data.length+6)).take (data.length+6) = opened := by
      rw [← bodyLength]
      exact List.take_left
    have closed := storeAll_append (opened ++ buffer.drop (data.length+6)) (data.length+6) [checksum (opened.drop 2)]
      [kFooter1,kFooter2]
    have last : (data.length + 9 ≤ kBufferBytes) = (data.length ≤ 251) := propext (by unfold kBufferBytes; omega)
    rw [if_pos room,Option.bind_some,front]
    refine closed.symm.trans ((storeAll_eq _ _ _ (by rw [held]; exact room)).trans ?_)
    rw [front,held,List.length_append,List.length_singleton,List.length_cons,List.length_singleton]
    have tail : (opened ++ buffer.drop (data.length+6)).drop (data.length+9) = buffer.drop (data.length+9) := by
      rw [List.drop_append,bodyLength,List.drop_of_length_le (by omega),List.drop_drop,List.nil_append]
      congr 1
      omega
    simp only [Nat.add_assoc,Nat.reduceAdd,last,frame,body,List.append_assoc,tail]
  · rw [if_neg room,if_neg (by unfold kBufferBytes at room; omega)]
    rfl

theorem fillBuffer_isSome (n : ExxxNetwork) (id inst : UInt8) (data : List UInt8) :
    (fillBuffer n.buffer id inst data).isSome ↔ data.length ≤ 251 := by
  rw [fillBuffer_eq n.sized]
  split <;> simp [*]

end ExxxNetwork
end HsrbDrivers.Servomotor

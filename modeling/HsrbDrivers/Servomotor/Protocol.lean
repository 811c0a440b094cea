import HsrbDrivers.Servomotor.Network

namespace HsrbDrivers.Servomotor
open Bytes Storage

def kInstructionPing : UInt8 := 0x01
def kInstructionReadData : UInt8 := 0x02
def kInstructionWriteData : UInt8 := 0x03
def kInstructionWriteEeprom : UInt8 := 0x09
def kInstructionAvagoAvePos : UInt8 := 0x0a
def kInstructionReadHash : UInt8 := 0x0c
def kInstructionSyncParam : UInt8 := 0x0d
def kInstructionReset : UInt8 := 0x10
def kInstructionSyncWrite : UInt8 := 0x83
def kBroadcastId : UInt8 := 0xFE

def kMaxPacketBuffer : Nat := 0xFFFF

structure Request where
  id : UInt8
  inst : UInt8
  data : List UInt8

-- The storage `send_buffer_` has reserved; its size is what each operation resizes it to.
structure ExxxProtocol where
  sendBuffer : List UInt8
  reserved : sendBuffer.length = kMaxPacketBuffer

namespace ExxxProtocol

def initial : ExxxProtocol := ⟨List.replicate kMaxPacketBuffer 0,List.length_replicate⟩

-- Growing beyond the reserved storage allocates more of it.
def resize (storage : List UInt8) (size : Nat) : List UInt8 := storage ++ List.replicate (size - storage.length) 0

def readBlock (p : ExxxProtocol) (id : UInt8) (addr size : Nat) : Option Request := do
  let storage ← storeAll (resize p.sendBuffer 4) 0 (toLe 2 addr)
  let storage ← storeAll storage 2 (toLe 2 size)
  return ⟨id,kInstructionReadData,storage.take 4⟩

-- The length is a `uint8_t`, but all the data is copied.
def writeBlock (p : ExxxProtocol) (id : UInt8) (addr : Nat) (data : List UInt8) : Option Request := do
  let length := data.length % 2^8
  let storage ← storeAll (resize p.sendBuffer (length+2)) 0 (toLe 2 addr)
  let storage ← storeAll storage 2 data
  return ⟨id,kInstructionWriteData,storage.take (length+2)⟩

def storeNodes (dataLength : Nat) (storage : List UInt8) (i : Nat) : List (UInt8 × List UInt8) → Option (List UInt8)
  | [] => some storage
  | (id,value) :: rest => do
    let storage ← storeAll storage (4 + i*(dataLength+1)) [id]
    let storage ← storeAll storage (4 + i*(dataLength+1) + 1) value
    storeNodes dataLength storage (i+1) rest

-- The number of nodes is a `uint8_t`, and the size handed over a `uint16_t`.
def syncWriteData (p : ExxxProtocol) (width : Nat) (ids : List UInt8) (addr : Nat) (data : List (Vector UInt8 width)) :
    Option (Except ErrorCode Request) :=
  if ids.length ≠ data.length then some (.error .invalidArgument) else do
  let dataLength := width % 2^16
  let numNodes := ids.length % 2^8
  let size := (dataLength+1) * numNodes + 4
  let storage ← storeAll (resize p.sendBuffer size) 0 (toLe 2 addr)
  let storage ← storeAll storage 2 (toLe 2 dataLength)
  let storage ← storeNodes dataLength storage 0 (ids.zip (data.map Vector.toList))
  return .ok ⟨kBroadcastId,kInstructionSyncWrite,storage.take (size % 2^16)⟩

def bare (inst id : UInt8) : Request := ⟨id,inst,[]⟩

def ping : UInt8 → Request := bare kInstructionPing
def syncParam : UInt8 → Request := bare kInstructionSyncParam
def avagoAvePos : UInt8 → Request := bare kInstructionAvagoAvePos
def writeEeprom : UInt8 → Request := bare kInstructionWriteEeprom
def readHash : UInt8 → Request := bare kInstructionReadHash

def reset (id : UInt8) : Request := ⟨id,kInstructionReset,[0x52,0x45,0x53,0x45,0x54,0x00,0xFF,0xAA,0x55]⟩

end ExxxProtocol

inductive Operation where
  | readBlock (id : UInt8) (addr size : Nat)
  | writeBlock (id : UInt8) (addr : Nat) (data : List UInt8)
  | syncWriteData (width : Nat) (ids : List UInt8) (addr : Nat) (data : List (Vector UInt8 width))
  | ping (id : UInt8)
  | syncParam (id : UInt8)
  | avagoAvePos (id : UInt8)
  | writeEeprom (id : UInt8)
  | readHash (id : UInt8)
  | reset (id : UInt8)
  | send (request : Request)

namespace Operation

def handed (p : ExxxProtocol) : Operation → Option Request
  | readBlock id addr size => p.readBlock id addr size
  | writeBlock id addr data => p.writeBlock id addr data
  | syncWriteData width ids addr data => (p.syncWriteData width ids addr data).bind Except.toOption
  | ping id => some (ExxxProtocol.ping id)
  | syncParam id => some (ExxxProtocol.syncParam id)
  | avagoAvePos id => some (ExxxProtocol.avagoAvePos id)
  | writeEeprom id => some (ExxxProtocol.writeEeprom id)
  | readHash id => some (ExxxProtocol.readHash id)
  | reset id => some (ExxxProtocol.reset id)
  | send request => some request

def dataBytes : Operation → Nat
  | readBlock _ _ _ => 4
  | writeBlock _ _ data => data.length % 2^8 + 2
  | syncWriteData width ids _ _ => ((width % 2^16 + 1) * (ids.length % 2^8) + 4) % 2^16
  | reset _ => 9
  | send request => request.data.length
  | _ => 0

end Operation

namespace ExxxProtocol

theorem resize_length (storage : List UInt8) (size : Nat) : size ≤ (resize storage size).length := by
  simp only [resize,List.length_append,List.length_replicate]
  omega

theorem storeNodes_length {dataLength i : Nat} {storage later : List UInt8} {nodes : List (UInt8 × List UInt8)}
    (stored : storeNodes dataLength storage i nodes = some later) : later.length = storage.length := by
  induction nodes generalizing storage i with
  | nil => cases stored; rfl
  | cons node nodes ih =>
      simp only [storeNodes,Option.bind_eq_bind,Option.bind_eq_some_iff] at stored
      obtain ⟨withId,storedId,withValue,storedValue,rest⟩ := stored
      exact (ih rest).trans ((storeAll_length storedValue).trans (storeAll_length storedId))

theorem readBlock_length {p : ExxxProtocol} {id : UInt8} {addr size : Nat} {request : Request}
    (read : p.readBlock id addr size = some request) : request.data.length = 4 := by
  simp only [readBlock,Option.bind_eq_bind,Option.bind_eq_some_iff] at read
  obtain ⟨withAddr,storedAddr,withSize,storedSize,same⟩ := read
  cases same
  have room := resize_length p.sendBuffer 4
  rw [← storeAll_length storedAddr,← storeAll_length storedSize] at room
  exact List.length_take_of_le room

theorem writeBlock_length {p : ExxxProtocol} {id : UInt8} {addr : Nat} {data : List UInt8} {request : Request}
    (written : p.writeBlock id addr data = some request) : request.data.length = data.length % 2^8 + 2 := by
  simp only [writeBlock,Option.bind_eq_bind,Option.bind_eq_some_iff] at written
  obtain ⟨withAddr,storedAddr,withData,storedData,same⟩ := written
  cases same
  have room := resize_length p.sendBuffer (data.length % 2^8 + 2)
  rw [← storeAll_length storedAddr,← storeAll_length storedData] at room
  exact List.length_take_of_le room

theorem writeBlock_hands (p : ExxxProtocol) (id : UInt8) (addr : Nat) {data : List UInt8}
    (fits : 2 + data.length ≤ kMaxPacketBuffer) : ∃ request, p.writeBlock id addr data = some request := by
  have room : kMaxPacketBuffer ≤ (resize p.sendBuffer (data.length % 2^8 + 2)).length := by
    simp only [resize,List.length_append,p.reserved]
    omega
  have withAddr := storeAll_eq (resize p.sendBuffer (data.length % 2^8 + 2)) 0 (toLe 2 addr) (Nat.zero_le _)
  rw [toLe_length,if_pos (by omega)] at withAddr
  have kept := storeAll_length withAddr
  have withData := storeAll_eq _ 2 data (Nat.le_trans (by omega) (Nat.le_of_eq kept.symm))
  rw [kept,if_pos (by omega)] at withData
  simp only [writeBlock,withAddr,withData,Option.bind_eq_bind,Option.bind_some]
  exact ⟨_,rfl⟩

theorem syncWriteData_length {p : ExxxProtocol} {width addr : Nat} {ids : List UInt8} {data : List (Vector UInt8 width)}
    {request : Request} (written : p.syncWriteData width ids addr data = some (.ok request)) :
    request.data.length = ((width % 2^16 + 1) * (ids.length % 2^8) + 4) % 2^16 := by
  unfold syncWriteData at written
  split at written
  · cases written
  · simp only [Option.bind_eq_bind,Option.bind_eq_some_iff] at written
    obtain ⟨withAddr,storedAddr,withLength,storedLength,withNodes,storedNodes,same⟩ := written
    cases same
    have room := resize_length p.sendBuffer ((width % 2^16 + 1) * (ids.length % 2^8) + 4)
    rw [← storeAll_length storedAddr,← storeAll_length storedLength,← storeNodes_length storedNodes] at room
    exact List.length_take_of_le (Nat.le_trans (Nat.mod_le _ _) room)

end ExxxProtocol

namespace Operation

theorem handed_length {p : ExxxProtocol} {op : Operation} {request : Request} (handed : op.handed p = some request) :
    request.data.length = op.dataBytes := by
  cases op with
  | readBlock id addr size => exact ExxxProtocol.readBlock_length handed
  | writeBlock id addr data => exact ExxxProtocol.writeBlock_length handed
  | syncWriteData width ids addr data =>
      obtain ⟨answer,written,passed⟩ := Option.bind_eq_some_iff.mp handed
      cases answer with
      | error code => cases passed
      | ok sent =>
          cases passed
          exact ExxxProtocol.syncWriteData_length written
  | send request => cases handed; rfl
  | reset id | ping id | syncParam id | avagoAvePos id | writeEeprom id | readHash id => cases handed; rfl

def StaysInBuffer (n : ExxxNetwork) (p : ExxxProtocol) (op : Operation) : Prop :=
  ∀ request, op.handed p = some request → (ExxxNetwork.fillBuffer n.buffer request.id request.inst request.data).isSome

-- Nine bytes of the buffer go into framing: what is handed over fits exactly when it is
-- no longer than the rest.
theorem send_in_buffer_iff (n : ExxxNetwork) (p : ExxxProtocol) (op : Operation) (reaches : (op.handed p).isSome) :
    op.StaysInBuffer n p ↔ op.dataBytes ≤ 251 := by
  obtain ⟨request,handed⟩ := Option.isSome_iff_exists.mp reaches
  rw [← handed_length handed,← n.fillBuffer_isSome request.id request.inst]
  constructor
  · intro stays
    exact stays request handed
  · intro filled other same
    cases handed.symm.trans same
    exact filled

theorem send_in_buffer_reset :
    ((reset 1).handed ExxxProtocol.initial).isSome ∧ (reset 1).StaysInBuffer ExxxNetwork.initial ExxxProtocol.initial :=
  ⟨rfl,(send_in_buffer_iff ExxxNetwork.initial ExxxProtocol.initial (reset 1) rfl).mpr (by decide)⟩

theorem send_past_buffer :
    ¬ (writeBlock 1 0 (List.replicate 250 0)).StaysInBuffer ExxxNetwork.initial ExxxProtocol.initial := by
  intro stays
  have fits : 2 + (List.replicate 250 (0 : UInt8)).length ≤ kMaxPacketBuffer := by
    rw [List.length_replicate,kMaxPacketBuffer]
    decide
  obtain ⟨request,handed⟩ := ExxxProtocol.initial.writeBlock_hands 1 0 fits
  have long := (ExxxNetwork.initial.fillBuffer_isSome request.id request.inst request.data).mp (stays request handed)
  rw [ExxxProtocol.writeBlock_length handed,List.length_replicate] at long
  exact absurd long (by decide)

end Operation
end HsrbDrivers.Servomotor

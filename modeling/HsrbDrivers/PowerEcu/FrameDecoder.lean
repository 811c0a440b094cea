import HsrbDrivers.PowerEcu.ElementDecoder

namespace HsrbDrivers.PowerEcu
open CText

inductive Param where
  | bool (value : Bool)
  | integer (type : IntType) (value : Int)
  | text (value : List UInt8)
  | real (value : Float)
  | reals (values : List Float)

-- The data decoders of one frame decoder share a memory; each knows the name and
-- size of its packet, its elements in order and its post-processing.
structure DataDecoder (σ : Type) where
  packetName : List UInt8
  packetSize : Nat
  elements : List (ElementDecoder σ)
  update : σ → Bool × σ
  parameterMap : List (String × (σ → Param))

namespace DataDecoder

def decodeElements : List (ElementDecoder σ) → List UInt8 → σ → Bool × σ
  | [],_,memory => (true,memory)
  | decoder :: rest,current,memory =>
    match current.dropWhile (· ≠ 44) with
    | [] => (false,memory)
    | _ :: next => match decoder.decode (current.takeWhile (· ≠ 44)) memory with
      | (false,memory) => (false,memory)
      | (true,memory) => decodeElements rest next memory

def decode (d : DataDecoder σ) (data : List UInt8) (memory : σ) : ErrorCode × σ :=
  match decodeElements d.elements data memory with
  | (false,memory) => (.protocolError,memory)
  | (true,memory) => match d.update memory with
    | (false,memory) => (.protocolError,memory)
    | (true,memory) => (.success,memory)

def getParamPtr (d : DataDecoder σ) (name : String) : Option (σ → Param) := d.parameterMap.lookup name

end DataDecoder

structure FrameDecoder (σ : Type) where
  decoders : List (DataDecoder σ)
  distinct : (decoders.map DataDecoder.packetName).Nodup

-- One call of `Decode`: the code, what is left from `encoded_iterator` on, the
-- memory, and the data decoder that was called with the bytes it was given.
structure Decoded (σ : Type) where
  code : ErrorCode
  encoded : List UInt8
  memory : σ
  invoked : Option (List UInt8 × List UInt8)

inductive HeaderRead where
  | broken (current : List UInt8)
  | complete (name : List UInt8) (packetSize : Nat) (current : List UInt8)

namespace FrameDecoder

def empty : FrameDecoder σ := ⟨[],List.nodup_nil⟩

def find (fd : FrameDecoder σ) (name : List UInt8) : Option (DataDecoder σ) :=
  fd.decoders.find? (fun d => d.packetName = name)

def registerDataDecoder (fd : FrameDecoder σ) (decoder : DataDecoder σ) : ErrorCode × FrameDecoder σ :=
  if registered : decoder.packetName ∈ fd.decoders.map DataDecoder.packetName then (.invalidArgument,fd) else
    (.success,⟨decoder :: fd.decoders,List.nodup_cons.mpr ⟨registered,fd.distinct⟩⟩)

def getParamPtr (fd : FrameDecoder σ) (name : String) : Option (σ → Param) :=
  fd.decoders.findSome? (fun d => d.getParamPtr name)

-- Reading past the end of the buffer has no defined result.
def skipString : List UInt8 → List UInt8 → Except Stop (Bool × List UInt8)
  | [],it => .ok (true,it)
  | _ :: _,[] => .error .fault
  | c :: skip,b :: it => do
    let (isEqual,it) ← skipString skip it
    return (b = c && isEqual,it)

def getString (size : Nat) (start : List UInt8) : Option (List UInt8 × List UInt8) :=
  if size > start.length then none else some (start.take size,start.drop size)

def assertString : Option (List UInt8 × List UInt8) → Except Stop (List UInt8 × List UInt8)
  | none => .error .exit
  | some result => .ok result

-- `int` to `size_t`: a negative size becomes a huge one.
def sizeOfField (digits : List UInt8) : Nat := (atoi digits % 2^64).toNat

def readHeader (current : List UInt8) : Except Stop HeaderRead := do
  let (leading,current) ← skipString [69,44] current
  if !leading then return .broken current else
  let (name,current) ← assertString (getString 5 current)
  let (comma,current) ← skipString [44] current
  if !comma then return .broken current else
  let (digits,current) ← assertString (getString 3 current)
  let packetSize := sizeOfField digits
  if packetSize < 11 then return .broken current else
  let (comma,current) ← skipString [44] current
  if !comma then return .broken current else
  return .complete name packetSize current

def decodeFrame (fd : FrameDecoder σ) (last name : List UInt8) (packetSize : Nat) (current : List UInt8) (memory : σ) :
    Except Stop (Decoded σ) := do
  let frameSize := kPacketHeaderLength + packetSize
  let checkSumCalc := calculateCrc32 (last.take (kPacketHeaderLength + packetSize - kPacketFooterLength))
  let (digits,_) ← assertString (getString (kPacketFooterLength - 3) (current.drop (packetSize - kPacketFooterLength + 1)))
  let checkSumRes := BitVec.ofInt 32 (strtol 16 digits)
  if checkSumCalc ≠ checkSumRes then return ⟨.protocolError,last.drop frameSize,memory,none⟩ else
  match fd.find name with
  | none => return ⟨.protocolError,last.drop frameSize,memory,none⟩
  | some decoder =>
    if decoder.packetSize ≠ packetSize then return ⟨.protocolError,last.drop frameSize,memory,none⟩ else
    let data := current.take (packetSize - kPacketFooterLength)
    let (result,memory) := decoder.decode data memory
    return ⟨result,last.drop frameSize,memory,some (name,data)⟩

-- An iterator is the part of the buffer from it to the end.
def decode (fd : FrameDecoder σ) (start : List UInt8) (memory : σ) : Except Stop (Decoded σ) := do
  let current := start.dropWhile (· ≠ 69)
  if current.isEmpty then return ⟨.resultOutOfRange,[],memory,none⟩ else
  let last := current
  if uint32 current.length < kPacketHeaderLength then return ⟨.resultOutOfRange,last,memory,none⟩ else
  match ← readHeader current with
  | .broken current => return ⟨.protocolError,current,memory,none⟩
  | .complete name packetSize current =>
    if uint32 current.length < packetSize then return ⟨.resultOutOfRange,last,memory,none⟩ else
    decodeFrame fd last name packetSize current memory

end FrameDecoder
end HsrbDrivers.PowerEcu

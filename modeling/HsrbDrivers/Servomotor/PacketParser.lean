import HsrbDrivers.Library.Bytes

namespace HsrbDrivers.Servomotor
open Bytes

-- `Checksum` adds up in `size_t` and complements the low byte.
def checksum (range : List UInt8) : UInt8 := ~~~ UInt8.ofNat (range.foldl (fun sum b => (sum + b.toNat) % 2^64) 0)

inductive Status where
  | error
  | more
  | done
deriving DecidableEq,Repr

inductive State where
  | header1
  | header2
  | nodeId
  | length1
  | length2
  | errorStatus1
  | errorStatus2
  | data
  | checksum
  | parserError
deriving DecidableEq,Repr

-- The status `kContinue` is `more` here.
structure ExxxPacketParser where
  state : State
  packet : List UInt8
  validIds : List UInt8
deriving DecidableEq,Repr

namespace ExxxPacketParser

def initial : ExxxPacketParser := ⟨.header1,[],[]⟩

def reset (p : ExxxPacketParser) : ExxxPacketParser := {p with state := .header1,packet := []}

def addId (p : ExxxPacketParser) (id : UInt8) : ExxxPacketParser := {p with validIds := p.validIds ++ [id]}

def clearIds (p : ExxxPacketParser) : ExxxPacketParser := {p with validIds := []}

-- `*reinterpret_cast<uint16_t*>(&packet_[3])` on a little-endian machine.
def lengthField (packet : List UInt8) : Nat := fromLe ((packet.drop 3).take 2)

def push (p : ExxxPacketParser) (input : UInt8) (state : State) : ExxxPacketParser :=
  {p with state := state,packet := p.packet ++ [input]}

def tryParse (p : ExxxPacketParser) (input : UInt8) : Status × ExxxPacketParser :=
  match p.state with
  | .header1 => if input = 0xAA then (.more,p.push input .header2) else (.error,p)
  | .header2 => if input = 0x55 then (.more,p.push input .nodeId) else (.error,{p with state := .parserError})
  | .nodeId => if input ∈ p.validIds then (.more,p.push input .length1) else (.error,{p with state := .parserError})
  | .length1 => (.more,p.push input .length2)
  | .length2 =>
    let q := p.push input .errorStatus1
    if lengthField q.packet < 3 then (.error,{q with state := .parserError}) else (.more,q)
  | .errorStatus1 => (.more,p.push input .errorStatus2)
  | .errorStatus2 =>
    if lengthField p.packet = 3 then (.more,p.push input .checksum) else (.more,p.push input .data)
  | .data =>
    let q := p.push input .data
    if q.packet.length ≥ lengthField p.packet + 4 then (.more,{q with state := .checksum}) else (.more,q)
  | .checksum => if input = Servomotor.checksum (p.packet.drop 2) then (.done,p.push input .checksum) else (.error,p)
  | .parserError => (.error,p)

-- The assertions of `TryParse` on the bytes collected, and that the length field is
-- among them where it is read.
def Asserts (p : ExxxPacketParser) : Prop :=
  match p.state with
  | .header1 => p.packet = []
  | .header2 => p.packet.length = 1
  | .nodeId => p.packet.length = 2
  | .length1 => p.packet.length = 3
  | .length2 => p.packet.length = 4
  | .errorStatus1 => p.packet.length = 5
  | .errorStatus2 => p.packet.length = 6
  | .data => 5 ≤ p.packet.length
  | .checksum => 5 ≤ p.packet.length
  | .parserError => True

def feed (p : ExxxPacketParser) : List UInt8 → List Status × ExxxPacketParser
  | [] => ([],p)
  | input :: rest =>
    let (status,next) := p.tryParse input
    let (statuses,last) := feed next rest
    (status :: statuses,last)

end ExxxPacketParser

theorem checksum_eq (range : List UInt8) : checksum range = ~~~ range.sum := by
  rw [checksum,ofNat_sum]
  exact congrArg _ (zero_add _)

theorem checksum_closed (range : List UInt8) : checksum (range ++ [checksum range]) = 0 := by
  rw [checksum_eq,checksum_eq,List.sum_append,List.sum_singleton]
  exact complement_absorbs range.sum

theorem checksum_zero (range : List UInt8) : checksum (range ++ [0]) = checksum range := by
  rw [checksum_eq,checksum_eq,List.sum_append,List.sum_singleton,add_zero]

namespace ExxxPacketParser

@[simp] theorem feed_nil (p : ExxxPacketParser) : p.feed [] = ([],p) := rfl

theorem feed_cons (p : ExxxPacketParser) (input : UInt8) (rest : List UInt8) :
    p.feed (input :: rest) = ((p.tryParse input).1 :: ((p.tryParse input).2.feed rest).1,((p.tryParse input).2.feed rest).2) := rfl

theorem tryParse_parts (p : ExxxPacketParser) (input : UInt8) :
    (p.tryParse input).2.validIds = p.validIds ∧
      ((p.tryParse input).1 ≠ .error → (p.tryParse input).2.packet = p.packet ++ [input]) := by
  rcases p with ⟨state,packet,ids⟩
  cases state <;> dsimp only [tryParse]
  case length1 | errorStatus1 => exact ⟨rfl,fun _ => rfl⟩
  case parserError => exact ⟨rfl,fun fine => absurd rfl fine⟩
  case errorStatus2 | data => split <;> exact ⟨rfl,fun _ => rfl⟩
  case header1 | header2 | nodeId | checksum =>
    split
    · exact ⟨rfl,fun _ => rfl⟩
    · exact ⟨rfl,fun fine => absurd rfl fine⟩
  case length2 =>
    split
    · exact ⟨rfl,fun fine => absurd rfl fine⟩
    · exact ⟨rfl,fun _ => rfl⟩

theorem tryParse_asserts {p : ExxxPacketParser} (asserts : p.Asserts) (input : UInt8) : (p.tryParse input).2.Asserts := by
  rcases p with ⟨state,packet,ids⟩
  have grown : (packet ++ [input]).length = packet.length + 1 := List.length_append
  have counted : ∀ n, packet.length = n → (packet ++ [input]).length = n + 1 := fun n held => grown.trans (congrArg _ held)
  have kept : 5 ≤ packet.length → 5 ≤ (packet ++ [input]).length := fun held => by omega
  cases state <;> dsimp only [tryParse]
  case header1 =>
    split
    · exact counted 0 (congrArg List.length (asserts : packet = []))
    · exact asserts
  case header2 =>
    split
    · exact counted 1 asserts
    · trivial
  case nodeId =>
    split
    · exact counted 2 asserts
    · trivial
  case length1 => exact counted 3 asserts
  case length2 =>
    split
    · trivial
    · exact counted 4 asserts
  case errorStatus1 => exact counted 5 asserts
  case errorStatus2 => split <;> exact Nat.le_trans (by decide) (Nat.le_of_eq (counted 6 asserts).symm)
  case data => split <;> exact kept asserts
  case checksum =>
    split
    · exact kept asserts
    · exact asserts
  case parserError => trivial

theorem feed_asserts {p : ExxxPacketParser} (asserts : p.Asserts) (bytes : List UInt8) : (p.feed bytes).2.Asserts := by
  induction bytes generalizing p with
  | nil => exact asserts
  | cons input rest ih => exact ih (tryParse_asserts asserts input)

theorem feed_append (p : ExxxPacketParser) (one two : List UInt8) :
    p.feed (one ++ two) = ((p.feed one).1 ++ ((p.feed one).2.feed two).1,((p.feed one).2.feed two).2) := by
  induction one generalizing p with
  | nil => rfl
  | cons input rest ih => rw [List.cons_append,feed_cons,feed_cons,ih]; rfl

theorem feed_parserError {p : ExxxPacketParser} (failed : p.state = .parserError) (bytes : List UInt8) :
    p.feed bytes = (List.replicate bytes.length .error,p) := by
  induction bytes with
  | nil => rfl
  | cons input rest ih =>
      have refused : p.tryParse input = (.error,p) := by rw [tryParse,failed]
      rw [feed_cons,refused]
      dsimp only
      rw [ih]
      rfl

end ExxxPacketParser
end HsrbDrivers.Servomotor

import HsrbDrivers.Library.Bytes
import HsrbDrivers.Library.Placement
import HsrbDrivers.Library.RunningMaximum

namespace HsrbDrivers.ImuSensor
open Bytes

def kGravitationalAcceleration : Float := 9.80665

def k30BitScale : Float := 1.0 / Float.ofNat (1 <<< 30)
def k16BitScale : Float := 1.0 / Float.ofNat (1 <<< 16)
def kPacketSize : Nat := 48

def degree : Float := 0.017453292519943295

def g2acc (gravity : Float) : Float := kGravitationalAcceleration * gravity

def deg2rad (degrees : Float) : Float := degree * degrees

def sensorPacketToUInt32 (p1 p2 p3 p4 : UInt8) : Nat := fromLe [p4,p3,p2,p1]

def sensorPacketToDouble (p1 p2 p3 p4 : UInt8) (scale : Float) : Float :=
  Float.ofInt (Int.bmod (fromLe [p4,p3,p2,p1]) (2^32)) * scale

structure MPU9150State where
  orientation : Vector Float 4
  angularVelocity : Vector Float 3
  linearAcceleration : Vector Float 3
deriving DecidableEq

-- What one packet says. Its quaternion begins with W, which the array has last.
def sample (packet : List UInt8) : MPU9150State :=
  let value (i : Nat) := sensorPacketToDouble (packet.getD i 0) (packet.getD (i+1) 0) (packet.getD (i+2) 0) (packet.getD (i+3) 0)
  {orientation := #v[value 7 k30BitScale,value 11 k30BitScale,value 15 k30BitScale,value 3 k30BitScale]
   angularVelocity := #v[deg2rad (value 19 k16BitScale),deg2rad (value 23 k16BitScale),deg2rad (value 27 k16BitScale)]
   linearAcceleration := #v[g2acc (value 31 k16BitScale),g2acc (value 35 k16BitScale),g2acc (value 39 k16BitScale)]}

def packetToSensorState (packet : List UInt8) (s : MPU9150State) : MPU9150State :=
  if packet.length ≠ kPacketSize then s else sample packet

structure MPU9150PacketConverter where
  lastTimestamp : Nat
  lastPacketNum : Nat
deriving DecidableEq,Repr

namespace MPU9150PacketConverter

def initial : MPU9150PacketConverter := ⟨0,0⟩

-- `packets[offset + i * kPacketSize]`, the index being a `uint32_t`.
def byteAt (packets : List UInt8) (offset i : Nat) : Option UInt8 := packets[(offset + i * kPacketSize) % 2^32]?

def timestampAt (packets : List UInt8) (i : Nat) : Option Nat := do
  let p1 ← byteAt packets 43 i
  let p2 ← byteAt packets 44 i
  let p3 ← byteAt packets 45 i
  let p4 ← byteAt packets 46 i
  return sensorPacketToUInt32 p1 p2 p3 p4

def compare (c : MPU9150PacketConverter) (i currentTimestamp : Nat) : MPU9150PacketConverter :=
  if c.lastTimestamp < currentTimestamp then ⟨currentTimestamp,i⟩ else c

def scan (c : MPU9150PacketConverter) (packets : List UInt8) : Option MPU9150PacketConverter :=
  (List.range (packets.length / kPacketSize)).foldlM (fun c i => (timestampAt packets i).map (c.compare i)) c

-- `none` when bytes outside of the vector are read or copied, and when the 32-bit loop
-- variable cannot get to the number of packets.
def toSensorState (c : MPU9150PacketConverter) (packets : List UInt8) (s : MPU9150State) :
    Option (MPU9150PacketConverter × MPU9150State) :=
  if packets.length % kPacketSize ≠ 0 then some (c,s) else
  if 2^32 ≤ packets.length / kPacketSize then none else
  (c.scan packets).bind fun c =>
    let start := c.lastPacketNum * kPacketSize % 2^32
    let stop := (c.lastPacketNum * kPacketSize + kPacketSize) % 2^32
    if start ≤ stop ∧ stop ≤ packets.length then
      some (c,packetToSensorState ((packets.take stop).drop start) s)
    else none

theorem scan_index {c c' : MPU9150PacketConverter} {packets : List UInt8} (scanned : c.scan packets = some c') :
    c'.lastPacketNum = c.lastPacketNum ∨ c'.lastPacketNum < packets.length / kPacketSize := by
  unfold scan at scanned
  generalize packets.length / kPacketSize = n at scanned
  induction n generalizing c' with
  | zero => exact .inl (congrArg lastPacketNum (Option.some.inj scanned).symm)
  | succ n ih =>
      rw [List.range_succ,List.foldlM_append] at scanned
      obtain ⟨middle,before,last⟩ := Option.bind_eq_some_iff.mp scanned
      obtain ⟨done,looked,ended⟩ := Option.bind_eq_some_iff.mp last
      obtain ⟨current,_,rfl⟩ := Option.map_eq_some_iff.mp looked
      cases ended
      have bounded := ih before
      unfold compare
      split
      · exact .inr (Nat.lt_succ_self n)
      · rcases bounded with same | inside
        · exact .inl same
        · exact .inr (Nat.lt_succ_of_lt inside)

theorem toSensorState_index {c c' : MPU9150PacketConverter} {packets : List UInt8} {s s' : MPU9150State}
    (returned : c.toSensorState packets s = some (c',s')) :
    c'.lastPacketNum = c.lastPacketNum ∨ c'.lastPacketNum < packets.length / kPacketSize := by
  unfold toSensorState at returned
  split at returned
  · cases returned
    exact .inl rfl
  · split at returned
    · cases returned
    · obtain ⟨next,scanned,rest⟩ := Option.bind_eq_some_iff.mp returned
      dsimp only at rest
      split at rest
      · cases rest
        exact scan_index scanned
      · cases rest

end MPU9150PacketConverter

-- A packet of the size of the streaming packets.
structure StreamingPacket where
  bytes : List UInt8
  whole : bytes.length = kPacketSize

namespace StreamingPacket
open Placement

def timestamp (p : StreamingPacket) : Nat :=
  sensorPacketToUInt32 (p.bytes.getD 43 0) (p.bytes.getD 44 0) (p.bytes.getD 45 0) (p.bytes.getD 46 0)

def joined (batch : List StreamingPacket) : List UInt8 := (batch.map bytes).flatten

theorem uniform (batch : List StreamingPacket) : ∀ block ∈ batch.map bytes, block.length = kPacketSize := by
  intro block member
  obtain ⟨p,_,rfl⟩ := List.mem_map.mp member
  exact p.whole

theorem joined_length (batch : List StreamingPacket) : (joined batch).length = batch.length * kPacketSize := by
  unfold joined
  rw [flatten_length_uniform (uniform batch),List.length_map]

theorem joined_block {batch : List StreamingPacket} {k : Nat} {p : StreamingPacket} (present : batch[k]? = some p) :
    ((joined batch).drop (k * kPacketSize)).take kPacketSize = p.bytes := by
  have there : (batch.map bytes)[k]? = some p.bytes := by rw [List.getElem?_map,present,Option.map_some]
  exact flatten_block (uniform batch) there

theorem joined_slice {batch : List StreamingPacket} {k : Nat} {p : StreamingPacket} (present : batch[k]? = some p) :
    ((joined batch).take (k * kPacketSize + kPacketSize)).drop (k * kPacketSize) = p.bytes := by
  rw [List.drop_take,Nat.add_sub_cancel_left,joined_block present]

theorem joined_get {batch : List StreamingPacket} {k : Nat} {p : StreamingPacket} (present : batch[k]? = some p)
    {offset : Nat} (within : offset < kPacketSize) : (joined batch)[offset + k * kPacketSize]? = some (p.bytes.getD offset 0) := by
  have held : offset < p.bytes.length := p.whole ▸ within
  have read : (joined batch)[offset + k * kPacketSize]? = p.bytes[offset]? := by
    rw [← joined_block present,List.getElem?_take_of_lt within,List.getElem?_drop,Nat.add_comm]
  rw [read,List.getD_eq_getElem?_getD,List.getElem?_eq_getElem held]
  rfl

end StreamingPacket

namespace MPU9150PacketConverter
open StreamingPacket RunningMaximum

def held (c : MPU9150PacketConverter) : RunningMaximum Nat := ⟨c.lastTimestamp,c.lastPacketNum⟩

def latest (c : MPU9150PacketConverter) (batch : List StreamingPacket) : MPU9150PacketConverter :=
  ⟨(c.held.noteAll (batch.map timestamp)).value,(c.held.noteAll (batch.map timestamp)).index⟩

theorem latest_inside {c : MPU9150PacketConverter} {batch : List StreamingPacket}
    (some : (∃ p ∈ batch, c.lastTimestamp < p.timestamp) ∨ c.lastPacketNum < batch.length) :
    (c.latest batch).lastPacketNum < batch.length := by
  rcases noteAll_parts c.held (batch.map timestamp) with ⟨bounded,same⟩ | ⟨_,present,_⟩
  · have index : (c.latest batch).lastPacketNum = c.lastPacketNum := congrArg RunningMaximum.index same
    rw [index]
    refine some.resolve_left ?_
    rintro ⟨p,member,newer⟩
    exact Nat.not_lt.mpr (bounded _ (List.mem_map_of_mem member)) newer
  · exact List.length_map timestamp ▸ (List.getElem?_eq_some_iff.mp present).1

theorem compare_held (c : MPU9150PacketConverter) (i currentTimestamp : Nat) :
    (c.compare i currentTimestamp).held = c.held.note i currentTimestamp := by
  unfold compare note
  by_cases newer : c.lastTimestamp < currentTimestamp
  · rw [if_pos newer,if_pos (by exact newer)]
    rfl
  · rw [if_neg newer,if_neg (by exact newer)]

theorem timestampAt_joined {batch : List StreamingPacket} (short : (joined batch).length < 2^32) {k : Nat}
    {p : StreamingPacket} (present : batch[k]? = some p) : timestampAt (joined batch) k = some p.timestamp := by
  have inside := (List.getElem?_eq_some_iff.mp present).1
  have read : ∀ offset < kPacketSize, byteAt (joined batch) offset k = some (p.bytes.getD offset 0) := by
    intro offset within
    have unwrapped : (offset + k * kPacketSize) % 2^32 = offset + k * kPacketSize := by
      apply Nat.mod_eq_of_lt
      rw [joined_length] at short
      unfold kPacketSize at short within ⊢
      omega
    unfold byteAt
    rw [unwrapped]
    exact joined_get present within
  simp only [timestampAt,read 43 (by decide),read 44 (by decide),read 45 (by decide),read 46 (by decide)]
  rfl

theorem scan_joined (c : MPU9150PacketConverter) {batch : List StreamingPacket} (short : (joined batch).length < 2^32) :
    c.scan (joined batch) = some (c.latest batch) := by
  have counted : (joined batch).length / kPacketSize = batch.length := by
    rw [joined_length]
    exact Nat.mul_div_cancel _ (by decide)
  -- by induction on the number of packets looked at
  have looked : ∀ n ≤ batch.length,
      (List.range n).foldlM (fun c i => (timestampAt (joined batch) i).map (c.compare i)) c = some (c.latest (batch.take n)) := by
    intro n
    induction n with
    | zero => exact fun _ => rfl
    | succ n ih =>
        intro room
        have inside : n < batch.length := room
        have present := List.getElem?_eq_getElem inside
        have here := timestampAt_joined short present
        have grown : (batch.take (n+1)).map timestamp = (batch.take n).map timestamp ++ [batch[n].timestamp] := by
          rw [List.take_add_one,present,List.map_append]
          rfl
        have place : ((batch.take n).map timestamp).length = n := by
          rw [List.length_map,List.length_take]
          exact Nat.min_eq_left (Nat.le_of_lt inside)
        have next := compare_held (c.latest (batch.take n)) n batch[n].timestamp
        have moved := noteAll_append c.held ((batch.take n).map timestamp) batch[n].timestamp
        rw [place,← grown] at moved
        rw [List.range_succ,List.foldlM_append,ih (Nat.le_of_lt inside)]
        have joinedUp : ((c.latest (batch.take n)).compare n batch[n].timestamp).held = (c.latest (batch.take (n+1))).held :=
          next.trans moved.symm
        have same : (c.latest (batch.take n)).compare n batch[n].timestamp = c.latest (batch.take (n+1)) := by
          rcases e : (c.latest (batch.take n)).compare n batch[n].timestamp with ⟨value,index⟩
          rw [e] at joinedUp
          cases joinedUp
          rfl
        rw [← same]
        show (timestampAt (joined batch) n).map ((c.latest (batch.take n)).compare n) >>= some = _
        rw [here]
        rfl
  unfold scan
  rw [counted,looked _ (Nat.le_refl _),List.take_length]

theorem joined_whole (batch : List StreamingPacket) : ¬ (joined batch).length % kPacketSize ≠ 0 := by
  rw [joined_length,Nat.mul_mod_left]
  exact fun differs => differs rfl

theorem joined_counted {batch : List StreamingPacket} (short : (joined batch).length < 2^32) :
    ¬ 2^32 ≤ (joined batch).length / kPacketSize := by
  unfold kPacketSize
  omega

theorem toSensorState_present (c : MPU9150PacketConverter) {batch : List StreamingPacket} (short : (joined batch).length < 2^32)
    {p : StreamingPacket} (present : batch[(c.latest batch).lastPacketNum]? = some p) (s : MPU9150State) :
    c.toSensorState (joined batch) s = some (c.latest batch,sample p.bytes) := by
  have inside := (List.getElem?_eq_some_iff.mp present).1
  generalize index : (c.latest batch).lastPacketNum = k at present inside
  have room : k * kPacketSize + kPacketSize ≤ (joined batch).length := by
    rw [joined_length,← Nat.succ_mul]
    exact Nat.mul_le_mul_right _ inside
  have start : k * kPacketSize % 2^32 = k * kPacketSize := Nat.mod_eq_of_lt (by omega)
  have stop : (k * kPacketSize + kPacketSize) % 2^32 = k * kPacketSize + kPacketSize := Nat.mod_eq_of_lt (by omega)
  unfold toSensorState
  rw [if_neg (joined_whole batch),if_neg (joined_counted short),scan_joined c short,Option.bind_some]
  dsimp only
  rw [index,start,stop,if_pos ⟨Nat.le_add_right _ _,room⟩,joined_slice present,packetToSensorState,if_neg (not_not.mpr p.whole)]

theorem toSensorState_returned {c c' : MPU9150PacketConverter} {batch : List StreamingPacket} {s s' : MPU9150State}
    (short : (joined batch).length < 2^32) (returned : c.toSensorState (joined batch) s = some (c',s')) : c' = c.latest batch := by
  unfold toSensorState at returned
  rw [if_neg (joined_whole batch),if_neg (joined_counted short),scan_joined c short,Option.bind_some] at returned
  dsimp only at returned
  split at returned
  · exact congrArg Prod.fst (Option.some.inj returned).symm
  · cases returned

theorem toSensorState_stale {c : MPU9150PacketConverter} {batch : List StreamingPacket} (short : (joined batch).length < 2^32)
    (stale : ∀ p ∈ batch, p.timestamp ≤ c.lastTimestamp) (behind : batch.length ≤ c.lastPacketNum)
    (near : c.lastPacketNum * kPacketSize + kPacketSize < 2^32) (s : MPU9150State) : c.toSensorState (joined batch) s = none := by
  have kept : c.latest batch = c := by
    rcases noteAll_parts c.held (batch.map timestamp) with ⟨_,same⟩ | ⟨raised,present,_,_⟩
    · unfold latest
      rw [same]
      rfl
    · obtain ⟨p,member,equal⟩ := List.mem_map.mp (List.mem_of_getElem? present)
      exact absurd (equal ▸ stale p member) (Nat.not_le.mpr raised)
  have stop : (c.lastPacketNum * kPacketSize + kPacketSize) % 2^32 = c.lastPacketNum * kPacketSize + kPacketSize :=
    Nat.mod_eq_of_lt near
  have outside : (joined batch).length < c.lastPacketNum * kPacketSize + kPacketSize := by
    rw [joined_length,← Nat.succ_mul]
    exact Nat.mul_lt_mul_of_pos_right (Nat.lt_succ_of_le behind) (by decide)
  unfold toSensorState
  rw [if_neg (joined_whole batch),if_neg (joined_counted short),scan_joined c short,Option.bind_some,kept]
  dsimp only
  rw [stop]
  exact if_neg fun inside => Nat.not_le.mpr outside inside.2

-- What a call is to do: the index it uses points to the first packet with the greatest
-- timestamp of its batch, and that packet is the one converted.
def ConvertsLatest (c : MPU9150PacketConverter) (batch : List StreamingPacket) : Prop :=
  ∀ s, ∃ c' p, c.toSensorState (joined batch) s = some (c',sample p.bytes) ∧ c'.lastPacketNum < batch.length ∧
    batch[c'.lastPacketNum]? = some p ∧ IsFirstMaximum (batch.map timestamp) c'.lastPacketNum

-- A batch within the 32-bit addresses that has a packet newer than all before it, or whose
-- first newest packet stands where the last such one stood.
def Fresh (c : MPU9150PacketConverter) (batch : List StreamingPacket) : Prop :=
  (joined batch).length < 2^32 ∧
    ((∃ p ∈ batch, c.lastTimestamp < p.timestamp) ∨ IsFirstMaximum (batch.map timestamp) c.lastPacketNum)

-- Calls one after another on one converter, each returning before the next.
def EveryCall (holds : MPU9150PacketConverter → List StreamingPacket → Prop) :
    MPU9150PacketConverter → List (List StreamingPacket) → Prop
  | _,[] => True
  | c,batch :: calls => holds c batch ∧
      ∀ s c' s', c.toSensorState (joined batch) s = some (c',s') → EveryCall holds c' calls

theorem EveryCall.mono {holds gives : MPU9150PacketConverter → List StreamingPacket → Prop} {c : MPU9150PacketConverter}
    {calls : List (List StreamingPacket)} (step : ∀ c, ∀ batch ∈ calls, holds c batch → gives c batch)
    (every : EveryCall holds c calls) : EveryCall gives c calls := by
  induction calls generalizing c with
  | nil => trivial
  | cons batch calls ih =>
      refine ⟨step c batch List.mem_cons_self every.1,fun s c' s' returned => ?_⟩
      exact ih (fun c batch member => step c batch (List.mem_cons_of_mem _ member)) (every.2 s c' s' returned)

theorem convertsLatest_iff (c : MPU9150PacketConverter) {batch : List StreamingPacket} (short : (joined batch).length < 2^32) :
    c.ConvertsLatest batch ↔ c.Fresh batch := by
  have raised : (∃ v ∈ batch.map timestamp, c.held.value < v) ↔ ∃ p ∈ batch, c.lastTimestamp < p.timestamp := by
    constructor
    · rintro ⟨v,member,newer⟩
      obtain ⟨p,inBatch,rfl⟩ := List.mem_map.mp member
      exact ⟨p,inBatch,newer⟩
    · rintro ⟨p,inBatch,newer⟩
      exact ⟨_,List.mem_map_of_mem inBatch,newer⟩
  have pointed := noteAll_first_iff c.held (batch.map timestamp)
  rw [raised] at pointed
  constructor
  · intro converts
    obtain ⟨c',p,returned,_,_,first⟩ := converts (sample [])
    rw [toSensorState_returned short returned] at first
    exact ⟨short,pointed.mp first⟩
  · rintro ⟨_,fresh⟩ s
    have first : IsFirstMaximum (batch.map timestamp) (c.latest batch).lastPacketNum := pointed.mpr fresh
    have inside : (c.latest batch).lastPacketNum < batch.length := List.length_map timestamp ▸ first.inside
    have present := List.getElem?_eq_getElem inside
    exact ⟨_,_,toSensorState_present c short present s,inside,present,first⟩

-- On a converter as constructed, every call of a sequence does what it is to do when every
-- batch is fresh as it arrives, and for batches within the 32-bit addresses only then.
theorem converts_latest_iff (calls : List (List StreamingPacket)) :
    (EveryCall Fresh initial calls → EveryCall ConvertsLatest initial calls) ∧
      ((∀ batch ∈ calls, (joined batch).length < 2^32) →
        (EveryCall ConvertsLatest initial calls ↔ EveryCall Fresh initial calls)) := by
  have fresh_converts : EveryCall Fresh initial calls → EveryCall ConvertsLatest initial calls :=
    EveryCall.mono fun c batch _ fresh => (convertsLatest_iff c fresh.1).mpr fresh
  refine ⟨fresh_converts,fun short => ⟨?_,fresh_converts⟩⟩
  exact EveryCall.mono fun c batch member => (convertsLatest_iff c (short batch member)).mp

def stamped (time : UInt8) : StreamingPacket :=
  ⟨[0x40,0x47,0x2D] ++ List.replicate 43 0 ++ [time,0],by simp [kPacketSize]⟩

theorem restart_reads_past : ¬ EveryCall ConvertsLatest initial [[stamped 1,stamped 2,stamped 3],[stamped 1]] := by
  intro every
  have short : (joined [stamped 1,stamped 2,stamped 3]).length < 2^32 := by decide +kernel
  have first : (initial.latest [stamped 1,stamped 2,stamped 3]) = ⟨3,2⟩ := by decide +kernel
  have third : [stamped 1,stamped 2,stamped 3][(initial.latest [stamped 1,stamped 2,stamped 3]).lastPacketNum]? =
      some (stamped 3) := by
    rw [first]
    rfl
  have returned := toSensorState_present initial short third (sample [])
  rw [first] at returned
  obtain ⟨c',p,converted,_⟩ := (every.2 _ _ _ returned).1 (sample [])
  have past : (toSensorState ⟨3,2⟩ (joined [stamped 1]) (sample [])).isNone := by decide +kernel
  rw [converted] at past
  cases past

end MPU9150PacketConverter
end HsrbDrivers.ImuSensor

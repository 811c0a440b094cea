import HsrbDrivers.ImuSensor.Network
import HsrbDrivers.ImuSensor.PacketConverter
import HsrbDrivers.ImuSensor.PacketStream

namespace HsrbDrivers.ImuSensor

structure Poll where
  start : Int
  turns : List Turn

def kStreamingLength : UInt8 := 0x2D

theorem streaming_size {packet : List UInt8} (formed : WellFormed kStreamingLength packet) : packet.length = kPacketSize :=
  formed.length_eq

namespace MPU9150Network

def receiveAll (n : MPU9150Network) : List Poll → Option (List UInt8 × MPU9150Network)
  | [] => some ([],n)
  | poll :: polls => do
    let (_,next) ← n.receive poll.start poll.turns
    let (bytes,last) ← next.receiveAll polls
    return (next.parser.allPackets ++ bytes,last)

def reads (n : MPU9150Network) (polls : List Poll) : List (List UInt8) :=
  polls.filterMap fun poll => n.received poll.start poll.turns

theorem receive_allPackets {n next : MPU9150Network} {start : Int} {turns : List Turn} {error : ErrorCode}
    (returned : n.receive start turns = some (error,next)) : next.timeout = n.timeout ∧
      next.parser.allPackets = ((n.received start turns).elim [] fun bytes => (packetsIn bytes).flatten) := by
  obtain ⟨⟨code,parser⟩,looped,same⟩ := Option.map_eq_some_iff.mp returned
  cases same
  refine ⟨rfl,?_⟩
  cases arrived : n.received start turns with
  | none =>
      rw [(receiveLoop_unread arrived looped).2]
      rfl
  | some bytes =>
      obtain ⟨_,q,recorded,_,read⟩ := receiveLoop_read arrived (p := n.parser.reset) ⟨rfl,rfl⟩ rfl
      rw [looped] at read
      cases read
      exact recorded

theorem receiveAll_bytes {n last : MPU9150Network} {polls : List Poll} {bytes : List UInt8}
    (returned : n.receiveAll polls = some (bytes,last)) :
    bytes = ((n.reads polls).map fun read => (packetsIn read).flatten).flatten := by
  induction polls generalizing n bytes with
  | nil =>
      cases returned
      rfl
  | cons poll polls ih =>
      rw [receiveAll] at returned
      obtain ⟨⟨error,next⟩,first,returned⟩ := Option.bind_eq_some_iff.mp returned
      obtain ⟨⟨others,_⟩,rest,returned⟩ := Option.bind_eq_some_iff.mp returned
      cases returned
      obtain ⟨timeout,recorded⟩ := receive_allPackets first
      have same : next.reads polls = n.reads polls := by
        unfold reads received
        rw [timeout]
      have behind := ih rest
      rw [same] at behind
      rw [behind,recorded]
      unfold reads
      rw [List.filterMap_cons]
      cases n.received poll.start poll.turns with
      | none => rfl
      | some read => rfl

end MPU9150Network

theorem packets_shorter (reads : List (List UInt8)) :
    (reads.map fun read => (packetsIn read).flatten).flatten.length ≤ reads.flatten.length := by
  induction reads with
  | nil => exact Nat.le_refl 0
  | cons read reads ih =>
      rw [List.map_cons,List.flatten_cons,List.flatten_cons,List.length_append,List.length_append]
      exact Nat.add_le_add (packetsIn_parts read).1 ih

theorem packetsIn_read {packets : List (List UInt8)} (formed : ∀ packet ∈ packets, WellFormed kStreamingLength packet)
    {read behind : List UInt8} (split : read ++ behind = packets.flatten) :
    ∃ (count : Nat) (part : List UInt8), part.length < kPacketSize ∧ read = (packets.take count).flatten ++ part ∧
      part ++ behind = (packets.drop count).flatten ∧ packetsIn read = packets.take count := by
  induction packets generalizing read with
  | nil =>
      obtain ⟨rfl,rfl⟩ := List.append_eq_nil_iff.mp split
      exact ⟨0,[],by decide,rfl,rfl,packetsIn_pending rfl⟩
  | cons packet packets ih =>
      obtain ⟨first,others⟩ := List.forall_mem_cons.mp formed
      have size := streaming_size first
      rw [List.flatten_cons] at split
      by_cases short : read.length < kPacketSize
      · have cut : read = packet.take read.length := by
          have taken := congrArg (List.take read.length) split
          rwa [List.take_left,List.take_append_of_le_length (by omega)] at taken
        refine ⟨0,read,short,rfl,split,packetsIn_pending ?_⟩
        rw [cut]
        exact front_cut first (by rw [size]; exact short)
      · obtain ⟨rest,rfl⟩ : ∃ rest, read = packet ++ rest := by
          have taken := congrArg (List.take packet.length) split
          rw [List.take_left,List.take_append_of_le_length (by omega)] at taken
          have joined := List.take_append_drop packet.length read
          rw [taken] at joined
          exact ⟨_,joined.symm⟩
        rw [List.append_assoc,List.append_cancel_left_eq] at split
        obtain ⟨count,part,below,made,onward,found⟩ := ih others split
        have long : packet.length ≠ 4 := by
          rw [size]
          decide
        refine ⟨count + 1,part,below,?_,onward,?_⟩
        · rw [List.take_succ_cons,List.flatten_cons,List.append_assoc,← made]
        · rw [packetsIn_whole (front_wellFormed first rest),if_neg long,found,List.take_succ_cons]

theorem packetsIn_reads_iff {packets reads : List (List UInt8)}
    (formed : ∀ packet ∈ packets, WellFormed kStreamingLength packet) (stream : reads.flatten = packets.flatten) :
    (reads.map fun read => (packetsIn read).flatten).flatten = packets.flatten ↔ ∀ read ∈ reads, kPacketSize ∣ read.length := by
  induction reads generalizing packets with
  | nil => exact ⟨fun _ read member => absurd member List.not_mem_nil,fun _ => stream⟩
  | cons read reads ih =>
      rw [List.flatten_cons] at stream
      obtain ⟨count,part,below,made,onward,found⟩ := packetsIn_read formed stream
      have before := Placement.flatten_length_uniform fun packet member =>
        streaming_size (formed packet (List.mem_of_mem_take (i := count) member))
      have total : packets.flatten = (packets.take count).flatten ++ (packets.drop count).flatten := by
        rw [← List.flatten_append,List.take_append_drop]
      have size : read.length = (packets.take count).length * kPacketSize + part.length := by
        rw [made,List.length_append,before]
      have ends : kPacketSize ∣ read.length ↔ part = [] := by
        rw [size,Nat.dvd_add_right (Nat.dvd_mul_left _ _),← List.length_eq_zero_iff]
        exact ⟨fun divides => Nat.eq_zero_of_dvd_of_lt divides below,fun none => none ▸ Nat.dvd_zero _⟩
      rw [List.map_cons,List.flatten_cons,found,total,List.append_cancel_left_eq,List.forall_mem_cons,ends]
      have behind := ih fun packet (member : packet ∈ packets.drop count) => formed packet (List.mem_of_mem_drop member)
      constructor
      · intro all
        have shorter := packets_shorter reads
        rw [all,← onward,List.length_append] at shorter
        have none : part = [] := List.length_eq_zero_iff.mp (by omega)
        rw [none,List.nil_append] at onward
        exact ⟨none,(behind onward).mp all⟩
      · rintro ⟨rfl,others⟩
        exact (behind onward).mpr others

namespace MPU9150Network

theorem delivered_whole_iff {n last : MPU9150Network} {polls : List Poll} {packets : List (List UInt8)} {bytes : List UInt8}
    (formed : ∀ packet ∈ packets, WellFormed kStreamingLength packet) (stream : (n.reads polls).flatten = packets.flatten)
    (returned : n.receiveAll polls = some (bytes,last)) :
    bytes = packets.flatten ↔ ∀ read ∈ n.reads polls, kPacketSize ∣ read.length := by
  rw [receiveAll_bytes returned]
  exact packetsIn_reads_iff formed stream

def quietPacket : List UInt8 := framed kStreamingLength (List.replicate 44 0)

theorem quietPacket_formed : WellFormed kStreamingLength quietPacket := ⟨by decide,_,rfl,rfl⟩

def polled (reads : List Chunk) : List Poll := reads.map fun read => ⟨0,[⟨.read read,0⟩]⟩

theorem two_packets_delivered : ∃ last, (⟨50000000,.initial 0⟩ : MPU9150Network).receiveAll
    (polled [⟨quietPacket,by decide⟩,⟨quietPacket,by decide⟩]) = some (quietPacket ++ quietPacket,last) := by
  have formed : ∀ packet ∈ [quietPacket,quietPacket], WellFormed kStreamingLength packet := by
    simp [quietPacket_formed]
  obtain ⟨⟨bytes,last⟩,returned⟩ : ∃ result, (⟨50000000,.initial 0⟩ : MPU9150Network).receiveAll
      (polled [⟨quietPacket,by decide⟩,⟨quietPacket,by decide⟩]) = some result := ⟨_,rfl⟩
  have whole := (delivered_whole_iff formed rfl returned).mpr (by decide)
  exact ⟨last,returned.trans (congrArg (fun bytes => some (bytes,last)) whole)⟩

theorem divided_packet_lost : ∃ polls, (⟨50000000,.initial 0⟩ : MPU9150Network).reads polls =
    [quietPacket.take 20,quietPacket.drop 20] ∧
    ((⟨50000000,.initial 0⟩ : MPU9150Network).receiveAll polls).map Prod.fst = some [] ∧ [] ≠ quietPacket :=
  ⟨polled [⟨quietPacket.take 20,by decide⟩,⟨quietPacket.drop 20,by decide⟩],rfl,rfl,by decide⟩

end MPU9150Network
end HsrbDrivers.ImuSensor

import HsrbDrivers.ImuSensor.Network
import HsrbDrivers.ImuSensor.PacketStream

namespace HsrbDrivers.ImuSensor

def ErrorCode.noBufferSpace : ErrorCode := ⟨105⟩

-- What a turn of the transmission loop meets: `write` would block and the sleep is over,
-- `write` or the sleep fails, or `write` takes some bytes; and the clock at its end.
inductive Writing where
  | again
  | failed (errno : Int) (set : errno ≠ 0)
  | wrote (count : Nat)

structure WriteTurn where
  writing : Writing
  now : Int

-- The bytes `Send` puts together in its buffer. The size goes into one byte.
def sentFrame (instruction : UInt8) (data : List UInt8) : List UInt8 :=
  let body := kMPU9150Header1Command :: kMPU9150Header2Command :: UInt8.ofNat (data.length + 2) :: instruction :: data
  body ++ [checksum body]

theorem sentFrame_length (instruction : UInt8) (data : List UInt8) : (sentFrame instruction data).length = data.length + 5 := by
  simp [sentFrame]

namespace MPU9150Network

-- The loop of `Send` with the bytes written so far; `none` when it goes on after all the
-- turns it is given.
def sendLoop (timeout start : Int) (frame : List UInt8) : Int → Nat → List WriteTurn → Option (ErrorCode × List UInt8)
  | elapsed,done,[] => if elapsed - start < timeout then none else some (.timedOut,frame.take done)
  | elapsed,done,turn :: turns =>
    if ¬ elapsed - start < timeout then some (.timedOut,frame.take done) else
    match turn.writing with
    | .again => if turn.now < elapsed then some (.timedOut,frame.take done)
      else sendLoop timeout start frame turn.now done turns
    | .failed errno _ => some (⟨errno⟩,frame.take done)
    | .wrote count =>
      if done + count = frame.length then some (.success,frame.take (done + count))
      else if done + count > frame.length then some (.protocolError,frame.take (done + count))
      else if turn.now < elapsed then some (.timedOut,frame.take (done + count))
      else sendLoop timeout start frame turn.now (done + count) turns

def send (n : MPU9150Network) (instruction : UInt8) (data : List UInt8) (start : Int) (turns : List WriteTurn) :
    Option (ErrorCode × List UInt8) :=
  if data.length > 1019 then some (.noBufferSpace,[])
  else sendLoop n.timeout start (sentFrame instruction data) start 0 turns

theorem sendLoop_success {timeout start elapsed : Int} {frame written : List UInt8} {done : Nat} {turns : List WriteTurn}
    (sent : sendLoop timeout start frame elapsed done turns = some (.success,written)) : written = frame := by
  induction turns generalizing elapsed done with
  | nil =>
      rw [sendLoop] at sent
      split at sent <;> cases sent
  | cons turn turns ih =>
      rw [sendLoop] at sent
      split at sent
      · cases sent
      cases met : turn.writing with
      | again =>
          rw [met] at sent
          dsimp only at sent
          split at sent
          · cases sent
          · exact ih sent
      | failed errno set =>
          rw [met] at sent
          cases sent
          exact absurd rfl set
      | wrote count =>
          rw [met] at sent
          dsimp only at sent
          split at sent
          · rename_i whole
            cases sent
            rw [whole,List.take_length]
          split at sent
          · cases sent
          split at sent
          · cases sent
          · exact ih sent

theorem send_success {n : MPU9150Network} {instruction : UInt8} {data written : List UInt8} {start : Int} {turns : List WriteTurn}
    (sent : n.send instruction data start turns = some (.success,written)) :
    data.length ≤ 1019 ∧ written = sentFrame instruction data := by
  unfold send at sent
  split at sent
  · cases sent
  · exact ⟨by omega,sendLoop_success sent⟩

theorem send_once {n : MPU9150Network} {instruction : UInt8} {data : List UInt8} (accepted : data.length ≤ 1019)
    (patient : 0 < n.timeout) {count : Nat} (all : count = data.length + 5) (start now : Int) :
    n.send instruction data start [⟨.wrote count,now⟩] = some (.success,sentFrame instruction data) := by
  have size := sentFrame_length instruction data
  unfold send
  rw [if_neg (by omega),sendLoop,if_neg (by omega)]
  dsimp only
  rw [if_pos (by omega),List.take_of_length_le (by omega)]

end MPU9150Network

theorem sentFrame_wellFormed (instruction : UInt8) {data : List UInt8} (small : data.length ≤ 253) :
    WellFormed (UInt8.ofNat (data.length + 2)) (sentFrame instruction data) := by
  have kept : (UInt8.ofNat (data.length + 2)).toNat = data.length + 2 := UInt8.toNat_ofNat_of_lt' (by
    show data.length + 2 < 256
    omega)
  refine ⟨?_,instruction :: data,?_,?_⟩
  · show 1 ≤ (UInt8.ofNat (data.length + 2)).toNat
    omega
  · rw [kept]
    rfl
  · unfold sentFrame framed
    simp only [checksum_sum]

namespace MPU9150PacketParser

-- The parser, after a reset, records all of a frame with its last byte, and nothing before.
def Takes (p : MPU9150PacketParser) (frame : List UInt8) : Prop :=
  (p.reset.feed frame.dropLast).2.allPackets = [] ∧ (p.reset.feed frame).2.allPackets = frame

theorem takes_small {p : MPU9150PacketParser} {instruction : UInt8} {data : List UInt8}
    (takes : p.Takes (sentFrame instruction data)) : data.length ≤ 253 := by
  obtain ⟨early,all⟩ := takes
  rw [reset_feed_allPackets] at early all
  have size := sentFrame_length instruction data
  by_contra large
  have opens := front_opens (sentFrame instruction data)
  cases found : front (sentFrame instruction data) with
  | pending =>
      rw [packetsIn_pending found] at all
      rw [← all] at size
      cases size
  | skipped rest =>
      have shorter := front_shorter (.inl found)
      have inside := (packetsIn_parts rest).1
      rw [packetsIn_skipped found] at all
      rw [all] at inside
      omega
  | whole packet rest =>
      rw [found] at opens
      obtain ⟨split,length,formed⟩ := opens_wellFormed opens
      have short := formed.length_eq
      have below := length.toNat_lt
      have behind : rest ≠ [] := by
        rintro rfl
        rw [split,List.append_nil] at size
        omega
      rw [split,List.dropLast_append_of_ne_nil behind,packetsIn_whole (front_wellFormed formed _)] at early
      split at early
      · rw [List.flatten_singleton] at early
        rw [early] at short
        cases short
      · rw [List.flatten_cons,List.append_eq_nil_iff] at early
        rw [early.1] at short
        cases short

structure Agrees (p : MPU9150PacketParser) (size : Nat) (frame : List UInt8) : Prop where
  lengthByte : frame[2]?.map UInt8.toNat = some (size + 2)
  summed : frame.getLast? = some (~~~frame.dropLast.sum)
  takes : p.Takes frame
  answers : ∀ result ∈ (p.reset.feed frame).1, result = .more
  unreplied : (p.reset.feed frame).2.isReplyPacket = false

theorem small_agrees (p : MPU9150PacketParser) (instruction : UInt8) {data : List UInt8} (small : data.length ≤ 253) :
    p.Agrees data.length (sentFrame instruction data) := by
  have formed := sentFrame_wellFormed instruction small
  have kept : (UInt8.ofNat (data.length + 2)).toNat = data.length + 2 := UInt8.toNat_ofNat_of_lt' (by
    show data.length + 2 < 256
    omega)
  have shaped : ∀ packet ∈ [sentFrame instruction data], ∃ length, 2 ≤ length ∧ WellFormed length packet := by
    intro packet member
    rw [List.mem_singleton.mp member]
    refine ⟨_,?_,formed⟩
    show 2 ≤ (UInt8.ofNat (data.length + 2)).toNat
    omega
  obtain ⟨whole,recorded⟩ := reset_feed_whole p shaped
  rw [List.flatten_singleton] at whole recorded
  have size := sentFrame_length instruction data
  have unreplied : ¬ ∃ packet ∈ packetsIn (p.reset.fed (sentFrame instruction data)), packet.length = 4 := by
    rintro ⟨packet,member,four⟩
    have found := packetsIn_whole_stream shaped []
    have none : packetsIn [] = [] := packetsIn_pending rfl
    rw [List.flatten_singleton,List.append_nil,none,List.append_nil] at found
    rw [whole,found,List.mem_singleton] at member
    rw [member] at four
    omega
  obtain ⟨_,replied,ended⟩ := reset_feed_parts p (sentFrame instruction data)
  refine ⟨?_,?_,⟨?_,recorded⟩,?_,?_⟩
  · exact congrArg some kept
  · unfold sentFrame
    simp only [List.getLast?_concat,List.dropLast_concat,checksum_sum]
  · rw [reset_feed_allPackets,List.dropLast_eq_take,packetsIn_pending (front_cut formed (by omega))]
    rfl
  · intro result member
    cases result with
    | error => exact absurd member (feed_scan (reset_working p) _).1
    | more => rfl
    | done => exact absurd (ended.mp (feed_done member)) unreplied
  · exact Bool.eq_false_iff.mpr fun reply => unreplied (replied.mp reply)

end MPU9150PacketParser

namespace MPU9150Network

theorem sent_agrees_iff {n : MPU9150Network} {instruction : UInt8} {data written : List UInt8} {start : Int}
    {turns : List WriteTurn} (sent : n.send instruction data start turns = some (.success,written)) (p : MPU9150PacketParser) :
    p.Agrees data.length written ↔ data.length ≤ 253 := by
  rw [(send_success sent).2]
  exact ⟨fun agrees => MPU9150PacketParser.takes_small agrees.takes,p.small_agrees instruction⟩

theorem data_command_agrees : (MPU9150PacketParser.initial 0).Agrees 3 [0x40,0x47,0x05,0x61,0x01,0x80,0xff,0x92] := by
  have sent : (⟨50000000,.initial 0⟩ : MPU9150Network).send 0x61 [0x01,0x80,0xff] 0 [⟨.wrote 3,1⟩,⟨.again,2⟩,⟨.wrote 5,3⟩] =
      some (.success,[0x40,0x47,0x05,0x61,0x01,0x80,0xff,0x92]) := rfl
  exact (sent_agrees_iff sent (.initial 0)).mpr (show 3 ≤ 253 by decide)

theorem oversized_data_lost : ∃ written, (⟨50000000,.initial 0⟩ : MPU9150Network).send 0x61 (List.replicate 254 0) 0
    [⟨.wrote 259,1⟩] = some (.success,written) ∧ ¬ (MPU9150PacketParser.initial 0).Agrees 254 written := by
  have counted : (List.replicate 254 (0 : UInt8)).length = 254 := List.length_replicate
  refine ⟨sentFrame 0x61 (List.replicate 254 0),?_,fun agrees => ?_⟩
  · exact send_once (by omega) (by decide) (by omega) 0 1
  · have small := MPU9150PacketParser.takes_small agrees.takes
    omega

end MPU9150Network
end HsrbDrivers.ImuSensor

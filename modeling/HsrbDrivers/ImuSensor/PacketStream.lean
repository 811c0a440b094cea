import HsrbDrivers.ImuSensor.PacketParser
import HsrbDrivers.Library.Occurrence

namespace HsrbDrivers.ImuSensor

def framed (length : UInt8) (data : List UInt8) : List UInt8 :=
  let body := kMPU9150Header1Command :: kMPU9150Header2Command :: length :: data
  body ++ [~~~body.sum]

def WellFormed (length : UInt8) (packet : List UInt8) : Prop :=
  1 ≤ length ∧ ∃ data, data.length + 1 = length.toNat ∧ packet = framed length data

theorem checksum_sum (bytes : List UInt8) : checksum bytes = ~~~bytes.sum := by
  unfold checksum
  rw [Bytes.ofNat_sum]
  simp

theorem WellFormed.length_eq {length : UInt8} {packet : List UInt8} (whole : WellFormed length packet) :
    packet.length = length.toNat + 3 := by
  obtain ⟨_,data,counted,rfl⟩ := whole
  simp only [framed,List.length_append,List.length_cons,List.length_nil]
  omega

theorem WellFormed.ne_zero {length : UInt8} {packet : List UInt8} (whole : WellFormed length packet) : length ≠ 0 := by
  rintro rfl
  exact absurd whole.1 (by decide)

theorem front_wellFormed {length : UInt8} {packet : List UInt8} (whole : WellFormed length packet) (rest : List UInt8) :
    front (packet ++ rest) = .whole packet rest := by
  have positive := whole.ne_zero
  obtain ⟨_,data,counted,rfl⟩ := whole
  have cut : length.toNat - 1 = data.length := by omega
  unfold front framed
  simp only [List.cons_append,List.append_assoc]
  rw [if_neg (not_not.mpr rfl),if_neg (not_not.mpr rfl),if_neg positive,cut,List.take_left,List.drop_left]
  dsimp only [List.nil_append]
  rw [if_pos (checksum_sum _).symm]

theorem front_cut {length : UInt8} {packet : List UInt8} (whole : WellFormed length packet) {count : Nat}
    (short : count < packet.length) : front (packet.take count) = .pending := by
  have positive := whole.ne_zero
  obtain ⟨_,data,counted,rfl⟩ := whole
  cases count with
  | zero => rfl
  | succ count => cases count with
    | zero => rfl
    | succ count => cases count with
      | zero => rfl
      | succ count =>
          simp only [framed,List.length_append,List.length_cons,List.length_nil] at short
          have missing : (data ++ [~~~(kMPU9150Header1Command :: kMPU9150Header2Command :: length :: data).sum]).take count =
              data.take count := List.take_append_of_le_length (by omega)
          unfold front framed
          simp only [List.cons_append,List.take_succ_cons]
          rw [missing,if_neg (not_not.mpr rfl),if_neg (not_not.mpr rfl),if_neg positive,
            List.drop_eq_nil_of_le (by rw [List.length_take]; omega)]

theorem opens_wellFormed {bytes packet rest : List UInt8} (opens : Opens bytes (.whole packet rest)) :
    bytes = packet ++ rest ∧ ∃ length, WellFormed length packet := by
  generalize found : Front.whole packet rest = f at opens
  cases opens with
  | @packet length sum data rest positive counted right =>
      cases found
      refine ⟨by simp,length,?_,data,counted,?_⟩
      · exact Nat.pos_of_ne_zero fun zero => positive (UInt8.toNat_inj.mp zero)
      · rw [right,checksum_sum]
        rfl
  | _ => cases found

theorem opens_skipped {bytes rest : List UInt8} (opens : Opens bytes (.skipped rest)) : ∃ gap, bytes = gap ++ rest := by
  generalize found : Front.skipped rest = f at opens
  cases opens with
  | stray other => cases found; exact ⟨[_],rfl⟩
  | unpaired other => cases found; exact ⟨[_,_],rfl⟩
  | empty => cases found; exact ⟨[_,_,_],rfl⟩
  | @broken length sum data rest positive counted wrong =>
      cases found
      exact ⟨kMPU9150Header1Command :: kMPU9150Header2Command :: length :: (data ++ [sum]),by simp⟩
  | _ => cases found

theorem packetsIn_apart (bytes : List UInt8) :
    Apart (packetsIn bytes) bytes ∧ ∀ packet ∈ packetsIn bytes, ∃ length, WellFormed length packet := by
  induction size : bytes.length using Nat.strong_induction_on generalizing bytes with
  | _ n ih =>
      subst size
      have opens := front_opens bytes
      cases found : front bytes with
      | pending =>
          rw [packetsIn_pending found]
          exact ⟨.none,fun packet member => absurd member List.not_mem_nil⟩
      | skipped rest =>
          obtain ⟨apart,formed⟩ := ih _ (front_shorter (.inl found)) rest rfl
          rw [found] at opens
          obtain ⟨gap,rfl⟩ := opens_skipped opens
          rw [packetsIn_skipped found]
          exact ⟨apart.skip gap,formed⟩
      | whole packet rest =>
          obtain ⟨apart,formed⟩ := ih _ (front_shorter (.inr ⟨packet,found⟩)) rest rfl
          rw [found] at opens
          obtain ⟨rfl,first⟩ := opens_wellFormed opens
          rw [packetsIn_whole found]
          split
          · exact ⟨Apart.none.front,fun one member => List.mem_singleton.mp member ▸ first⟩
          · exact ⟨apart.front,List.forall_mem_cons.mpr ⟨first,formed⟩⟩

theorem packetsIn_whole_stream {packets : List (List UInt8)}
    (formed : ∀ packet ∈ packets, ∃ length, 2 ≤ length ∧ WellFormed length packet) (rest : List UInt8) :
    packetsIn (packets.flatten ++ rest) = packets ++ packetsIn rest := by
  induction packets with
  | nil => rfl
  | cons packet packets ih =>
      obtain ⟨⟨length,some,whole⟩,others⟩ := List.forall_mem_cons.mp formed
      have long : packet.length ≠ 4 := by
        have two : 2 ≤ length.toNat := some
        rw [whole.length_eq]
        omega
      rw [List.flatten_cons,List.append_assoc,packetsIn_whole (front_wellFormed whole _),if_neg long,ih others,List.cons_append]

theorem packetsIn_reply (bytes : List UInt8) : (∃ packet ∈ packetsIn bytes, packet.length = 4) ↔
    ∃ last, (packetsIn bytes).getLast? = some last ∧ WellFormed 1 last := by
  constructor
  · induction size : bytes.length using Nat.strong_induction_on generalizing bytes with
    | _ n ih =>
        subst size
        have opens := front_opens bytes
        cases found : front bytes with
        | pending =>
            rw [packetsIn_pending found]
            rintro ⟨packet,member,_⟩
            cases member
        | skipped rest =>
            rw [packetsIn_skipped found]
            exact ih _ (front_shorter (.inl found)) rest rfl
        | whole packet rest =>
            rw [found] at opens
            rw [packetsIn_whole found]
            by_cases reply : packet.length = 4
            · rw [if_pos reply]
              intro _
              obtain ⟨_,length,formed⟩ := opens_wellFormed opens
              have one : length = 1 := by
                have size := formed.length_eq
                apply UInt8.toNat_inj.mp
                rw [UInt8.toNat_one]
                omega
              exact ⟨packet,rfl,one ▸ formed⟩
            · rw [if_neg reply]
              rintro ⟨one,member,four⟩
              rcases List.mem_cons.mp member with rfl | later
              · exact absurd four reply
              · obtain ⟨last,ends,formed⟩ := ih _ (front_shorter (.inr ⟨packet,found⟩)) rest rfl ⟨one,later,four⟩
                refine ⟨last,?_,formed⟩
                rw [List.getLast?_cons,ends]
                rfl
  · rintro ⟨last,ends,formed⟩
    refine ⟨last,List.mem_of_getLast? ends,?_⟩
    rw [formed.length_eq]
    rfl

namespace MPU9150PacketParser

def feed (p : MPU9150PacketParser) : List UInt8 → List ParseResult × MPU9150PacketParser
  | [] => ([],p)
  | input :: rest =>
    let (result,q) := p.tryParse input
    if result = .done then ([.done],q) else
    let (results,last) := q.feed rest
    (result :: results,last)

def fed (p : MPU9150PacketParser) (bytes : List UInt8) : List UInt8 := bytes.take (p.feed bytes).1.length

theorem tryParse_working {p : MPU9150PacketParser} (working : p.state ≠ .nothing) (input : UInt8) :
    (p.tryParse input).1 ≠ .error ∧ (p.tryParse input).2.state ≠ .nothing := by
  unfold tryParse
  cases met : p.state with
  | nothing => exact absurd met working
  | _ =>
      dsimp only
      split_ifs <;> simp [met]

theorem feed_scan {p : MPU9150PacketParser} (working : p.state ≠ .nothing) (bytes : List UInt8) :
    .error ∉ (p.feed bytes).1 ∧ ((p.feed bytes).1.getLast? ≠ some .done → p.fed bytes = bytes) ∧
      p.scan bytes = ((p.feed bytes).1.getLast?.getD .more,(p.feed bytes).2) ∧ p.scan (p.fed bytes) = p.scan bytes := by
  induction bytes generalizing p with
  | nil => exact ⟨List.not_mem_nil,fun _ => rfl,rfl,rfl⟩
  | cons input rest ih =>
      obtain ⟨fine,next⟩ := tryParse_working working input
      unfold fed
      rw [feed]
      rcases parsed : p.tryParse input with ⟨result,q⟩
      rw [parsed] at fine next
      cases result with
      | error => exact absurd rfl fine
      | done =>
          have stopped (behind : List UInt8) : p.scan (input :: behind) = (.done,q) := by rw [scan,parsed]
          dsimp only
          rw [if_pos rfl]
          refine ⟨by simp,fun other => absurd rfl other,stopped rest,?_⟩
          rw [List.length_singleton,List.take_succ_cons,List.take_zero,stopped,stopped]
      | more =>
          obtain ⟨accepted,whole,scanned,same⟩ := ih next
          dsimp only
          rw [if_neg (by decide)]
          dsimp only
          rw [List.length_cons,List.take_succ_cons,scan_more parsed,scan_more parsed,List.getLast?_cons]
          refine ⟨by simp [accepted],fun unstopped => ?_,scanned,same⟩
          refine congrArg (input :: ·) (whole fun done => unstopped ?_)
          rw [done]
          rfl

theorem feed_done {p : MPU9150PacketParser} {bytes : List UInt8} (done : .done ∈ (p.feed bytes).1) :
    (p.feed bytes).1.getLast? = some .done := by
  induction bytes generalizing p with
  | nil => cases done
  | cons input rest ih =>
      rw [feed] at done ⊢
      rcases parsed : p.tryParse input with ⟨result,q⟩
      rw [parsed] at done
      dsimp only at done ⊢
      by_cases stops : result = .done
      · rw [if_pos stops]
        rfl
      · rw [if_neg stops] at done ⊢
        have later := (List.mem_cons.mp done).resolve_left (Ne.symm stops)
        dsimp only
        rw [List.getLast?_cons,ih later]
        rfl

structure Recorded (p : MPU9150PacketParser) (bytes : List UInt8) : Prop where
  sound : ∃ packets : List (List UInt8), (p.feed bytes).2.allPackets = packets.flatten ∧
    (∀ packet ∈ packets, ∃ length, WellFormed length packet) ∧ Apart packets (p.fed bytes) ∧
    ((p.feed bytes).2.isReplyPacket = true ↔ ∃ last, packets.getLast? = some last ∧ WellFormed 1 last)
  stopped : (p.feed bytes).2.isReplyPacket = true ↔ (p.feed bytes).1.getLast? = some .done
  complete : ∀ packets : List (List UInt8), (∀ packet ∈ packets, ∃ length, 2 ≤ length ∧ WellFormed length packet) →
    bytes = packets.flatten → p.fed bytes = bytes ∧ (p.feed bytes).2.allPackets = bytes
  accepted : .error ∉ (p.feed bytes).1

theorem reset_working (p : MPU9150PacketParser) : p.reset.state ≠ .nothing := by
  intro none
  cases none

theorem reset_feed_parts (p : MPU9150PacketParser) (bytes : List UInt8) :
    (p.reset.feed bytes).2.allPackets = (packetsIn (p.reset.fed bytes)).flatten ∧
      ((p.reset.feed bytes).2.isReplyPacket = true ↔ ∃ packet ∈ packetsIn (p.reset.fed bytes), packet.length = 4) ∧
      ((p.reset.feed bytes).1.getLast? = some .done ↔ ∃ packet ∈ packetsIn (p.reset.fed bytes), packet.length = 4) := by
  obtain ⟨_,_,scanned,same⟩ := feed_scan (reset_working p) bytes
  obtain ⟨recorded,answer,replied⟩ := scan_records (p := p.reset) ⟨rfl,rfl⟩ (p.reset.fed bytes)
  rw [same,scanned] at recorded answer replied
  dsimp only at recorded answer replied
  refine ⟨recorded,?_,?_⟩
  · rw [replied,Bool.or_eq_true,decide_eq_true_iff]
    exact or_iff_right Bool.false_ne_true
  · constructor
    · intro done
      by_contra none
      rw [done,if_neg none] at answer
      cases answer
    · intro reply
      rw [if_pos reply] at answer
      cases last : (p.reset.feed bytes).1.getLast? with
      | none =>
          rw [last] at answer
          cases answer
      | some result =>
          rw [last] at answer
          exact congrArg some answer

theorem reset_feed_allPackets (p : MPU9150PacketParser) (bytes : List UInt8) :
    (p.reset.feed bytes).2.allPackets = (packetsIn bytes).flatten := by
  obtain ⟨_,_,scanned,_⟩ := feed_scan (reset_working p) bytes
  have recorded := (scan_records (p := p.reset) ⟨rfl,rfl⟩ bytes).1
  rw [scanned] at recorded
  exact recorded

theorem reset_feed_whole (p : MPU9150PacketParser) {packets : List (List UInt8)}
    (shaped : ∀ packet ∈ packets, ∃ length, 2 ≤ length ∧ WellFormed length packet) :
    p.reset.fed packets.flatten = packets.flatten ∧ (p.reset.feed packets.flatten).2.allPackets = packets.flatten := by
  have found : packetsIn packets.flatten = packets := by
    have split := packetsIn_whole_stream shaped []
    have none : packetsIn [] = [] := packetsIn_pending rfl
    rwa [List.append_nil,none,List.append_nil] at split
  have unreplied : ¬ ∃ packet ∈ packetsIn packets.flatten, packet.length = 4 := by
    rintro ⟨packet,member,four⟩
    obtain ⟨length,some,one⟩ := shaped packet (found ▸ member)
    have two : 2 ≤ length.toNat := some
    rw [one.length_eq] at four
    omega
  obtain ⟨_,whole,scanned,_⟩ := feed_scan (reset_working p) packets.flatten
  obtain ⟨recorded,answer,_⟩ := scan_records (p := p.reset) ⟨rfl,rfl⟩ packets.flatten
  rw [scanned] at recorded answer
  rw [found] at recorded
  refine ⟨whole fun done => ?_,recorded⟩
  rw [done,if_neg unreplied] at answer
  cases answer

theorem reset_feed_records (p : MPU9150PacketParser) (bytes : List UInt8) : p.reset.Recorded bytes := by
  obtain ⟨recorded,replied,ended⟩ := reset_feed_parts p bytes
  obtain ⟨apart,formed⟩ := packetsIn_apart (p.reset.fed bytes)
  refine ⟨⟨_,recorded,formed,apart,replied.trans (packetsIn_reply _)⟩,replied.trans ended.symm,?_,?_⟩
  · rintro packets shaped rfl
    exact reset_feed_whole p shaped
  · exact (feed_scan (reset_working p) bytes).1

end MPU9150PacketParser
end HsrbDrivers.ImuSensor

import HsrbDrivers.Library.Bytes

namespace HsrbDrivers.ImuSensor

def kMPU9150Header1Command : UInt8 := 0x40
def kMPU9150Header2Command : UInt8 := 0x47

-- `Checksum` adds up in `size_t` and complements the low byte.
def checksum (range : List UInt8) : UInt8 := ~~~ UInt8.ofNat (range.foldl (fun sum b => (sum + b.toNat) % 2^64) 0)

inductive ParseResult where
  | error
  | more
  | done
deriving DecidableEq,Repr

inductive State where
  | header1
  | header2
  | length
  | data
  | checksum
  | nothing
deriving DecidableEq,Repr

-- The result `kContinue` is `more` here.
structure MPU9150PacketParser where
  state : State
  packet : List UInt8
  allPackets : List UInt8
  length : UInt8
  isReplyPacket : Bool
deriving DecidableEq,Repr

namespace MPU9150PacketParser

-- `length` is not set by the constructor, nor by `Reset`.
def initial (length : UInt8) : MPU9150PacketParser := ⟨.header1,[],[],length,false⟩

def reset (p : MPU9150PacketParser) : MPU9150PacketParser :=
  {p with state := .header1,isReplyPacket := false,packet := [],allPackets := []}

def tryParse (p : MPU9150PacketParser) (input : UInt8) : ParseResult × MPU9150PacketParser :=
  match p.state with
  | .header1 =>
    if input = kMPU9150Header1Command then (.more,{p with state := .header2,packet := p.packet ++ [input]}) else (.more,p)
  | .header2 =>
    if input = kMPU9150Header2Command then (.more,{p with state := .length,packet := p.packet ++ [input]})
    else (.more,{p with state := .header1,packet := []})
  | .length =>
    if input < 1 then (.more,{p with state := .header1,packet := []})
    else if input = 1 then (.more,{p with state := .checksum,length := input,packet := p.packet ++ [input]})
    else (.more,{p with state := .data,length := input,packet := p.packet ++ [input]})
  | .data =>
    let packet := p.packet ++ [input]
    if packet.length = p.length.toNat + 2 then (.more,{p with state := .checksum,packet := packet})
    else (.more,{p with packet := packet})
  | .checksum =>
    if input = ImuSensor.checksum p.packet then
      let q := {p with packet := [],allPackets := p.allPackets ++ (p.packet ++ [input])}
      if p.length = 1 then (.done,{q with isReplyPacket := true}) else (.more,{q with state := .header1})
    else (.more,{p with state := .header1,packet := []})
  | .nothing => (.error,p)

def scan (p : MPU9150PacketParser) : List UInt8 → ParseResult × MPU9150PacketParser
  | [] => (.more,p)
  | input :: rest => match p.tryParse input with
    | (.done,p) => (.done,p)
    | (.error,p) => (.error,p.reset)
    | (.more,p) => scan p rest

end MPU9150PacketParser

-- What stands at the front of some bytes: the beginning of a packet, bytes that are no
-- packet, or a packet.
inductive Front where
  | pending
  | skipped (rest : List UInt8)
  | whole (packet rest : List UInt8)

def front : List UInt8 → Front
  | [] => .pending
  | header1 :: rest => if header1 ≠ kMPU9150Header1Command then .skipped rest else match rest with
    | [] => .pending
    | header2 :: rest => if header2 ≠ kMPU9150Header2Command then .skipped rest else match rest with
      | [] => .pending
      | length :: rest => if length = 0 then .skipped rest else
        let body := [header1,header2,length] ++ rest.take (length.toNat - 1)
        match rest.drop (length.toNat - 1) with
        | [] => .pending
        | sum :: rest => if sum = checksum body then .whole (body ++ [sum]) rest else .skipped rest

inductive Opens : List UInt8 → Front → Prop where
  | none : Opens [] .pending
  | stray : header1 ≠ kMPU9150Header1Command → Opens (header1 :: rest) (.skipped rest)
  | header1 : Opens [kMPU9150Header1Command] .pending
  | unpaired : header2 ≠ kMPU9150Header2Command → Opens (kMPU9150Header1Command :: header2 :: rest) (.skipped rest)
  | header2 : Opens [kMPU9150Header1Command,kMPU9150Header2Command] .pending
  | empty : Opens (kMPU9150Header1Command :: kMPU9150Header2Command :: 0 :: rest) (.skipped rest)
  | cut : length ≠ 0 → data.length < length.toNat →
      Opens (kMPU9150Header1Command :: kMPU9150Header2Command :: length :: data) .pending
  | broken : length ≠ 0 → data.length + 1 = length.toNat →
      sum ≠ checksum (kMPU9150Header1Command :: kMPU9150Header2Command :: length :: data) →
      Opens (kMPU9150Header1Command :: kMPU9150Header2Command :: length :: (data ++ sum :: rest)) (.skipped rest)
  | packet : length ≠ 0 → data.length + 1 = length.toNat →
      sum = checksum (kMPU9150Header1Command :: kMPU9150Header2Command :: length :: data) →
      Opens (kMPU9150Header1Command :: kMPU9150Header2Command :: length :: (data ++ sum :: rest))
        (.whole (kMPU9150Header1Command :: kMPU9150Header2Command :: length :: (data ++ [sum])) rest)

theorem front_body_opens {length : UInt8} (positive : length ≠ 0) (rest : List UInt8) :
    Opens (kMPU9150Header1Command :: kMPU9150Header2Command :: length :: rest)
      (front (kMPU9150Header1Command :: kMPU9150Header2Command :: length :: rest)) := by
  have some : length.toNat ≠ 0 := fun none => positive (UInt8.toNat_inj.mp none)
  have cut := List.take_append_drop (length.toNat - 1) rest
  unfold front
  dsimp only
  rw [if_neg (not_not.mpr rfl),if_neg (not_not.mpr rfl),if_neg positive]
  cases behind : rest.drop (length.toNat - 1) with
  | nil =>
      have short := List.drop_eq_nil_iff.mp behind
      exact .cut positive (by omega)
  | cons sum rest' =>
      have room : length.toNat - 1 < rest.length := by
        have left := congrArg List.length behind
        rw [List.length_drop,List.length_cons] at left
        omega
      have counted : (rest.take (length.toNat - 1)).length + 1 = length.toNat := by
        rw [List.length_take]
        omega
      rw [behind] at cut
      rw [← cut]
      dsimp only
      rw [cut]
      by_cases matching : sum = checksum ([kMPU9150Header1Command,kMPU9150Header2Command,length] ++
          rest.take (length.toNat - 1))
      · rw [if_pos matching]
        nth_rewrite 1 [← cut]
        exact .packet positive counted matching
      · rw [if_neg matching]
        nth_rewrite 1 [← cut]
        exact .broken positive counted matching

theorem front_opens (bytes : List UInt8) : Opens bytes (front bytes) := by
  cases bytes with
  | nil => exact .none
  | cons header1 rest =>
      by_cases first : header1 = kMPU9150Header1Command
      case neg =>
        unfold front
        dsimp only
        rw [if_pos first]
        exact .stray first
      subst first
      cases rest with
      | nil => exact .header1
      | cons header2 rest =>
          by_cases second : header2 = kMPU9150Header2Command
          case neg =>
            unfold front
            dsimp only
            rw [if_neg (not_not.mpr rfl),if_pos second]
            exact .unpaired second
          subst second
          cases rest with
          | nil => exact .header2
          | cons length rest =>
              by_cases zero : length = 0
              · rw [zero]
                exact .empty
              · exact front_body_opens zero rest

theorem front_shorter {bytes rest : List UInt8} (found : front bytes = .skipped rest ∨ ∃ packet, front bytes = .whole packet rest) :
    rest.length < bytes.length := by
  have opens := front_opens bytes
  rcases found with same | ⟨packet,same⟩
  all_goals
    rw [same] at opens
    cases opens
    all_goals simp only [List.length_cons,List.length_append]; omega

-- The packets that bytes hold. A packet without data is the last one looked for.
def packetsIn (bytes : List UInt8) : List (List UInt8) :=
  match _ : front bytes with
  | .pending => []
  | .skipped rest => packetsIn rest
  | .whole packet rest => if packet.length = 4 then [packet] else packet :: packetsIn rest
termination_by bytes.length
decreasing_by
  · exact front_shorter (.inl ‹_›)
  · exact front_shorter (.inr ⟨packet,‹_›⟩)

theorem packetsIn_pending {bytes : List UInt8} (found : front bytes = .pending) : packetsIn bytes = [] := by
  rw [packetsIn]
  split <;> simp_all

theorem packetsIn_skipped {bytes rest : List UInt8} (found : front bytes = .skipped rest) :
    packetsIn bytes = packetsIn rest := by
  rw [packetsIn]
  split <;> simp_all

theorem packetsIn_whole {bytes packet rest : List UInt8} (found : front bytes = .whole packet rest) :
    packetsIn bytes = if packet.length = 4 then [packet] else packet :: packetsIn rest := by
  rw [packetsIn]
  split <;> simp_all

namespace MPU9150PacketParser

theorem scan_more {p q : MPU9150PacketParser} {input : UInt8} (taken : p.tryParse input = (.more,q)) (rest : List UInt8) :
    p.scan (input :: rest) = q.scan rest := by
  rw [scan,taken]

theorem scan_collect {p : MPU9150PacketParser} (collecting : p.state = .data) {data : List UInt8}
    (missing : p.packet.length + data.length < p.length.toNat + 2) : p.scan data = (.more,{p with packet := p.packet ++ data}) := by
  induction data generalizing p with
  | nil => rw [List.append_nil]; rfl
  | cons input data ih =>
      have grown : (p.packet ++ [input]).length = p.packet.length + 1 := List.length_append
      rw [List.length_cons] at missing
      have taken : p.tryParse input = (.more,{p with packet := p.packet ++ [input]}) := by
        simp only [tryParse,collecting]
        exact if_neg (by omega)
      rw [scan_more taken,ih (p := {p with packet := p.packet ++ [input]}) collecting (by dsimp only; omega),List.append_assoc]
      rfl

theorem scan_collected {p : MPU9150PacketParser} (collecting : p.state = .data) {data : List UInt8} (some : data ≠ [])
    (full : p.packet.length + data.length = p.length.toNat + 2) (rest : List UInt8) :
    p.scan (data ++ rest) = {p with state := .checksum,packet := p.packet ++ data}.scan rest := by
  induction data generalizing p with
  | nil => exact absurd rfl some
  | cons input data ih =>
      have grown : (p.packet ++ [input]).length = p.packet.length + 1 := List.length_append
      rw [List.length_cons] at full
      rw [List.cons_append]
      cases data with
      | nil =>
          have taken : p.tryParse input = (.more,{p with state := .checksum,packet := p.packet ++ [input]}) := by
            simp only [tryParse,collecting]
            exact if_pos (by rw [grown]; exact full)
          exact scan_more taken rest
      | cons next data =>
          have taken : p.tryParse input = (.more,{p with packet := p.packet ++ [input]}) := by
            simp only [tryParse,collecting]
            refine if_neg ?_
            rw [grown]
            rw [List.length_cons] at full
            omega
          rw [scan_more taken]
          have behind := ih (p := {p with packet := p.packet ++ [input]}) collecting (List.cons_ne_nil _ _)
            (by dsimp only; omega)
          rw [behind,List.append_assoc]
          rfl

def Between (p : MPU9150PacketParser) : Prop := p.state = .header1 ∧ p.packet = []

def opened (p : MPU9150PacketParser) (state : State) (length : UInt8) (data : List UInt8) : MPU9150PacketParser :=
  {p with state := state,length := length,packet := kMPU9150Header1Command :: kMPU9150Header2Command :: length :: data}

theorem scan_header1 {p : MPU9150PacketParser} (between : p.Between) (rest : List UInt8) :
    p.scan (kMPU9150Header1Command :: rest) = {p with state := .header2,packet := [kMPU9150Header1Command]}.scan rest := by
  rcases p with ⟨state,packet,allPackets,length,isReplyPacket⟩
  rcases between with ⟨rfl,rfl⟩
  rfl

theorem scan_headers {p : MPU9150PacketParser} (between : p.Between) (rest : List UInt8) :
    p.scan (kMPU9150Header1Command :: kMPU9150Header2Command :: rest) =
      {p with state := .length,packet := [kMPU9150Header1Command,kMPU9150Header2Command]}.scan rest := by
  rw [scan_header1 between]
  rfl

theorem scan_length {p : MPU9150PacketParser} (between : p.Between) {length : UInt8} (positive : length ≠ 0)
    (rest : List UInt8) : p.scan (kMPU9150Header1Command :: kMPU9150Header2Command :: length :: rest) =
      (p.opened (if length = 1 then .checksum else .data) length []).scan rest := by
  have above : ¬ length < 1 := by
    intro below
    apply positive
    apply UInt8.toNat_inj.mp
    exact Nat.lt_one_iff.mp below
  rw [scan_headers between]
  apply scan_more
  dsimp only [tryParse]
  rw [if_neg above]
  by_cases one : length = 1
  · rw [if_pos one,if_pos one]
    rfl
  · rw [if_neg one,if_neg one]
    rfl

theorem scan_body {p : MPU9150PacketParser} (between : p.Between) {length : UInt8} {data : List UInt8} (positive : length ≠ 0)
    (full : data.length + 1 = length.toNat) (rest : List UInt8) :
    p.scan (kMPU9150Header1Command :: kMPU9150Header2Command :: length :: (data ++ rest)) =
      (p.opened .checksum length data).scan rest := by
  rw [scan_length between positive]
  by_cases one : length = 1
  · rw [one] at full
    have none : data = [] := List.length_eq_zero_iff.mp (Nat.succ.inj full)
    rw [if_pos one,none]
    rfl
  · have some : data ≠ [] := by
      rintro rfl
      exact one (UInt8.toNat_inj.mp full.symm)
    rw [if_neg one]
    have three : (p.opened .data length []).packet.length = 3 := rfl
    have kept : (p.opened .data length []).length = length := rfl
    exact scan_collected rfl some (by rw [three,kept]; omega) rest

def Follows (p : MPU9150PacketParser) (bytes : List UInt8) : Front → Prop
  | .pending => ∃ q, p.scan bytes = (.more,q) ∧ q.allPackets = p.allPackets ∧ q.isReplyPacket = p.isReplyPacket
  | .skipped rest => ∃ length, p.scan bytes = {p with length := length}.scan rest
  | .whole packet rest => ∃ length, if packet.length = 4 then
      p.scan bytes = (.done,⟨.checksum,[],p.allPackets ++ packet,length,true⟩)
    else p.scan bytes = {p with allPackets := p.allPackets ++ packet,length := length}.scan rest

theorem cut_follows {p : MPU9150PacketParser} (between : p.Between) {length : UInt8} {data : List UInt8} (positive : length ≠ 0)
    (missing : data.length < length.toNat) :
    p.Follows (kMPU9150Header1Command :: kMPU9150Header2Command :: length :: data) .pending := by
  by_cases last : data.length + 1 = length.toNat
  · have collected := scan_body between positive last []
    rw [List.append_nil] at collected
    exact ⟨_,collected,rfl,rfl⟩
  · have long : length ≠ 1 := by
      rintro rfl
      rw [UInt8.toNat_one] at missing last
      omega
    have three : (p.opened .data length []).packet.length = 3 := rfl
    have kept : (p.opened .data length []).length = length := rfl
    have started := scan_length between positive data
    rw [if_neg long] at started
    have missing : (p.opened .data length []).packet.length + data.length < (p.opened .data length []).length.toNat + 2 := by
      rw [three,kept]
      omega
    exact ⟨_,started.trans (scan_collect rfl missing),rfl,rfl⟩

theorem packet_follows {p : MPU9150PacketParser} (between : p.Between) {length sum : UInt8} {data : List UInt8}
    (positive : length ≠ 0) (full : data.length + 1 = length.toNat)
    (right : sum = checksum (kMPU9150Header1Command :: kMPU9150Header2Command :: length :: data)) (rest : List UInt8) :
    p.Follows (kMPU9150Header1Command :: kMPU9150Header2Command :: length :: (data ++ sum :: rest))
      (.whole (kMPU9150Header1Command :: kMPU9150Header2Command :: length :: (data ++ [sum])) rest) := by
  refine ⟨length,?_⟩
  have collected := scan_body between positive full (sum :: rest)
  have size : (kMPU9150Header1Command :: kMPU9150Header2Command :: length :: (data ++ [sum])).length = length.toNat + 3 := by
    rw [List.length_cons,List.length_cons,List.length_cons,List.length_append,List.length_singleton,full]
  generalize whole : kMPU9150Header1Command :: kMPU9150Header2Command :: length :: (data ++ [sum]) = packet at size ⊢
  have accepted : (p.opened .checksum length data).tryParse sum = if length = 1 then
      (.done,⟨.checksum,[],p.allPackets ++ packet,length,true⟩)
      else (.more,⟨.header1,[],p.allPackets ++ packet,length,p.isReplyPacket⟩) := by
    rw [← whole]
    exact if_pos right
  have reply : (length.toNat + 3 = 4) = (length = 1) := by
    rw [← UInt8.toNat_inj,UInt8.toNat_one]
    exact propext ⟨fun four => Nat.add_right_cancel four,fun one => congrArg (· + 3) one⟩
  simp only [size,reply]
  by_cases one : length = 1
  · rw [if_pos one] at accepted ⊢
    rw [collected,scan,accepted]
  · rw [if_neg one] at accepted ⊢
    rw [collected,scan_more accepted,between.1,between.2]

theorem scan_follows {p : MPU9150PacketParser} (between : p.Between) {bytes : List UInt8} {f : Front} (opens : Opens bytes f) :
    p.Follows bytes f := by
  have rewound : {p with state := .header1,packet := []} = p := by
    rcases p with ⟨state,packet,allPackets,length,isReplyPacket⟩
    rcases between with ⟨rfl,rfl⟩
    rfl
  cases opens with
  | none => exact ⟨p,rfl,rfl,rfl⟩
  | header1 => exact ⟨_,scan_header1 between [],rfl,rfl⟩
  | header2 => exact ⟨_,scan_headers between [],rfl,rfl⟩
  | stray other =>
      refine ⟨p.length,scan_more ?_ _⟩
      rcases p with ⟨state,packet,allPackets,length,isReplyPacket⟩
      rcases between with ⟨rfl,rfl⟩
      exact if_neg other
  | unpaired other =>
      refine ⟨p.length,(scan_header1 between _).trans (scan_more ?_ _)⟩
      rw [tryParse]
      dsimp only
      rw [if_neg other,rewound]
  | empty =>
      refine ⟨p.length,(scan_headers between _).trans (scan_more ?_ _)⟩
      rw [tryParse]
      dsimp only
      rw [if_pos (by decide),rewound]
  | cut positive missing => exact cut_follows between positive missing
  | @broken length sum data rest positive full wrong =>
      refine ⟨length,(scan_body between positive full _).trans (scan_more ?_ _)⟩
      have rejected : (p.opened .checksum length data).tryParse sum =
          (.more,{p.opened .checksum length data with state := .header1,packet := []}) := if_neg wrong
      rw [rejected]
      exact congrArg (fun q : MPU9150PacketParser => (ParseResult.more,{q with length := length})) rewound
  | @packet length sum data rest positive full right => exact packet_follows between positive full right rest

theorem scan_records {p : MPU9150PacketParser} (between : p.Between) (bytes : List UInt8) :
    (p.scan bytes).2.allPackets = p.allPackets ++ (packetsIn bytes).flatten ∧
      (p.scan bytes).1 = (if ∃ packet ∈ packetsIn bytes, packet.length = 4 then .done else .more) ∧
      (p.scan bytes).2.isReplyPacket = (p.isReplyPacket || decide (∃ packet ∈ packetsIn bytes, packet.length = 4)) := by
  -- by induction on the number of bytes left
  induction size : bytes.length using Nat.strong_induction_on generalizing p bytes with
  | _ n ih =>
      subst size
      have opens := front_opens bytes
      cases found : front bytes with
      | pending =>
          rw [found] at opens
          obtain ⟨q,scanned,kept,unreplied⟩ := scan_follows between opens
          rw [scanned,packetsIn_pending found]
          simp [kept,unreplied]
      | skipped rest =>
          rw [found] at opens
          obtain ⟨length,scanned⟩ := scan_follows between opens
          rw [scanned,packetsIn_skipped found]
          exact ih _ (front_shorter (.inl found)) (p := {p with length := length}) between rest rfl
      | whole packet rest =>
          rw [found] at opens
          obtain ⟨length,scanned⟩ := scan_follows between opens
          rw [packetsIn_whole found]
          by_cases reply : packet.length = 4
          · rw [if_pos reply] at scanned ⊢
            rw [scanned]
            simp [reply]
          · rw [if_neg reply] at scanned ⊢
            rw [scanned]
            obtain ⟨recorded,stopped,replied⟩ := ih _ (front_shorter (.inr ⟨packet,found⟩))
              (p := {p with allPackets := p.allPackets ++ packet,length := length}) between rest rfl
            have behind : (∃ one ∈ packet :: packetsIn rest, one.length = 4) ↔ ∃ one ∈ packetsIn rest, one.length = 4 := by
              simp [reply]
            simp only [behind]
            refine ⟨recorded.trans ?_,stopped,replied⟩
            rw [List.flatten_cons,List.append_assoc]

end MPU9150PacketParser

theorem packetsIn_parts (bytes : List UInt8) :
    (packetsIn bytes).flatten.length ≤ bytes.length ∧ ∀ packet ∈ packetsIn bytes, 4 ≤ packet.length := by
  induction size : bytes.length using Nat.strong_induction_on generalizing bytes with
  | _ n ih =>
      subst size
      have opens := front_opens bytes
      cases found : front bytes with
      | pending =>
          rw [packetsIn_pending found]
          exact ⟨Nat.zero_le _,fun packet member => absurd member List.not_mem_nil⟩
      | skipped rest =>
          have shorter := front_shorter (.inl found)
          have inside := ih _ shorter rest rfl
          rw [packetsIn_skipped found]
          exact ⟨Nat.le_trans inside.1 (Nat.le_of_lt shorter),inside.2⟩
      | whole packet rest =>
          have inside := ih _ (front_shorter (.inr ⟨packet,found⟩)) rest rfl
          have split : packet.length + rest.length = bytes.length ∧ 4 ≤ packet.length := by
            rw [found] at opens
            cases opens
            simp only [List.length_cons,List.length_append,List.length_nil]
            omega
          rw [packetsIn_whole found]
          by_cases reply : packet.length = 4
          · rw [if_pos reply,List.flatten_singleton]
            refine ⟨by omega,fun one member => ?_⟩
            rw [List.mem_singleton.mp member]
            exact split.2
          · rw [if_neg reply,List.flatten_cons,List.length_append]
            refine ⟨by omega,fun one member => ?_⟩
            rcases List.mem_cons.mp member with rfl | later
            · exact split.2
            · exact inside.2 one later

end HsrbDrivers.ImuSensor

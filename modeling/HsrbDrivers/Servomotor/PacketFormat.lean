import HsrbDrivers.Servomotor.PacketParser

namespace HsrbDrivers.Servomotor
open Bytes ExxxPacketParser

-- The status packets of the protocol. The length field counts the two bytes of the
-- error status and the checksum too.
structure StatusPacket where
  id : UInt8
  length1 : UInt8
  length2 : UInt8
  error1 : UInt8
  error2 : UInt8
  parameters : List UInt8
  sized : fromLe [length1,length2] = parameters.length + 3

namespace StatusPacket

def body (m : StatusPacket) : List UInt8 :=
  0xAA :: 0x55 :: m.id :: m.length1 :: m.length2 :: m.error1 :: m.error2 :: m.parameters

def bytes (m : StatusPacket) : List UInt8 := m.body ++ [checksum (m.body.drop 2)]

end StatusPacket

namespace ExxxPacketParser

theorem lengthField_append {packet : List UInt8} (held : 5 ≤ packet.length) (more : List UInt8) :
    lengthField (packet ++ more) = lengthField packet := by
  unfold lengthField
  rw [List.drop_append_of_le_length (by omega),List.take_append_of_le_length (by rw [List.length_drop]; omega)]

-- A property of what a parser makes of the bytes to come, that asks nothing of a byte
-- the parser goes on from and is lost when it fails or there is no byte.
structure Follows (property : ExxxPacketParser → List UInt8 → Prop) : Prop where
  more : ∀ {p q input rest}, p.tryParse input = (.more,q) → (property p (input :: rest) ↔ property q rest)
  failed : ∀ {p q input rest}, p.tryParse input = (.error,q) → q.state = .parserError → ¬ property p (input :: rest)
  ended : ∀ {p}, ¬ property p []

namespace Follows

theorem byte (follows : Follows property) {p : ExxxPacketParser} (good : UInt8 → Prop) (next : UInt8 → ExxxPacketParser)
    (taken : ∀ input, good input → p.tryParse input = (.more,next input))
    (refused : ∀ input, ¬ good input → ∃ q, p.tryParse input = (.error,q) ∧ q.state = .parserError) (bytes : List UInt8) :
    property p bytes ↔ ∃ input rest, bytes = input :: rest ∧ good input ∧ property (next input) rest := by
  cases bytes with
  | nil => exact ⟨fun holds => absurd holds follows.ended,fun ⟨_,_,same,_⟩ => nomatch same⟩
  | cons input rest =>
      by_cases accepted : good input
      · rw [follows.more (taken input accepted)]
        constructor
        · intro holds
          exact ⟨input,rest,rfl,accepted,holds⟩
        · rintro ⟨_,_,same,_,holds⟩
          cases same
          exact holds
      · obtain ⟨q,stopped,failed⟩ := refused input accepted
        constructor
        · intro holds
          exact absurd holds (follows.failed stopped failed)
        · rintro ⟨_,_,same,good,_⟩
          cases same
          exact absurd good accepted

theorem anyByte (follows : Follows property) {p : ExxxPacketParser} (next : UInt8 → ExxxPacketParser)
    (taken : ∀ input, p.tryParse input = (.more,next input)) (bytes : List UInt8) :
    property p bytes ↔ ∃ input rest, bytes = input :: rest ∧ property (next input) rest := by
  rw [follows.byte (fun _ => True) next (fun input _ => taken input) (fun _ refused => absurd trivial refused)]
  simp only [true_and]

theorem parameters (follows : Follows property) (ids packet : List UInt8) (need : Nat)
    (held : 5 ≤ packet.length) (left : packet.length + need + 1 = lengthField packet + 4) (bytes : List UInt8) :
    property ⟨.data,packet,ids⟩ bytes ↔ ∃ data rest, bytes = data ++ rest ∧ data.length = need + 1 ∧
      property ⟨.checksum,packet ++ data,ids⟩ rest := by
  induction need generalizing packet bytes with
  | zero =>
      rw [follows.anyByte (fun input => ⟨.checksum,packet ++ [input],ids⟩)
        (fun input => by simp only [tryParse,push,List.length_append,List.length_singleton]; rw [if_pos (by omega)])]
      constructor
      · rintro ⟨input,rest,rfl,holds⟩
        exact ⟨[input],rest,rfl,rfl,holds⟩
      · rintro ⟨data,rest,rfl,one,holds⟩
        obtain ⟨input,rfl⟩ := List.length_eq_one_iff.mp one
        exact ⟨input,rest,rfl,holds⟩
  | succ need ih =>
      have field : ∀ input, lengthField (packet ++ [input]) = lengthField packet := fun input => lengthField_append held [input]
      have grown : ∀ input, (packet ++ [input]).length = packet.length + 1 := fun input => List.length_append
      rw [follows.anyByte (fun input => ⟨.data,packet ++ [input],ids⟩)
        (fun input => by simp only [tryParse,push,List.length_append,List.length_singleton]; rw [if_neg (by omega)])]
      constructor
      · rintro ⟨input,rest,rfl,holds⟩
        obtain ⟨data,later,rfl,size,holds⟩ := (ih (packet ++ [input]) (by rw [grown]; omega) (by rw [grown,field]; omega) rest).mp holds
        refine ⟨input :: data,later,rfl,congrArg Nat.succ size,?_⟩
        rw [← List.append_cons] at holds
        exact holds
      · rintro ⟨data,later,rfl,size,holds⟩
        cases data with
        | nil => cases size
        | cons input data =>
            refine ⟨input,data ++ later,rfl,(ih (packet ++ [input]) (by rw [grown]; omega) (by rw [grown,field]; omega) _).mpr ⟨data,later,rfl,?_,?_⟩⟩
            · exact Nat.succ.inj size
            · rw [← List.append_cons]
              exact holds

theorem status (follows : Follows property) (ids : List UInt8) (id l h e : UInt8) (least : 3 ≤ fromLe [l,h])
    (bytes : List UInt8) :
    property ⟨.errorStatus2,[0xAA,0x55,id,l,h,e],ids⟩ bytes ↔ ∃ error2 data rest, bytes = error2 :: (data ++ rest) ∧
      fromLe [l,h] = data.length + 3 ∧ property ⟨.checksum,0xAA :: 0x55 :: id :: l :: h :: e :: error2 :: data,ids⟩ rest := by
  by_cases shortest : fromLe [l,h] = 3
  · rw [follows.anyByte (p := ⟨.errorStatus2,[0xAA,0x55,id,l,h,e],ids⟩) (fun error2 => ⟨.checksum,[0xAA,0x55,id,l,h,e,error2],ids⟩)
      (fun _ => if_pos shortest)]
    constructor
    · rintro ⟨error2,rest,rfl,holds⟩
      exact ⟨error2,[],rest,rfl,shortest,holds⟩
    · rintro ⟨error2,data,rest,rfl,size,holds⟩
      obtain rfl : data = [] := List.length_eq_zero_iff.mp (by omega)
      exact ⟨error2,rest,rfl,holds⟩
  · rw [follows.anyByte (p := ⟨.errorStatus2,[0xAA,0x55,id,l,h,e],ids⟩) (fun error2 => ⟨.data,[0xAA,0x55,id,l,h,e,error2],ids⟩)
      (fun _ => if_neg shortest)]
    have data := fun error2 => follows.parameters ids [0xAA,0x55,id,l,h,e,error2] (fromLe [l,h] - 4)
      (by decide : 5 ≤ 7) (by change 7 + (fromLe [l,h] - 4) + 1 = fromLe [l,h] + 4; omega)
    constructor
    · rintro ⟨error2,rest,rfl,holds⟩
      obtain ⟨parameters,rest,rfl,size,holds⟩ := (data error2 rest).mp holds
      exact ⟨error2,parameters,rest,rfl,by omega,holds⟩
    · rintro ⟨error2,parameters,rest,rfl,size,holds⟩
      exact ⟨error2,parameters ++ rest,rfl,(data error2 _).mpr ⟨parameters,rest,rfl,by omega,holds⟩⟩

theorem body (follows : Follows property) (ids bytes : List UInt8) :
    property ⟨.header2,[0xAA],ids⟩ bytes ↔ ∃ m : StatusPacket,∃ rest, m.id ∈ ids ∧ 0xAA :: bytes = m.body ++ rest ∧
      property ⟨.checksum,m.body,ids⟩ rest := by
  have second := follows.byte (p := ⟨.header2,[0xAA],ids⟩) (· = 0x55) (fun _ => ⟨.nodeId,[0xAA,0x55],ids⟩)
    (fun input good => by rw [good]; rfl) (fun input bad => ⟨_,if_neg bad,rfl⟩)
  have node := follows.byte (p := ⟨.nodeId,[0xAA,0x55],ids⟩) (· ∈ ids) (fun id => ⟨.length1,[0xAA,0x55,id],ids⟩)
    (fun id good => if_pos good) (fun id bad => ⟨_,if_neg bad,rfl⟩)
  have length1 := fun id => follows.anyByte (p := ⟨.length1,[0xAA,0x55,id],ids⟩)
    (fun l => ⟨.length2,[0xAA,0x55,id,l],ids⟩) (fun l => rfl)
  have length2 := fun id l => follows.byte (p := ⟨.length2,[0xAA,0x55,id,l],ids⟩) (fun h => 3 ≤ fromLe [l,h])
    (fun h => ⟨.errorStatus1,[0xAA,0x55,id,l,h],ids⟩) (fun h good => if_neg (Nat.not_lt.mpr good))
    (fun h bad => ⟨_,if_pos (Nat.not_le.mp bad),rfl⟩)
  have error1 := fun id l h => follows.anyByte (p := ⟨.errorStatus1,[0xAA,0x55,id,l,h],ids⟩)
    (fun e => ⟨.errorStatus2,[0xAA,0x55,id,l,h,e],ids⟩) (fun e => rfl)
  constructor
  · intro holds
    obtain ⟨_,_,rfl,rfl,inNode⟩ := (second _).mp holds
    obtain ⟨id,_,rfl,member,inLength1⟩ := (node _).mp inNode
    obtain ⟨l,_,rfl,inLength2⟩ := (length1 _ _).mp inLength1
    obtain ⟨h,_,rfl,least,inError1⟩ := (length2 _ _ _).mp inLength2
    obtain ⟨e,_,rfl,inError2⟩ := (error1 _ _ _ _).mp inError1
    obtain ⟨error2,data,rest,rfl,size,last⟩ := (follows.status ids id l h e least _).mp inError2
    exact ⟨⟨id,l,h,e,error2,data,size⟩,rest,member,rfl,last⟩
  · rintro ⟨⟨id,l,h,e,error2,data,size⟩,rest,member,split,last⟩
    obtain rfl := (List.cons.inj split).2
    have inError2 := (follows.status ids id l h e (by omega) _).mpr ⟨error2,data,rest,rfl,size,last⟩
    have inLength2 := (length2 id l _).mpr ⟨h,_,rfl,by omega,(error1 id l h _).mpr ⟨e,_,rfl,inError2⟩⟩
    exact (second _).mpr ⟨_,_,rfl,rfl,(node _).mpr ⟨id,_,rfl,member,(length1 id _).mpr ⟨l,_,rfl,inLength2⟩⟩⟩

end Follows

-- The bytes are taken one after the other and the last of them completes a packet.
def Accepts (p : ExxxPacketParser) (bytes : List UInt8) : Prop :=
  (p.feed bytes).1 = List.replicate (bytes.length - 1) .more ++ [.done]

-- A packet is completed after a byte was refused.
def Relapses (p : ExxxPacketParser) (bytes : List UInt8) : Prop := List.Sublist [.error,.done] (p.feed bytes).1

theorem accepts_cons (p : ExxxPacketParser) (input : UInt8) (rest : List UInt8) :
    p.Accepts (input :: rest) ↔
      (p.tryParse input).1 = .done ∧ rest = [] ∨ (p.tryParse input).1 = .more ∧ (p.tryParse input).2.Accepts rest := by
  unfold Accepts
  rw [feed_cons]
  cases rest with
  | nil => simp
  | cons next rest => simp [List.replicate_succ]

theorem accepts_follows : Follows Accepts where
  more := by
    intro p q input rest parsed
    rw [accepts_cons,parsed]
    simp
  failed := by
    intro p q input rest parsed _ accepted
    rw [accepts_cons,parsed] at accepted
    simp at accepted
  ended := by
    intro p accepted
    simp [Accepts] at accepted

theorem relapse_cons {status : Status} (fine : status ≠ .error) (statuses : List Status) :
    List.Sublist [.error,.done] (status :: statuses) ↔ List.Sublist [.error,.done] statuses := by
  constructor
  · intro found
    rcases List.sublist_cons_iff.mp found with later | ⟨_,same,_⟩
    · exact later
    · exact absurd (List.cons.inj same).1.symm fine
  · intro later
    exact later.cons status

theorem relapses_follows : Follows Relapses where
  more := by
    intro p q input rest parsed
    unfold Relapses
    rw [feed_cons,parsed]
    have fine : Status.more ≠ .error := by decide
    exact relapse_cons fine _
  failed := by
    intro p q input rest parsed failed found
    have completed : .done ∈ (p.feed (input :: rest)).1 := found.subset (List.mem_cons_of_mem _ List.mem_cons_self)
    rw [feed_cons,parsed,feed_parserError failed] at completed
    rcases List.mem_cons.mp completed with same | later
    · cases same
    · cases List.eq_of_mem_replicate later
  ended := by
    intro p found
    cases found

theorem feed_wrong {packet ids : List UInt8} {wrongs : List UInt8} (wrong : Servomotor.checksum (packet.drop 2) ∉ wrongs) :
    feed ⟨.checksum,packet,ids⟩ wrongs = (List.replicate wrongs.length .error,⟨.checksum,packet,ids⟩) := by
  induction wrongs with
  | nil => rfl
  | cons input rest ih =>
      have other := List.ne_of_not_mem_cons wrong
      have others := List.not_mem_of_not_mem_cons wrong
      have refused : tryParse ⟨.checksum,packet,ids⟩ input = (.error,⟨.checksum,packet,ids⟩) := if_neg (Ne.symm other)
      rw [feed_cons,refused]
      dsimp only
      rw [ih others]
      rfl

theorem feed_completed {packet ids : List UInt8} (held : 2 ≤ packet.length) (zero : Servomotor.checksum (packet.drop 2) = 0)
    (bytes : List UInt8) :
    (feed ⟨.checksum,packet,ids⟩ bytes).1 = bytes.map (fun input => if input = 0 then Status.done else .error) := by
  induction bytes generalizing packet with
  | nil => rfl
  | cons input rest ih =>
      rw [feed_cons,List.map_cons]
      by_cases right : input = 0
      · have done : tryParse ⟨.checksum,packet,ids⟩ input = (.done,⟨.checksum,packet ++ [input],ids⟩) := if_pos (right.trans zero.symm)
        have still : Servomotor.checksum ((packet ++ [input]).drop 2) = 0 := by
          rw [List.drop_append_of_le_length held,right,checksum_zero,zero]
        rw [done,ih (by rw [List.length_append]; omega) still,if_pos right]
      · have refused : tryParse ⟨.checksum,packet,ids⟩ input = (.error,⟨.checksum,packet,ids⟩) :=
          if_neg (fun same => right (same.trans zero))
        rw [refused,ih held zero,if_neg right]

theorem accepts_checksum (packet ids bytes : List UInt8) :
    Accepts ⟨.checksum,packet,ids⟩ bytes ↔ bytes = [Servomotor.checksum (packet.drop 2)] := by
  cases bytes with
  | nil => simp [Accepts]
  | cons input rest =>
      rw [accepts_cons]
      by_cases right : input = Servomotor.checksum (packet.drop 2)
      · simp [tryParse,right]
      · simp [tryParse,right]

-- A tail that redeems a refused packet: the checksum comes behind a byte that is not it,
-- or behind the checksum, where zero is awaited, a zero comes behind another byte.
def Redeems (expected : UInt8) (tail : List UInt8) : Prop :=
  ∃ before after, tail = before ++ expected :: after ∧ expected ∉ before ∧
    (before ≠ [] ∨ ∃ wrong, wrong ≠ 0 ∧ List.Sublist [wrong,0] after)

theorem relapses_zero (ids packet : List UInt8) (held : 2 ≤ packet.length)
    (zero : Servomotor.checksum (packet.drop 2) = 0) (bytes : List UInt8) :
    Relapses ⟨.checksum,packet,ids⟩ bytes ↔ ∃ wrong, wrong ≠ 0 ∧ List.Sublist [wrong,0] bytes := by
  unfold Relapses
  rw [feed_completed held zero,List.sublist_map_iff]
  constructor
  · rintro ⟨picked,inside,same⟩
    obtain ⟨wrong,last,rfl⟩ := List.length_eq_two.mp (by rw [← List.length_map,← same]; rfl)
    have first : (if wrong = 0 then Status.done else .error) = .error := (List.cons.inj same).1.symm
    have second : (if last = 0 then Status.done else .error) = .done := (List.cons.inj (List.cons.inj same).2).1.symm
    have other : wrong ≠ 0 := by
      intro right
      rw [if_pos right] at first
      cases first
    have right : last = 0 := by
      by_contra other
      rw [if_neg other] at second
      cases second
    rw [right] at inside
    exact ⟨wrong,other,inside⟩
  · rintro ⟨wrong,other,inside⟩
    exact ⟨[wrong,0],inside,by rw [List.map_cons,List.map_cons,if_neg other,if_pos rfl]; rfl⟩

theorem relapses_checksum {packet ids : List UInt8} (held : 2 ≤ packet.length) (tail : List UInt8) :
    Relapses ⟨.checksum,packet,ids⟩ tail ↔ Redeems (Servomotor.checksum (packet.drop 2)) tail := by
  generalize expectedEq : Servomotor.checksum (packet.drop 2) = expected
  have split : ∀ before after, expected ∉ before → (Relapses ⟨.checksum,packet,ids⟩ (before ++ expected :: after) ↔
      (before ≠ [] ∨ ∃ wrong, wrong ≠ 0 ∧ List.Sublist [wrong,0] after)) := by
    intro before after absent
    have done : tryParse ⟨.checksum,packet,ids⟩ expected = (.done,⟨.checksum,packet ++ [expected],ids⟩) :=
      if_pos expectedEq.symm
    have closed : Servomotor.checksum ((packet ++ [expected]).drop 2) = 0 := by
      rw [List.drop_append_of_le_length held,← expectedEq]
      exact checksum_closed _
    have later := relapses_zero ids (packet ++ [expected]) (by rw [List.length_append]; omega) closed after
    unfold Relapses at later ⊢
    rw [feed_append,feed_wrong (by rw [expectedEq]; exact absent)]
    dsimp only
    rw [feed_cons,done,← later]
    dsimp only
    cases before with
    | nil =>
        refine (relapse_cons (by decide) _).trans ⟨.inr,fun redeemed => ?_⟩
        rcases redeemed with some | relapsed
        · exact absurd rfl some
        · exact relapsed
    | cons wrong before =>
        refine iff_of_true ?_ (.inl (List.cons_ne_nil _ _))
        apply List.Sublist.cons_cons
        exact List.singleton_sublist.mpr (List.mem_append_right _ List.mem_cons_self)
  constructor
  · intro relapses
    by_cases present : expected ∈ tail
    · obtain ⟨before,after,rfl,absent⟩ := List.eq_append_cons_of_mem present
      exact ⟨before,after,rfl,absent,(split before after absent).mp relapses⟩
    · have completed : Status.done ∈ (feed ⟨.checksum,packet,ids⟩ tail).1 :=
        relapses.subset (List.mem_cons_of_mem _ List.mem_cons_self)
      rw [feed_wrong (by rw [expectedEq]; exact present)] at completed
      cases List.eq_of_mem_replicate completed
  · rintro ⟨before,after,rfl,absent,redeemed⟩
    exact (split before after absent).mpr redeemed

theorem feed_noise {ids noise : List UInt8} (silent : 0xAA ∉ noise) :
    feed ⟨.header1,[],ids⟩ noise = (List.replicate noise.length .error,⟨.header1,[],ids⟩) := by
  induction noise with
  | nil => rfl
  | cons input rest ih =>
      have refused : tryParse ⟨.header1,[],ids⟩ input = (.error,⟨.header1,[],ids⟩) :=
        if_neg (List.ne_of_not_mem_cons silent).symm
      rw [feed_cons,refused]
      dsimp only
      rw [ih (List.not_mem_of_not_mem_cons silent)]
      rfl

def RelapsesAfterHeader (p : ExxxPacketParser) (bytes : List UInt8) : Prop :=
  List.Sublist [.more,.error,.done] (p.feed bytes).1

theorem relapsesAfterHeader_iff (ids bytes : List UInt8) :
    RelapsesAfterHeader ⟨.header1,[],ids⟩ bytes ↔ ∃ noise rest, bytes = noise ++ 0xAA :: rest ∧ 0xAA ∉ noise ∧
      Relapses ⟨.header2,[0xAA],ids⟩ rest := by
  have split : ∀ noise rest, 0xAA ∉ noise →
      (RelapsesAfterHeader ⟨.header1,[],ids⟩ (noise ++ 0xAA :: rest) ↔ Relapses ⟨.header2,[0xAA],ids⟩ rest) := by
    intro noise rest silent
    have led : tryParse ⟨.header1,[],ids⟩ 0xAA = (.more,⟨.header2,[0xAA],ids⟩) := rfl
    unfold RelapsesAfterHeader Relapses
    rw [feed_append,feed_noise silent]
    dsimp only
    rw [feed_cons,led]
    constructor
    · intro found
      obtain ⟨front,back,same,inNoise,inRest⟩ := List.sublist_append_iff.mp found
      cases front with
      | nil =>
          rw [List.nil_append] at same
          rw [← same] at inRest
          exact List.cons_sublist_cons.mp inRest
      | cons status front =>
          have first := (List.cons.inj same).1
          have refused := List.eq_of_mem_replicate (inNoise.subset List.mem_cons_self)
          cases first.trans refused
    · intro found
      exact (List.cons_sublist_cons.mpr found).trans (List.sublist_append_right _ _)
  constructor
  · intro found
    by_cases present : 0xAA ∈ bytes
    · obtain ⟨noise,rest,rfl,silent⟩ := List.eq_append_cons_of_mem present
      exact ⟨noise,rest,rfl,silent,(split noise rest silent).mp found⟩
    · have led : .more ∈ (feed ⟨.header1,[],ids⟩ bytes).1 := found.subset List.mem_cons_self
      rw [feed_noise present] at led
      cases List.eq_of_mem_replicate led
  · rintro ⟨noise,rest,rfl,silent,relapses⟩
    exact (split noise rest silent).mpr relapses

theorem accepts_reset (ids bytes : List UInt8) :
    Accepts ⟨.header1,[],ids⟩ bytes ↔ ∃ m : StatusPacket, m.id ∈ ids ∧ bytes = m.bytes := by
  cases bytes with
  | nil => simp [Accepts,StatusPacket.bytes]
  | cons input rest =>
      rw [accepts_cons]
      by_cases lead : input = 0xAA
      · have led : tryParse ⟨.header1,[],ids⟩ input = (.more,⟨.header2,[0xAA],ids⟩) := by rw [lead]; rfl
        rw [led,lead]
        simp only [reduceCtorEq,false_and,true_and,false_or]
        rw [accepts_follows.body]
        constructor
        · rintro ⟨m,tail,member,same,last⟩
          exact ⟨m,member,same.trans (congrArg _ ((accepts_checksum _ _ _).mp last))⟩
        · rintro ⟨m,member,same⟩
          exact ⟨m,_,member,same,(accepts_checksum _ _ _).mpr rfl⟩
      · have refused : tryParse ⟨.header1,[],ids⟩ input = (.error,⟨.header1,[],ids⟩) := if_neg lead
        rw [refused]
        constructor
        · rintro (⟨same,_⟩ | ⟨same,_⟩) <;> cases same
        · rintro ⟨m,_,same⟩
          exact absurd (List.cons.inj same).1 lead

theorem feed_packet {p : ExxxPacketParser} {bytes : List UInt8} (fine : Status.error ∉ (p.feed bytes).1) :
    (p.feed bytes).2.packet = p.packet ++ bytes := by
  induction bytes generalizing p with
  | nil => exact (List.append_nil _).symm
  | cons input rest ih =>
      rw [feed_cons] at fine ⊢
      have first := List.ne_of_not_mem_cons fine
      rw [ih (List.not_mem_of_not_mem_cons fine),(tryParse_parts p input).2 first.symm,← List.append_cons]

theorem accepts_fine {p : ExxxPacketParser} {bytes : List UInt8} (accepted : p.Accepts bytes) :
    Status.error ∉ (p.feed bytes).1 := by
  intro refused
  rw [accepted] at refused
  rcases List.mem_append.mp refused with early | last
  · cases List.eq_of_mem_replicate early
  · cases List.mem_singleton.mp last

-- What the parser is to do with the bytes fed after a reset: complete exactly the status
-- packets of its ids, hold the packet then, and stay failed once it has failed.
def ParsesFormat (p : ExxxPacketParser) (bytes : List UInt8) : Prop :=
  (p.reset.Accepts bytes ↔ ∃ m : StatusPacket, m.id ∈ p.validIds ∧ bytes = m.bytes) ∧
    (p.reset.Accepts bytes → (p.reset.feed bytes).2.packet = bytes) ∧ ¬ p.reset.RelapsesAfterHeader bytes

-- A body of one of the ids, behind noise without a header byte, is followed by a wrong
-- checksum and then by the right one.
def Corrected (ids bytes : List UInt8) : Prop :=
  ∃ noise tail, ∃ m : StatusPacket, bytes = noise ++ m.body ++ tail ∧ 0xAA ∉ noise ∧ m.id ∈ ids ∧
    Redeems (Servomotor.checksum (m.body.drop 2)) tail

theorem relapsesAfterHeader_corrected (ids bytes : List UInt8) :
    RelapsesAfterHeader ⟨.header1,[],ids⟩ bytes ↔ Corrected ids bytes := by
  have long : ∀ m : StatusPacket, 2 ≤ m.body.length := fun m => Nat.le_add_left 2 _
  rw [relapsesAfterHeader_iff]
  constructor
  · rintro ⟨noise,rest,rfl,silent,relapses⟩
    obtain ⟨m,tail,member,same,redeemed⟩ := (relapses_follows.body ids rest).mp relapses
    exact ⟨noise,tail,m,by rw [same,List.append_assoc],silent,member,(relapses_checksum (long m) tail).mp redeemed⟩
  · rintro ⟨noise,tail,m,rfl,silent,member,redeemed⟩
    have relapses : Relapses ⟨.checksum,m.body,ids⟩ tail := (relapses_checksum (long m) tail).mpr redeemed
    exact ⟨noise,m.body.tail ++ tail,by rw [List.append_assoc]; rfl,silent,
      (relapses_follows.body ids _).mpr ⟨m,tail,member,rfl,relapses⟩⟩

theorem parser_format_iff (p : ExxxPacketParser) (bytes : List UInt8) :
    p.ParsesFormat bytes ↔ ¬ Corrected p.validIds bytes := by
  have held : p.reset.Accepts bytes → (p.reset.feed bytes).2.packet = bytes := by
    intro accepted
    exact (feed_packet (accepts_fine accepted)).trans (List.nil_append _)
  rw [← relapsesAfterHeader_corrected]
  constructor
  · rintro ⟨_,_,failed⟩
    exact failed
  · intro failed
    exact ⟨accepts_reset _ _,held,failed⟩

theorem parser_corrected :
    ¬ ParsesFormat (initial.addId 1) [0xAA,0x55,0x01,0x03,0x00,0x00,0x00,0x20,0xFB] := by
  rintro ⟨_,_,failed⟩
  have relapses : RelapsesAfterHeader (initial.addId 1).reset [0xAA,0x55,0x01,0x03,0x00,0x00,0x00,0x20,0xFB] := by
    unfold RelapsesAfterHeader
    decide
  exact failed relapses

end ExxxPacketParser
end HsrbDrivers.Servomotor

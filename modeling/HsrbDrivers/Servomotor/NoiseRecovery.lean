import HsrbDrivers.Servomotor.Network

namespace HsrbDrivers.Servomotor
open Bytes ExxxPacketParser ExxxNetwork

namespace StatusPacket

def status (m : StatusPacket) : ErrorCode :=
  if fromLe [m.error1,m.error2] ≠ 0 then ⟨.exxxWarning,fromLe [m.error1,m.error2]⟩ else .success

theorem parameterSize (m : StatusPacket) {parser : ExxxPacketParser} (held : parser.packet = m.bytes) :
    (lengthField parser.packet + 2^16 - (kErrorBytes + kChecksumBytes)) % 2^16 = m.parameters.length := by
  have small := fromLe_lt [m.length1,m.length2]
  have field : lengthField parser.packet = fromLe [m.length1,m.length2] := by rw [held]; rfl
  rw [m.sized,List.length_cons,List.length_singleton] at small
  rw [field,m.sized,kErrorBytes,kChecksumBytes]
  omega

theorem deliver_packet (m : StatusPacket) (capacity : Nat) (dataOut : List UInt8) {parser : ExxxPacketParser}
    (held : parser.packet = m.bytes) (fits : m.parameters.length ≤ capacity) :
    deliver capacity dataOut parser = ⟨m.status,m.parameters,parser⟩ := by
  have read : (parser.packet.drop 7).take m.parameters.length = m.parameters := by
    rw [held]
    exact List.take_left
  have error : fromLe ((parser.packet.drop 5).take 2) = fromLe [m.error1,m.error2] := by rw [held]; rfl
  simp only [deliver,m.parameterSize held,read,error]
  rw [if_neg (Nat.not_lt.mpr fits),status]
  split <;> rfl

theorem deliver_overflow (m : StatusPacket) {capacity : Nat} (dataOut : List UInt8) {parser : ExxxPacketParser}
    (held : parser.packet = m.bytes) (small : capacity < m.parameters.length) :
    deliver capacity dataOut parser = ⟨.noBufferSpace,dataOut,parser⟩ := by
  simp only [deliver,m.parameterSize held,gt_iff_lt,if_pos small]

theorem status_ne_timedOut (m : StatusPacket) : m.status ≠ .timedOut := by
  unfold status
  split
  · exact fun same => nomatch congrArg ErrorCode.category same
  · decide

theorem bytes_length (m : StatusPacket) : m.bytes.length = m.parameters.length + 8 := by
  rw [bytes,List.length_append]
  rfl

end StatusPacket

-- Noise that the receive loop throws away piece by piece: each byte that cannot go on with
-- a header is discarded with what came before it.
inductive Discarded (id : UInt8) : List UInt8 → Prop where
  | nil : Discarded id []
  | first : b ≠ 0xAA → Discarded id rest → Discarded id (b :: rest)
  | second : b ≠ 0x55 → Discarded id rest → Discarded id (0xAA :: b :: rest)
  | third : b ≠ id → Discarded id rest → Discarded id (0xAA :: 0x55 :: b :: rest)

-- No complete header begins in the noise, be it in part in the packet.
def Clear (id : UInt8) (noise packet : List UInt8) : Prop :=
  ∀ before after, noise ++ packet = before ++ [0xAA,0x55,id] ++ after → noise.length ≤ before.length

def Delivers (timeout start : Int) : Int → List Turn → List UInt8 → Prop
  | _,[],bytes => bytes = []
  | elapsed,turn :: turns,bytes => elapsed - start < timeout ∧ elapsed ≤ turn.now ∧ ∃ chunk rest,
    turn.arrival = .read chunk ∧ bytes = chunk.bytes ++ rest ∧ Delivers timeout start turn.now turns rest

theorem scan_append (parser : ExxxPacketParser) (one two : List UInt8) :
    scan parser (one ++ two) = if (scan parser one).1 then scan parser one else scan (scan parser one).2 two := by
  induction one generalizing parser with
  | nil => rfl
  | cons input rest ih =>
      rw [List.cons_append,scan,scan]
      rcases parsed : parser.tryParse input with ⟨status,next⟩
      cases status with
      | error => exact ih next.reset
      | more => exact ih next
      | done => rfl

theorem receiveLoop_delivers {timeout start elapsed : Int} {turns : List Turn} {bytes : List UInt8}
    (delivered : Delivers timeout start elapsed turns bytes) (capacity : Nat) (dataOut : List UInt8) {p q : ExxxPacketParser} :
    (scan p bytes = (true,q) → ∀ later, receiveLoop timeout start capacity dataOut elapsed p (turns ++ later) =
      some (deliver capacity dataOut q)) ∧
    (scan p bytes = (false,q) → ∀ received, receiveLoop timeout start capacity dataOut elapsed p turns = some received →
      received = ⟨.timedOut,dataOut,q⟩) := by
  induction turns generalizing elapsed bytes p with
  | nil =>
      cases delivered
      refine ⟨fun scanned => absurd scanned (by simp [scan]),fun scanned received returned => ?_⟩
      cases scanned
      simp only [receiveLoop] at returned
      split at returned
      · cases returned
      · exact (Option.some.inj returned).symm
  | cons turn turns ih =>
      obtain ⟨inTime,forward,chunk,rest,read,rfl,delivered⟩ := delivered
      have turned : ∀ later, receiveLoop timeout start capacity dataOut elapsed p (turn :: later) =
          if (scan p chunk.bytes).1 then some (deliver capacity dataOut (scan p chunk.bytes).2) else
          receiveLoop timeout start capacity dataOut turn.now (scan p chunk.bytes).2 later := by
        intro later
        rw [receiveLoop,if_neg (not_not.mpr inTime),read]
        dsimp only
        rcases scan p chunk.bytes with ⟨found,next⟩
        cases found with
        | true => rfl
        | false => exact if_neg (Int.not_lt.mpr forward)
      rw [scan_append]
      rcases scanned : scan p chunk.bytes with ⟨found,next⟩
      cases found with
      | true =>
          refine ⟨fun same later => ?_,fun same => absurd same (by simp)⟩
          cases same
          rw [List.cons_append,turned,scanned]
          rfl
      | false =>
          obtain ⟨completes,waits⟩ := ih delivered (p := next)
          refine ⟨fun same later => ?_,fun same received => ?_⟩
          · rw [List.cons_append,turned,scanned]
            exact completes same later
          · rw [turned,scanned]
            exact waits same received

theorem scan_accepts {p : ExxxPacketParser} {bytes : List UInt8} (accepted : p.Accepts bytes) :
    scan p bytes = (true,(p.feed bytes).2) := by
  induction bytes generalizing p with
  | nil => exact absurd accepted accepts_follows.ended
  | cons input rest ih =>
      rw [scan,feed_cons]
      rcases parsed : p.tryParse input with ⟨status,next⟩
      rw [accepts_cons,parsed] at accepted
      rcases accepted with ⟨done,none⟩ | ⟨more,accepted⟩
      · cases done
        cases none
        rfl
      · cases more
        exact ih accepted

theorem feed_ids (p : ExxxPacketParser) (bytes : List UInt8) : (p.feed bytes).2.validIds = p.validIds := by
  induction bytes generalizing p with
  | nil => rfl
  | cons input rest ih => exact (ih _).trans (tryParse_parts p input).1

theorem scan_completed {ids : List UInt8} {bytes : List UInt8} {q : ExxxPacketParser}
    (completed : scan ⟨.header1,[],ids⟩ bytes = (true,q)) :
    ∃ before piece after, bytes = before ++ piece ++ after ∧ Accepts ⟨.header1,[],ids⟩ piece ∧ q.packet = piece := by
  suffices pieces : ∀ bytes started, (feed ⟨.header1,[],ids⟩ started).1 = List.replicate started.length .more →
      scan (feed ⟨.header1,[],ids⟩ started).2 bytes = (true,q) → ∃ before piece after,
      started ++ bytes = before ++ piece ++ after ∧ Accepts ⟨.header1,[],ids⟩ piece ∧ q.packet = piece from
    pieces bytes [] rfl completed
  intro bytes
  induction bytes with
  | nil =>
      intro started _ scanned
      cases scanned
  | cons input rest ih =>
      intro started going scanned
      rw [scan] at scanned
      rcases parsed : (feed ⟨.header1,[],ids⟩ started).2.tryParse input with ⟨status,next⟩
      have stepped : feed ⟨.header1,[],ids⟩ (started ++ [input]) = (List.replicate started.length .more ++ [status],next) := by
        rw [feed_append,going,feed_cons,parsed]
        rfl
      rw [parsed] at scanned
      cases status with
      | more =>
          obtain ⟨before,piece,after,same,accepted,held⟩ := ih (started ++ [input])
            (by rw [stepped,List.length_append]; exact List.replicate_succ'.symm) (by rw [stepped]; exact scanned)
          exact ⟨before,piece,after,by rw [← same,List.append_assoc]; rfl,accepted,held⟩
      | error =>
          have sameIds : next.validIds = ids := by
            have kept := tryParse_parts (feed ⟨.header1,[],ids⟩ started).2 input
            rw [parsed] at kept
            exact kept.1.trans (feed_ids _ started)
          have fresh : next.reset = ⟨.header1,[],ids⟩ := by rw [ExxxPacketParser.reset,sameIds]
          obtain ⟨before,piece,after,same,accepted,held⟩ := ih [] rfl (by rw [← fresh]; exact scanned)
          rw [List.nil_append] at same
          exact ⟨started ++ input :: before,piece,after,by simp [same],accepted,held⟩
      | done =>
          cases scanned
          have accepted : Accepts ⟨.header1,[],ids⟩ (started ++ [input]) := by
            rw [Accepts,stepped,List.length_append]
            rfl
          refine ⟨[],started ++ [input],rest,by simp,accepted,?_⟩
          have collected := feed_packet (p := ⟨.header1,[],ids⟩) (accepts_fine accepted)
          rw [stepped] at collected
          exact collected

-- What a scan of noise comes to: all of it is thrown away, or one or two bytes are held
-- at its end that a header may begin with.
def Residue (id : UInt8) (noise : List UInt8) : Prop :=
  Discarded id noise ∧ scan ⟨.header1,[],[id]⟩ noise = (false,⟨.header1,[],[id]⟩) ∨
  ¬ Discarded id noise ∧
    ((∃ before, noise = before ++ [0xAA]) ∧ scan ⟨.header1,[],[id]⟩ noise = (false,⟨.header2,[0xAA],[id]⟩) ∨
    (∃ before, noise = before ++ [0xAA,0x55]) ∧ scan ⟨.header1,[],[id]⟩ noise = (false,⟨.nodeId,[0xAA,0x55],[id]⟩))

theorem Residue.piece {id : UInt8} {piece rest : List UInt8} (residue : Residue id rest)
    (thrown : scan ⟨.header1,[],[id]⟩ piece = (false,⟨.header1,[],[id]⟩))
    (same : Discarded id (piece ++ rest) ↔ Discarded id rest) : Residue id (piece ++ rest) := by
  have scanned : scan ⟨.header1,[],[id]⟩ (piece ++ rest) = scan ⟨.header1,[],[id]⟩ rest := by
    rw [scan_append,thrown]
    rfl
  have longer : ∀ last, (∃ before, rest = before ++ last) → ∃ before, piece ++ rest = before ++ last := by
    rintro last ⟨before,rfl⟩
    exact ⟨piece ++ before,(List.append_assoc _ _ _).symm⟩
  unfold Residue
  rw [scanned,same]
  rcases residue with discarded | ⟨kept,⟨last,ends⟩ | ⟨last,ends⟩⟩
  · exact .inl discarded
  · exact .inr ⟨kept,.inl ⟨longer _ last,ends⟩⟩
  · exact .inr ⟨kept,.inr ⟨longer _ last,ends⟩⟩

theorem discarded_first {id b : UInt8} {rest : List UInt8} (other : b ≠ 0xAA) :
    Discarded id ([b] ++ rest) ↔ Discarded id rest := by
  refine ⟨fun discarded => ?_,.first other⟩
  cases discarded with
  | first _ later => exact later
  | second => exact absurd rfl other
  | third => exact absurd rfl other

theorem discarded_second {id b : UInt8} {rest : List UInt8} (other : b ≠ 0x55) :
    Discarded id ([0xAA,b] ++ rest) ↔ Discarded id rest := by
  refine ⟨fun discarded => ?_,.second other⟩
  cases discarded with
  | first lead => exact absurd rfl lead
  | second _ later => exact later
  | third => exact absurd rfl other

theorem discarded_third {id b : UInt8} {rest : List UInt8} (other : b ≠ id) :
    Discarded id ([0xAA,0x55,b] ++ rest) ↔ Discarded id rest := by
  refine ⟨fun discarded => ?_,.third other⟩
  cases discarded with
  | first lead => exact absurd rfl lead
  | second lead => exact absurd rfl lead
  | third _ later => exact later

theorem scan_noise {id : UInt8} {noise : List UInt8} (clear : ∀ before after, noise ≠ before ++ [0xAA,0x55,id] ++ after) :
    Residue id noise := by
  induction size : noise.length using Nat.strong_induction_on generalizing noise with
  | _ n ih =>
      subst size
      have behind : ∀ piece rest, noise = piece ++ rest → piece ≠ [] → Residue id rest := by
        intro piece rest split some
        refine ih rest.length ?_ (fun before after same => ?_) rfl
        · rw [split,List.length_append]
          exact Nat.lt_add_of_pos_left (List.length_pos_iff.mpr some)
        · exact clear (piece ++ before) after (by simp [split,same])
      cases noise with
      | nil => exact .inl ⟨.nil,rfl⟩
      | cons b rest =>
          by_cases first : b = 0xAA
          · subst first
            cases rest with
            | nil =>
                have kept : ¬ Discarded id [0xAA] := fun discarded => by
                  cases discarded with
                  | first lead => exact lead rfl
                exact .inr ⟨kept,.inl ⟨⟨[],rfl⟩,rfl⟩⟩
            | cons c rest =>
                by_cases second : c = 0x55
                · subst second
                  cases rest with
                  | nil =>
                      have kept : ¬ Discarded id [0xAA,0x55] := fun discarded => by
                        cases discarded with
                        | first lead => exact lead rfl
                        | second lead => exact lead rfl
                      exact .inr ⟨kept,.inr ⟨⟨[],rfl⟩,rfl⟩⟩
                  | cons d rest =>
                      have third : d ≠ id := fun same => clear [] rest (by rw [same]; rfl)
                      have thrown : scan ⟨.header1,[],[id]⟩ [0xAA,0x55,d] = (false,⟨.header1,[],[id]⟩) := by
                        simp [scan,tryParse,push,third,reset]
                      exact (behind [0xAA,0x55,d] rest rfl (List.cons_ne_nil _ _)).piece thrown (discarded_third third)
                · have thrown : scan ⟨.header1,[],[id]⟩ [0xAA,c] = (false,⟨.header1,[],[id]⟩) := by
                    simp [scan,tryParse,push,second,reset]
                  exact (behind [0xAA,c] rest rfl (List.cons_ne_nil _ _)).piece thrown (discarded_second second)
          · have thrown : scan ⟨.header1,[],[id]⟩ [b] = (false,⟨.header1,[],[id]⟩) := by
              simp [scan,tryParse,first,reset]
            exact (behind [b] rest rfl (List.cons_ne_nil _ _)).piece thrown (discarded_first first)

def Finds (n : ExxxNetwork) (m : StatusPacket) (capacity : Nat) (dataOut : List UInt8) (start : Int) (turns : List Turn) : Prop :=
  ∀ later, ∃ received, n.receive m.id capacity dataOut start (turns ++ later) = some received ∧
    received.code = m.status ∧ received.dataOut = m.parameters

theorem scan_short {m : StatusPacket} {bytes : List UInt8} {q : ExxxPacketParser} {id : UInt8} (capacity : Nat) (dataOut : List UInt8)
    (short : bytes.length < m.bytes.length) (fits : m.parameters.length ≤ capacity)
    (completed : scan ⟨.header1,[],[id]⟩ bytes = (true,q)) : (deliver capacity dataOut q).dataOut ≠ m.parameters := by
  obtain ⟨before,piece,after,rfl,accepted,held⟩ := scan_completed completed
  obtain ⟨other,_,rfl⟩ := (accepts_reset [id] piece).mp accepted
  rw [List.length_append,List.length_append,other.bytes_length,m.bytes_length] at short
  rw [other.deliver_packet capacity dataOut held (by omega)]
  intro same
  have sizes : other.parameters.length = m.parameters.length := congrArg List.length same
  omega

theorem receive_finds_iff (n : ExxxNetwork) (m : StatusPacket) (noise : List UInt8) (capacity : Nat) (dataOut : List UInt8)
    (start : Int) (turns : List Turn) (fits : m.parameters.length ≤ capacity) (clear : Clear m.id noise m.bytes)
    (delivered : Delivers n.timeout start start turns (noise ++ m.bytes)) :
    Finds n m capacity dataOut start turns ↔ Discarded m.id noise := by
  have accepted : Accepts ⟨.header1,[],[m.id]⟩ m.bytes := (accepts_reset _ _).mpr ⟨m,List.mem_singleton_self _,rfl⟩
  have collected := (feed_packet (accepts_fine accepted)).trans (List.nil_append m.bytes)
  have runs := fun q => receiveLoop_delivers delivered capacity dataOut (p := ⟨.header1,[],[m.id]⟩) (q := q)
  have clearNoise : ∀ before after, noise ≠ before ++ [0xAA,0x55,m.id] ++ after := by
    rintro before after same
    have early := clear before (after ++ m.bytes) (by rw [same]; simp)
    rw [same] at early
    simp at early
  rcases scan_noise clearNoise with ⟨discarded,thrown⟩ | ⟨kept,residue⟩
  · have scanned : scan ⟨.header1,[],[m.id]⟩ (noise ++ m.bytes) = (true,(feed ⟨.header1,[],[m.id]⟩ m.bytes).2) := by
      rw [scan_append,thrown]
      exact scan_accepts accepted
    refine iff_of_true (fun later => ?_) discarded
    have answer := m.deliver_packet capacity dataOut collected fits
    exact ⟨_,(runs _).1 scanned later,by rw [answer],by rw [answer]⟩
  · refine iff_of_false (fun finds => ?_) kept
    have scanned : scan ⟨.header1,[],[m.id]⟩ (noise ++ m.bytes) = scan ⟨.header1,[],[m.id]⟩ m.bytes.tail := by
      rcases residue with ⟨_,ends⟩ | ⟨⟨before,split⟩,ends⟩
      · rw [scan_append,ends]
        rfl
      · have other : 0xAA ≠ m.id := by
          intro same
          have early := clear before m.bytes.tail (by rw [split,← same,List.append_assoc,List.append_assoc]; rfl)
          rw [split,List.length_append] at early
          exact absurd early (Nat.not_le.mpr (Nat.lt_add_of_pos_right (by decide)))
        have refused : tryParse ⟨.nodeId,[0xAA,0x55],[m.id]⟩ 0xAA = (.error,⟨.parserError,[0xAA,0x55],[m.id]⟩) :=
          if_neg (fun member => other (List.mem_singleton.mp member))
        rw [scan_append,ends]
        dsimp only
        rw [if_neg (by decide),StatusPacket.bytes,StatusPacket.body,List.cons_append,scan,refused]
        rfl
    obtain ⟨received,returned,code,out⟩ := finds []
    rw [List.append_nil] at returned
    rcases found : scan ⟨.header1,[],[m.id]⟩ m.bytes.tail with ⟨completed,q⟩
    cases completed with
    | true =>
        have answered := (runs q).1 (scanned.trans found) []
        rw [List.append_nil] at answered
        rw [Option.some.inj (returned.symm.trans answered)] at out
        exact scan_short capacity dataOut (by rw [List.length_tail,m.bytes_length]; omega) fits found out
    | false =>
        have waited := (runs q).2 (scanned.trans found) received returned
        rw [waited] at code
        exact m.status_ne_timedOut code.symm

def pong : StatusPacket := ⟨1,3,0,0,0,[],rfl⟩

def pongBehind (noise : Chunk) (fits : (noise.bytes ++ pong.bytes).length ≤ kBufferBytes) : List Turn :=
  [⟨.read ⟨noise.bytes ++ pong.bytes,fits⟩,1⟩]

theorem clear_of_drop {id : UInt8} {noise packet : List UInt8}
    (none : ∀ i < noise.length, ¬ List.IsPrefix [0xAA,0x55,id] ((noise ++ packet).drop i)) : Clear id noise packet := by
  intro before after same
  by_contra early
  refine none before.length (Nat.not_le.mp early) ⟨after,?_⟩
  rw [same,List.append_assoc,List.drop_left]

theorem receive_finds_noise :
    Finds ExxxNetwork.initial pong 0 [] 0 (pongBehind ⟨[0x00,0xAA,0x66],by decide⟩ (by decide)) := by
  have clear : Clear pong.id [0x00,0xAA,0x66] pong.bytes := clear_of_drop (by decide)
  have discarded : Discarded pong.id [0x00,0xAA,0x66] := .first (by decide) (.second (by decide) .nil)
  refine (receive_finds_iff _ pong [0x00,0xAA,0x66] 0 [] 0 _ (Nat.zero_le _) clear ?_).mpr discarded
  exact ⟨by decide,by decide,_,[],rfl,by simp,rfl⟩

theorem receive_misses :
    Clear pong.id [0xAA] pong.bytes ∧ ¬ Finds ExxxNetwork.initial pong 0 [] 0 (pongBehind ⟨[0xAA],by decide⟩ (by decide)) := by
  refine ⟨clear_of_drop (by decide),fun finds => ?_⟩
  obtain ⟨received,returned,_⟩ := finds []
  have waiting : ExxxNetwork.initial.receive 1 0 [] 0 (pongBehind ⟨[0xAA],by decide⟩ (by decide)) = none := rfl
  cases returned.symm.trans waiting

end HsrbDrivers.Servomotor

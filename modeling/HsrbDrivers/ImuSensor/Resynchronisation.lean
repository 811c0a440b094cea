import HsrbDrivers.ImuSensor.PacketStream

namespace HsrbDrivers.ImuSensor

-- No pair of header bytes begins in the garbage, be it in part in the packet.
def HeaderClear (garbage packet : List UInt8) : Prop :=
  ∀ before after, garbage ++ packet = before ++ kMPU9150Header1Command :: kMPU9150Header2Command :: after →
    garbage.length ≤ before.length

-- The first header bytes that garbage ends with.
def strays (garbage : List UInt8) : Nat := (garbage.reverse.takeWhile (· = kMPU9150Header1Command)).length

theorem strays_behind (front garbage : List UInt8) : strays (front ++ garbage) =
    if strays garbage = garbage.length then garbage.length + strays front else strays garbage := by
  unfold strays
  rw [List.reverse_append,List.takeWhile_append,List.length_reverse]
  split
  · rw [List.length_append,List.length_reverse]
  · rfl

theorem strays_other {b : UInt8} (other : b ≠ kMPU9150Header1Command) (garbage : List UInt8) :
    strays (b :: garbage) = strays garbage := by
  have none : strays [b] = 0 := by simp [strays,other]
  have split := strays_behind [b] garbage
  rw [none,Nat.add_zero] at split
  refine split.trans ?_
  split
  · exact Eq.symm ‹_›
  · rfl

theorem strays_pair (c : UInt8) (garbage : List UInt8) :
    Even (strays (kMPU9150Header1Command :: c :: garbage)) ↔ Even (strays garbage) := by
  have two : Even (strays [kMPU9150Header1Command,c]) := by
    by_cases same : c = kMPU9150Header1Command
    · rw [same]
      decide
    · simp [strays,same]
  have split := strays_behind [kMPU9150Header1Command,c] garbage
  rw [List.cons_append,List.cons_append,List.nil_append] at split
  rw [split]
  split
  · rename_i whole
    rw [Nat.even_add,iff_true_right two,whole]
  · rfl

theorem HeaderClear.behind (front : List UInt8) {garbage packet : List UInt8} (clear : HeaderClear (front ++ garbage) packet) :
    HeaderClear garbage packet := by
  intro before after same
  have early := clear (front ++ before) after (by rw [List.append_assoc,same,List.append_assoc])
  rw [List.length_append,List.length_append] at early
  exact Nat.le_of_add_le_add_left early

theorem packetsIn_stray {b : UInt8} (other : b ≠ kMPU9150Header1Command) (bytes : List UInt8) :
    packetsIn (b :: bytes) = packetsIn bytes := by
  refine packetsIn_skipped ?_
  unfold front
  dsimp only
  rw [if_pos other]

theorem packetsIn_unpaired {c : UInt8} (other : c ≠ kMPU9150Header2Command) (bytes : List UInt8) :
    packetsIn (kMPU9150Header1Command :: c :: bytes) = packetsIn bytes := by
  refine packetsIn_skipped ?_
  unfold front
  dsimp only
  rw [if_neg (not_not.mpr rfl),if_pos other]

theorem packetsIn_garbage {garbage packet : List UInt8} (clear : HeaderClear garbage packet)
    (headed : packet.head? = some kMPU9150Header1Command) :
    packetsIn (garbage ++ packet) = packetsIn (if Even (strays garbage) then packet else packet.tail) := by
  induction size : garbage.length using Nat.strong_induction_on generalizing garbage with
  | _ n ih =>
      subst size
      cases garbage with
      | nil => rw [if_pos (by decide),List.nil_append]
      | cons b garbage =>
          by_cases first : b = kMPU9150Header1Command
          · subst first
            cases garbage with
            | nil =>
                obtain ⟨rest,rfl⟩ : ∃ rest, packet = kMPU9150Header1Command :: rest := by
                  cases packet with
                  | nil => cases headed
                  | cons c rest => exact ⟨rest,congrArg (· :: rest) (Option.some.inj headed)⟩
                rw [if_neg (by decide)]
                exact packetsIn_unpaired (by decide) rest
            | cons c garbage =>
                have unpaired : c ≠ kMPU9150Header2Command := by
                  rintro rfl
                  exact absurd (clear [] (garbage ++ packet) rfl) (by simp)
                have rest := HeaderClear.behind [kMPU9150Header1Command,c] clear
                rw [List.cons_append,List.cons_append,packetsIn_unpaired unpaired,ih _ (by simp) rest rfl]
                simp only [strays_pair]
          · have rest := HeaderClear.behind [b] clear
            rw [List.cons_append,packetsIn_stray first,ih _ (by simp) rest rfl,strays_other first]

namespace MPU9150PacketParser

def Resynchronises (p : MPU9150PacketParser) (garbage packet : List UInt8) : Prop :=
  packet <:+: (p.reset.feed (garbage ++ packet)).2.allPackets

theorem resynchronises_iff (p : MPU9150PacketParser) {length : UInt8} {garbage packet : List UInt8}
    (whole : WellFormed length packet) (clear : HeaderClear garbage packet) :
    p.Resynchronises garbage packet ↔ Even (strays garbage) := by
  have headed : packet.head? = some kMPU9150Header1Command := by
    obtain ⟨_,data,_,rfl⟩ := whole
    rfl
  unfold Resynchronises
  rw [reset_feed_allPackets,packetsIn_garbage clear headed]
  by_cases even : Even (strays garbage)
  · have found : front packet = .whole packet [] := by
      have alone := front_wellFormed whole []
      rwa [List.append_nil] at alone
    have none : packetsIn [] = [] := packetsIn_pending rfl
    have one : (packetsIn packet).flatten = packet := by
      rw [packetsIn_whole found,none,ite_self,List.flatten_singleton]
    rw [if_pos even,one]
    exact iff_of_true List.infix_rfl even
  · rw [if_neg even]
    refine iff_of_false (fun inside => ?_) even
    have long := inside.length_le
    have short := (packetsIn_parts packet.tail).1
    rw [List.length_tail] at short
    have some := whole.length_eq
    omega

theorem headerClear_of_drop {garbage packet : List UInt8}
    (none : ∀ i < garbage.length, ¬ List.IsPrefix [kMPU9150Header1Command,kMPU9150Header2Command] ((garbage ++ packet).drop i)) :
    HeaderClear garbage packet := by
  intro before after same
  by_contra early
  refine none before.length (Nat.not_le.mp early) ⟨after,?_⟩
  rw [same,List.drop_left]
  rfl

theorem reply_wellFormed : WellFormed 1 (framed 1 []) := ⟨le_refl 1,[],rfl,rfl⟩

theorem two_strays_passed : (initial 0).Resynchronises [0x00,0x40,0x40] (framed 1 []) :=
  (resynchronises_iff (initial 0) reply_wellFormed (headerClear_of_drop (by decide))).mpr (by decide)

theorem one_stray_hides : ¬ ∀ (p : MPU9150PacketParser) (length : UInt8) (garbage packet : List UInt8), WellFormed length packet →
    HeaderClear garbage packet → p.Resynchronises garbage packet := by
  intro every
  have recorded := every (initial 0) 1 [0x40] (framed 1 []) reply_wellFormed (headerClear_of_drop (by decide))
  revert recorded
  unfold Resynchronises
  decide

end MPU9150PacketParser
end HsrbDrivers.ImuSensor

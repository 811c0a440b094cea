import HsrbDrivers.DigitalIo.UsbioSerial
import HsrbDrivers.Library.Signal

namespace HsrbDrivers.DigitalIo

inductive Bumper where
  | front
  | rear
deriving DecidableEq,Repr

namespace Bumper

def pressed : Bumper → Inputs → Bool
  | front,i => i.frontBumper
  | rear,i => i.rearBumper

def count : Bumper → Sketch → Nat
  | front,s => s.frontBumperCount
  | rear,s => s.rearBumperCount

def latched : Bumper → Sketch → Bool
  | front,s => s.frontBumper
  | rear,s => s.rearBumper

def printed : Bumper → Sensors → Bool
  | front,s => s.frontBumperSensor
  | rear,s => s.rearBumperSensor

end Bumper

namespace Sketch
open Signal

-- What one pass after another finds at the pins and in the serial line's buffer.
abbrev Passes := Nat → Inputs × List UInt8

def after (passes : Passes) : Nat → Sketch
  | 0 => setup
  | n + 1 => ((after passes n).loop (passes n).1 (passes n).2).2

def answer (passes : Passes) (n : Nat) : Option Sensors := ((after passes n).loop (passes n).1 (passes n).2).1

-- The sensor has been high in ten passes that end with the pass `m`.
def Held (bumper : Bumper) (passes : Passes) (m : Nat) : Prop :=
  10 ≤ m + 1 ∧ ∀ j ≤ m, m < j + 10 → bumper.pressed (passes j).1

def Debounces (passes : Passes) : Prop :=
  ∀ n sensors, answer passes n = some sensors → ∀ bumper : Bumper,
    bumper.printed sensors = true ↔ ∃ m, Since (fun j => answer passes j = none) m n ∧ Held bumper passes m

def commanded (passes : Passes) (n : Nat) : Bool := 7 ≤ (passes n).2.length

def highs (bumper : Bumper) (passes : Passes) (m : Nat) : Nat := streak (fun j => bumper.pressed (passes j).1) (m + 1)

-- A bumper that was held for ten passes was so at a time at which a count of 16 bits shows it.
def Shown (passes : Passes) : Prop :=
  ∀ n, commanded passes n → ∀ bumper : Bumper,
    (∃ m, Since (commanded passes · = false) m n ∧ 10 ≤ highs bumper passes m) →
      ∃ m, Since (commanded passes · = false) m n ∧ 10 ≤ highs bumper passes m % 2^16

theorem held_iff {bumper : Bumper} {passes : Passes} {m : Nat} : Held bumper passes m ↔ 10 ≤ highs bumper passes m := by
  unfold Held highs
  rw [le_streak_iff]
  refine and_congr_right fun _ => forall_congr' fun j => ?_
  rw [show j < m + 1 ↔ j ≤ m from Nat.lt_succ_iff,show m + 1 ≤ j + 10 ↔ m < j + 10 from Nat.succ_le_iff]

def SameBumpers (s t : Sketch) : Prop := ∀ bumper : Bumper, bumper.count t = bumper.count s ∧ bumper.latched t = bumper.latched s

theorem SameBumpers.trans {s t u : Sketch} (one : SameBumpers s t) (two : SameBumpers t u) : SameBumpers s u :=
  fun bumper => ⟨(two bumper).1.trans (one bumper).1,(two bumper).2.trans (one bumper).2⟩

theorem sameBumpers_of {s t : Sketch} (counts : t.frontBumperCount = s.frontBumperCount ∧ t.rearBumperCount = s.rearBumperCount)
    (latches : t.frontBumper = s.frontBumper ∧ t.rearBumper = s.rearBumper) : SameBumpers s t
  | .front => ⟨counts.1,latches.1⟩
  | .rear => ⟨counts.2,latches.2⟩

theorem writeOutput_bumpers (pinId : Nat) (state : Sketch → Bool) {assign : Sketch → Bool → Sketch}
    (kept : ∀ s state, SameBumpers s (assign s state)) (s : Sketch) (command : UInt8) :
    SameBumpers s (writeOutput pinId state assign s command) := by
  refine SameBumpers.trans ?_ (kept _ _)
  unfold writeCommand
  split
  · exact sameBumpers_of ⟨rfl,rfl⟩ ⟨rfl,rfl⟩
  · split
    · exact sameBumpers_of ⟨rfl,rfl⟩ ⟨rfl,rfl⟩
    · exact sameBumpers_of ⟨rfl,rfl⟩ ⟨rfl,rfl⟩

theorem writes_bumpers (s : Sketch) (head hand drive suction : UInt8) :
    SameBumpers s ((((s.writeHeadLed head).writeHandLed hand).writeDrivePower drive).writeSuction suction) := by
  have kept : ∀ {s t : Sketch}, s.frontBumperCount = t.frontBumperCount ∧ s.rearBumperCount = t.rearBumperCount →
      s.frontBumper = t.frontBumper ∧ s.rearBumper = t.rearBumper → SameBumpers t s := sameBumpers_of
  refine (writeOutput_bumpers kHeadLed _ (fun _ _ => ?_) s head).trans ((writeOutput_bumpers kHandLed _ (fun _ _ => ?_) _ hand).trans
    ((writeOutput_bumpers kDrivePower _ (fun _ _ => ?_) _ drive).trans (writeOutput_bumpers kSuction _ (fun _ _ => ?_) _ suction)))
  · exact kept ⟨rfl,rfl⟩ ⟨rfl,rfl⟩
  · exact kept ⟨rfl,rfl⟩ ⟨rfl,rfl⟩
  · exact kept ⟨rfl,rfl⟩ ⟨rfl,rfl⟩
  · exact kept ⟨rfl,rfl⟩ ⟨rfl,rfl⟩

theorem ceaseComunicate_bumpers (s : Sketch) : SameBumpers s s.ceaseComunicate := by
  unfold ceaseComunicate
  dsimp only
  split
  · split
    · exact sameBumpers_of ⟨rfl,rfl⟩ ⟨rfl,rfl⟩
    · exact sameBumpers_of ⟨rfl,rfl⟩ ⟨rfl,rfl⟩
  · exact sameBumpers_of ⟨rfl,rfl⟩ ⟨rfl,rfl⟩

theorem watchInputs_bumper (s : Sketch) (i : Inputs) (bumper : Bumper) :
    (bumper.count (s.watchInputs i),bumper.latched (s.watchInputs i)) =
      countBumper (bumper.pressed i) (bumper.count s) (bumper.latched s) := by
  unfold watchInputs
  dsimp only
  split
  · split
    · cases bumper <;> rfl
    · cases bumper <;> rfl
  · cases bumper <;> rfl

theorem loop_idle_bumper (s : Sketch) (i : Inputs) {available : List UInt8} (short : available.length < 7) (bumper : Bumper) :
    (s.loop i available).1 = none ∧
      (bumper.count (s.loop i available).2,bumper.latched (s.loop i available).2) =
        countBumper (bumper.pressed i) (bumper.count s) (bumper.latched s) := by
  obtain ⟨count,latched⟩ := ceaseComunicate_bumpers (s.watchInputs i) bumper
  rw [loop_short s i short,count,latched]
  exact ⟨rfl,watchInputs_bumper s i bumper⟩

theorem loop_reply_bumper (s : Sketch) (i : Inputs) {available : List UInt8} (whole : 7 ≤ available.length) (bumper : Bumper) :
    ∃ sensors, (s.loop i available).1 = some sensors ∧ bumper.latched (s.loop i available).2 = false ∧
      (bumper.count (s.loop i available).2,bumper.printed sensors) =
        countBumper (bumper.pressed i) (bumper.count s) (bumper.latched s) := by
  match available,whole with
  | red :: green :: blue :: head :: hand :: drive :: suction :: rest,_ =>
      rw [← watchInputs_bumper]
      unfold loop
      dsimp only
      generalize s.watchInputs i = w
      generalize lit : (if w.isLedOn then {w with countTimeout := 0}.statusLed red green blue else
        {w with countTimeout := 0}.statusLed 0 0 0) = l
      have same : SameBumpers w l := by
        rw [← lit]
        split
        · exact sameBumpers_of ⟨rfl,rfl⟩ ⟨rfl,rfl⟩
        · exact sameBumpers_of ⟨rfl,rfl⟩ ⟨rfl,rfl⟩
      have written := same.trans (writes_bumpers l head hand drive suction)
      generalize (((l.writeHeadLed head).writeHandLed hand).writeDrivePower drive).writeSuction suction = t at written
      obtain ⟨count,latched⟩ := ceaseComunicate_bumpers {t with frontBumper := false,rearBumper := false} bumper
      refine ⟨_,rfl,?_,?_⟩
      · rw [latched]
        cases bumper <;> rfl
      · rw [count,← (written bumper).1,← (written bumper).2]
        cases bumper <;> rfl

theorem countBumper_eq (pressed latched : Bool) (k : Nat) :
    countBumper pressed (k % 2^16) latched =
      ((if pressed then k + 1 else 0) % 2^16,latched || decide (10 ≤ (if pressed then k + 1 else 0) % 2^16)) := by
  unfold countBumper
  cases pressed with
  | false => simp
  | true => simp [Bool.or_comm]

def atTen (bumper : Bumper) (passes : Passes) (m : Nat) : Bool := 10 ≤ highs bumper passes m % 2^16

theorem after_bumper (passes : Passes) (bumper : Bumper) (n : Nat) :
    bumper.count (after passes n) = streak (fun j => bumper.pressed (passes j).1) n % 2^16 ∧
      bumper.latched (after passes n) = latch (atTen bumper passes) (commanded passes) n := by
  induction n with
  | zero => cases bumper <;> exact ⟨rfl,rfl⟩
  | succ n ih =>
      by_cases short : (passes n).2.length < 7
      · have pass := (loop_idle_bumper (after passes n) (passes n).1 short bumper).2
        rw [ih.1,ih.2,countBumper_eq] at pass
        obtain ⟨count,latched⟩ := Prod.mk.inj pass
        have silent : commanded passes n = false := decide_eq_false (Nat.not_le_of_lt short)
        refine ⟨count,latched.trans ?_⟩
        rw [latch,silent]
        rfl
      · obtain ⟨_,_,latched,pass⟩ := loop_reply_bumper (after passes n) (passes n).1 (Nat.le_of_not_lt short) bumper
        rw [ih.1,ih.2,countBumper_eq] at pass
        have replies : commanded passes n = true := decide_eq_true (Nat.le_of_not_lt short)
        refine ⟨(Prod.mk.inj pass).1,latched.trans ?_⟩
        rw [latch,replies]
        rfl

theorem answer_none_iff {passes : Passes} {n : Nat} : answer passes n = none ↔ commanded passes n = false := by
  by_cases short : (passes n).2.length < 7
  · have pass := (loop_idle_bumper (after passes n) (passes n).1 short .front).1
    exact iff_of_true pass (decide_eq_false (Nat.not_le_of_lt short))
  · obtain ⟨sensors,pass,_⟩ := loop_reply_bumper (after passes n) (passes n).1 (Nat.le_of_not_lt short) .front
    refine iff_of_false (fun absent => ?_) (ne_false_of_eq_true (decide_eq_true (Nat.le_of_not_lt short)))
    rw [answer,pass] at absent
    cases absent

theorem printed_iff {passes : Passes} {n : Nat} {sensors : Sensors} (replied : answer passes n = some sensors) (bumper : Bumper) :
    bumper.printed sensors = true ↔ ∃ m, Since (commanded passes · = false) m n ∧ 10 ≤ highs bumper passes m % 2^16 := by
  have whole : 7 ≤ (passes n).2.length := by
    by_contra short
    rw [answer_none_iff.mpr (decide_eq_false short)] at replied
    cases replied
  obtain ⟨_,printed,_,pass⟩ := loop_reply_bumper (after passes n) (passes n).1 whole bumper
  cases printed.symm.trans replied
  rw [(after_bumper passes bumper n).1,(after_bumper passes bumper n).2,countBumper_eq] at pass
  rw [(Prod.mk.inj pass).2]
  refine (@latch_iff (atTen bumper passes) (commanded passes) n).trans ?_
  simp only [atTen,decide_eq_true_eq]

theorem debounces_iff (passes : Passes) : Debounces passes ↔ Shown passes := by
  have answers : ∀ {m n}, Since (fun j => answer passes j = none) m n ↔ Since (commanded passes · = false) m n := by
    intro m n
    simp only [Since,answer_none_iff]
  have replies : ∀ {n}, commanded passes n ↔ ∃ sensors, answer passes n = some sensors := by
    intro n
    rw [← Option.isSome_iff_exists,Option.isSome_iff_ne_none,ne_eq,answer_none_iff,Bool.not_eq_false]
  unfold Debounces Shown
  simp only [answers,held_iff]
  constructor
  · intro debounces n commanded bumper held
    obtain ⟨sensors,replied⟩ := replies.mp commanded
    exact (printed_iff replied bumper).mp ((debounces n sensors replied bumper).mpr held)
  · intro shown n sensors replied bumper
    refine (printed_iff replied bumper).trans ⟨?_,shown n (replies.mpr ⟨sensors,replied⟩) bumper⟩
    rintro ⟨m,since,ten⟩
    exact ⟨m,since,Nat.le_trans ten (Nat.mod_le _ _)⟩

def longPress : Passes := fun n =>
  (⟨decide (n < 65540),false,true,false,false,true,0⟩,if n = 65534 ∨ n = 65634 then [0,0,0,0,0,1,0] else [])

theorem long_press_hidden : ¬ ∀ passes, Debounces passes := by
  intro every
  have shown := (debounces_iff longPress).mp (every longPress)
  have pressed : ∀ m, highs .front longPress m = if m + 1 ≤ 65540 then m + 1 else 0 := fun m => streak_until 65540 (m + 1)
  have silent : ∀ j, commanded longPress j = false ↔ ¬ (j = 65534 ∨ j = 65634) := by
    intro j
    by_cases reply : j = 65534 ∨ j = 65634
    · simp [commanded,longPress,reply]
    · simp [commanded,longPress,reply]
  have since : Since (commanded longPress · = false) 65535 65634 := by
    refine ⟨by decide,fun j first last => (silent j).mpr ?_⟩
    omega
  obtain ⟨m,⟨last,quietly⟩,ten⟩ := shown 65634 rfl .front ⟨65535,since,by rw [pressed]; decide⟩
  have first : 65534 < m := by
    by_contra before
    exact (silent 65534).mp (quietly 65534 (Nat.le_of_not_lt before) (by decide)) (.inl rfl)
  rw [pressed] at ten
  split at ten
  · omega
  · omega

end Sketch
end HsrbDrivers.DigitalIo

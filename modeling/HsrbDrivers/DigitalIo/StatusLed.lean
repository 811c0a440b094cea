import HsrbDrivers.DigitalIo.Debounce

namespace HsrbDrivers.DigitalIo.Sketch
open Signal

abbrev Colour := UInt8 × UInt8 × UInt8

def dark : Colour := (0,0,0)

def white : Colour := (255,255,255)

def gated (isLedOn : Bool) (colour : Colour) : Colour := if isLedOn then colour else dark

def led (s : Sketch) : Colour := (s.duties kStatusLedRed,s.duties kStatusLedGreen,s.duties kStatusLedBlue)

def colour : List UInt8 → Colour
  | red :: green :: blue :: _ => (red,green,blue)
  | _ => dark

def blink (emergencySwitch : Bool) (countBlinking : Nat) (isLedOn : Bool) : Nat × Bool :=
  if emergencySwitch then
    if (countBlinking + 1) % 2^16 % kBlinkWait = 0 then (0,!isLedOn) else ((countBlinking + 1) % 2^16,isLedOn)
  else ((countBlinking + 1) % 2^16,true)

def silence (passes : Passes) (n : Nat) : Nat := streak (fun j => !commanded passes j) n

-- The LED behind any passes. The colour of a frame stays as it was put out, until the host has
-- been silent for too long; the outputs stay for good.
structure Tells (passes : Passes) : Prop where
  unused : ∀ n ≤ kCeaseComunicate, (∀ j < n, commanded passes j = false) → (after passes n).led = dark
  told : ∀ m n, commanded passes m → Since (commanded passes · = false) (m + 1) n → n ≤ m + 1 + kCeaseComunicate →
    (after passes n).led = gated (after passes (m + 1)).isLedOn (colour (passes m).2)
  ceased : ∀ m n, Since (commanded passes · = false) m n → m + kCeaseComunicate < n →
    (after passes n).led = gated (after passes n).isLedOn white
  powered : ∀ m n, Since (commanded passes · = false) m n → (after passes n).levels = (after passes m).levels
  released : ∀ n, (passes n).1.emergencySwitch = false → (after passes (n + 1)).isLedOn = true
  blinks : ∀ n, (∀ j, n ≤ j → j < n + kBlinkWait → (passes j).1.emergencySwitch) →
    ∃! m, n ≤ m ∧ m < n + kBlinkWait ∧ (after passes (m + 1)).isLedOn ≠ (after passes m).isLedOn

theorem watchInputs_blink (s : Sketch) (i : Inputs) :
    ((s.watchInputs i).countBlinking,(s.watchInputs i).isLedOn) = blink i.emergencySwitch s.countBlinking s.isLedOn := by
  unfold watchInputs blink
  dsimp only
  split
  · split
    · rfl
    · rfl
  · rfl

theorem watchInputs_led (s : Sketch) (i : Inputs) :
    (s.watchInputs i).countTimeout = (s.countTimeout + 1) % 2^16 ∧ (s.watchInputs i).led = s.led := by
  unfold watchInputs
  dsimp only
  split
  · split
    · exact ⟨rfl,rfl⟩
    · exact ⟨rfl,rfl⟩
  · exact ⟨rfl,rfl⟩

theorem ceaseComunicate_led (s : Sketch) :
    s.ceaseComunicate.countTimeout = min s.countTimeout kCeaseComunicate ∧
      s.ceaseComunicate.led = (if s.countTimeout > kCeaseComunicate then gated s.isLedOn white else s.led) ∧
      s.ceaseComunicate.countBlinking = s.countBlinking ∧ s.ceaseComunicate.isLedOn = s.isLedOn := by
  unfold ceaseComunicate gated
  dsimp only
  split
  · rename_i late
    rw [min_eq_right (Nat.le_of_lt late)]
    split
    · exact ⟨rfl,rfl,rfl,rfl⟩
    · exact ⟨rfl,rfl,rfl,rfl⟩
  · rename_i soon
    rw [min_eq_left (Nat.le_of_not_lt soon)]
    exact ⟨rfl,rfl,rfl,rfl⟩

def SameLed (s t : Sketch) : Prop :=
  t.led = s.led ∧ t.countTimeout = s.countTimeout ∧ t.countBlinking = s.countBlinking ∧ t.isLedOn = s.isLedOn

theorem SameLed.trans {s t u : Sketch} (one : SameLed s t) (two : SameLed t u) : SameLed s u :=
  ⟨two.1.trans one.1,two.2.1.trans one.2.1,two.2.2.1.trans one.2.2.1,two.2.2.2.trans one.2.2.2⟩

theorem writeOutput_led (pinId : Nat) (state : Sketch → Bool) {assign : Sketch → Bool → Sketch}
    (kept : ∀ s state, SameLed s (assign s state)) (s : Sketch) (command : UInt8) :
    SameLed s (writeOutput pinId state assign s command) := by
  refine SameLed.trans ?_ (kept _ _)
  unfold writeCommand
  split
  · exact ⟨rfl,rfl,rfl,rfl⟩
  · split
    · exact ⟨rfl,rfl,rfl,rfl⟩
    · exact ⟨rfl,rfl,rfl,rfl⟩

theorem writes_led (s : Sketch) (head hand drive suction : UInt8) :
    SameLed s ((((s.writeHeadLed head).writeHandLed hand).writeDrivePower drive).writeSuction suction) := by
  refine (writeOutput_led kHeadLed _ (fun _ _ => ?_) s head).trans ((writeOutput_led kHandLed _ (fun _ _ => ?_) _ hand).trans
    ((writeOutput_led kDrivePower _ (fun _ _ => ?_) _ drive).trans (writeOutput_led kSuction _ (fun _ _ => ?_) _ suction)))
  · exact ⟨rfl,rfl,rfl,rfl⟩
  · exact ⟨rfl,rfl,rfl,rfl⟩
  · exact ⟨rfl,rfl,rfl,rfl⟩
  · exact ⟨rfl,rfl,rfl,rfl⟩

theorem loop_idle_led (s : Sketch) (i : Inputs) {available : List UInt8} (short : available.length < 7) :
    (s.loop i available).2.countTimeout = min ((s.countTimeout + 1) % 2^16) kCeaseComunicate ∧
      (s.loop i available).2.led = (if (s.countTimeout + 1) % 2^16 > kCeaseComunicate then
        gated (s.loop i available).2.isLedOn white else s.led) ∧
      ((s.loop i available).2.countBlinking,(s.loop i available).2.isLedOn) =
        blink i.emergencySwitch s.countBlinking s.isLedOn := by
  obtain ⟨timeout,unchanged⟩ := watchInputs_led s i
  obtain ⟨capped,shown,counted,on⟩ := ceaseComunicate_led (s.watchInputs i)
  rw [timeout] at capped shown
  rw [unchanged] at shown
  rw [loop_short s i short,← watchInputs_blink]
  refine ⟨capped,?_,?_⟩
  · rw [shown,on]
  · rw [counted,on]

theorem loop_reply_led (s : Sketch) (i : Inputs) {available : List UInt8} (whole : 7 ≤ available.length) :
    (s.loop i available).2.countTimeout = 0 ∧
      (s.loop i available).2.led = gated (s.loop i available).2.isLedOn (colour available) ∧
      ((s.loop i available).2.countBlinking,(s.loop i available).2.isLedOn) =
        blink i.emergencySwitch s.countBlinking s.isLedOn := by
  match available,whole with
  | red :: green :: blue :: head :: hand :: drive :: suction :: rest,_ =>
      rw [← watchInputs_blink]
      unfold loop
      dsimp only
      generalize s.watchInputs i = w
      generalize lit : (if w.isLedOn then {w with countTimeout := 0}.statusLed red green blue else
        {w with countTimeout := 0}.statusLed 0 0 0) = l
      have put : l.led = gated w.isLedOn (red,green,blue) ∧ l.countTimeout = 0 ∧ l.countBlinking = w.countBlinking ∧
          l.isLedOn = w.isLedOn := by
        rw [← lit]
        unfold gated
        split
        · exact ⟨rfl,rfl,rfl,rfl⟩
        · exact ⟨rfl,rfl,rfl,rfl⟩
      have written := writes_led l head hand drive suction
      generalize (((l.writeHeadLed head).writeHandLed hand).writeDrivePower drive).writeSuction suction = t at written
      obtain ⟨capped,shown,counted,on⟩ := ceaseComunicate_led {t with frontBumper := false,rearBumper := false}
      have zero : t.countTimeout = 0 := written.2.1.trans put.2.1
      have stays : t.isLedOn = w.isLedOn := written.2.2.2.trans put.2.2.2
      refine ⟨?_,?_,?_⟩
      · rw [capped]
        exact congrArg (min · kCeaseComunicate) zero
      · have soon : ¬ t.countTimeout > kCeaseComunicate := by
          rw [zero]
          decide
        refine (shown.trans (if_neg soon)).trans ?_
        rw [on]
        exact (written.1.trans put.1).trans (congrArg (gated · _) stays.symm)
      · rw [counted,on]
        exact Prod.ext (written.2.2.1.trans put.2.2.1) stays

theorem after_blink (passes : Passes) (n : Nat) :
    ((after passes (n + 1)).countBlinking,(after passes (n + 1)).isLedOn) =
      blink (passes n).1.emergencySwitch (after passes n).countBlinking (after passes n).isLedOn := by
  by_cases short : (passes n).2.length < 7
  · exact (loop_idle_led (after passes n) (passes n).1 short).2.2
  · exact (loop_reply_led (after passes n) (passes n).1 (Nat.le_of_not_lt short)).2.2

theorem short_of_idle {passes : Passes} {n : Nat} (idle : commanded passes n = false) : (passes n).2.length < 7 :=
  Nat.lt_of_not_le (of_decide_eq_false idle)

theorem whole_of_commanded {passes : Passes} {n : Nat} (reply : commanded passes n = true) : 7 ≤ (passes n).2.length :=
  of_decide_eq_true reply

theorem after_timeout (passes : Passes) (n : Nat) :
    (after passes n).countTimeout = min (silence passes n) kCeaseComunicate := by
  induction n with
  | zero => rfl
  | succ n ih =>
      cases asked : commanded passes n with
      | false =>
          have counted : silence passes (n + 1) = silence passes n + 1 := by simp [silence,streak,asked]
          refine (loop_idle_led (after passes n) (passes n).1 (short_of_idle asked)).1.trans ?_
          rw [ih,counted]
          unfold kCeaseComunicate
          omega
      | true =>
          have counted : silence passes (n + 1) = 0 := by simp [silence,streak,asked]
          rw [counted]
          exact (loop_reply_led (after passes n) (passes n).1 (whole_of_commanded asked)).1

theorem le_silence {passes : Passes} {m n : Nat} (since : Since (commanded passes · = false) m n) : n - m ≤ silence passes n :=
  le_streak_iff.mpr ⟨Nat.sub_le n m,fun j less within => by simp [since.2 j (by omega) less]⟩

theorem silence_lt {passes : Passes} {m n : Nat} (asked : commanded passes m) (before : m < n) : silence passes n < n - m := by
  by_contra longer
  have silent := (le_streak_iff.mp (Nat.le_of_not_lt longer)).2 m before (by omega)
  simp [asked] at silent

theorem led_idle {passes : Passes} {n : Nat} (idle : commanded passes n = false) :
    (after passes (n + 1)).led =
      if kCeaseComunicate ≤ silence passes n then gated (after passes (n + 1)).isLedOn white else (after passes n).led := by
  refine (loop_idle_led (after passes n) (passes n).1 (short_of_idle idle)).2.1.trans ?_
  rw [after_timeout]
  refine ite_congr (propext ?_) (fun _ => rfl) (fun _ => rfl)
  unfold kCeaseComunicate
  omega

theorem unused_dark {passes : Passes} {n : Nat} (few : n ≤ kCeaseComunicate) (unasked : ∀ j < n, commanded passes j = false) :
    (after passes n).led = dark := by
  induction n with
  | zero => rfl
  | succ n ih =>
      have short : silence passes n ≤ n := (le_streak_iff.mp (Nat.le_refl _)).1
      rw [led_idle (unasked n (Nat.lt_succ_self n)),if_neg (by omega)]
      exact ih (Nat.le_of_succ_le few) fun j less => unasked j (Nat.lt_succ_of_lt less)

theorem told_shown {passes : Passes} {m n : Nat} (asked : commanded passes m)
    (since : Since (commanded passes · = false) (m + 1) n) (few : n ≤ m + 1 + kCeaseComunicate) :
    (after passes n).led = gated (after passes (m + 1)).isLedOn (colour (passes m).2) := by
  induction n with
  | zero => exact absurd since.1 (Nat.not_succ_le_zero m)
  | succ n ih =>
      rcases since_succ.mp since with same | ⟨idle,before⟩
      · cases same
        exact (loop_reply_led (after passes m) (passes m).1 (whole_of_commanded asked)).2.1
      · have short := silence_lt asked before.1
        rw [led_idle idle,if_neg (by omega)]
        exact ih before (Nat.le_of_succ_le few)

theorem ceased_white {passes : Passes} {m n : Nat} (since : Since (commanded passes · = false) m n)
    (many : m + kCeaseComunicate < n) : (after passes n).led = gated (after passes n).isLedOn white := by
  cases n with
  | zero => exact absurd many (Nat.not_lt_zero _)
  | succ n =>
      rcases since_succ.mp since with same | ⟨idle,before⟩
      · omega
      · have long := le_silence before
        rw [led_idle idle,if_pos (by omega)]

theorem idle_levels {passes : Passes} {m n : Nat} (since : Since (commanded passes · = false) m n) :
    (after passes n).levels = (after passes m).levels := by
  induction n with
  | zero => rw [Nat.le_zero.mp since.1]
  | succ n ih =>
      rcases since_succ.mp since with rfl | ⟨idle,before⟩
      · rfl
      · exact (loop_idle (after passes n) (passes n).1 (short_of_idle idle)).2.1.trans (ih before)

theorem blinking_lt (passes : Passes) (n : Nat) : (after passes n).countBlinking < 2^16 := by
  cases n with
  | zero => exact Nat.two_pow_pos 16
  | succ n =>
      have counted := congrArg Prod.fst (after_blink passes n)
      dsimp only at counted
      rw [counted]
      unfold blink
      split
      · split
        · exact Nat.two_pow_pos 16
        · exact Nat.mod_lt _ (by decide)
      · exact Nat.mod_lt _ (by decide)

theorem blink_waits {passes : Passes} {n k : Nat} (high : ∀ j < k, (passes (n + j)).1.emergencySwitch)
    (room : (after passes n).countBlinking + k < 2^16)
    (unasked : ∀ j < k, ((after passes n).countBlinking + (j + 1)) % kBlinkWait ≠ 0) :
    (after passes (n + k)).countBlinking = (after passes n).countBlinking + k ∧
      (after passes (n + k)).isLedOn = (after passes n).isLedOn := by
  induction k with
  | zero => exact ⟨rfl,rfl⟩
  | succ k ih =>
      obtain ⟨count,on⟩ := ih (fun j less => high j (Nat.lt_succ_of_lt less)) (by omega) fun j less => unasked j (Nat.lt_succ_of_lt less)
      have pass := after_blink passes (n + k)
      rw [count,on,high k (Nat.lt_succ_self k),blink,if_pos rfl,Nat.add_assoc (after passes n).countBlinking k 1,
        Nat.mod_eq_of_lt room,if_neg (unasked k (Nat.lt_succ_self k))] at pass
      exact Prod.mk.inj pass

def untilBlink (countBlinking : Nat) : Nat :=
  if countBlinking < 65000 then kBlinkWait - countBlinking % kBlinkWait else 2^16 - countBlinking

theorem blink_changes {passes : Passes} {n : Nat}
    (high : ∀ j < untilBlink (after passes n).countBlinking, (passes (n + j)).1.emergencySwitch) :
    (after passes (n + untilBlink (after passes n).countBlinking)).countBlinking = 0 ∧
      ((after passes (n + untilBlink (after passes n).countBlinking)).isLedOn = !(after passes n).isLedOn) ∧
      ∀ j < untilBlink (after passes n).countBlinking, (after passes (n + j)).isLedOn = (after passes n).isLedOn := by
  have bound := blinking_lt passes n
  have waits := @blink_waits passes n
  generalize start : (after passes n).countBlinking = c at *
  obtain ⟨k,last,room,due,unasked⟩ : ∃ k, untilBlink c = k + 1 ∧ c + k < 2^16 ∧ (c + k + 1) % 2^16 % kBlinkWait = 0 ∧
      ∀ j < k, (c + (j + 1)) % kBlinkWait ≠ 0 := by
    unfold untilBlink kBlinkWait
    split
    · have within : c + (999 - c % 1000) + 1 < 2^16 := by omega
      refine ⟨999 - c % 1000,by omega,by omega,?_,fun j less => by omega⟩
      rw [Nat.mod_eq_of_lt within]
      omega
    · exact ⟨65535 - c,by omega,by omega,by omega,fun j less => by omega⟩
  rw [last] at high ⊢
  obtain ⟨count,on⟩ := waits (fun j less => high j (Nat.lt_succ_of_lt less)) room unasked
  have pass := after_blink passes (n + k)
  rw [count,on,high k (Nat.lt_succ_self k),blink,if_pos rfl,if_pos due] at pass
  refine ⟨congrArg Prod.fst pass,congrArg Prod.snd pass,fun j less => ?_⟩
  exact (waits (fun i before => high i (by omega)) (by omega) fun i before => unasked i (by omega)).2

theorem blinks_once {passes : Passes} {n : Nat} (high : ∀ j, n ≤ j → j < n + kBlinkWait → (passes j).1.emergencySwitch) :
    ∃! m, n ≤ m ∧ m < n + kBlinkWait ∧ (after passes (m + 1)).isLedOn ≠ (after passes m).isLedOn := by
  have later : 0 < untilBlink (after passes n).countBlinking := by
    have bound := blinking_lt passes n
    unfold untilBlink kBlinkWait
    split <;> omega
  have soon : untilBlink (after passes n).countBlinking ≤ kBlinkWait := by
    unfold untilBlink kBlinkWait
    split <;> omega
  obtain ⟨zero,changed,before⟩ := @blink_changes passes n fun j less => high (n + j) (by omega) (by omega)
  generalize untilBlink (after passes n).countBlinking = k at *
  -- The count starts anew at the change, and what is left of the passes is less than a wait.
  have behind : ∀ j, k + j < kBlinkWait + 1 → (after passes (n + k + j)).isLedOn = (after passes (n + k)).isLedOn := by
    intro j less
    unfold kBlinkWait at less
    refine (@blink_waits passes (n + k) j (fun i more => ?_) (by omega) fun i more => ?_).2
    · exact high (n + k + i) (by omega) (by unfold kBlinkWait; omega)
    · rw [zero]
      unfold kBlinkWait
      omega
  refine ⟨n + k - 1,⟨by omega,by omega,?_⟩,?_⟩
  · have here := before (k - 1) (by omega)
    rw [show n + (k - 1) = n + k - 1 by omega] at here
    rw [show n + k - 1 + 1 = n + k by omega,changed,here]
    exact Bool.not_ne_self _
  · rintro m ⟨first,last,change⟩
    by_contra other
    refine change ?_
    rcases Nat.lt_or_ge m (n + k - 1) with early | late
    · have here := before (m - n) (by omega)
      have next := before (m + 1 - n) (by omega)
      rw [show n + (m - n) = m by omega] at here
      rw [show n + (m + 1 - n) = m + 1 by omega] at next
      exact next.trans here.symm
    · have here := behind (m - (n + k)) (by omega)
      have next := behind (m + 1 - (n + k)) (by omega)
      rw [show n + k + (m - (n + k)) = m by omega] at here
      rw [show n + k + (m + 1 - (n + k)) = m + 1 by omega] at next
      exact next.trans here.symm

theorem statusLed_tells (passes : Passes) : Tells passes where
  unused _ few unasked := unused_dark few unasked
  told _ _ asked since few := told_shown asked since few
  ceased _ _ since many := ceased_white since many
  powered _ _ since := idle_levels since
  released n low := by
    have pass := after_blink passes n
    rw [low] at pass
    exact congrArg Prod.snd pass
  blinks _ high := blinks_once high

end HsrbDrivers.DigitalIo.Sketch

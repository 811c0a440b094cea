import HsrbDrivers.Library.CText
import HsrbDrivers.Library.Transition

namespace HsrbDrivers.Cgos
open CText

structure ComponentInfo where
  name : List UInt8
  parameters : List (List UInt8 × List UInt8)

inductive GpioKind where
  | input
  | output
deriving DecidableEq,Repr

structure Gpio where
  kind : GpioKind
  name : List UInt8
  bitMask : BitVec 32
  value : Float

def gpioInput (name : List UInt8) (pin : Nat) : Gpio := ⟨.input,name,1#32 <<< pin,0.0⟩
def gpioOutput (name : List UInt8) (pin : Nat) : Gpio := ⟨.output,name,1#32 <<< pin,0.0⟩

namespace Gpio

def read (g : Gpio) (readValue : BitVec 32) : Gpio :=
  match g.kind with
  | .input => {g with value := if readValue &&& g.bitMask ≠ 0 then 1.0 else 0.0}
  | .output => g

def write (g : Gpio) (writeValue : BitVec 32) : BitVec 32 :=
  match g.kind with
  | .input => writeValue
  | .output => if g.value != 0.0 then writeValue ||| g.bitMask else writeValue &&& ~~~g.bitMask

end Gpio

inductive Fatal where
  | noGpios
  | missingParameters (name : List UInt8)
  | unsupportedPin (name : List UInt8)
  | invalidDirection (direction : List UInt8)
  | parsing (name : List UInt8) (thrown : Thrown)
  | invalidUnitNo
  | ioCountFailed
deriving DecidableEq,Repr

structure HsrbCgosHw where
  cgosHandle : BitVec 32
  cgosUnit : BitVec 32
  gpios : List Gpio

def makeGpio (gpio : ComponentInfo) : Except Fatal Gpio :=
  match gpio.parameters.lookup (ascii "pin"),gpio.parameters.lookup (ascii "direction") with
  | some pinText,some direction => match stoi 10 pinText with
    | .error thrown => .error (.parsing gpio.name thrown)
    | .ok pin =>
      if (direction = ascii "in" ∧ (pin < 0 ∨ pin > 3)) ∨ (direction = ascii "out" ∧ (pin < 4 ∨ pin > 7)) then
        .error (.unsupportedPin gpio.name)
      else if direction = ascii "in" then .ok (gpioInput gpio.name pin.toNat)
      else if direction = ascii "out" then .ok (gpioOutput gpio.name pin.toNat)
      else .error (.invalidDirection direction)
  | _,_ => .error (.missingParameters gpio.name)

namespace HsrbCgosHw

def initGpios : List ComponentInfo → HsrbCgosHw → Except Fatal Unit × HsrbCgosHw
  | [],h => (.ok (),h)
  | gpio :: rest,h => match makeGpio gpio with
    | .error fatal => (.error fatal,h)
    | .ok made => initGpios rest {h with gpios := h.gpios ++ [made]}

def onInit (h : HsrbCgosHw) (gpios : List ComponentInfo) : Except Fatal Unit × HsrbCgosHw :=
  if gpios.isEmpty then (.error .noGpios,h) else initGpios gpios h

-- `on_configure` with the results of `Initialize`, `BoardOpen` and `GetIOCount`.
def onConfigure (h : HsrbCgosHw) (initialized : Bool) (boardOpen ioCount : Option (BitVec 32)) : Except Fatal Unit × HsrbCgosHw :=
  match initialized,boardOpen with
  | true,some handle => match ioCount with
    | some count =>
      if count > 0 then (.ok (),{h with cgosHandle := handle,cgosUnit := 0})
      else (.error .invalidUnitNo,{h with cgosHandle := handle})
    | none => (.error .ioCountFailed,{h with cgosHandle := handle})
  | _,_ => (.ok (),{h with cgosHandle := 0})

-- `read` with the result of `IORead`; `true` is the return value `OK`.
def read (h : HsrbCgosHw) (ioRead : Option (BitVec 32)) : Bool × HsrbCgosHw :=
  if h.cgosHandle = 0 then (true,h) else match ioRead with
  | some readValue => (true,{h with gpios := h.gpios.map (·.read readValue)})
  | none => (false,h)

def write (h : HsrbCgosHw) (ioWrite : Bool) : Bool × Option (BitVec 32) :=
  if h.cgosHandle = 0 then (true,none)
  else (ioWrite,some (h.gpios.foldl (fun writeValue gpio => gpio.write writeValue) 0))

def command (h : HsrbCgosHw) (i : Nat) (value : Float) : HsrbCgosHw :=
  {h with gpios := h.gpios.modify i fun g => match g.kind with
    | .input => g
    | .output => {g with value := value}}

end HsrbCgosHw

namespace ComponentInfo

def direction (d : ComponentInfo) : Option (List UInt8) := d.parameters.lookup (ascii "direction")

def pin (d : ComponentInfo) : Option Int := (d.parameters.lookup (ascii "pin")).bind fun text => (stoi 10 text).toOption

def drives (d : ComponentInfo) (k : Nat) : Bool := d.direction = some (ascii "out") ∧ d.pin = some k

end ComponentInfo

def Accepted (gpios : List ComponentInfo) (h : HsrbCgosHw) : Prop :=
  ∃ handle unit, HsrbCgosHw.onInit ⟨handle,unit,[]⟩ gpios = (.ok (),h)

inductive Step (h : HsrbCgosHw) : HsrbCgosHw → Prop where
  | configure (initialized : Bool) (boardOpen ioCount : Option (BitVec 32)) :
      Step h (h.onConfigure initialized boardOpen ioCount).2
  | read (ioRead : Option (BitVec 32)) : Step h (h.read ioRead).2
  | command (i : Nat) (value : Float) : Step h (h.command i value)

def outputsAt (gpios : List ComponentInfo) (h : HsrbCgosHw) (k : Nat) : List Gpio :=
  ((gpios.zip h.gpios).filter fun pair => pair.1.drives k).map Prod.snd

-- With a board open a word is passed, and a word has the last output's command at each pin
-- and nothing at a pin without one.
structure WritesLast (gpios : List ComponentInfo) (h : HsrbCgosHw) : Prop where
  passes : h.cgosHandle ≠ 0 → ∀ ioWrite, (h.write ioWrite).2.isSome
  bits : ∀ ioWrite word, (h.write ioWrite).2 = some word → ∀ k, word.getLsbD k = match (outputsAt gpios h k).getLast? with
    | some gpio => gpio.value != 0.0
    | none => false

def WritesEach (gpios : List ComponentInfo) (h : HsrbCgosHw) : Prop :=
  ∀ ioWrite word, (h.write ioWrite).2 = some word → ∀ k, (∀ gpio ∈ outputsAt gpios h k, word.getLsbD k = (gpio.value != 0.0)) ∧
    (outputsAt gpios h k = [] → word.getLsbD k = false)

structure ReadsBits (gpios : List ComponentInfo) (h : HsrbCgosHw) : Prop where
  kept : (h.read none).2 = h
  inputs : h.cgosHandle ≠ 0 → ∀ word (i : Nat) (d : ComponentInfo) (k : Nat), gpios[i]? = some d → d.direction = some (ascii "in") → d.pin = some (k : Int) →
    ((h.read (some word)).2.gpios[i]?).map Gpio.value = some (if word.getLsbD k then 1.0 else 0.0)
  outputs : ∀ word (i : Nat) (d : ComponentInfo), gpios[i]? = some d → d.direction = some (ascii "out") → (h.read (some word)).2.gpios[i]? = h.gpios[i]?

structure Made (d : ComponentInfo) (g : Gpio) : Prop where
  direction : d.direction = some (match g.kind with | .input => ascii "in" | .output => ascii "out")
  pin : ∃ k : Nat, k < 8 ∧ d.pin = some (k : Int) ∧ g.bitMask = 1#32 <<< k

theorem makeGpio_made {d : ComponentInfo} {g : Gpio} (made : makeGpio d = .ok g) : Made d g := by
  unfold makeGpio at made
  split at made
  · rename_i pinText direction isPin isDirection
    cases read : stoi 10 pinText with
    | error thrown => simp [read] at made
    | ok pin =>
        have pinned : d.pin = some pin := by simp [ComponentInfo.pin,isPin,read,Except.toOption]
        simp only [read] at made
        split at made
        · cases made
        · rename_i supported
          split at made
          · rename_i isIn
            cases made
            have range : 0 ≤ pin ∧ pin ≤ 3 := by
              simpa [isIn] using (not_or.mp supported).1
            exact ⟨isDirection.trans (congrArg some isIn),pin.toNat,by omega,by rw [pinned]; congr; omega,rfl⟩
          · split at made
            · rename_i isOut
              cases made
              have range : 4 ≤ pin ∧ pin ≤ 7 := by
                simpa [isOut] using (not_or.mp supported).2
              exact ⟨isDirection.trans (congrArg some isOut),pin.toNat,by omega,by rw [pinned]; congr; omega,rfl⟩
            · cases made
  · cases made

theorem initGpios_made {ds : List ComponentInfo} {h after : HsrbCgosHw} (accepted : HsrbCgosHw.initGpios ds h = (.ok (),after)) :
    ∃ made, after.gpios = h.gpios ++ made ∧ List.Forall₂ Made ds made := by
  induction ds generalizing h with
  | nil =>
      cases accepted
      exact ⟨[],by simp,.nil⟩
  | cons d ds ih =>
      cases first : makeGpio d with
      | error fatal => simp [HsrbCgosHw.initGpios,first] at accepted
      | ok g =>
          simp only [HsrbCgosHw.initGpios,first] at accepted
          obtain ⟨made,appended,each⟩ := ih accepted
          exact ⟨g :: made,by simp [appended],.cons (makeGpio_made first) each⟩

theorem accepted_made {gpios : List ComponentInfo} {h : HsrbCgosHw} (accepted : Accepted gpios h) : List.Forall₂ Made gpios h.gpios := by
  obtain ⟨handle,unit,returned⟩ := accepted
  unfold HsrbCgosHw.onInit at returned
  split at returned
  · cases returned
  · obtain ⟨made,appended,each⟩ := initGpios_made returned
    simpa [appended] using each

theorem Made.read {d : ComponentInfo} {g : Gpio} (made : Made d g) (word : BitVec 32) : Made d (g.read word) := by
  obtain ⟨direction,pin⟩ := made
  unfold Gpio.read
  cases kind : g.kind with
  | input => exact ⟨by simpa [kind] using direction,pin⟩
  | output => exact ⟨direction,pin⟩

theorem Made.command {d : ComponentInfo} {g : Gpio} (made : Made d g) (value : Float) :
    Made d (match g.kind with | .input => g | .output => {g with value := value}) := by
  obtain ⟨direction,pin⟩ := made
  cases kind : g.kind with
  | input => exact ⟨direction,pin⟩
  | output => exact ⟨by simpa [kind] using direction,pin⟩

theorem forall₂_modify {relation : α → β → Prop} {change : β → β} (kept : ∀ a b, relation a b → relation a (change b))
    {as : List α} {bs : List β} (related : List.Forall₂ relation as bs) (i : Nat) : List.Forall₂ relation as (bs.modify i change) := by
  induction related generalizing i with
  | nil => simp
  | cons first rest ih =>
      cases i with
      | zero =>
          rw [List.modify_zero_cons]
          exact .cons (kept _ _ first) rest
      | succ i =>
          rw [List.modify_succ_cons]
          exact .cons first (ih i)

theorem step_made {gpios : List ComponentInfo} {h after : HsrbCgosHw} (made : List.Forall₂ Made gpios h.gpios) (step : Step h after) :
    List.Forall₂ Made gpios after.gpios := by
  cases step with
  | configure initialized boardOpen ioCount =>
      unfold HsrbCgosHw.onConfigure
      split
      · split
        · split <;> exact made
        · exact made
      · exact made
  | read ioRead =>
      unfold HsrbCgosHw.read
      split
      · exact made
      · cases ioRead with
        | none => exact made
        | some word => exact List.forall₂_map_right_iff.mpr (made.imp fun _ _ one => one.read word)
  | command i value => exact forall₂_modify (fun _ _ one => one.command value) made i

theorem mask_bit {k j : Nat} (inside : k < 8) : (1#32 <<< k).getLsbD j = decide (j = k) := by
  have atPin : ∀ k < 8, ∀ j < 32, (1#32 <<< k).getLsbD j = decide (j = k) := by decide
  by_cases small : j < 32
  · exact atPin k inside j small
  · rw [BitVec.getLsbD_of_ge _ _ (Nat.le_of_not_lt small)]
    exact (decide_eq_false (by omega)).symm

theorem write_bit {d : ComponentInfo} {g : Gpio} (made : Made d g) (word : BitVec 32) (k : Nat) :
    (g.write word).getLsbD k = if d.drives k then g.value != 0.0 else word.getLsbD k := by
  obtain ⟨direction,pin,inside,isPin,mask⟩ := made
  unfold Gpio.write
  cases kind : g.kind with
  | input =>
      have other : ascii "in" ≠ ascii "out" := by decide
      simp [ComponentInfo.drives,direction,kind,other]
  | output =>
      have driven : d.drives k = decide (k = pin) := by
        simp [ComponentInfo.drives,direction,kind,isPin,eq_comm]
      rw [driven]
      by_cases own : k = pin
      · have small : k < 32 := by omega
        cases g.value != 0.0 <;> simp [mask,mask_bit inside,own]
      · cases on : g.value != 0.0 with
        | true => simp [mask,mask_bit inside,own]
        | false =>
            simp only [Bool.false_eq_true,if_false,BitVec.getLsbD_and,BitVec.getLsbD_not,mask,mask_bit inside,own]
            by_cases small : k < 32
            · simp [small]
            · simp [BitVec.getLsbD_of_ge _ _ (Nat.le_of_not_lt small)]

theorem writes_bit {ds : List ComponentInfo} {gpios : List Gpio} (made : List.Forall₂ Made ds gpios) (word : BitVec 32) (k : Nat) :
    (gpios.foldl (fun writeValue gpio => gpio.write writeValue) word).getLsbD k =
      match (((ds.zip gpios).filter fun pair => pair.1.drives k).map Prod.snd).getLast? with
      | some gpio => gpio.value != 0.0
      | none => word.getLsbD k := by
  induction made generalizing word with
  | nil => rfl
  | @cons d g ds gpios first rest ih =>
      rw [List.foldl_cons,ih,write_bit first,List.zip_cons_cons,List.filter_cons]
      by_cases own : d.drives k = true
      · cases later : (((ds.zip gpios).filter fun pair => pair.1.drives k).map Prod.snd).getLast? with
        | none => simp [own,List.getLast?_cons,later]
        | some gpio => simp [own,List.getLast?_cons,later]
      · simp [own]

theorem made_writes {gpios : List ComponentInfo} {h : HsrbCgosHw} (made : List.Forall₂ Made gpios h.gpios) : WritesLast gpios h where
  passes := by
    intro bound ioWrite
    rw [HsrbCgosHw.write,if_neg bound]
    rfl
  bits := by
    intro ioWrite word passed k
    unfold HsrbCgosHw.write at passed
    split at passed
    · cases passed
    · cases passed
      simpa [outputsAt] using writes_bit made 0 k

theorem forall₂_lookup {relation : α → β → Prop} {as : List α} {bs : List β} (related : List.Forall₂ relation as bs) {i : Nat} {a : α}
    (at_i : as[i]? = some a) : ∃ b, bs[i]? = some b ∧ relation a b := by
  induction related generalizing i with
  | nil => simp at at_i
  | cons first rest ih =>
      cases i with
      | zero =>
          cases at_i
          exact ⟨_,rfl,first⟩
      | succ i => exact ih at_i

theorem masked_iff (word : BitVec 32) {k : Nat} (inside : k < 8) : word &&& 1#32 <<< k ≠ 0 ↔ word.getLsbD k = true := by
  have bits : ∀ j, (word &&& 1#32 <<< k).getLsbD j = (word.getLsbD j && decide (j = k)) := by
    intro j
    rw [BitVec.getLsbD_and,mask_bit inside]
  constructor
  · intro some_bit
    by_contra clear
    refine some_bit (BitVec.eq_of_getLsbD_eq fun j _ => ?_)
    rw [bits]
    by_cases own : j = k
    · simpa [own] using clear
    · simp [own]
  · intro set zero
    have bit := bits k
    simp [zero,set] at bit

theorem made_reads {gpios : List ComponentInfo} {h : HsrbCgosHw} (made : List.Forall₂ Made gpios h.gpios) : ReadsBits gpios h where
  kept := by
    unfold HsrbCgosHw.read
    split <;> rfl
  inputs := by
    intro bound word i d k described direction isPin
    obtain ⟨g,found,isDirection,pin,inside,samePin,mask⟩ := forall₂_lookup made described
    obtain rfl : pin = k := by simpa [isPin] using samePin.symm
    have kind : g.kind = .input := by
      cases kind : g.kind with
      | input => rfl
      | output =>
          rw [direction,kind] at isDirection
          exact absurd isDirection (by decide)
    simp only [HsrbCgosHw.read,if_neg bound,List.getElem?_map,found,Option.map_some,Gpio.read,kind,mask,masked_iff word inside]
  outputs := by
    intro word i d described direction
    obtain ⟨g,found,isDirection,_⟩ := forall₂_lookup made described
    have kind : g.kind = .output := by
      cases kind : g.kind with
      | output => rfl
      | input =>
          rw [direction,kind] at isDirection
          exact absurd isDirection (by decide)
    unfold HsrbCgosHw.read
    split
    · rfl
    · simp [found,Gpio.read,kind]

theorem exchanges_bits {gpios : List ComponentInfo} {h : HsrbCgosHw} (reached : Reachable (Accepted gpios) Step h) :
    WritesLast gpios h ∧ ReadsBits gpios h := by
  have made : List.Forall₂ Made gpios h.gpios := by
    induction reached with
    | initial accepted => exact accepted_made accepted
    | step _ step ih => exact step_made ih step
  exact ⟨made_writes made,made_reads made⟩

def description (pin direction : String) : ComponentInfo := ⟨[],[(ascii "pin",ascii pin),(ascii "direction",ascii direction)]⟩

def repeatedPin : List ComponentInfo := [description "0" "in",description "4" "out",description "4" "out",description "5" "out"]
def sharedPin : List ComponentInfo := [description "4" "out",description "4" "out"]

def commanded : HsrbCgosHw :=
  ⟨7,0,[{gpioInput [] 0 with value := 1.0},{gpioOutput [] 4 with value := 1.0},gpioOutput [] 4,{gpioOutput [] 5 with value := 1.0}]⟩

theorem commanded_outputs_exchange : Reachable (Accepted repeatedPin) Step commanded ∧ (commanded.write true).2 = some 0x20 ∧
    WritesLast repeatedPin commanded ∧ ReadsBits repeatedPin commanded := by
  have start : Reachable (Accepted repeatedPin) Step ⟨1,0,[gpioInput [] 0,gpioOutput [] 4,gpioOutput [] 4,gpioOutput [] 5]⟩ :=
    .initial ⟨1,0,rfl⟩
  have reached : Reachable (Accepted repeatedPin) Step commanded :=
    ((((start.step (.configure true (some 7) (some 2))).step (.read (some 0x31))).step (.command 1 1.0)).step
      (.command 2 0.0)).step (.command 3 1.0)
  obtain ⟨writes,reads⟩ := exchanges_bits reached
  exact ⟨reached,by decide,writes,reads⟩

theorem shared_pin_lost : ¬ ∀ gpios h, Reachable (Accepted gpios) Step h → WritesEach gpios h ∧ ReadsBits gpios h := by
  intro every
  have start : Reachable (Accepted sharedPin) Step ⟨1,0,[gpioOutput [] 4,gpioOutput [] 4]⟩ := .initial ⟨1,0,rfl⟩
  have commanded := Reachable.step start (.command 0 1.0)
  obtain ⟨each,_⟩ := (every _ _ commanded).1 true 0 rfl 4
  have first : {gpioOutput [] 4 with value := 1.0} ∈ outputsAt sharedPin (HsrbCgosHw.command ⟨1,0,[gpioOutput [] 4,gpioOutput [] 4]⟩ 0 1.0) 4 :=
    List.mem_cons_self
  have lost := each _ first
  exact absurd lost (by decide)

end HsrbDrivers.Cgos

import HsrbDrivers.Library.Rounding
import HsrbDrivers.Library.SlidingWindow
import Mathlib.Data.List.Infix

namespace HsrbDrivers.ImuSensor
open Binary64 SlidingWindow

def kCycleOverBufferNum : Nat := 100
def kCycleOverCheckInterval : Float := 0.1

def toDouble (count : Int) : Float := .ofModel (.ofInt count)

def doubleMin : Float := .ofBits 0x0010000000000000

-- What the loop asks of rclcpp: a duration in seconds, and the period of a rate in hertz.
-- Durations and periods are in nanoseconds.
structure Rclcpp where
  seconds : Int → Float
  period : Float → Int

structure Rclcpp.Documented (ros : Rclcpp) : Prop where
  seconds (nanoseconds : Int) : ros.seconds nanoseconds = toDouble nanoseconds / 1e9
  period {rate : Float} {q : ℚ} (known : number (1.0 / rate * 1e9) = some q) (fits : |q| < 2^63) :
    ros.period rate = truncate q

def Rclcpp.periodSeconds (ros : Rclcpp) (nanoseconds : Int) : Float :=
  toDouble (ros.period (1.0 / ros.seconds nanoseconds)) / 1e9

structure MPU9150Node where
  cycleOverWarnTolerance : Float
  cycleOverErrorTolerance : Float
  cycleOverTimeTolerance : Float

structure CycleMonitor where
  cycleCount : UInt8
  cycleOverCount : UInt8
  bufferPosition : UInt8
  cycleOverBuffer : List Bool
  full : cycleOverBuffer.length = kCycleOverBufferNum
  inside : bufferPosition.toNat < kCycleOverBufferNum

structure Reading where
  now : Int
  finish : Int

structure CycleOutcome where
  monitor : CycleMonitor
  checked : Bool
  warned : Bool
  stopped : Bool

namespace CycleMonitor

def start : CycleMonitor := ⟨0,0,0,List.replicate kCycleOverBufferNum false,List.length_replicate,by decide⟩

def held (m : CycleMonitor) : Bool := m.cycleOverBuffer.get ⟨m.bufferPosition.toNat,m.full ▸ m.inside⟩

theorem next_position {position : UInt8} (inside : position.toNat < kCycleOverBufferNum) :
    (position + 1).toNat = position.toNat + 1 := by
  rw [UInt8.toNat_add]
  exact Nat.mod_eq_of_lt (Nat.lt_trans (Nat.succ_lt_succ inside) (by decide))

theorem next_inside {position : UInt8} (inside : position.toNat < kCycleOverBufferNum) :
    (if (position + 1).toNat = kCycleOverBufferNum then 0 else position + 1).toNat < kCycleOverBufferNum := by
  have next := next_position inside
  split
  · decide
  · omega

def judge (m : CycleMonitor) (late : Bool) : CycleMonitor where
  cycleCount := m.cycleCount + 1
  cycleOverCount :=
    if late then if !m.held then m.cycleOverCount + 1 else m.cycleOverCount
    else if m.held then m.cycleOverCount - 1 else m.cycleOverCount
  bufferPosition := if (m.bufferPosition + 1).toNat = kCycleOverBufferNum then 0 else m.bufferPosition + 1
  cycleOverBuffer := m.cycleOverBuffer.set m.bufferPosition.toNat late
  full := List.length_set.trans m.full
  inside := next_inside m.inside

-- The ring holds the last judgments, the oldest at its position, and the counter counts its true entries.
structure Counts (m : CycleMonitor) (overs : List Bool) : Prop where
  ring : m.cycleOverBuffer.rotate m.bufferPosition.toNat = window kCycleOverBufferNum false overs
  count : m.cycleOverCount.toNat = m.cycleOverBuffer.count true

def Moves (m : CycleMonitor) (late : Bool) : Prop :=
  (m.judge late).cycleOverCount.toNat + (if m.held then 1 else 0) = m.cycleOverCount.toNat + if late then 1 else 0

theorem start_counts : start.Counts [] := by
  refine ⟨?_,rfl⟩
  rw [window_nil]
  exact List.rotate_zero _

section
variable {m : CycleMonitor} {overs : List Bool}

theorem held_oldest (m : CycleMonitor) : (m.cycleOverBuffer.rotate m.bufferPosition.toNat).head? = some m.held := by
  have inside : m.bufferPosition.toNat < m.cycleOverBuffer.length := m.full ▸ m.inside
  rw [List.rotate_eq_drop_append_take inside.le,List.drop_eq_getElem_cons inside]
  rfl

theorem rotate_count (ring : List Bool) (position : Nat) : (ring.rotate position).count true = ring.count true :=
  (List.rotate_perm ring position).count_eq true

theorem judge_ring (m : CycleMonitor) (late : Bool) :
    (m.judge late).cycleOverBuffer.rotate (m.judge late).bufferPosition.toNat =
      (m.cycleOverBuffer.rotate m.bufferPosition.toNat ++ [late]).tail := by
  have inside : m.bufferPosition.toNat < m.cycleOverBuffer.length := m.full ▸ m.inside
  have next := next_position m.inside
  have stored : (m.judge late).cycleOverBuffer = m.cycleOverBuffer.set m.bufferPosition.toNat late := rfl
  have moved : (m.judge late).bufferPosition =
      if (m.bufferPosition + 1).toNat = kCycleOverBufferNum then 0 else m.bufferPosition + 1 := rfl
  rw [← rotate_set inside late,stored,moved]
  split
  · have around : m.bufferPosition.toNat + 1 = (m.cycleOverBuffer.set m.bufferPosition.toNat late).length := by
      rw [List.length_set,m.full]
      omega
    rw [around,List.rotate_length]
    exact List.rotate_zero _
  · rw [next]

theorem over_counted (count : UInt8) (late held : Bool) {n : Nat} (small : n < 2^8)
    (moved : n + (if held then 1 else 0) = count.toNat + if late then 1 else 0) :
    (if late then if !held then count + 1 else count else if held then count - 1 else count : UInt8).toNat = n := by
  have width := count.toNat_lt
  cases held <;> cases late <;> simp [UInt8.toNat_sub,UInt8.toNat_add] at moved ⊢ <;> omega

theorem judge_counts (counts : m.Counts overs) (late : Bool) : (m.judge late).Counts (overs ++ [late]) ∧ m.Moves late := by
  have moved := @countP_moved _ (· == true) _ _ (held_oldest m) late
  rw [← judge_ring] at moved
  change ((m.judge late).cycleOverBuffer.rotate _).count true + _ = (m.cycleOverBuffer.rotate _).count true + _ at moved
  rw [rotate_count,rotate_count,← counts.count] at moved
  have most : (m.judge late).cycleOverBuffer.count true < 2^8 :=
    Nat.lt_of_le_of_lt List.count_le_length ((m.judge late).full ▸ by decide)
  have plain : (m.judge late).cycleOverBuffer.count true + (if m.held then 1 else 0) =
      m.cycleOverCount.toNat + if late then 1 else 0 := by
    cases held : m.held <;> cases late <;> rw [held] at moved <;> exact moved
  have counted : (m.judge late).cycleOverCount.toNat = (m.judge late).cycleOverBuffer.count true :=
    over_counted m.cycleOverCount late m.held most plain
  refine ⟨⟨?_,counted⟩,?_⟩
  · rw [judge_ring,counts.ring,window_append]
  · rw [Moves,counted]
    exact plain

theorem Counts.last (counts : m.Counts overs) :
    m.cycleOverCount.toNat = (overs.drop (overs.length - kCycleOverBufferNum)).count true := by
  rw [counts.count,← rotate_count,counts.ring]
  exact window_countP rfl overs

end
end CycleMonitor

namespace MPU9150Node
section
variable (ros : Rclcpp) (node : MPU9150Node) (cycleTime : Int32)

-- A warning tolerance out of its range is only warned about.
def accepts : Bool :=
  !(ros.seconds cycleTime.toInt < doubleMin || ros.seconds cycleTime.toInt ≤ 0 ||
    node.cycleOverErrorTolerance < doubleMin || node.cycleOverErrorTolerance ≥ 1.0 ||
    node.cycleOverTimeTolerance < doubleMin)

def cycleOver (r : Reading) : Bool :=
  ros.periodSeconds (r.finish - r.now) > ros.periodSeconds cycleTime.toInt + node.cycleOverTimeTolerance

def due (cycleCount : UInt8) : Bool :=
  toDouble cycleCount.toNat * ros.periodSeconds cycleTime.toInt > kCycleOverCheckInterval

variable (checkCycle : Bool)

def cycle (m : CycleMonitor) (r : Reading) : CycleOutcome :=
  let m := m.judge (node.cycleOver ros cycleTime r)
  if due ros cycleTime m.cycleCount then
    let cycleOverRate := toDouble m.cycleOverCount.toNat / toDouble kCycleOverBufferNum
    let stopped := checkCycle && cycleOverRate > node.cycleOverErrorTolerance
    ⟨{m with cycleCount := 0},true,checkCycle && !stopped && cycleOverRate > node.cycleOverWarnTolerance,stopped⟩
  else ⟨m,false,false,false⟩

def loop (m : CycleMonitor) : List Reading → List CycleOutcome
  | [] => []
  | r :: readings =>
      let turn := node.cycle ros cycleTime checkCycle m r
      if turn.stopped then [turn] else turn :: loop turn.monitor readings

-- The callers hand the cycle time on as an `int` of nanoseconds.
def runLoopImpl (readings : List Reading) : Option (List CycleOutcome) :=
  if node.accepts ros cycleTime then some (node.loop ros cycleTime checkCycle .start readings) else none

end

def checkWindow (cycleTime : Int32) : Nat := 10^8 / cycleTime.toInt.toNat + 2

def Reached (turns : List CycleOutcome) (m : CycleMonitor) : Prop := m = .start ∨ ∃ turn ∈ turns, m = turn.monitor

structure Monitored (ros : Rclcpp) (node : MPU9150Node) (cycleTime : Int32) (readings : List Reading)
    (turns : List CycleOutcome) : Prop where
  entered : ∀ segment, segment <:+: turns → segment.length = checkWindow cycleTime → ∃ turn ∈ segment, turn.checked = true
  counted : ∀ before turn after, turns = before ++ turn :: after →
    turn.monitor.cycleOverCount.toNat = turn.monitor.cycleOverBuffer.count true ∧
    turn.monitor.cycleOverCount.toNat = (((readings.take (before.length + 1)).map (node.cycleOver ros cycleTime)).drop
      (before.length + 1 - kCycleOverBufferNum)).count true
  unwrapped : ∀ m, Reached turns m → ∀ late, m.Moves late

end MPU9150Node

theorem number_toDouble {n : Int} (least : 0 ≤ n) (most : n ≤ 2^31) : number (toDouble n) = some (n : ℚ) :=
  number_ofInt (by omega)

theorem number_billion : number 1e9 = some 1000000000 := by
  have same : (1e9 : Float).toModel.unpack = .finite .positive (1000000000 * 2^23) (-23) (by decide) := rfl
  rw [number,same]
  change some ((1000000000 * 2^23 : Nat) * 2 ^ (-23 : Int) : ℚ) = _
  norm_num

theorem number_interval : number kCycleOverCheckInterval = some (7205759403792794 / 2^56) := by
  have same : kCycleOverCheckInterval.toModel.unpack = .finite .positive 7205759403792794 (-56) (by decide) := rfl
  rw [number,same]
  change some ((7205759403792794 : Nat) * 2 ^ (-56 : Int) : ℚ) = _
  norm_num

theorem near_seconds {n : Int} (positive : 0 < n) (most : n ≤ 2^31) : Near 1 (toDouble n / 1e9) (n / 1000000000) := by
  have least : (1 : ℚ) ≤ n := by exact_mod_cast positive
  have bound : (n : ℚ) ≤ 2^31 := by exact_mod_cast most
  refine (near_exact (number_toDouble positive.le most)).div (near_exact number_billion) (by linarith) (by norm_num)
    (by decide) (moderate_between ?_ ?_)
  · linarith
  · linarith

section
variable {ros : Rclcpp} (documented : ros.Documented) {n : Int} (positive : 0 < n) (most : n ≤ 2^31)
include documented positive most

theorem near_period : Near 4 (1.0 / (1.0 / ros.seconds n) * 1e9) n := by
  have least : (1 : ℚ) ≤ n := by exact_mod_cast positive
  have bound : (n : ℚ) ≤ 2^31 := by exact_mod_cast most
  have seconds_pos : (0 : ℚ) < n / 1000000000 := by linarith
  have rate_pos : (0 : ℚ) < 1 / (n / 1000000000) := one_div_pos.mpr seconds_pos
  have back : (1 : ℚ) / (1 / (n / 1000000000)) = n / 1000000000 := one_div_one_div _
  have whole : (n : ℚ) / 1000000000 * 1000000000 = n := div_mul_cancel₀ _ (by norm_num)
  have rate : Near 2 (1.0 / ros.seconds n) (1 / (n / 1000000000)) := by
    rw [documented.seconds]
    refine (near_exact number_one).div (near_seconds positive most) one_pos seconds_pos (by decide) (moderate_between ?_ ?_)
    · rw [le_div_iff₀ seconds_pos]
      linarith
    · rw [div_le_iff₀ seconds_pos]
      linarith
  have period : Near 3 (1.0 / (1.0 / ros.seconds n)) (n / 1000000000) := by
    have divided := (near_exact number_one).div rate one_pos rate_pos (by decide)
    rw [back] at divided
    exact divided (moderate_between (by linarith) (by linarith))
  have multiplied := period.mul (near_exact number_billion) seconds_pos (by norm_num) (by decide)
  rw [whole] at multiplied
  exact multiplied (moderate_between (by linarith) (by linarith))

theorem period_truncate : ∃ q, number (1.0 / (1.0 / ros.seconds n) * 1e9) = some q ∧
    ros.period (1.0 / ros.seconds n) = truncate q ∧ (n : ℚ) - 1 < q ∧ q < n + 1 := by
  obtain ⟨q,known,under,atop⟩ := near_period documented positive most
  have least : (1 : ℚ) ≤ n := by exact_mod_cast positive
  have bound : (n : ℚ) ≤ 2^31 := by exact_mod_cast most
  have factor : slack^4 ≤ 1 + 1 / 2^40 := by norm_num [slack]
  have q_pos : 0 < q := Close.pos ⟨under,atop⟩ (by linarith)
  have more := mul_le_mul_of_nonneg_left factor (one_pos.le.trans least)
  have less := mul_le_mul_of_nonneg_left factor q_pos.le
  have high : q < n + 1 := by linarith
  have low : (n : ℚ) - 1 < q := by linarith
  refine ⟨q,known,documented.period known ?_,low,high⟩
  rw [abs_lt]
  constructor <;> linarith

theorem period_between : n - 1 ≤ ros.period (1.0 / ros.seconds n) ∧ ros.period (1.0 / ros.seconds n) ≤ n := by
  obtain ⟨q,_,same,low,high⟩ := period_truncate documented positive most
  have least : (1 : ℚ) ≤ n := by exact_mod_cast positive
  rw [same,truncate,if_pos (by linarith)]
  have above : q < (n + 1 : Int) := by exact_mod_cast high
  exact ⟨Int.le_floor.mpr (by push_cast; exact low.le),Int.lt_add_one_iff.mp (Int.floor_lt.mpr above)⟩

end

theorem period_least {ros : Rclcpp} (documented : ros.Documented) : ros.period (1.0 / ros.seconds 392157) = 392157 := by
  obtain ⟨q,known,same,_⟩ := period_truncate documented (n := 392157) (by decide) (by decide)
  rw [same,← toInt_truncate known 0 0,documented.seconds]
  decide

theorem near_elapsed {c p : Nat} (small : c < 2^8) (most : p ≤ 2^31) (positive : 0 < c * p) :
    Near 2 (toDouble c * (toDouble p / 1e9)) ((c * p : Nat) / 1000000000) := by
  have c_pos : 0 < c := Nat.pos_of_mul_pos_right positive
  have p_pos : 0 < p := Nat.pos_of_mul_pos_left positive
  have one : (0 : ℚ) < c := by exact_mod_cast c_pos
  have other : (0 : ℚ) < p := by exact_mod_cast p_pos
  have least : (1 : ℚ) ≤ (c * p : Nat) := by exact_mod_cast positive
  have bound : ((c * p : Nat) : ℚ) ≤ 2^8 * 2^31 := by exact_mod_cast Nat.mul_le_mul small.le most
  have product := (near_exact (number_toDouble (n := c) (by omega) (by omega))).mul
    (near_seconds (n := p) (by omega) (by exact_mod_cast most)) one (by positivity) (by decide)
  have same : ((c : Int) : ℚ) * (((p : Int) : ℚ) / 1000000000) = (c * p : Nat) / 1000000000 := by
    push_cast
    ring
  rw [same] at product
  exact product (moderate_between (by linarith) (by linarith))

theorem elapsed_zero {c p : Nat} (small : c < 2^8) (most : p ≤ 2^31) (none : c * p = 0) :
    number (toDouble c * (toDouble p / 1e9)) = some 0 := by
  have count : number (toDouble c) = some ((c : Int) : ℚ) := number_toDouble (by omega) (by omega)
  rcases Nat.eq_zero_or_pos p with rfl | positive
  · have still : number (toDouble (0 : Nat) / 1e9) = some 0 := rfl
    exact number_mul_zero count still (.inr rfl)
  · obtain ⟨r,known,_⟩ := near_seconds (n := p) (by omega) (by exact_mod_cast most)
    obtain rfl : c = 0 := (Nat.mul_eq_zero.mp none).resolve_right positive.ne'
    exact number_mul_zero count known (.inl rfl)

theorem due_iff {c p : Nat} (small : c < 2^8) (most : p ≤ 2^31) (off : c * p ≠ 10^8) :
    toDouble c * (toDouble p / 1e9) > kCycleOverCheckInterval ↔ 10^8 < c * p := by
  rcases Nat.eq_zero_or_pos (c * p) with none | positive
  · have still := elapsed_zero small most none
    rw [gt_iff_lt,lt_iff number_interval still,none]
    norm_num
  obtain ⟨q,known,under,atop⟩ := near_elapsed small most positive
  rw [gt_iff_lt,lt_iff number_interval known]
  have factor : slack^2 ≤ 1 + 1 / 2^50 := by norm_num [slack]
  have square : 0 < slack^2 := pow_pos slack_pos 2
  rcases Nat.lt_or_gt_of_ne off with early | late
  · have bound : ((c * p : Nat) : ℚ) ≤ 99999999 := by exact_mod_cast Nat.le_pred_of_lt early
    have more := mul_le_mul bound factor square.le (by norm_num)
    refine iff_of_false (not_lt.mpr ?_) (by omega)
    linarith
  · have bound : (100000001 : ℚ) ≤ (c * p : Nat) := by exact_mod_cast late
    have q_pos : 0 < q := Close.pos ⟨under,atop⟩ (by linarith)
    have less := mul_le_mul_of_nonneg_left factor q_pos.le
    refine iff_of_true ?_ late
    linarith

namespace MPU9150Node
section
variable {ros : Rclcpp} {node : MPU9150Node} {cycleTime : Int32} {checkCycle : Bool}

theorem loop_cons (m : CycleMonitor) (r : Reading) (readings : List Reading) :
    node.loop ros cycleTime checkCycle m (r :: readings) = node.cycle ros cycleTime checkCycle m r ::
      if (node.cycle ros cycleTime checkCycle m r).stopped then []
      else node.loop ros cycleTime checkCycle (node.cycle ros cycleTime checkCycle m r).monitor readings := by
  rw [loop]
  split <;> rfl

theorem loop_length (readings : List Reading) (m : CycleMonitor) :
    (node.loop ros cycleTime checkCycle m readings).length ≤ readings.length := by
  induction readings generalizing m with
  | nil => exact Nat.le_refl 0
  | cons r readings ih =>
      rw [loop_cons]
      split
      · exact Nat.succ_le_succ (Nat.zero_le _)
      · exact Nat.succ_le_succ (ih _)

theorem cycle_spec (m : CycleMonitor) (r : Reading) :
    (due ros cycleTime (m.cycleCount + 1) = true ∧ (node.cycle ros cycleTime checkCycle m r).checked = true ∧
      (node.cycle ros cycleTime checkCycle m r).monitor = {m.judge (node.cycleOver ros cycleTime r) with cycleCount := 0}) ∨
    (due ros cycleTime (m.cycleCount + 1) = false ∧ (node.cycle ros cycleTime checkCycle m r).checked = false ∧
      (node.cycle ros cycleTime checkCycle m r).stopped = false ∧
      (node.cycle ros cycleTime checkCycle m r).monitor = m.judge (node.cycleOver ros cycleTime r)) := by
  have count : (m.judge (node.cycleOver ros cycleTime r)).cycleCount = m.cycleCount + 1 := rfl
  unfold cycle
  dsimp only
  rw [count]
  cases entered : due ros cycleTime (m.cycleCount + 1) with
  | true => exact .inl ⟨rfl,rfl,rfl⟩
  | false => exact .inr ⟨rfl,rfl,rfl,rfl⟩

theorem cycle_counts {m : CycleMonitor} {overs : List Bool} (counts : m.Counts overs) (r : Reading) :
    (node.cycle ros cycleTime checkCycle m r).monitor.Counts (overs ++ [node.cycleOver ros cycleTime r]) := by
  obtain ⟨judged,_⟩ := CycleMonitor.judge_counts counts (node.cycleOver ros cycleTime r)
  rcases @cycle_spec ros node cycleTime checkCycle m r with ⟨_,_,same⟩ | ⟨_,_,_,same⟩ <;> rw [same]
  · exact ⟨judged.ring,judged.count⟩
  · exact judged

theorem loop_counts (readings : List Reading) {m : CycleMonitor} {overs : List Bool} (counts : m.Counts overs)
    {before after : List CycleOutcome} {turn : CycleOutcome} (taken : node.loop ros cycleTime checkCycle m readings = before ++ turn :: after) :
    turn.monitor.Counts (overs ++ (readings.take (before.length + 1)).map (node.cycleOver ros cycleTime)) ∧
      before.length + 1 ≤ readings.length := by
  induction readings generalizing m overs before with
  | nil => cases before <;> cases taken
  | cons r readings ih =>
      have next := @cycle_counts ros node cycleTime checkCycle _ _ counts r
      rw [loop_cons] at taken
      cases before with
      | nil =>
          rw [← (List.cons.inj taken).1]
          exact ⟨next,Nat.succ_le_succ (Nat.zero_le _)⟩
      | cons first before =>
          have rest := (List.cons.inj taken).2
          split at rest
          · cases before <;> cases rest
          · obtain ⟨reached,long⟩ := ih next rest
            rw [List.append_assoc] at reached
            exact ⟨reached,Nat.succ_le_succ long⟩

-- Where the block is due at the count `k`, the count of the cycles stays below it.
section
variable {k : Nat} (small : k < 2^8) (atMost : due ros cycleTime (.ofNat k) = true)
include small atMost

theorem unchecked_count {c : UInt8} (below : c.toNat < k) (early : due ros cycleTime (c + 1) = false) :
    (c + 1).toNat = c.toNat + 1 ∧ c.toNat + 1 < k := by
  have next : (c + 1).toNat = c.toNat + 1 := by
    rw [UInt8.toNat_add]
    exact Nat.mod_eq_of_lt (Nat.lt_of_le_of_lt below small)
  have other : c.toNat + 1 ≠ k := by
    intro same
    rw [← same,← next,UInt8.ofNat_toNat,early] at atMost
    cases atMost
  exact ⟨next,by omega⟩

theorem cycle_below {m : CycleMonitor} (below : m.cycleCount.toNat < k) (r : Reading) :
    (node.cycle ros cycleTime checkCycle m r).monitor.cycleCount.toNat < k := by
  rcases @cycle_spec ros node cycleTime checkCycle m r with ⟨_,_,same⟩ | ⟨early,_,_,same⟩ <;> rw [same]
  · exact Nat.zero_lt_of_lt below
  · obtain ⟨next,more⟩ := unchecked_count small atMost below early
    exact next.trans_lt more

theorem loop_suffix (readings : List Reading) {m : CycleMonitor} (below : m.cycleCount.toNat < k) {rest : List CycleOutcome}
    (suffix : rest <:+ node.loop ros cycleTime checkCycle m readings) :
    ∃ m' readings', m'.cycleCount.toNat < k ∧ rest = node.loop ros cycleTime checkCycle m' readings' := by
  induction readings generalizing m with
  | nil => exact ⟨m,[],below,List.suffix_nil.mp suffix⟩
  | cons r readings ih =>
      have next := @cycle_below ros node cycleTime checkCycle _ small atMost _ below r
      rw [loop_cons] at suffix
      rcases List.suffix_cons_iff.mp suffix with whole | inner
      · exact ⟨m,r :: readings,below,by rw [loop_cons,whole]⟩
      · split at inner
        · exact ⟨m,[],below,List.suffix_nil.mp inner⟩
        · exact ih next inner

theorem unchecked_short (readings : List Reading) {m : CycleMonitor} (below : m.cycleCount.toNat < k) {segment : List CycleOutcome}
    (first : segment <+: node.loop ros cycleTime checkCycle m readings) (unchecked : ∀ turn ∈ segment, turn.checked = false) :
    m.cycleCount.toNat + segment.length < k := by
  induction readings generalizing m segment with
  | nil =>
      obtain rfl := List.prefix_nil.mp first
      exact below
  | cons r readings ih =>
      cases segment with
      | nil => exact below
      | cons turn segment =>
          rw [loop_cons] at first
          obtain ⟨rfl,inner⟩ := List.cons_prefix_cons.mp first
          rcases @cycle_spec ros node cycleTime checkCycle m r with ⟨_,entered,_⟩ | ⟨early,_,running,same⟩
          · rw [unchecked _ List.mem_cons_self] at entered
            cases entered
          · obtain ⟨next,more⟩ := unchecked_count small atMost below early
            have count : (m.judge (node.cycleOver ros cycleTime r)).cycleCount.toNat = m.cycleCount.toNat + 1 := next
            rw [running,same] at inner
            have rest := ih (count ▸ more) inner fun turn member => unchecked turn (List.mem_cons_of_mem _ member)
            rw [count] at rest
            rw [List.length_cons]
            omega

theorem entered_within (positive : 0 < k) (readings : List Reading) {segment : List CycleOutcome}
    (inside : segment <:+: node.loop ros cycleTime checkCycle .start readings) (long : k ≤ segment.length) :
    ∃ turn ∈ segment, turn.checked = true := by
  by_contra none
  have unchecked : ∀ turn ∈ segment, turn.checked = false := fun turn member =>
    Bool.eq_false_iff.mpr fun entered => none ⟨turn,member,entered⟩
  obtain ⟨rest,first,suffix⟩ := List.infix_iff_prefix_suffix.mp inside
  obtain ⟨m,later,below,rfl⟩ := @loop_suffix ros node cycleTime checkCycle k small atMost readings .start positive rest suffix
  have short := unchecked_short small atMost later below first unchecked
  omega

end

theorem never_entered (never : ∀ c, due ros cycleTime c = false) (readings : List Reading) (m : CycleMonitor) :
    (node.loop ros cycleTime checkCycle m readings).length = readings.length ∧
      ∀ turn ∈ node.loop ros cycleTime checkCycle m readings, turn.checked = false := by
  induction readings generalizing m with
  | nil => exact ⟨rfl,fun turn member => absurd member List.not_mem_nil⟩
  | cons r readings ih =>
      rcases @cycle_spec ros node cycleTime checkCycle m r with ⟨entered,_⟩ | ⟨_,unchecked,running,_⟩
      · rw [never] at entered
        cases entered
      · obtain ⟨length,rest⟩ := ih (node.cycle ros cycleTime checkCycle m r).monitor
        rw [loop_cons,running]
        refine ⟨congrArg Nat.succ length,fun turn member => ?_⟩
        rcases List.mem_cons.mp member with rfl | later
        · exact unchecked
        · exact rest turn later

theorem due_period {p : Nat} (same : ros.period (1.0 / ros.seconds cycleTime.toInt) = p) (most : p ≤ 2^31) (c : UInt8)
    (off : c.toNat * p ≠ 10^8) : due ros cycleTime c = true ↔ 10^8 < c.toNat * p := by
  rw [due,decide_eq_true_iff,Rclcpp.periodSeconds,same]
  exact due_iff c.toNat_lt most off

theorem beyond_window {n p : Nat} (slow : 392157 ≤ n) (near : n ≤ p + 1) : 10^8 / p ≤ 10^8 / n + 1 := by
  have few : 10^8 / n < 256 := (Nat.div_lt_iff_lt_mul (by omega)).mpr (by omega)
  have beyond : 10^8 < (10^8 / n + 1 + 1) * p := calc
    10^8 < (10^8 / n + 1) * n := Nat.lt_mul_of_div_lt (Nat.lt_succ_self _) (by omega)
    _ ≤ (10^8 / n + 1) * (p + 1) := Nat.mul_le_mul_left _ near
    _ = (10^8 / n + 1) * p + (10^8 / n + 1) := Nat.mul_succ _ _
    _ ≤ (10^8 / n + 1) * p + p := Nat.add_le_add_left (by omega) _
    _ = (10^8 / n + 1 + 1) * p := (Nat.succ_mul _ _).symm
  exact Nat.lt_succ_iff.mp ((Nat.div_lt_iff_lt_mul (by omega)).mpr beyond)

theorem due_in_window (documented : ros.Documented) (slow : 392157 ≤ cycleTime.toInt) :
    ∃ k, 0 < k ∧ k < 2^8 ∧ k ≤ checkWindow cycleTime ∧ due ros cycleTime (.ofNat k) = true := by
  have width := cycleTime.toInt_lt
  obtain ⟨low,high⟩ := period_between documented (n := cycleTime.toInt) (by omega) (by omega)
  have least : 392157 ≤ ros.period (1.0 / ros.seconds cycleTime.toInt) := by
    rcases Int.le_iff_lt_or_eq.mp slow with more | exact
    · omega
    · rw [← exact,period_least documented]
  obtain ⟨p,same⟩ := Int.eq_ofNat_of_zero_le (Int.le_trans (by decide) least)
  rw [same] at low high least
  have few : 10^8 / p < 255 := (Nat.div_lt_iff_lt_mul (by omega)).mpr (by omega)
  have beyond : 10^8 < (10^8 / p + 1) * p := Nat.lt_mul_of_div_lt (Nat.lt_succ_self _) (by omega)
  have count : (UInt8.ofNat (10^8 / p + 1)).toNat = 10^8 / p + 1 := UInt8.toNat_ofNat_of_lt' (Nat.succ_lt_succ few)
  refine ⟨10^8 / p + 1,Nat.succ_pos _,by omega,?_,?_⟩
  · exact Nat.succ_le_succ (beyond_window (by omega) (by omega))
  · rw [due_period same (by omega) _ (count.symm ▸ beyond.ne'),count]
    exact beyond

theorem never_due (documented : ros.Documented) (positive : 0 < cycleTime.toInt) (fast : cycleTime.toInt < 392157) (c : UInt8) :
    due ros cycleTime c = false := by
  obtain ⟨low,high⟩ := period_between documented positive (by omega)
  obtain ⟨p,same⟩ := Int.eq_ofNat_of_zero_le (Int.le_trans (by omega) low)
  rw [same] at high
  have count : c.toNat ≤ 255 := Nat.le_of_lt_succ c.toNat_lt
  have early : c.toNat * p ≤ 255 * 392156 := Nat.mul_le_mul count (by omega)
  refine Bool.eq_false_iff.mpr fun entered => ?_
  have late := (due_period same (by omega) c (by omega)).mp entered
  omega

end

theorem run_counts {ros : Rclcpp} {node : MPU9150Node} {cycleTime : Int32} {checkCycle : Bool} (readings : List Reading)
    {before after : List CycleOutcome} {turn : CycleOutcome}
    (taken : node.loop ros cycleTime checkCycle .start readings = before ++ turn :: after) :
    turn.monitor.Counts ((readings.take (before.length + 1)).map (node.cycleOver ros cycleTime)) ∧
      before.length + 1 ≤ readings.length := by
  have reached := loop_counts readings CycleMonitor.start_counts taken
  rw [List.nil_append] at reached
  exact reached

theorem running_loop {ros : Rclcpp} {node : MPU9150Node} {cycleTime : Int32} {checkCycle : Bool} {readings : List Reading}
    {turns : List CycleOutcome} (running : node.runLoopImpl ros cycleTime checkCycle readings = some turns) :
    turns = node.loop ros cycleTime checkCycle .start readings := by
  unfold runLoopImpl at running
  split at running
  · exact (Option.some.inj running).symm
  · cases running

theorem fast_unentered {ros : Rclcpp} (documented : ros.Documented) {node : MPU9150Node} {cycleTime : Int32}
    (positive : 0 < cycleTime.toInt) (fast : cycleTime.toInt < 392157) {checkCycle : Bool} {readings : List Reading}
    (long : checkWindow cycleTime ≤ readings.length) :
    ¬Monitored ros node cycleTime readings (node.loop ros cycleTime checkCycle .start readings) := by
  intro monitored
  obtain ⟨length,unchecked⟩ := @never_entered ros node cycleTime checkCycle (never_due documented positive fast) readings .start
  obtain ⟨turn,member,entered⟩ := monitored.entered
    ((node.loop ros cycleTime checkCycle .start readings).take (checkWindow cycleTime)) (List.take_prefix _ _).isInfix
    (by rw [List.length_take,length]; exact Nat.min_eq_left long)
  rw [unchecked turn (List.mem_of_mem_take member)] at entered
  cases entered

-- The counter of the judgments is that of the last hundred, always. The block is entered as it is to
-- be from the cycle time on that the count of the cycles reaches a tenth of a second with; below, no
-- cycle enters it.
theorem runLoopImpl_monitored_iff {ros : Rclcpp} (documented : ros.Documented) (node : MPU9150Node) {cycleTime : Int32}
    (positive : 0 < cycleTime.toInt) (checkCycle : Bool) {readings : List Reading} {turns : List CycleOutcome}
    (running : node.runLoopImpl ros cycleTime checkCycle readings = some turns) :
    Monitored ros node cycleTime readings turns ↔ 392157 ≤ cycleTime.toInt ∨ readings.length < checkWindow cycleTime := by
  obtain rfl := running_loop running
  constructor
  · intro monitored
    by_contra failing
    obtain ⟨fast,long⟩ := not_or.mp failing
    exact fast_unentered documented positive (Int.not_le.mp fast) (Nat.not_lt.mp long) monitored
  · intro holds
    refine ⟨?_,?_,?_⟩
    · intro segment inside exact
      rcases holds with slow | short
      · obtain ⟨k,k_pos,small,most,atMost⟩ := due_in_window documented slow
        exact entered_within small atMost k_pos readings inside (exact ▸ most)
      · have long := inside.length_le.trans (loop_length readings .start)
        omega
    · intro before turn after same
      obtain ⟨counts,long⟩ := run_counts readings same
      have last := counts.last
      rw [List.length_map,List.length_take,Nat.min_eq_left long] at last
      exact ⟨counts.count,last⟩
    · rintro m (rfl | ⟨turn,member,rfl⟩) late
      · exact (CycleMonitor.judge_counts CycleMonitor.start_counts late).2
      · obtain ⟨before,after,same⟩ := List.append_of_mem member
        exact (CycleMonitor.judge_counts (run_counts readings same).1 late).2

-- rclcpp as it is documented.
def conversions : Rclcpp where
  seconds nanoseconds := toDouble nanoseconds / 1e9
  period rate := (1.0 / rate * 1e9).toModel.unpack.toInt 0 0

theorem conversions_documented : conversions.Documented :=
  ⟨fun _ => rfl,fun known _ => toInt_truncate known 0 0⟩

def defaults : MPU9150Node := ⟨0.1,0.4,1.0e-5⟩

def onTime (period : Int) (cycles : Nat) : List Reading :=
  (List.range cycles).map fun i : Nat => ⟨period * i,period * i + period / 2⟩

theorem onTime_length (period : Int) (cycles : Nat) : (onTime period cycles).length = cycles := by
  rw [onTime,List.length_map,List.length_range]

theorem default_monitored : ∃ turns, defaults.runLoopImpl conversions 10000000 true (onTime 10000000 12) = some turns ∧
    Monitored conversions defaults 10000000 (onTime 10000000 12) turns := by
  have running : defaults.runLoopImpl conversions 10000000 true (onTime 10000000 12) =
      some (defaults.loop conversions 10000000 true .start (onTime 10000000 12)) := if_pos (by decide)
  exact ⟨_,running,(runLoopImpl_monitored_iff conversions_documented defaults (by decide) true running).mpr (.inl (by decide))⟩

theorem fast_cycles_unmonitored : ∃ turns, defaults.runLoopImpl conversions 250000 true (onTime 250000 402) = some turns ∧
    ¬Monitored conversions defaults 250000 (onTime 250000 402) turns := by
  have running : defaults.runLoopImpl conversions 250000 true (onTime 250000 402) =
      some (defaults.loop conversions 250000 true .start (onTime 250000 402)) := if_pos (by decide)
  have long : checkWindow 250000 ≤ (onTime 250000 402).length := by
    rw [onTime_length]
    decide
  exact ⟨_,running,fast_unentered conversions_documented (by decide) (by decide) long⟩

end MPU9150Node
end HsrbDrivers.ImuSensor

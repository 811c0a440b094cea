import HsrbDrivers.Library.Binary64
import Mathlib.Data.Nat.Cast.Order.Field
import Mathlib.Tactic.FieldSimp
import Mathlib.Tactic.Linarith
import Mathlib.Tactic.NormNum

namespace HsrbDrivers.Binary64
open Float.Model Float.Model.UnpackedFloat

theorem rounded_near (em : ExtendedMantissa) : em.mantissa ≤ em.roundedMantissa ∧ em.roundedMantissa ≤ em.mantissa + 1 := by
  obtain ⟨mantissa,roundBit,stickyBit⟩ := em
  unfold ExtendedMantissa.roundedMantissa
  cases roundBit <;> cases stickyBit <;>
    simp only [ExtendedMantissa.accuracy,Accuracy.roundToNearestEven] <;> omega

theorem settled {r : Nat} {t : Int} (low : 2^52 ≤ r) (high : r ≤ 2^53) (least : -1074 ≤ t) (greatest : t ≤ 970) :
    ∃ n d, Canonical n d ∧ (n : ℚ) * 2 ^ d = r * 2 ^ t ∧
      shiftToTargetExponent Format.binary64 r t .exact = (⟨n,false,false⟩,d) := by
  rcases Nat.lt_or_ge r (2^53) with below | above
  · have canonical : Canonical r t := ⟨by omega,below,least,by omega,.inl low⟩
    have same := shift_canonical canonical 0
    rw [Nat.pow_zero,Nat.mul_one,Int.natCast_zero,Int.sub_zero] at same
    exact ⟨r,t,canonical,rfl,same⟩
  · obtain rfl := Nat.le_antisymm high above
    have canonical : Canonical (2^52) (t + 1) := ⟨by decide,by decide,by omega,by omega,.inl (Nat.le_refl _)⟩
    have same := shift_canonical canonical 1
    rw [show t + 1 - (1 : Nat) = t by omega] at same
    refine ⟨2^52,t + 1,canonical,?_,same⟩
    rw [zpow_add_one₀ two_ne_zero]
    push_cast
    ring

-- What rounding may add to a number, and what it may take from it.
def slack : ℚ := 1 + 1 / 2^52

theorem one_le_slack : 1 ≤ slack := by norm_num [slack]

theorem slack_pos : 0 < slack := one_pos.trans_le one_le_slack

section
variable {m : Nat} {e : Int} {v : ℚ}

theorem first_bit (pos : 0 < m) (low : m * 2 ^ e ≤ v) (high : v ≤ (m + 1) * 2 ^ e) :
    (2 : ℚ) ^ (m.log2 + e) ≤ v ∧ v ≤ 2 ^ (m.log2 + e + 1) := by
  have power : (0 : ℚ) < 2 ^ e := zpow_pos two_pos e
  have least : ((2^m.log2 : Nat) : ℚ) ≤ m := by exact_mod_cast Nat.log2_self_le pos.ne'
  have most : (m : ℚ) + 1 ≤ (2^(m.log2 + 1) : Nat) := by exact_mod_cast Nat.lt_log2_self
  constructor
  · calc (2 : ℚ) ^ (m.log2 + e) = (2^m.log2 : Nat) * 2 ^ e := by rw [zpow_add₀ two_ne_zero]; norm_cast
      _ ≤ m * 2 ^ e := mul_le_mul_of_nonneg_right least power.le
      _ ≤ v := low
  · calc v ≤ (m + 1) * 2 ^ e := high
      _ ≤ (2^(m.log2 + 1) : Nat) * 2 ^ e := mul_le_mul_of_nonneg_right most power.le
      _ = 2 ^ (m.log2 + e + 1) := by rw [add_right_comm,zpow_add₀ two_ne_zero]; norm_cast

theorem div_between (m : Nat) {n : Nat} (positive : 0 < n) :
    ((m / n : Nat) : ℚ) * n ≤ m ∧ (m : ℚ) + 1 ≤ ((m / n : Nat) + 1) * n := by
  constructor
  · exact_mod_cast Nat.div_mul_le_self m n
  · exact_mod_cast Nat.lt_mul_of_div_lt (Nat.lt_succ_self (m / n)) positive

theorem kept_width (full : 2^52 ≤ m) : 2^52 ≤ m / 2^(m.log2 - 52) ∧ m / 2^(m.log2 - 52) < 2^53 := by
  have wide : 52 ≤ m.log2 := (Nat.le_log2 (n := m) (k := 52) (by omega)).mpr full
  constructor
  · rw [Nat.le_div_iff_mul_le (Nat.two_pow_pos _),← pow_add,Nat.add_sub_cancel' wide]
    exact Nat.log2_self_le (by omega)
  · have next : 53 + (m.log2 - 52) = m.log2 + 1 := by omega
    rw [Nat.div_lt_iff_lt_mul (Nat.two_pow_pos _),← pow_add,next]
    exact Nat.lt_log2_self

theorem neighbour_near {k r : Nat} {u : ℚ} (positive : 0 < u) (full : 2^52 ≤ k) (least : k ≤ r) (most : r ≤ k + 1)
    (below : k * u ≤ v) (above : v ≤ (k + 1) * u) : r * u ≤ v * slack ∧ v ≤ r * u * slack := by
  have first : (2 : ℚ)^52 ≤ k := by exact_mod_cast full
  have second : (k : ℚ) ≤ r := by exact_mod_cast least
  have third : (r : ℚ) ≤ k + 1 := by exact_mod_cast most
  unfold slack
  constructor
  · have small : u ≤ v / 2^52 := by
      rw [le_div_iff₀' (by positivity)]
      exact (mul_le_mul_of_nonneg_right first positive.le).trans below
    have moved := mul_le_mul_of_nonneg_right third positive.le
    linarith
  · have small : u ≤ r * u / 2^52 := by
      rw [le_div_iff₀' (by positivity)]
      exact mul_le_mul_of_nonneg_right (first.trans second) positive.le
    have moved := mul_le_mul_of_nonneg_right second positive.le
    linarith

theorem mantissa_near (full : 2^52 ≤ m) {r : Nat} (least : m / 2^(m.log2 - 52) ≤ r) (most : r ≤ m / 2^(m.log2 - 52) + 1)
    (low : m * 2 ^ e ≤ v) (high : v ≤ (m + 1) * 2 ^ e) :
    r * 2 ^ ((m.log2 : Int) + e - 52) ≤ v * slack ∧ v ≤ r * 2 ^ ((m.log2 : Int) + e - 52) * slack := by
  have wide : 52 ≤ m.log2 := (Nat.le_log2 (n := m) (k := 52) (by omega)).mpr full
  have bottom := (kept_width full).1
  generalize amount : m.log2 - 52 = k at least most bottom
  have place : (m.log2 : Int) + e - 52 = e + k := by omega
  have power : (0 : ℚ) < 2 ^ e := zpow_pos two_pos e
  have unit : (2 : ℚ) ^ (e + k) = (2^k : Nat) * 2 ^ e := by
    rw [zpow_add₀ two_ne_zero,zpow_natCast,mul_comm]
    norm_cast
  have positive : (0 : ℚ) < (2^k : Nat) * 2 ^ e := by positivity
  obtain ⟨under,atop⟩ := div_between m (Nat.two_pow_pos k)
  rw [place,unit]
  refine neighbour_near positive bottom least most ?_ ?_ <;> rw [← mul_assoc]
  · exact (mul_le_mul_of_nonneg_right under power.le).trans low
  · exact high.trans (mul_le_mul_of_nonneg_right atop power.le)

theorem round_near {acc : Accuracy} (full : 2^52 ≤ m) (low : m * 2 ^ e ≤ v) (high : v ≤ (m + 1) * 2 ^ e)
    (least : (2 : ℚ) ^ (-1000 : Int) ≤ v) (most : v ≤ 2 ^ (1000 : Int)) (sign : Sign) :
    ∃ n d pos, roundWithAccuracy .binary64 sign m e acc = .finite sign n d pos ∧ Canonical n d ∧
      n * 2 ^ d ≤ v * slack ∧ v ≤ n * 2 ^ d * slack := by
  have wide : 52 ≤ m.log2 := (Nat.le_log2 (n := m) (k := 52) (by omega)).mpr full
  obtain ⟨bottom,top⟩ := first_bit (by omega) low high
  have small := (zpow_le_zpow_iff_right₀ (one_lt_two (α := ℚ))).mp (bottom.trans most)
  have large := (zpow_le_zpow_iff_right₀ (one_lt_two (α := ℚ))).mp (least.trans top)
  have target : Format.binary64.targetExponent (totalExponent m e) = m.log2 + e - 52 := by
    have minimum : Format.binary64.minExponent = -1074 := by decide
    have bits : (Format.binary64.mantissaBits : Int) = 53 := by decide
    unfold Format.targetExponent totalExponent
    rw [minimum,bits]
    omega
  generalize kept : (ExtendedMantissa.ofMantissaAndAccuracy m acc) >>> (m.log2 - 52) = em
  have mantissa : em.mantissa = m / 2^(m.log2 - 52) := by
    have same : (ExtendedMantissa.ofMantissaAndAccuracy m acc).mantissa = m := by
      unfold ExtendedMantissa.ofMantissaAndAccuracy
      split <;> rfl
    rw [← kept,shift_mantissa,same]
  have first : shiftToTargetExponent Format.binary64 m e acc = (em,m.log2 + e - 52) := by
    have amount : ((m.log2 : Int) + e - 52 - e).toNat = m.log2 - 52 := by omega
    unfold shiftToTargetExponent shiftToExponent
    rw [target]
    dsimp only
    rw [amount]
    exact Prod.ext kept (by dsimp only; omega)
  obtain ⟨least,most⟩ := rounded_near em
  rw [mantissa] at least most
  obtain ⟨narrow,within⟩ := kept_width full
  obtain ⟨under,atop⟩ := mantissa_near full least most low high
  obtain ⟨n,d,canonical,exact,second⟩ := @settled _ ((m.log2 : Int) + e - 52) (narrow.trans least) (by omega) (by omega) (by omega)
  refine ⟨n,d,canonical.pos,?_,canonical,exact ▸ under,exact ▸ atop⟩
  unfold roundWithAccuracy
  dsimp only
  rw [first]
  dsimp only
  rw [second]
  exact dif_neg canonical.pos.ne'

end

theorem number_positive {x : Float} {p : ℚ} (known : number x = some p) (positive : 0 < p) :
    ∃ m e pos, x.toModel.unpack = .finite .positive m e pos ∧ Canonical m e ∧ p = m * 2 ^ e := by
  rcases number_cases known with ⟨_,_,rfl⟩ | ⟨sign,m,e,pos,same,canonical,rfl⟩
  · exact absurd positive (lt_irrefl 0)
  · cases sign with
    | positive => exact ⟨m,e,pos,same,canonical,rfl⟩
    | negative =>
        have more := magnitude_pos pos e
        exact absurd positive (by simpa [Sign.apply] using more.le)

theorem number_rounded {u : UnpackedFloat} {m : Nat} {e : Int} {pos : 0 < m} (same : u = .finite .positive m e pos)
    (canonical : Canonical m e) : value (Float.Model.pack u).unpack = some ((m : ℚ) * 2 ^ e) := by
  rw [same,value_pack canonical]
  rfl

theorem first_bits {m n : Nat} {d e : Int} (left : 0 < m) (right : 0 < n)
    (least : (2 : ℚ) ^ (-1000 : Int) ≤ (m : ℚ) * 2 ^ d / (n * 2 ^ e)) : -1000 ≤ (m.log2 : Int) + d + 1 - (n.log2 + e) := by
  have above : (m : ℚ) * 2 ^ d ≤ 2 ^ (m.log2 + d + 1) :=
    (first_bit left le_rfl (mul_le_mul_of_nonneg_right (by linarith) (zpow_pos two_pos d).le)).2
  have below : (2 : ℚ) ^ (n.log2 + e) ≤ n * 2 ^ e :=
    (first_bit right le_rfl (mul_le_mul_of_nonneg_right (by linarith) (zpow_pos two_pos e).le)).1
  have ratio := least.trans (div_le_div₀ (zpow_pos two_pos _).le above (zpow_pos two_pos _) below)
  rw [← zpow_sub₀ two_ne_zero] at ratio
  exact (zpow_le_zpow_iff_right₀ one_lt_two).mp ratio

theorem divCore_shifted {m n : Nat} {d e : Int} (left : Canonical m d)
    (large : -1000 ≤ (m.log2 : Int) + d + 1 - (n.log2 + e)) :
    ∃ k : Nat, divCore .binary64 m d n e = (m * 2^k / n,d - e - (k : Int),accuracyOfFraction (m * 2^k % n) n) ∧ m.log2 + k = 53 + n.log2 := by
  have high := (Nat.log2_lt (n := m) (k := 53) left.pos.ne').mpr left.bound
  have minimum : Format.binary64.minExponent = -1074 := by decide
  have bits : (Format.binary64.mantissaBits : Int) = 53 := by decide
  have target : min (d - e) (Format.binary64.targetExponent (totalExponent m d - totalExponent n e)) =
      (m.log2 : Int) + d - (n.log2 + e) - 53 := by
    unfold Format.targetExponent totalExponent
    rw [minimum,bits]
    omega
  refine ⟨53 + n.log2 - m.log2,?_,by omega⟩
  have place : (m.log2 : Int) + d - (n.log2 + e) - 53 = d - e - (53 + n.log2 - m.log2 : Nat) := by omega
  have shift : (d - e - (d - e - ((53 + n.log2 - m.log2 : Nat) : Int))).toNat = 53 + n.log2 - m.log2 := by omega
  unfold divCore
  rw [target,place]
  dsimp only
  rw [shift,Nat.shiftLeft_eq]

theorem divCore_near {m n : Nat} {d e : Int} (left : Canonical m d) (right : Canonical n e)
    (least : (2 : ℚ) ^ (-1000 : Int) ≤ (m : ℚ) * 2 ^ d / (n * 2 ^ e)) :
    ∃ (quotient : Nat) (t : Int) (acc : Accuracy), divCore .binary64 m d n e = (quotient,t,acc) ∧ 2^52 ≤ quotient ∧
      quotient * 2 ^ t ≤ (m : ℚ) * 2 ^ d / (n * 2 ^ e) ∧ (m : ℚ) * 2 ^ d / (n * 2 ^ e) ≤ (quotient + 1) * 2 ^ t := by
  obtain ⟨k,core,width⟩ := divCore_shifted left (first_bits left.pos right.pos least)
  have positive : (0 : ℚ) < n := by exact_mod_cast right.pos
  have power : (2 : ℚ) ^ (d - e - k) = 2 ^ d / 2 ^ e / 2^k := by rw [zpow_sub₀ two_ne_zero,zpow_sub₀ two_ne_zero,zpow_natCast]
  have value : (m : ℚ) * 2 ^ d / (n * 2 ^ e) = (m * 2^k : Nat) / n * 2 ^ (d - e - k) := by
    rw [power]
    push_cast
    field_simp
  have unit : (0 : ℚ) < 2 ^ (d - e - k) := zpow_pos two_pos _
  obtain ⟨under,atop⟩ := div_between (m * 2^k) right.pos
  refine ⟨_,_,_,core,?_,?_,?_⟩
  · rw [Nat.le_div_iff_mul_le right.pos]
    calc 2^52 * n ≤ 2^52 * 2^(n.log2 + 1) := Nat.mul_le_mul_left _ Nat.lt_log2_self.le
      _ = 2^m.log2 * 2^k := by rw [← pow_add,← pow_add]; congr 1; omega
      _ ≤ m * 2^k := Nat.mul_le_mul_right _ (Nat.log2_self_le left.pos.ne')
  · rw [value]
    exact mul_le_mul_of_nonneg_right ((le_div_iff₀ positive).mpr under) unit.le
  · rw [value]
    exact mul_le_mul_of_nonneg_right ((div_le_iff₀ positive).mpr (by linarith)) unit.le

section
variable {x y : Float} {p q : ℚ} (left : number x = some p) (right : number y = some q) (p_pos : 0 < p) (q_pos : 0 < q)
include left right p_pos q_pos

theorem number_mul (least : (2 : ℚ) ^ (-1000 : Int) ≤ p * q) (most : p * q ≤ 2 ^ (1000 : Int)) :
    ∃ r, number (x * y) = some r ∧ r ≤ p * q * slack ∧ p * q ≤ r * slack := by
  obtain ⟨m,d,pos,first,canonical,rfl⟩ := number_positive left p_pos
  obtain ⟨n,e,pos',second,canonical',rfl⟩ := number_positive right q_pos
  have product : (m : ℚ) * 2 ^ d * (n * 2 ^ e) = (m * n : Nat) * 2 ^ (d + e) := by
    rw [zpow_add₀ two_ne_zero]
    push_cast
    ring
  rw [product] at least most ⊢
  have power : (0 : ℚ) < 2 ^ (d + e) := zpow_pos two_pos _
  -- Two numbers below the normal range have a product far below it.
  have full : 2^52 ≤ m * n := by
    by_contra small
    have one := canonical.full.resolve_left (by nlinarith)
    have other := canonical'.full.resolve_left (by nlinarith)
    have tiny : ((m * n : Nat) : ℚ) * 2 ^ (d + e) < 2^52 * 2 ^ (d + e) :=
      mul_lt_mul_of_pos_right (by exact_mod_cast Nat.not_le.mp small) power
    have far : (2 : ℚ)^52 * 2 ^ (d + e) ≤ 2 ^ (-1000 : Int) := by
      rw [← zpow_natCast,← zpow_add₀ two_ne_zero]
      exact zpow_le_zpow_right₀ one_le_two (by omega)
    exact absurd (least.trans_lt tiny) (not_lt.mpr far)
  obtain ⟨k,c,pos'',rounded,final,under,atop⟩ :=
    @round_near _ _ _ .exact full le_rfl (mul_le_mul_of_nonneg_right (by linarith) power.le) least most (.positive * .positive)
  refine ⟨k * 2 ^ c,?_,under,atop⟩
  change value (Float.Model.pack (UnpackedFloat.mul .binary64 x.toModel.unpack y.toModel.unpack)).unpack = _
  rw [first,second,mul_finite]
  exact number_rounded rounded final

theorem number_div (least : (2 : ℚ) ^ (-1000 : Int) ≤ p / q) (most : p / q ≤ 2 ^ (1000 : Int)) :
    ∃ r, number (x / y) = some r ∧ r ≤ p / q * slack ∧ p / q ≤ r * slack := by
  obtain ⟨m,d,pos,first,canonical,rfl⟩ := number_positive left p_pos
  obtain ⟨n,e,pos',second,canonical',rfl⟩ := number_positive right q_pos
  obtain ⟨quotient,t,acc,core,full,low,high⟩ := divCore_near canonical canonical' least
  obtain ⟨k,c,pos'',rounded,final,under,atop⟩ := round_near full low high least most (.positive / .positive)
  refine ⟨k * 2 ^ c,?_,under,atop⟩
  change value (Float.Model.pack (UnpackedFloat.div .binary64 x.toModel.unpack y.toModel.unpack)).unpack = _
  rw [first,second,div_finite,core]
  exact number_rounded rounded final

end

-- Two numbers that `k` roundings may lie between.
structure Close (k : Nat) (q v : ℚ) : Prop where
  most : q ≤ v * slack^k
  least : v ≤ q * slack^k

theorem Close.refl (v : ℚ) : Close 0 v v := ⟨by rw [pow_zero,mul_one],by rw [pow_zero,mul_one]⟩

section
variable {j k : Nat} {p q v w : ℚ}

theorem Close.pos (close : Close k q v) (positive : 0 < v) : 0 < q :=
  pos_of_mul_pos_left (positive.trans_le close.least) (pow_pos slack_pos k).le

theorem Close.trans (first : Close j p q) (second : Close k q v) : Close (j + k) p v := by
  have factor := (pow_pos slack_pos j).le
  have factor' := (pow_pos slack_pos k).le
  constructor
  · calc p ≤ q * slack^j := first.most
      _ ≤ v * slack^k * slack^j := mul_le_mul_of_nonneg_right second.most factor
      _ = v * slack^(j + k) := by ring
  · calc v ≤ q * slack^k := second.least
      _ ≤ p * slack^j * slack^k := mul_le_mul_of_nonneg_right first.least factor'
      _ = p * slack^(j + k) := by ring

theorem Close.mul (left : Close j p v) (right : Close k q w) (v_pos : 0 < v) (w_pos : 0 < w) :
    Close (j + k) (p * q) (v * w) := by
  have factor := (pow_pos slack_pos j).le
  have p_pos := left.pos v_pos
  have q_pos := right.pos w_pos
  constructor
  · calc p * q ≤ v * slack^j * (w * slack^k) := mul_le_mul left.most right.most q_pos.le (mul_nonneg v_pos.le factor)
      _ = v * w * slack^(j + k) := by ring
  · calc v * w ≤ p * slack^j * (q * slack^k) := mul_le_mul left.least right.least w_pos.le (mul_nonneg p_pos.le factor)
      _ = p * q * slack^(j + k) := by ring

theorem Close.inv (close : Close k q v) (positive : 0 < v) : Close k q⁻¹ v⁻¹ := by
  have other := close.pos positive
  constructor
  · rw [inv_mul_eq_div,le_div_iff₀ positive,inv_mul_le_iff₀ other]
    exact close.least
  · rw [inv_mul_eq_div,le_div_iff₀ other,inv_mul_le_iff₀ positive]
    exact close.most

structure Moderate (v : ℚ) : Prop where
  least : (2 : ℚ) ^ (-200 : Int) ≤ v
  most : v ≤ 2 ^ (200 : Int)

theorem moderate_between (low : 1 / 2^64 ≤ v) (high : v ≤ 2^64) : Moderate v := by
  have small : (2 : ℚ) ^ (-200 : Int) ≤ 2 ^ (-64 : Int) := zpow_le_zpow_right₀ one_le_two (by decide)
  have large : (2 : ℚ) ^ (64 : Int) ≤ 2 ^ (200 : Int) := zpow_le_zpow_right₀ one_le_two (by decide)
  exact ⟨small.trans (by rw [zpow_neg,← one_div]; exact low),le_trans high large⟩

theorem Moderate.pos (moderate : Moderate v) : 0 < v := (zpow_pos two_pos _).trans_le moderate.least

theorem Close.representable (close : Close k q v) (moderate : Moderate v) (few : k ≤ 100) :
    (2 : ℚ) ^ (-1000 : Int) ≤ q ∧ q ≤ 2 ^ (1000 : Int) := by
  have positive := close.pos moderate.pos
  have factor : slack^k ≤ 2 ^ (100 : Int) := calc
    slack^k ≤ slack^100 := pow_le_pow_right₀ one_le_slack few
    _ ≤ 2^100 := pow_le_pow_left₀ slack_pos.le (by norm_num [slack]) 100
    _ = 2 ^ (100 : Int) := by norm_cast
  constructor
  · have bound : (2 : ℚ) ^ (-200 : Int) ≤ q * 2 ^ (100 : Int) :=
      moderate.least.trans (close.least.trans (mul_le_mul_of_nonneg_left factor positive.le))
    rw [← div_le_iff₀ (zpow_pos two_pos _),← zpow_sub₀ two_ne_zero] at bound
    exact (zpow_le_zpow_right₀ one_le_two (by decide)).trans bound
  · calc q ≤ v * slack^k := close.most
      _ ≤ 2 ^ (200 : Int) * 2 ^ (100 : Int) :=
        mul_le_mul moderate.most factor (pow_pos slack_pos k).le (zpow_pos two_pos _).le
      _ = 2 ^ (300 : Int) := by rw [← zpow_add₀ two_ne_zero]; rfl
      _ ≤ 2 ^ (1000 : Int) := zpow_le_zpow_right₀ one_le_two (by decide)

end

theorem number_mul_zero {x y : Float} {p q : ℚ} (left : number x = some p) (right : number y = some q)
    (none : p = 0 ∨ q = 0) : number (x * y) = some 0 := by
  change value (Float.Model.pack (UnpackedFloat.mul .binary64 x.toModel.unpack y.toModel.unpack)).unpack = _
  rcases number_cases left with ⟨s,first,rfl⟩ | ⟨s,m,d,pos,first,_,rfl⟩ <;>
    rcases number_cases right with ⟨t,second,rfl⟩ | ⟨t,n,e,pos',second,_,rfl⟩ <;> rw [first,second]
  · exact congrArg value (unpack_pack_zero _)
  · exact congrArg value (unpack_pack_zero _)
  · exact congrArg value (unpack_pack_zero _)
  · have more := magnitude_pos pos d
    have also := magnitude_pos pos' e
    cases s <;> cases t <;> simp [Sign.apply,more.ne',also.ne'] at none

theorem number_one : number 1.0 = some 1 := by
  rw [number,unpack_one]
  change some ((2^52 : Nat) * 2 ^ (-52 : Int) : ℚ) = some 1
  norm_num

def Near (k : Nat) (x : Float) (v : ℚ) : Prop := ∃ q, number x = some q ∧ Close k q v

section
variable {j k : Nat} {x y : Float} {v w : ℚ}

theorem near_exact (known : number x = some v) : Near 0 x v := ⟨v,known,Close.refl v⟩

theorem Near.mul (left : Near j x v) (right : Near k y w) (v_pos : 0 < v) (w_pos : 0 < w) (few : j + k ≤ 100)
    (moderate : Moderate (v * w)) : Near (1 + (j + k)) (x * y) (v * w) := by
  obtain ⟨p,first,close⟩ := left
  obtain ⟨q,second,close'⟩ := right
  have product := close.mul close' v_pos w_pos
  obtain ⟨least,most⟩ := product.representable moderate few
  obtain ⟨r,rounded,under,atop⟩ := number_mul first second (close.pos v_pos) (close'.pos w_pos) least most
  have once : Close 1 r (p * q) := ⟨by rw [pow_one]; exact under,by rw [pow_one]; exact atop⟩
  exact ⟨r,rounded,once.trans product⟩

theorem Near.div (left : Near j x v) (right : Near k y w) (v_pos : 0 < v) (w_pos : 0 < w) (few : j + k ≤ 100)
    (moderate : Moderate (v / w)) : Near (1 + (j + k)) (x / y) (v / w) := by
  obtain ⟨p,first,close⟩ := left
  obtain ⟨q,second,close'⟩ := right
  have quotient := close.mul (close'.inv w_pos) v_pos (inv_pos.mpr w_pos)
  rw [← div_eq_mul_inv,← div_eq_mul_inv] at quotient
  obtain ⟨least,most⟩ := quotient.representable moderate few
  obtain ⟨r,rounded,under,atop⟩ := number_div first second (close.pos v_pos) (close'.pos w_pos) least most
  have once : Close 1 r (p / q) := ⟨by rw [pow_one]; exact under,by rw [pow_one]; exact atop⟩
  exact ⟨r,rounded,once.trans quotient⟩

end
end HsrbDrivers.Binary64

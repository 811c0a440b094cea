import Mathlib.Algebra.Order.Field.Power
import Mathlib.Data.Nat.Log
import Mathlib.Data.Rat.Cast.Order
import Mathlib.Data.Rat.Floor
import Mathlib.Tactic.Positivity
import Mathlib.Tactic.Ring

namespace HsrbDrivers.Binary64
open Float.Model Float.Model.UnpackedFloat

def value : UnpackedFloat → Option ℚ
  | .zero _ => some 0
  | .finite s m e _ => some (s.apply m * 2 ^ e)
  | _ => none

structure Canonical (m : Nat) (e : Int) : Prop where
  pos : 0 < m
  bound : m < 2^53
  least : -1074 ≤ e
  greatest : e ≤ 971
  full : 2^52 ≤ m ∨ e = -1074

theorem implicit_bit (fraction : BitVec 52) : (1#1 ++ fraction).toNat = 2^52 + fraction.toNat := by
  rw [BitVec.toNat_append,← Nat.shiftLeft_add_eq_or_of_lt fraction.isLt]
  rfl

theorem implicit_pos (fraction : BitVec 52) : 0 < (1#1 ++ fraction).toNat := by
  rw [implicit_bit]
  exact Nat.add_pos_left (Nat.two_pow_pos 52) _

theorem fraction_pos {fraction : BitVec 52} (nonzero : fraction ≠ 0#52) : 0 < fraction.toNat :=
  Nat.pos_of_ne_zero fun same => nonzero (BitVec.eq_of_toNat_eq same)

def assembled (sign : Sign) (exponent : BitVec 11) (fraction : BitVec 52) : UnpackedFloat :=
  if exponent = -1#11 then if fraction = 0#52 then .infinity sign else .notANumber
  else if exponent = 0#11 then
    if h : fraction = 0#52 then .zero sign
    else .finite sign fraction.toNat ((exponent.toNat : Int) - (1023 + 52) + 1) (fraction_pos h)
  else .finite sign (1#1 ++ fraction).toNat ((exponent.toNat : Int) - (1023 + 52)) (implicit_pos fraction)

theorem unpack_assembled (bits : BitVec 64) : UnpackedFloat.unpack Format.binary64 bits =
    assembled (Sign.ofBitVec (@unpackSign Format.binary64 bits)) (@unpackExponent Format.binary64 bits)
      (@unpackMantissa Format.binary64 bits) := by
  have bias : (Format.binary64.exponentBias : Int) = 1023 := by decide
  unfold UnpackedFloat.unpack
  dsimp only
  rw [bias]
  rfl

theorem assembled_canonical {sign s : Sign} {exponent : BitVec 11} {fraction : BitVec 52} {m : Nat} {e : Int} {pos : 0 < m}
    (same : assembled sign exponent fraction = .finite s m e pos) : Canonical m e := by
  have exponentWidth := exponent.isLt
  have fractionWidth := fraction.isLt
  unfold assembled at same
  by_cases top : exponent = -1#11
  · rw [if_pos top] at same
    by_cases none : fraction = 0#52
    · rw [if_pos none] at same
      cases same
    · rw [if_neg none] at same
      cases same
  rw [if_neg top] at same
  have below : exponent.toNat ≠ 2047 := fun ones => top (BitVec.eq_of_toNat_eq ones)
  by_cases bottom : exponent = 0#11
  · rw [if_pos bottom] at same
    by_cases none : fraction = 0#52
    · rw [dif_pos none] at same
      cases same
    · rw [dif_neg none,bottom] at same
      cases same
      exact ⟨pos,Nat.lt_trans fractionWidth (by decide),by decide,by decide,.inr (by decide)⟩
  · rw [if_neg bottom] at same
    have above : exponent.toNat ≠ 0 := fun zero => bottom (BitVec.eq_of_toNat_eq zero)
    cases same
    rw [implicit_bit]
    exact ⟨by omega,by omega,by omega,by omega,.inl (by omega)⟩

theorem unpack_canonical {x : Float.Model} {s : Sign} {m : Nat} {e : Int} {pos : 0 < m} (same : x.unpack = .finite s m e pos) :
    Canonical m e :=
  assembled_canonical ((unpack_assembled x.toBits.toBitVec).symm.trans same)

theorem unpackSign_packComponents (sign : Sign) (exponent : BitVec 11) (fraction : BitVec 52) :
    unpackSign (packComponents Format.binary64 sign exponent fraction) = sign.toBitVec := by
  have top : (sign.toBitVec ++ exponent ++ fraction).extractLsb' 63 1 = sign.toBitVec := by
    rw [BitVec.extractLsb'_append_eq_of_le (by decide),BitVec.extractLsb'_append_eq_of_le (by decide)]
    exact BitVec.extractLsb'_eq_self
  exact top

theorem unpack_packComponents (sign : Sign) (exponent : BitVec 11) (fraction : BitVec 52) :
    UnpackedFloat.unpack Format.binary64 (packComponents Format.binary64 sign exponent fraction) =
      assembled sign exponent fraction := by
  have back : Sign.ofBitVec sign.toBitVec = sign := by cases sign <;> rfl
  rw [unpack_assembled,unpackSign_packComponents,back,unpackExponent_packComponents,unpackMantissa_packComponents]

theorem unpack_pack_zero (sign : Sign) : (Float.Model.pack (.zero sign)).unpack = .zero sign :=
  unpack_packComponents sign 0#11 0#52

theorem finite_same {sign : Sign} {m n : Nat} {d e : Int} {pos : 0 < m} {pos' : 0 < n} (mantissa : m = n) (exponent : d = e) :
    UnpackedFloat.finite sign m d pos = .finite sign n e pos' := by
  subst mantissa exponent
  rfl

theorem assembled_normal {m : Nat} {e : Int} (canonical : Canonical m e) (full : 2^52 ≤ m) (sign : Sign) :
    assembled sign (BitVec.ofNat 11 (e + 1075).toNat) (BitVec.ofNat 52 m) = .finite sign m e canonical.pos := by
  obtain ⟨_,bound,least,greatest,_⟩ := canonical
  have exponent : (BitVec.ofNat 11 (e + 1075).toNat).toNat = (e + 1075).toNat := by
    rw [BitVec.toNat_ofNat,Nat.mod_eq_of_lt (by omega)]
  have below : BitVec.ofNat 11 (e + 1075).toNat ≠ -1#11 := by
    intro ones
    have top : (e + 1075).toNat = 2047 := exponent.symm.trans (congrArg BitVec.toNat ones)
    omega
  have above : BitVec.ofNat 11 (e + 1075).toNat ≠ 0#11 := by
    intro zeros
    have bottom : (e + 1075).toNat = 0 := exponent.symm.trans (congrArg BitVec.toNat zeros)
    omega
  rw [assembled,if_neg below,if_neg above]
  refine finite_same ?_ ?_
  · rw [implicit_bit,BitVec.toNat_ofNat]
    omega
  · rw [exponent]
    omega

theorem assembled_subnormal {m : Nat} (pos : 0 < m) (small : m < 2^52) (sign : Sign) :
    assembled sign 0#11 (BitVec.ofNat 52 m) = .finite sign m (-1074) pos := by
  have fraction : (BitVec.ofNat 52 m).toNat = m := by rw [BitVec.toNat_ofNat,Nat.mod_eq_of_lt small]
  have nonzero : BitVec.ofNat 52 m ≠ 0#52 := by
    intro zeros
    exact pos.ne' (fraction.symm.trans (congrArg BitVec.toNat zeros))
  rw [assembled,if_neg (by decide),if_pos rfl,dif_neg nonzero]
  exact finite_same fraction rfl

theorem pack_finite (sign : Sign) (m : Nat) (e : Int) (pos : 0 < m) :
    UnpackedFloat.pack Format.binary64 (.finite sign m e pos) =
      if 2^11 ≤ (e + Format.binary64.exponentBias + (52 : Nat)).toNat + 1 then packedInfinity Format.binary64 sign
      else if m.log2 + 1 = 53 then packComponents Format.binary64 sign
        (BitVec.ofNat 11 (e + Format.binary64.exponentBias + (52 : Nat)).toNat) (BitVec.ofNat 52 m)
      else packComponents Format.binary64 sign 0#11 (BitVec.ofNat 52 m) := rfl

theorem unpack_pack {m : Nat} {e : Int} (canonical : Canonical m e) (sign : Sign) (pos : 0 < m) :
    (Float.Model.pack (.finite sign m e pos)).unpack = .finite sign m e pos := by
  have bias : (Format.binary64.exponentBias : Int) = 1023 := by decide
  have place : e + 1023 + (52 : Nat) = e + 1075 := by omega
  have short : ¬2^11 ≤ (e + 1075).toNat + 1 := by
    have most := canonical.greatest
    omega
  have high := (Nat.log2_lt (n := m) (k := 53) pos.ne').mpr canonical.bound
  change UnpackedFloat.unpack Format.binary64 (UnpackedFloat.pack Format.binary64 (.finite sign m e pos)) = _
  rw [pack_finite,bias,place,if_neg short]
  by_cases full : 2^52 ≤ m
  · have low := (Nat.le_log2 (n := m) (k := 52) pos.ne').mpr full
    rw [if_pos (by omega),unpack_packComponents]
    exact assembled_normal canonical full sign
  · have low := (Nat.log2_lt (n := m) (k := 52) pos.ne').mpr (Nat.not_le.mp full)
    obtain rfl := canonical.full.resolve_left full
    rw [if_neg (by omega),unpack_packComponents]
    exact assembled_subnormal pos (Nat.not_le.mp full) sign

theorem shift_mantissa (em : ExtendedMantissa) (k : Nat) : (em >>> k).mantissa = em.mantissa / 2^k := by
  change (Nat.repeat ExtendedMantissa.shiftRightOne k em).mantissa = _
  induction k with
  | zero => exact (Nat.div_one _).symm
  | succ k ih =>
      change (Nat.repeat ExtendedMantissa.shiftRightOne k em).mantissa / 2 = _
      rw [ih,Nat.div_div_eq_div_mul,pow_succ]

theorem shift_exact (m k : Nat) : (⟨m * 2^k,false,false⟩ : ExtendedMantissa) >>> k = ⟨m,false,false⟩ := by
  change Nat.repeat ExtendedMantissa.shiftRightOne k _ = _
  induction k generalizing m with
  | zero => simp [Nat.repeat]
  | succ k ih =>
      have double : m * 2^(k+1) = 2 * m * 2^k := by ring
      rw [Nat.repeat,double,ih]
      simp [ExtendedMantissa.shiftRightOne]

theorem log2_mul_pow {m : Nat} (pos : 0 < m) (k : Nat) : (m * 2^k).log2 = m.log2 + k := by
  induction k with
  | zero => simp
  | succ k ih =>
      have double : m * 2^(k+1) = 2 * (m * 2^k) := by ring
      rw [double,Nat.log2_two_mul (Nat.mul_pos pos (Nat.two_pow_pos k)).ne',ih,Nat.add_assoc]

theorem target_exponent {m : Nat} {e : Int} (canonical : Canonical m e) (k : Nat) :
    Format.binary64.targetExponent (totalExponent (m * 2^k) (e - k)) = e := by
  obtain ⟨pos,bound,least,_,full⟩ := canonical
  have high := (Nat.log2_lt (n := m) (k := 53) (by omega)).mpr bound
  have minimum : Format.binary64.minExponent = -1074 := by decide
  have bits : (Format.binary64.mantissaBits : Int) = 53 := by decide
  unfold Format.targetExponent totalExponent
  rw [minimum,bits,log2_mul_pow pos]
  push_cast
  rcases full with normal | rfl
  · have low := (Nat.le_log2 (n := m) (k := 52) (by omega)).mpr normal
    omega
  · omega

theorem shift_canonical {m : Nat} {e : Int} (canonical : Canonical m e) (k : Nat) :
    shiftToTargetExponent Format.binary64 (m * 2^k) (e - k) .exact = (⟨m,false,false⟩,e) := by
  unfold shiftToTargetExponent shiftToExponent
  rw [target_exponent canonical k]
  have amount : (e - (e - k)).toNat = k := by omega
  dsimp only
  rw [amount]
  exact Prod.ext (shift_exact m k) (by dsimp only; omega)

theorem round_exact {m : Nat} {e : Int} (canonical : Canonical m e) (sign : Sign) (k : Nat) :
    roundWithAccuracy Format.binary64 sign (m * 2^k) (e - k) .exact = .finite sign m e canonical.pos := by
  have second := shift_canonical canonical 0
  rw [Nat.pow_zero,Nat.mul_one,Int.natCast_zero,Int.sub_zero] at second
  have rounded : (⟨m,false,false⟩ : ExtendedMantissa).roundedMantissa = m := rfl
  unfold roundWithAccuracy
  dsimp only
  rw [shift_canonical canonical k]
  dsimp only
  rw [rounded,second]
  exact dif_neg canonical.pos.ne'

theorem value_pack {m : Nat} {e : Int} (canonical : Canonical m e) (sign : Sign) (pos : 0 < m) :
    value (Float.Model.pack (.finite sign m e pos)).unpack = some ((sign.apply m : ℚ) * 2 ^ e) := by
  rw [unpack_pack canonical]
  rfl

def number (x : Float) : Option ℚ := value x.toModel.unpack

theorem number_cases {x : Float} {q : ℚ} (known : number x = some q) :
    (∃ sign, x.toModel.unpack = .zero sign ∧ q = 0) ∨
    ∃ sign m e pos, x.toModel.unpack = .finite sign m e pos ∧ Canonical m e ∧ q = sign.apply m * 2 ^ e := by
  unfold number at known
  cases same : x.toModel.unpack with
  | zero sign =>
      rw [same] at known
      exact .inl ⟨sign,rfl,(Option.some.inj known).symm⟩
  | finite sign m e pos =>
      rw [same] at known
      exact .inr ⟨sign,m,e,pos,rfl,unpack_canonical same,(Option.some.inj known).symm⟩
  | infinity sign => rw [same] at known; cases known
  | notANumber => rw [same] at known; cases known

theorem unpack_one : (1.0 : Float).toModel.unpack = .finite .positive (2^52) (-52) (by decide) := rfl

theorem mul_positive (sign : Sign) : sign * .positive = sign := by cases sign <;> rfl

theorem div_positive (sign : Sign) : sign / .positive = sign := by cases sign <;> rfl

section
variable (s t : Sign) {m n : Nat} (d e : Int) (left : 0 < m) (right : 0 < n)

theorem mul_zero_finite : UnpackedFloat.mul .binary64 (.zero s) (.finite t n e right) = .zero (s * t) := rfl

theorem mul_finite : UnpackedFloat.mul .binary64 (.finite s m d left) (.finite t n e right) =
    roundWithAccuracy .binary64 (s * t) (m * n) (d + e) .exact := rfl

theorem div_zero_finite : UnpackedFloat.div .binary64 (.zero s) (.finite t n e right) = .zero (s / t) := rfl

theorem div_finite : UnpackedFloat.div .binary64 (.finite s m d left) (.finite t n e right) =
    roundWithAccuracy .binary64 (s / t) (divCore .binary64 m d n e).1 (divCore .binary64 m d n e).2.1
      (divCore .binary64 m d n e).2.2 := rfl

theorem neg_zero_sign : UnpackedFloat.neg (.zero s) = .zero (-s) := rfl

theorem neg_finite : UnpackedFloat.neg (.finite s m d left) = .finite (-s) m d left := rfl

end

theorem number_mul_one {x : Float} {q : ℚ} (known : number x = some q) : number (x * 1.0) = some q := by
  change value (Float.Model.pack (UnpackedFloat.mul .binary64 x.toModel.unpack (1.0 : Float).toModel.unpack)).unpack = _
  rw [unpack_one]
  rcases number_cases known with ⟨sign,same,rfl⟩ | ⟨sign,m,e,pos,same,canonical,rfl⟩
  · rw [same,mul_zero_finite,unpack_pack_zero]
    rfl
  · have place : e + -52 = e - (52 : Nat) := by omega
    rw [same,mul_finite,place,round_exact canonical _ 52,value_pack canonical,mul_positive]

theorem divCore_one {m : Nat} {e : Int} (canonical : Canonical m e) :
    ∃ k : Nat, divCore .binary64 m e (2^52) (-52) = (m * 2^k,e - k,.exact) := by
  obtain ⟨pos,bound,least,_,_⟩ := canonical
  have high := (Nat.log2_lt (n := m) (k := 53) (by omega)).mpr bound
  have minimum : Format.binary64.minExponent = -1074 := by decide
  have bits : (Format.binary64.mantissaBits : Int) = 53 := by decide
  have one : totalExponent (2^52) (-52) = 1 := by decide
  unfold divCore
  generalize target : min (e - -52) (Format.binary64.targetExponent (totalExponent m e - totalExponent (2^52) (-52))) = t
  have below : t ≤ e := by
    rw [one] at target
    unfold Format.targetExponent totalExponent at target
    rw [minimum,bits] at target
    omega
  have shift : (e - -52 - t).toNat = (e - t).toNat + 52 := by omega
  have quotient : m <<< ((e - t).toNat + 52) = m * 2^(e - t).toNat * 2^52 := by
    rw [Nat.shiftLeft_eq,pow_add,mul_assoc]
  refine ⟨(e - t).toNat,?_⟩
  dsimp only
  rw [shift,quotient,Nat.mul_div_cancel _ (by decide),Nat.mul_mod_left]
  refine Prod.ext rfl (Prod.ext ?_ rfl)
  dsimp only
  omega

theorem number_div_one {x : Float} {q : ℚ} (known : number x = some q) : number (x / 1.0) = some q := by
  change value (Float.Model.pack (UnpackedFloat.div .binary64 x.toModel.unpack (1.0 : Float).toModel.unpack)).unpack = _
  rw [unpack_one]
  rcases number_cases known with ⟨sign,same,rfl⟩ | ⟨sign,m,e,pos,same,canonical,rfl⟩
  · rw [same,div_zero_finite,unpack_pack_zero]
    rfl
  · obtain ⟨k,core⟩ := divCore_one canonical
    rw [same,div_finite,core,round_exact canonical,value_pack canonical,div_positive]

theorem canonical_natural {m : Nat} (pos : 0 < m) (bound : m < 2^53) :
    Canonical (m * 2^(52 - m.log2)) ((m.log2 : Int) - 52) := by
  have high := (Nat.log2_lt (n := m) (k := 53) (by omega)).mpr bound
  have whole : m.log2 + (52 - m.log2) = 52 := by omega
  have least : 2^m.log2 * 2^(52 - m.log2) ≤ m * 2^(52 - m.log2) :=
    Nat.mul_le_mul_right _ (Nat.log2_self_le pos.ne')
  have most : m * 2^(52 - m.log2) < 2^(m.log2 + 1) * 2^(52 - m.log2) :=
    Nat.mul_lt_mul_of_pos_right Nat.lt_log2_self (Nat.two_pow_pos _)
  rw [← pow_add,whole] at least
  rw [← pow_add,Nat.add_right_comm,whole] at most
  exact ⟨Nat.mul_pos pos (Nat.two_pow_pos _),most,by omega,by omega,.inl least⟩

theorem round_natural {m : Nat} (pos : 0 < m) (bound : m < 2^53) (sign : Sign) :
    round .binary64 sign m 0 = .finite sign (m * 2^(52 - m.log2)) ((m.log2 : Int) - 52) (canonical_natural pos bound).pos := by
  have high := (Nat.log2_lt (n := m) (k := 53) (by omega)).mpr bound
  have minimum : Format.binary64.minExponent = -1074 := by decide
  have bits : (Format.binary64.mantissaBits : Int) = 53 := by decide
  have target : Format.binary64.targetExponent (totalExponent m 0) = (m.log2 : Int) - 52 := by
    unfold Format.targetExponent totalExponent
    rw [minimum,bits]
    omega
  have shift : (0 - ((m.log2 : Int) - 52)).toNat = 52 - m.log2 := by omega
  have place : (0 : Int) - (52 - m.log2 : Nat) = (m.log2 : Int) - 52 - (0 : Nat) := by omega
  have mantissa : m <<< (52 - m.log2) = m * 2^(52 - m.log2) * 2^0 := by rw [Nat.shiftLeft_eq,pow_zero,Nat.mul_one]
  unfold UnpackedFloat.round decreaseExponent
  dsimp only
  rw [target,shift,place,mantissa]
  exact round_exact (canonical_natural pos bound) sign 0

theorem value_natural {m : Nat} (pos : 0 < m) (bound : m < 2^53) (sign : Sign) :
    value (Float.Model.pack (round .binary64 sign m 0)).unpack = some (sign.apply m : ℚ) := by
  have high := (Nat.log2_lt (n := m) (k := 53) (by omega)).mpr bound
  have power : ((2 : ℚ)^(52 - m.log2)) * 2 ^ ((m.log2 : Int) - 52) = 1 := by
    rw [← zpow_natCast,← zpow_add₀ two_ne_zero]
    have sum : ((52 - m.log2 : Nat) : Int) + ((m.log2 : Int) - 52) = 0 := by omega
    rw [sum,zpow_zero]
  rw [round_natural pos bound,value_pack (canonical_natural pos bound)]
  cases sign <;> simp [Sign.apply,mul_assoc,power]

theorem number_ofInt {n : Int} (bound : n.natAbs < 2^53) : number (.ofModel (.ofInt n)) = some (n : ℚ) := by
  change value (Float.Model.pack (UnpackedFloat.normalize .binary64 n 0 .positive)).unpack = _
  unfold UnpackedFloat.normalize
  rcases lt_trichotomy n 0 with negative | rfl | positive
  · have magnitude : (-n).toNat = n.natAbs := by omega
    have signed : Sign.apply .negative (n.natAbs : Int) = n := by
      change -(n.natAbs : Int) = n
      omega
    rw [compare_lt_iff_lt.mpr negative]
    dsimp only
    rw [magnitude,value_natural (by omega) bound,signed]
  · exact congrArg value (unpack_pack_zero .positive)
  · have magnitude : n.toNat = n.natAbs := by omega
    have signed : Sign.apply .positive (n.natAbs : Int) = n := by
      change (n.natAbs : Int) = n
      omega
    rw [compare_gt_iff_gt.mpr positive]
    dsimp only
    rw [magnitude,value_natural (by omega) bound,signed]

theorem apply_neg (sign : Sign) (n : Int) : (-sign).apply n = -sign.apply n := by
  cases sign with
  | negative => exact (Int.neg_neg n).symm
  | positive => rfl

theorem number_neg {x : Float} {q : ℚ} (known : number x = some q) : number (-x) = some (-q) := by
  change value (Float.Model.pack x.toModel.unpack.neg).unpack = _
  rcases number_cases known with ⟨sign,same,rfl⟩ | ⟨sign,m,e,pos,same,canonical,rfl⟩
  · rw [same,neg_zero_sign,unpack_pack_zero]
    rfl
  · rw [same,neg_finite,value_pack canonical,apply_neg]
    push_cast
    rw [neg_mul]

theorem canonical_lt {m n : Nat} {d e : Int} (first : Canonical m d) (second : Canonical n e) (less : d < e) :
    (m : ℚ) * 2 ^ d < n * 2 ^ e := by
  have full : 2^52 ≤ n := second.full.resolve_right (by have := first.least; omega)
  have power : (0 : ℚ) < 2 ^ d := zpow_pos two_pos d
  calc (m : ℚ) * 2 ^ d < 2^53 * 2 ^ d := mul_lt_mul_of_pos_right (by exact_mod_cast first.bound) power
    _ = 2^52 * 2 ^ (d + 1) := by rw [zpow_add_one₀ two_ne_zero]; ring
    _ ≤ n * 2 ^ e := mul_le_mul (by exact_mod_cast full) (zpow_le_zpow_right₀ one_le_two less)
      (zpow_pos two_pos _).le (Nat.cast_nonneg n)

theorem magnitude_lt_iff {m n : Nat} {d e : Int} (first : Canonical m d) (second : Canonical n e) :
    (compare d e).then (compare m n) = .lt ↔ (m : ℚ) * 2 ^ d < n * 2 ^ e := by
  rcases lt_trichotomy d e with less | rfl | more
  · rw [compare_lt_iff_lt.mpr less]
    exact iff_of_true rfl (canonical_lt first second less)
  · rw [compare_eq_iff_eq.mpr rfl,Ordering.then_eq_lt]
    simp [mul_lt_mul_iff_left₀ (zpow_pos (two_pos (α := ℚ)) d),compare_lt_iff_lt]
  · rw [compare_gt_iff_gt.mpr more]
    exact iff_of_false nofun (canonical_lt second first more).not_gt

theorem magnitude_pos {m : Nat} (pos : 0 < m) (e : Int) : (0 : ℚ) < m * 2 ^ e :=
  mul_pos (Nat.cast_pos.mpr pos) (zpow_pos two_pos e)

theorem lt_iff_compare (x y : Float) : x < y ↔ x.toModel.unpack.compare y.toModel.unpack = some .lt := by
  change decide ((x.toModel.unpack.compare y.toModel.unpack == some .lt) = true) = true ↔ _
  simp

theorem lt_iff {x y : Float} {p q : ℚ} (left : number x = some p) (right : number y = some q) : x < y ↔ p < q := by
  rw [lt_iff_compare]
  rcases number_cases left with ⟨sign,first,rfl⟩ | ⟨sign,m,d,pos,first,canonical,rfl⟩ <;>
    rcases number_cases right with ⟨sign',second,rfl⟩ | ⟨sign',n,e,pos',second,canonical',rfl⟩ <;> rw [first,second]
  · exact iff_of_false nofun (lt_irrefl 0)
  · have more := magnitude_pos pos' e
    cases sign' with
    | negative => exact iff_of_false nofun (by simpa [Sign.apply] using more.le)
    | positive => exact iff_of_true rfl (by simpa [Sign.apply] using more)
  · have more := magnitude_pos pos d
    cases sign with
    | negative => exact iff_of_true rfl (by simpa [Sign.apply] using more)
    | positive => exact iff_of_false nofun (by simpa [Sign.apply] using more.le)
  · have more := magnitude_pos pos d
    have also := magnitude_pos pos' e
    cases sign with
    | negative => cases sign' with
      | negative =>
          have flipped : ((compare d e).then (compare m n)).swap = (compare e d).then (compare n m) := by
            rw [Ordering.swap_then,← Std.OrientedOrd.eq_swap,← Std.OrientedOrd.eq_swap]
          change some ((compare d e).then (compare m n)).swap = some .lt ↔ _
          rw [flipped,Option.some_inj,magnitude_lt_iff canonical' canonical]
          simp [Sign.apply]
      | positive => exact iff_of_true rfl (by simpa [Sign.apply] using (neg_lt_zero.mpr more).trans also)
    | positive => cases sign' with
      | negative =>
          have above := ((neg_lt_zero.mpr also).trans more).le
          exact iff_of_false nofun (by simpa [Sign.apply] using above)
      | positive =>
          change some ((compare d e).then (compare m n)) = some .lt ↔ _
          rw [Option.some_inj,magnitude_lt_iff canonical canonical']
          rfl

theorem roundToInt_whole (sign : Sign) (m k : Nat) : roundToInt sign m k = sign.apply (m * 2^k : Nat) := by
  unfold roundToInt decreaseExponent shiftToExponent
  simp only [Int.sub_zero,Int.toNat_natCast,Int.sub_self,Nat.shiftLeft_eq]
  rfl

theorem roundToInt_fraction (sign : Sign) (m k : Nat) : roundToInt sign m (-k) = sign.apply (m / 2^k : Nat) := by
  have none : (-(k : Int) - 0).toNat = 0 := by omega
  have amount : (0 - (-(k : Int) - (0 : Nat))).toNat = k := by omega
  unfold roundToInt decreaseExponent shiftToExponent
  dsimp only
  rw [none,amount,Nat.shiftLeft_zero]
  exact congrArg (fun n : Nat => sign.apply n) (shift_mantissa _ k)

theorem roundToInt_floor (sign : Sign) (m : Nat) (e : Int) : roundToInt sign m e = sign.apply ⌊(m : ℚ) * 2 ^ e⌋ := by
  rcases Int.le_total 0 e with whole | fraction
  · obtain ⟨k,rfl⟩ := Int.eq_ofNat_of_zero_le whole
    have integer : (m : ℚ) * 2 ^ (k : Int) = (m * 2^k : Nat) := by
      rw [zpow_natCast]
      norm_cast
    rw [roundToInt_whole,integer,Int.floor_natCast]
  · obtain ⟨k,negative⟩ := Int.eq_ofNat_of_zero_le (Int.neg_nonneg_of_nonpos fraction)
    obtain rfl : e = -(k : Int) := by omega
    have quotient : (m : ℚ) * 2 ^ (-(k : Int)) = (m : ℚ) / (2^k : Nat) := by
      rw [zpow_neg,zpow_natCast,← div_eq_mul_inv]
      norm_cast
    rw [roundToInt_fraction,quotient,Rat.floor_natCast_div_natCast,Int.natCast_ediv]

def truncate (q : ℚ) : Int := if 0 ≤ q then ⌊q⌋ else ⌈q⌉

theorem truncate_int (n : Int) : truncate n = n := by
  unfold truncate
  rw [Int.floor_intCast,Int.ceil_intCast,ite_self]

theorem toInt_truncate {x : Float} {q : ℚ} (known : number x = some q) (low high : Int) :
    x.toModel.unpack.toInt low high = truncate q := by
  rcases number_cases known with ⟨sign,same,rfl⟩ | ⟨sign,m,e,pos,same,_,rfl⟩ <;> rw [same]
  · exact (truncate_int 0).symm
  change roundToInt sign m e = _
  have more := magnitude_pos pos e
  rw [roundToInt_floor,truncate]
  cases sign with
  | positive => exact (if_pos more.le).symm
  | negative =>
      have below : ¬(0 : ℚ) ≤ (Sign.apply .negative m : Int) * 2 ^ e := by simpa [Sign.apply] using more
      rw [if_neg below]
      simp [Sign.apply,Int.ceil_neg]

theorem toInt_number {x : Float} {n : Int} (known : number x = some (n : ℚ)) (low high : Int) :
    x.toModel.unpack.toInt low high = n :=
  (toInt_truncate known low high).trans (truncate_int n)

end HsrbDrivers.Binary64

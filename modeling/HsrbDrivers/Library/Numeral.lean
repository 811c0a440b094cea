import Mathlib.Data.Nat.BitIndices
import Mathlib.Data.Nat.Digits.Lemmas
import Mathlib.Algebra.Order.Ring.GeomSum

namespace HsrbDrivers.Numeral

-- The `count` lowest digits of a value, lowest first, as a loop of `% base`
-- and `/= base` yields them. Leading zeros are kept.
def lowDigits (base : Nat) : Nat → Nat → List Nat
  | 0,_ => []
  | count+1,value => value % base :: lowDigits base count (value / base)

def horner (base : Nat) (digits : List Nat) : Nat := digits.foldl (fun acc digit => acc * base + digit) 0

@[simp] theorem lowDigits_length (base count value : Nat) : (lowDigits base count value).length = count := by
  induction count generalizing value with
  | zero => rfl
  | succ count ih => simp [lowDigits,ih]

theorem lowDigits_lt (positive : 0 < base) : ∀ d ∈ lowDigits base count value, d < base := by
  induction count generalizing value with
  | zero => simp [lowDigits]
  | succ count ih =>
      intro d member
      rcases List.mem_cons.mp member with rfl | rest
      · exact Nat.mod_lt _ positive
      · exact ih d rest

theorem ofDigits_lowDigits (base count value : Nat) :
    Nat.ofDigits base (lowDigits base count value) = value % base ^ count := by
  induction count generalizing value with
  | zero => simp [lowDigits,Nat.mod_one]
  | succ count ih =>
      rw [lowDigits,Nat.ofDigits_cons,ih,pow_succ',Nat.mod_mul]

theorem horner_reverse (base : Nat) (digits : List Nat) :
    horner base digits.reverse = Nat.ofDigits base digits := by
  induction digits with
  | nil => rfl
  | cons d digits ih =>
      unfold horner at ih ⊢
      rw [List.reverse_cons,List.foldl_append,ih,Nat.ofDigits_cons]
      simp only [List.foldl_cons,List.foldl_nil]
      ring

theorem horner_lowDigits (base count value : Nat) (fits : value < base ^ count) :
    horner base (lowDigits base count value).reverse = value := by
  rw [horner_reverse,ofDigits_lowDigits,Nat.mod_eq_of_lt fits]

theorem horner_snoc (base : Nat) (digits : List Nat) (d : Nat) :
    horner base (digits ++ [d]) = horner base digits * base + d := by
  simp [horner]

theorem horner_lt (digits : List Nat) (small : ∀ d ∈ digits, d < base) : horner base digits < base ^ digits.length := by
  induction digits using List.reverseRecOn with
  | nil => simp [horner]
  | append_singleton digits d ih =>
      have one := ih (fun e member => small e (List.mem_append_left _ member))
      have two := small d (by simp)
      rw [horner_snoc,List.length_append,List.length_singleton,pow_succ]
      calc horner base digits * base + d
          < horner base digits * base + base := by omega
        _ = (horner base digits + 1) * base := by ring
        _ ≤ base ^ digits.length * base := Nat.mul_le_mul_right _ one

theorem horner_digit (positive : 0 < base) {digits : List Nat} (small : ∀ d ∈ digits, d < base) {i : Nat}
    (inside : i < digits.reverse.length) : horner base digits / base ^ i % base = digits.reverse[i] := by
  have reversed := horner_reverse base digits.reverse
  rw [List.reverse_reverse] at reversed
  have below : ∀ d ∈ digits.reverse, d < base := fun d member => small d (List.mem_reverse.mp member)
  rw [reversed,Nat.ofDigits_div_pow_eq_ofDigits_drop i positive _ below,List.drop_eq_getElem_cons inside,Nat.ofDigits_cons,
    Nat.add_mul_mod_self_left,Nat.mod_eq_of_lt (below _ (List.getElem_mem inside))]

theorem bitIndices_digit (value place width : Nat) : (value % 2 ^ (place + width)).bitIndices =
    (value % 2 ^ place).bitIndices ++ ((List.range width).filter (value / 2 ^ place % 2 ^ width).testBit).map (place + ·) := by
  have low : ∀ k ∈ (value % 2 ^ place).bitIndices, k < place := by
    intro k member
    rw [Nat.mem_bitIndices,Nat.testBit_mod_two_pow,Bool.and_eq_true] at member
    exact of_decide_eq_true member.1
  refine List.Pairwise.eq_of_mem_iff Nat.bitIndices_sorted.pairwise (List.pairwise_append.mpr ⟨?_,?_,?_⟩) ?_
  · exact Nat.bitIndices_sorted.pairwise
  · refine List.pairwise_map.mpr ?_
    exact (List.pairwise_lt_range.filter _).imp fun below => Nat.add_lt_add_left below place
  · intro k member l later
    obtain ⟨j,_,rfl⟩ := List.mem_map.mp later
    exact Nat.lt_of_lt_of_le (low k member) (Nat.le_add_right _ _)
  · intro k
    rw [List.mem_append,Nat.mem_bitIndices,Nat.mem_bitIndices]
    simp only [List.mem_map,List.mem_filter,List.mem_range,Nat.testBit_mod_two_pow,Nat.testBit_div_two_pow,Bool.and_eq_true,
      decide_eq_true_eq]
    constructor
    · rintro ⟨below,set⟩
      by_cases first : k < place
      · exact .inl ⟨first,set⟩
      · exact .inr ⟨k-place,⟨by omega,by omega,by rwa [Nat.sub_add_cancel (Nat.le_of_not_lt first)]⟩,by omega⟩
    · rintro (⟨below,set⟩ | ⟨j,⟨inside,_,set⟩,rfl⟩)
      · exact ⟨by omega,set⟩
      · exact ⟨by omega,by rwa [Nat.add_comm]⟩

theorem foldl_least (positive : 0 < base) (digits : List Nat) (acc : Nat) :
    acc ≤ digits.foldl (fun acc digit => acc * base + digit) acc := by
  induction digits generalizing acc with
  | nil => exact Nat.le_refl _
  | cons d digits ih =>
      have scaled := Nat.le_mul_of_pos_right acc positive
      exact Nat.le_trans (Nat.le_trans scaled (Nat.le_add_right _ d)) (ih _)

theorem foldl_mod (base m : Nat) (digits : List Nat) (acc : Nat) :
    digits.foldl (fun acc digit => (acc * base + digit) % m) (acc % m) =
      digits.foldl (fun acc digit => acc * base + digit) acc % m := by
  induction digits generalizing acc with
  | nil => rfl
  | cons d digits ih =>
      rw [List.foldl_cons,List.foldl_cons,← ih]
      congr 1
      rw [Nat.add_mod,Nat.mod_mul_mod,← Nat.add_mod]

def quotient (base : Nat) : Nat → Nat → Nat
  | 0,value => value
  | count+1,value => quotient base count (value / base)

theorem quotient_eq (base count value : Nat) : quotient base count value = value / base ^ count := by
  induction count generalizing value with
  | zero => simp [quotient]
  | succ count ih => rw [quotient,ih,Nat.div_div_eq_div_mul,pow_succ']

theorem quotient_zero_iff (positive : 0 < base) : quotient base count value = 0 ↔ value < base ^ count := by
  rw [quotient_eq,Nat.div_eq_zero_iff]
  have := Nat.pow_pos (n := count) positive
  omega

theorem sum_powers_lt (least : 2 ≤ base) {places : List Nat} (distinct : places.Nodup) (inside : ∀ p ∈ places, p < count) :
    (places.map (base ^ ·)).sum < base ^ count := by
  rw [← List.sum_toFinset _ distinct]
  apply Nat.geomSum_lt least
  intro p member
  exact inside p (List.mem_toFinset.mp member)

end HsrbDrivers.Numeral

import HsrbDrivers.Library.Numeral
import Mathlib.Data.UInt

namespace HsrbDrivers.Bytes
open Numeral

def toLe (count value : Nat) : List UInt8 := (lowDigits 256 count value).map UInt8.ofNat

def fromLe (bytes : List UInt8) : Nat := Nat.ofDigits 256 (bytes.map UInt8.toNat)

@[simp] theorem fromLe_nil : fromLe [] = 0 := rfl

@[simp] theorem fromLe_cons (b : UInt8) (bytes : List UInt8) : fromLe (b :: bytes) = b.toNat + 256 * fromLe bytes := by
  unfold fromLe
  rw [List.map_cons,Nat.ofDigits_cons]

@[simp] theorem toLe_length (count value : Nat) : (toLe count value).length = count := by
  unfold toLe
  rw [List.length_map,lowDigits_length]

theorem fromLe_toLe (count value : Nat) : fromLe (toLe count value) = value % 256 ^ count := by
  have digits : (toLe count value).map UInt8.toNat = lowDigits 256 count value := by
    rw [toLe,List.map_map]
    refine (List.map_congr_left fun d member => ?_).trans (List.map_id _)
    exact UInt8.toNat_ofNat_of_lt' (lowDigits_lt (by decide) d member)
  rw [fromLe,digits,ofDigits_lowDigits]

theorem fromLe_lt (bytes : List UInt8) : fromLe bytes < 256 ^ bytes.length := by
  induction bytes with
  | nil => exact Nat.one_pos
  | cons b bytes ih =>
      have low := b.toNat_lt
      rw [fromLe_cons,List.length_cons,pow_succ]
      omega

theorem toLe_fromLe (bytes : List UInt8) : toLe bytes.length (fromLe bytes) = bytes := by
  induction bytes with
  | nil => rfl
  | cons b bytes ih =>
      have low := b.toNat_lt
      have digit : (b.toNat + 256 * fromLe bytes) % 256 = b.toNat := by omega
      have rest : (b.toNat + 256 * fromLe bytes) / 256 = fromLe bytes := by omega
      unfold toLe at ih ⊢
      rw [fromLe_cons,List.length_cons,lowDigits,digit,rest,List.map_cons,ih,UInt8.ofNat_toNat]

theorem ofNat_sum (sum : Nat) (bytes : List UInt8) :
    UInt8.ofNat (bytes.foldl (fun sum b => (sum + b.toNat) % 2^64) sum) = UInt8.ofNat sum + bytes.sum := by
  induction bytes generalizing sum with
  | nil => simp
  | cons b bytes ih =>
      have narrowed : UInt8.ofNat ((sum + b.toNat) % 2^64) = UInt8.ofNat sum + b := by
        apply UInt8.toNat_inj.mp
        rw [UInt8.toNat_add,UInt8.toNat_ofNat',UInt8.toNat_ofNat']
        omega
      rw [List.foldl_cons,ih,narrowed,List.sum_cons,add_assoc]

theorem complement_absorbs (b : UInt8) : ~~~(b + ~~~b) = 0 := by
  apply UInt8.toBitVec_inj.mp
  rw [UInt8.toBitVec_not,UInt8.toBitVec_add,UInt8.toBitVec_not,BitVec.add_not_self]
  rfl

end HsrbDrivers.Bytes

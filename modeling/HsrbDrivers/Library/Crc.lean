import Mathlib.Data.BitVec

namespace HsrbDrivers.Crc

-- The bitwise CRC register of width `w`, most significant bit first, without
-- reflection and without a final exclusive or.
variable {w : Nat}

def shift (poly register : BitVec w) : BitVec w :=
  if register.msb then (register <<< 1) ^^^ poly else register <<< 1

def shifts (poly : BitVec w) : Nat → BitVec w → BitVec w
  | 0,register => register
  | count+1,register => shifts poly count (shift poly register)

def inject (byte : UInt8) : BitVec w := byte.toBitVec.setWidth w <<< (w - 8)

def processByte (poly register : BitVec w) (byte : UInt8) : BitVec w :=
  shifts poly 8 (register ^^^ inject byte)

def processBytes (poly register : BitVec w) (bytes : List UInt8) : BitVec w :=
  bytes.foldl (processByte poly) register

-- With an odd polynomial the lowest bit after a shift tells which bit fell out,
-- so a shift loses nothing.
theorem shift_injective (poly : BitVec w) (odd : poly.getLsbD 0 = true) :
    Function.Injective (shift poly) := by
  intro x y same
  have fell : ∀ z : BitVec w, (shift poly z).getLsbD 0 = z.msb := by
    intro z
    unfold shift
    split <;> rename_i top
    · rw [BitVec.getLsbD_xor,odd,top]; simp
    · simpa using top
  have top : x.msb = y.msb := by rw [← fell x,← fell y,same]
  have moved : x <<< 1 = y <<< 1 := by
    unfold shift at same
    rw [top] at same
    split at same
    · exact (BitVec.xor_left_inj _).mp same
    · exact same
  apply BitVec.eq_of_getLsbD_eq
  intro i bound
  by_cases last : i = w - 1
  · have one := BitVec.msb_eq_getLsbD_last x
    have two := BitVec.msb_eq_getLsbD_last y
    rw [last,← one,← two,top]
  · have bit := congrArg (fun z : BitVec w => z.getLsbD (i+1)) moved
    have inside : i+1 < w := by omega
    simpa [inside,← BitVec.getLsbD_eq_getElem] using bit

theorem shifts_injective (poly : BitVec w) (odd : poly.getLsbD 0 = true) (count : Nat) :
    Function.Injective (shifts poly count) := by
  induction count with
  | zero => exact fun _ _ same => same
  | succ count ih => exact fun _ _ same => shift_injective poly odd (ih same)

theorem inject_injective (wide : 8 ≤ w) : Function.Injective (inject (w := w)) := by
  intro a b same
  apply UInt8.toBitVec_inj.mp
  apply BitVec.eq_of_getLsbD_eq
  intro i bound
  have bit := congrArg (fun z : BitVec w => z.getLsbD (i+(w-8))) same
  have inside : i+(w-8) < w := by omega
  have under : i < w := by omega
  have high : ¬ i+(w-8) < w-8 := by omega
  simpa [inject,BitVec.getLsbD_shiftLeft,inside,under,high] using bit

theorem processByte_register (poly : BitVec w) (odd : poly.getLsbD 0 = true) (byte : UInt8) :
    Function.Injective (processByte poly · byte) := by
  intro x y same
  exact (BitVec.xor_left_inj _).mp (shifts_injective poly odd 8 same)

theorem processByte_byte (poly : BitVec w) (odd : poly.getLsbD 0 = true) (wide : 8 ≤ w) (register : BitVec w) :
    Function.Injective (processByte poly register) := by
  intro a b same
  exact inject_injective wide ((BitVec.xor_right_inj _).mp (shifts_injective poly odd 8 same))

theorem processBytes_register (poly : BitVec w) (odd : poly.getLsbD 0 = true) (bytes : List UInt8) :
    Function.Injective (processBytes poly · bytes) := by
  induction bytes with
  | nil => exact fun _ _ same => same
  | cons byte bytes ih => exact fun _ _ same => processByte_register poly odd byte (ih same)

theorem processBytes_differ (poly : BitVec w) (odd : poly.getLsbD 0 = true) (wide : 8 ≤ w)
    (register : BitVec w) (before after : List UInt8) {a b : UInt8} (differ : a ≠ b) :
    processBytes poly register (before ++ a :: after) ≠ processBytes poly register (before ++ b :: after) := by
  intro same
  simp only [processBytes,List.foldl_append,List.foldl_cons] at same
  exact differ (processByte_byte poly odd wide _ (processBytes_register poly odd after same))

end HsrbDrivers.Crc

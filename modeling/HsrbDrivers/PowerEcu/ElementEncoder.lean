import HsrbDrivers.PowerEcu.ElementDecoder

namespace HsrbDrivers.PowerEcu
open CText Numeral

-- An element encoder over the parameters `π` it refers into: the characters it
-- writes, or none when it fails, always as many as declared.
structure ElementEncoder (π : Type) where
  width : Nat
  convert : π → Option (List UInt8)
  wide : ∀ {memory bytes}, convert memory = some bytes → bytes.length = width

-- Nothing reaches the buffer of an element that fails.
def ElementEncoder.encode (e : ElementEncoder π) (memory : π) (buffer : CircularBuffer UInt8 n) :
    Bool × CircularBuffer UInt8 n :=
  match e.convert memory with
  | none => (false,buffer)
  | some bytes => (true,buffer.pushBacks bytes)

def convertLoop (base : Nat) (digit : Nat → UInt8) : Nat → Nat → List UInt8 × Nat
  | 0,currentValue => ([],currentValue)
  | count+1,currentValue =>
    let (convertBuffer,left) := convertLoop base digit count (currentValue / base)
    (digit (currentValue % base) :: convertBuffer,left)

def decimalChar (v : Nat) : UInt8 := if v > 10 then 48 else UInt8.ofNat (v + 48)

def hexChar (v : Nat) : UInt8 :=
  if v > 15 then 48 else if v < 10 then UInt8.ofNat (v + 48) else UInt8.ofNat (v + 65 - 10)

namespace ElementUintEncoder

def convert (length : Nat) (value : Int) : Option (List UInt8) :=
  let (convertBuffer,currentValue) := convertLoop 10 decimalChar length (toUint32 value).toNat
  if currentValue ≠ 0 then none else some convertBuffer.reverse

end ElementUintEncoder

namespace ElementHexUintEncoder

def convert (length : Nat) (value : Int) : Option (List UInt8) :=
  let (convertBuffer,currentValue) := convertLoop 16 hexChar length (toUint32 value).toNat
  if currentValue ≠ 0 then none else some (convertBuffer ++ [104]).reverse

end ElementHexUintEncoder

namespace ElementStringEncoder

def convert (length : Nat) (value : List UInt8) : Option (List UInt8) :=
  if value.length ≠ length then none else some value

end ElementStringEncoder

-- Flags by bit address; no address is out of the digits or registered twice.
structure BitMap (π : Type) where
  length : Nat
  bits : List (Nat × (π → Bool))
  positive : 0 < length
  inside : ∀ b ∈ bits, b.1 ≤ length * 4 - 1
  distinct : (bits.map Prod.fst).Nodup

namespace ElementHexUintBitsEncoder

def empty (length : Nat) (positive : 0 < length) : BitMap π := ⟨length,[],positive,by simp,List.nodup_nil⟩

def registerBit (map : BitMap π) (bit : Nat) (flag : π → Bool) : Bool × BitMap π :=
  if outside : bit > map.length * 4 - 1 then (false,map)
  else if registered : bit ∈ map.bits.map Prod.fst then (false,map)
  else (true,{map with
    bits := (bit,flag) :: map.bits
    inside := List.forall_mem_cons.mpr ⟨Nat.not_lt.mp outside,map.inside⟩
    distinct := List.nodup_cons.mpr ⟨registered,map.distinct⟩})

def value (map : BitMap π) (memory : π) : Nat :=
  map.bits.foldl (fun value (bit,flag) => if flag memory then uint32 (value + 2^bit) else value) 0

end ElementHexUintBitsEncoder

theorem decimalChar_eq {d : Nat} (digit : d < 10) : decimalChar d = digitByte d := by
  rw [decimalChar,digitByte,if_neg (by omega),if_pos digit,Nat.add_comm]

theorem hexChar_eq {d : Nat} (digit : d < 16) : hexChar d = digitByte d := by
  rw [hexChar,digitByte,if_neg (by omega),Nat.add_comm 48 d,Nat.add_sub_assoc (by omega) d,Nat.add_comm 55 d]

theorem convertLoop_eq {base : Nat} {digit : Nat → UInt8} (positive : 0 < base)
    (same : ∀ d, d < base → digit d = digitByte d) (count value : Nat) :
    convertLoop base digit count value = ((lowDigits base count value).map digitByte,quotient base count value) := by
  induction count generalizing value with
  | zero => rfl
  | succ count ih =>
      rw [convertLoop,ih,same _ (Nat.mod_lt value positive)]
      rfl

theorem toUint32_natCast {v : Nat} (small : v < 2^32) : (toUint32 v).toNat = v := by
  rw [toUint32]
  omega

theorem uintConvert_eq (length : Nat) (value : Int) :
    ElementUintEncoder.convert length value =
      if (toUint32 value).toNat < 10 ^ length then some (numeral 10 length (toUint32 value).toNat) else none := by
  simp only [ElementUintEncoder.convert,convertLoop_eq (by decide) (fun _ => decimalChar_eq),numeral,List.map_reverse]
  by_cases fits : (toUint32 value).toNat < 10 ^ length
  · rw [if_neg (not_not.mpr ((quotient_zero_iff (by decide)).mpr fits)),if_pos fits]
  · rw [if_pos (mt (quotient_zero_iff (by decide)).mp fits),if_neg fits]

theorem hexUintConvert_eq (length : Nat) (value : Int) :
    ElementHexUintEncoder.convert length value =
      if (toUint32 value).toNat < 16 ^ length then some (104 :: numeral 16 length (toUint32 value).toNat) else none := by
  simp only [ElementHexUintEncoder.convert,convertLoop_eq (by decide) (fun _ => hexChar_eq),numeral,List.map_reverse,
    List.reverse_append,List.reverse_singleton,List.singleton_append]
  by_cases fits : (toUint32 value).toNat < 16 ^ length
  · rw [if_neg (not_not.mpr ((quotient_zero_iff (by decide)).mpr fits)),if_pos fits]
  · rw [if_pos (mt (quotient_zero_iff (by decide)).mp fits),if_neg fits]

def elementUintEncoder (value : π → Int) (length : Nat) : ElementEncoder π where
  width := length
  convert memory := ElementUintEncoder.convert length (value memory)
  wide := by
    intro memory bytes converted
    rw [uintConvert_eq] at converted
    split at converted
    · cases converted
      exact numeral_length _ _ _
    · cases converted

def elementHexUintEncoder (value : π → Int) (length : Nat) : ElementEncoder π where
  width := length+1
  convert memory := ElementHexUintEncoder.convert length (value memory)
  wide := by
    intro memory bytes converted
    rw [hexUintConvert_eq] at converted
    split at converted
    · cases converted
      rw [List.length_cons,numeral_length]
    · cases converted

def elementStringEncoder (value : π → List UInt8) (length : Nat) : ElementEncoder π where
  width := length
  convert memory := ElementStringEncoder.convert length (value memory)
  wide := by
    intro memory bytes converted
    unfold ElementStringEncoder.convert at converted
    split at converted
    · cases converted
    · rename_i exact
      cases converted
      exact not_not.mp exact

def elementHexUintBitsEncoder (map : BitMap π) : ElementEncoder π :=
  elementHexUintEncoder (fun memory => ElementHexUintBitsEncoder.value map memory) map.length

theorem ElementEncoder.encode_none {e : ElementEncoder π} {memory : π} (failed : e.convert memory = none)
    (buffer : CircularBuffer UInt8 n) : e.encode memory buffer = (false,buffer) := by
  rw [encode,failed]

theorem ElementEncoder.encode_some {e : ElementEncoder π} {memory : π} {bytes : List UInt8}
    (converted : e.convert memory = some bytes) (buffer : CircularBuffer UInt8 n) :
    e.encode memory buffer = (true,buffer.pushBacks bytes) := by
  rw [encode,converted]

theorem uintConvert_some {v length : Nat} (fits : v < 10 ^ length) (small : v < 2^32) :
    ElementUintEncoder.convert length v = some (numeral 10 length v) := by
  rw [uintConvert_eq,toUint32_natCast small,if_pos fits]

theorem hexUintConvert_some {v length : Nat} (fits : v < 16 ^ length) (small : v < 2^32) :
    ElementHexUintEncoder.convert length v = some (104 :: numeral 16 length v) := by
  rw [hexUintConvert_eq,toUint32_natCast small,if_pos fits]

theorem uintConvert_isSome {v length : Nat} (small : v < 2^32) :
    (ElementUintEncoder.convert length v).isSome ↔ v < 10 ^ length := by
  rw [uintConvert_eq,toUint32_natCast small]
  by_cases fits : v < 10 ^ length
  · rw [if_pos fits]
    exact ⟨fun _ => fits,fun _ => rfl⟩
  · rw [if_neg fits]
    exact ⟨nofun,fun inside => absurd inside fits⟩

namespace ElementHexUintBitsEncoder

theorem foldl_le {π : Type} (bits : List (Nat × (π → Bool))) (memory : π) (acc : Nat) :
    bits.foldl (fun value (bit,flag) => if flag memory then uint32 (value + 2^bit) else value) acc ≤
      acc + (bits.map fun b => 2 ^ b.1).sum := by
  induction bits generalizing acc with
  | nil => exact Nat.le_refl _
  | cons b bits ih =>
      have narrow : uint32 (acc + 2 ^ b.1) ≤ acc + 2 ^ b.1 := Nat.mod_le _ _
      have added : (if b.2 memory then uint32 (acc + 2 ^ b.1) else acc) ≤ acc + 2 ^ b.1 := by
        split
        · exact narrow
        · exact Nat.le_add_right _ _
      rw [List.map_cons,List.sum_cons,← Nat.add_assoc]
      exact Nat.le_trans (ih _) (Nat.add_le_add_right added _)

theorem value_lt {π : Type} (map : BitMap π) (memory : π) : value map memory < 16 ^ map.length := by
  have below : ∀ p ∈ map.bits.map Prod.fst, p < 4 * map.length := by
    intro p member
    obtain ⟨b,held,rfl⟩ := List.mem_map.mp member
    have inside := map.inside b held
    have positive := map.positive
    omega
  have sum := sum_powers_lt (Nat.le_refl 2) map.distinct below
  rw [List.map_map] at sum
  calc value map memory
      ≤ 0 + (map.bits.map fun b => 2 ^ b.1).sum := foldl_le map.bits memory 0
    _ = (map.bits.map fun b => 2 ^ b.1).sum := Nat.zero_add _
    _ < 2 ^ (4 * map.length) := sum
    _ = 16 ^ map.length := by rw [Nat.pow_mul]

end ElementHexUintBitsEncoder
end HsrbDrivers.PowerEcu

import Mathlib.Data.List.Basic

namespace HsrbDrivers

-- A circular buffer of fixed capacity, seen as the list of what it holds from
-- front to back. The bound is a field, so no operation can outgrow the storage.
structure CircularBuffer (α : Type u) (capacity : Nat) where
  data : List α
  fits : data.length ≤ capacity

namespace CircularBuffer

def empty : CircularBuffer α n := ⟨[],Nat.zero_le _⟩

def size (b : CircularBuffer α n) : Nat := b.data.length

def reserve (b : CircularBuffer α n) : Nat := n - b.data.length

-- A push on a full buffer overwrites the front; with no storage at all the
-- pushed element itself is the one that is lost.
def pushBack (b : CircularBuffer α n) (x : α) : CircularBuffer α n :=
  if room : b.data.length < n then
    ⟨b.data ++ [x],by rw [List.length_append]; exact room⟩
  else
    ⟨(b.data ++ [x]).tail,by
      rw [List.length_tail,List.length_append,List.length_singleton,Nat.add_sub_cancel]
      exact b.fits⟩

def pushBacks (b : CircularBuffer α n) (xs : List α) : CircularBuffer α n :=
  xs.foldl pushBack b

def front? (b : CircularBuffer α n) : Option α := b.data.head?

-- Removing the front of an empty buffer has no defined result.
def popFront (b : CircularBuffer α n) : Option (CircularBuffer α n) :=
  match held : b.data with
  | [] => none
  | _ :: rest => some ⟨rest,by have := b.fits; rw [held,List.length_cons] at this; omega⟩

def eraseBegin (b : CircularBuffer α n) (count : Nat) : CircularBuffer α n :=
  ⟨b.data.drop count,by have := b.fits; rw [List.length_drop]; omega⟩

@[ext] theorem ext {b c : CircularBuffer α n} (same : b.data = c.data) : b = c := by
  cases b; cases c; simpa using same

@[simp] theorem data_empty : (empty : CircularBuffer α n).data = [] := rfl

@[simp] theorem data_eraseBegin (b : CircularBuffer α n) (count : Nat) :
    (b.eraseBegin count).data = b.data.drop count := rfl

theorem data_pushBack (b : CircularBuffer α n) (x : α) (room : b.data.length < n) :
    (b.pushBack x).data = b.data ++ [x] := by
  simp [pushBack,room]

theorem data_pushBack_full (b : CircularBuffer α n) (x : α) (full : b.data.length = n) :
    (b.pushBack x).data = (b.data ++ [x]).tail := by
  simp [pushBack,full]

theorem data_pushBacks (b : CircularBuffer α n) (xs : List α) (room : b.data.length + xs.length ≤ n) :
    (b.pushBacks xs).data = b.data ++ xs := by
  induction xs generalizing b with
  | nil => simp [pushBacks]
  | cons x xs ih =>
      rw [List.length_cons] at room
      have one := data_pushBack b x (by omega)
      have rest := ih (b.pushBack x) (by rw [one,List.length_append,List.length_singleton]; omega)
      rw [one,List.append_assoc,List.singleton_append] at rest
      exact rest

theorem data_pushBack_eq (b : CircularBuffer α n) (x : α) :
    (b.pushBack x).data = (b.data ++ [x]).drop (b.data.length + 1 - n) := by
  have fits := b.fits
  by_cases room : b.data.length < n
  · rw [data_pushBack b x room,show b.data.length + 1 - n = 0 by omega,List.drop_zero]
  · have full : b.data.length = n := by omega
    rw [data_pushBack_full b x full,full,show n + 1 - n = 1 by omega,List.drop_one]

theorem data_pushBacks_eq (b : CircularBuffer α n) (xs : List α) :
    (b.pushBacks xs).data = (b.data ++ xs).drop (b.data.length + xs.length - n) := by
  have fits := b.fits
  induction xs generalizing b with
  | nil =>
      rw [List.append_nil,List.length_nil,show b.data.length + 0 - n = 0 by omega,List.drop_zero]
      rfl
  | cons x xs ih =>
      have pushed := data_pushBack_eq b x
      have length : (b.pushBack x).data.length = b.data.length + 1 - (b.data.length + 1 - n) := by
        rw [pushed,List.length_drop,List.length_append,List.length_singleton]
      have rest := ih (b.pushBack x) (b.pushBack x).fits
      have step : b.pushBacks (x :: xs) = (b.pushBack x).pushBacks xs := rfl
      rw [step,rest,pushed,← List.drop_append_of_le_length (by rw [List.length_append,List.length_singleton]; omega),
        List.drop_drop,List.append_assoc,List.singleton_append,← pushed,length,List.length_cons]
      congr 1
      omega

theorem size_pushBacks (b : CircularBuffer α n) (xs : List α) : (b.pushBacks xs).size = min n (b.size + xs.length) := by
  have fits := b.fits
  rw [size,data_pushBacks_eq,List.length_drop,List.length_append,size]
  omega

theorem pushBacks_append (b : CircularBuffer α n) (xs ys : List α) :
    b.pushBacks (xs ++ ys) = (b.pushBacks xs).pushBacks ys := List.foldl_append

theorem pushBacks_singleton (b : CircularBuffer α n) (x : α) : b.pushBacks [x] = b.pushBack x := rfl

theorem pushBack_ne_nil (b : CircularBuffer α n) (x : α) (storage : 0 < n) :
    (b.pushBack x).data ≠ [] := by
  by_cases room : b.data.length < n
  · rw [data_pushBack b x room]
    exact List.append_ne_nil_of_right_ne_nil _ (by simp)
  · have full : b.data.length = n := by have := b.fits; omega
    rw [data_pushBack_full b x full]
    intro none
    have := congrArg List.length none
    simp only [List.length_tail,List.length_append,List.length_singleton,List.length_nil] at this
    omega

theorem mem_pushBack {b : CircularBuffer α n} {x y : α} (held : y ∈ (b.pushBack x).data) :
    y ∈ b.data ∨ y = x := by
  have inside : y ∈ b.data ++ [x] := by
    unfold pushBack at held
    split at held
    · exact held
    · exact List.mem_of_mem_tail held
  simpa using inside

theorem popFront_some {b c : CircularBuffer α n} (popped : b.popFront = some c) :
    ∃ x, b.data = x :: c.data := by
  unfold popFront at popped
  split at popped
  · cases popped
  · rename_i x rest held
    cases Option.some.inj popped
    exact ⟨x,held⟩

theorem popFront_cons {b : CircularBuffer α n} (held : b.data = x :: rest) :
    ∃ c, b.popFront = some c ∧ c.data = rest := by
  unfold popFront
  split
  · rename_i none; rw [held] at none; cases none
  · rename_i y tail same
    rw [held] at same
    cases same
    exact ⟨_,rfl,rfl⟩

theorem front?_eq_some {b : CircularBuffer α n} (front : b.front? = some x) :
    ∃ rest, b.data = x :: rest := List.head?_eq_some_iff.mp front

theorem front?_pushBack {b : CircularBuffer α n} {x y : α} (front : b.front? = some x) (room : b.size < n) :
    (b.pushBack y).front? = some x := by
  obtain ⟨rest,held⟩ := front?_eq_some front
  rw [front?,data_pushBack b y room,held,List.cons_append,List.head?_cons]

end CircularBuffer
end HsrbDrivers

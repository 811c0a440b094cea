import Mathlib.Data.List.Basic

namespace HsrbDrivers

-- A line that carries items in order and loses none: all that was ever sent, how many of
-- these have arrived, and how many were taken off at the end.
structure Channel (α : Type) where
  sent : List α
  arrived : Nat
  taken : Nat
  behind : taken ≤ arrived
  within : arrived ≤ sent.length

namespace Channel
variable {α : Type}

def empty : Channel α := ⟨[],0,0,Nat.le_refl _,Nat.le_refl _⟩

theorem append_within {count : Nat} {sent : List α} (within : count ≤ sent.length) (items : List α) :
    count ≤ (sent ++ items).length := by
  rw [List.length_append]
  exact Nat.le_add_right_of_le within

def send (c : Channel α) (items : List α) : Channel α :=
  ⟨c.sent ++ items,c.arrived,c.taken,c.behind,append_within c.within items⟩

def deliver (c : Channel α) (count : Nat) : Option (Channel α) :=
  if fits : c.arrived + count ≤ c.sent.length then
    some ⟨c.sent,c.arrived + count,c.taken,Nat.le_add_right_of_le c.behind,fits⟩
  else none

def waiting (c : Channel α) : List α := (c.sent.take c.arrived).drop c.taken

def receive (c : Channel α) (count : Nat) : Option (List α × Channel α) :=
  if there : c.taken + count ≤ c.arrived then
    some (c.waiting.take count,⟨c.sent,c.arrived,c.taken + count,there,c.within⟩)
  else none

theorem waiting_length (c : Channel α) : c.waiting.length = c.arrived - c.taken := by
  rw [waiting,List.length_drop,List.length_take,Nat.min_eq_left c.within]

theorem waiting_take (c : Channel α) {count : Nat} (there : c.taken + count ≤ c.arrived) :
    c.waiting.take count = (c.sent.drop c.taken).take count := by
  rw [waiting,List.drop_take,List.take_take,Nat.min_eq_left (Nat.le_sub_of_add_le' there)]

theorem deliver_parts {c d : Channel α} {count : Nat} (delivered : c.deliver count = some d) :
    d.sent = c.sent ∧ d.taken = c.taken := by
  unfold deliver at delivered
  split at delivered
  · cases delivered
    exact ⟨rfl,rfl⟩
  · cases delivered

theorem receive_parts {c d : Channel α} {count : Nat} {items : List α} (received : c.receive count = some (items,d)) :
    items = (c.sent.drop c.taken).take count ∧ c.taken + count ≤ c.sent.length ∧ d.sent = c.sent ∧ d.taken = c.taken + count := by
  unfold receive at received
  split at received
  · rename_i there
    cases received
    exact ⟨c.waiting_take there,Nat.le_trans there c.within,rfl,rfl⟩
  · cases received

theorem receive_waiting (c : Channel α) {count : Nat} (there : count ≤ c.waiting.length) :
    ∃ d, c.receive count = some (c.waiting.take count,d) := by
  rw [waiting_length] at there
  have behind := c.behind
  exact ⟨_,dif_pos (by omega)⟩

end Channel
end HsrbDrivers

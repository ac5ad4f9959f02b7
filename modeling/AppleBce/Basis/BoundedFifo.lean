import AppleBce.Basis.Machine
import Mathlib.Tactic.Common

namespace Basis

universe u
variable {β : Type u}

/-- A FIFO of bounded capacity whose producers first reserve a place and then fill it.
The places reserved and the items held never exceed the capacity. -/
@[ext]
structure BoundedFifo (β : Type u) where
  capacity : Nat
  reserved : Nat
  items : List β
  room : items.length + reserved ≤ capacity

namespace BoundedFifo

def empty (capacity : Nat) : BoundedFifo β :=
  ⟨capacity, 0, [], Nat.zero_le _⟩

/-- Places that are neither reserved nor filled. -/
def available (f : BoundedFifo β) : Nat :=
  f.capacity - (f.items.length + f.reserved)

def reserve (f : BoundedFifo β) : Option (BoundedFifo β) :=
  if free : f.items.length + f.reserved < f.capacity then
    some { f with reserved := f.reserved + 1, room := free }
  else none

def release (f : BoundedFifo β) : Option (BoundedFifo β) :=
  if 0 < f.reserved then
    some { f with reserved := f.reserved - 1, room := by have := f.room; omega }
  else none

def push (x : β) (f : BoundedFifo β) : Option (BoundedFifo β) :=
  if held : 0 < f.reserved then
    some { f with
      reserved := f.reserved - 1
      items := f.items ++ [x]
      room := by have := f.room; simp only [List.length_append, List.length_singleton]; omega }
  else none

def pop (f : BoundedFifo β) : BoundedFifo β :=
  { f with items := f.items.tail, room := by have := f.room; simp only [List.length_tail]; omega }

/-- Reserving a place and filling it at once. -/
def submit (x : β) (f : BoundedFifo β) : Option (BoundedFifo β) :=
  f.reserve.bind (push x)

theorem reserve_exists {f : BoundedFifo β} (free : f.items.length + f.reserved < f.capacity) :
    ∃ g, f.reserve = some g ∧ g.capacity = f.capacity ∧ g.reserved = f.reserved + 1 ∧
      g.items = f.items := by
  simp [reserve, free]

theorem release_exists {f : BoundedFifo β} (held : 0 < f.reserved) :
    ∃ g, f.release = some g ∧ g.capacity = f.capacity ∧ g.reserved = f.reserved - 1 ∧
      g.items = f.items := by
  simp [release, held]

theorem push_exists {f : BoundedFifo β} (held : 0 < f.reserved) (x : β) :
    ∃ g, f.push x = some g ∧ g.capacity = f.capacity ∧ g.reserved = f.reserved - 1 ∧
      g.items = f.items ++ [x] := by
  simp [push, held]

theorem submit_some {x : β} {f g : BoundedFifo β} (run : f.submit x = some g) :
    f.items.length + f.reserved < f.capacity ∧ g.items = f.items ++ [x] ∧
      g.reserved = f.reserved ∧ g.capacity = f.capacity := by
  obtain ⟨middle, first, second⟩ := Option.bind_eq_some_iff.mp run
  unfold reserve at first
  split at first
  · rename_i free
    cases Option.some.inj first
    simp only [push, Nat.zero_lt_succ, ↓reduceDIte, Nat.add_one_sub_one] at second
    cases Option.some.inj second
    exact ⟨free, rfl, rfl, rfl⟩
  · simp at first

theorem submit_isSome {x : β} {f : BoundedFifo β}
    (free : f.items.length + f.reserved < f.capacity) : (f.submit x).isSome := by
  simp [submit, reserve, free, push]

theorem available_of_submit_none {x : β} {f : BoundedFifo β} (full : f.submit x = none) :
    f.available = 0 := by
  by_contra free
  have submitted : (f.submit x).isSome := submit_isSome (by unfold available at free; omega)
  rw [full] at submitted
  cases submitted

inductive Action (β : Type u)
  | reserve
  | release
  | push (x : β)
  | pop

def act (f : BoundedFifo β) : Action β → Option (BoundedFifo β)
  | .reserve => f.reserve
  | .release => f.release
  | .push x => f.push x
  | .pop => some f.pop

/-- All uses of a FIFO of the given capacity. -/
def machine (β : Type u) (capacity : Nat) : Machine (BoundedFifo β) (Action β) where
  init f := f = empty capacity
  step := act

end BoundedFifo

end Basis

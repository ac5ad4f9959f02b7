import Mathlib.Data.List.Nodup
import Mathlib.Data.List.Range
import Mathlib.Data.Nat.ModEq
import Mathlib.Logic.Function.Basic

namespace Basis

variable {β : Type*}

/-- Two positions of a ring of `n` cells that are less than `n` apart are different cells. -/
theorem ring_index_injective {n start i j : Nat} (hi : i < n) (hj : j < n)
    (same : (start + i) % n = (start + j) % n) : i = j := by
  have cancel : i % n = j % n := Nat.ModEq.add_left_cancel' start same
  rwa [Nat.mod_eq_of_lt hi, Nat.mod_eq_of_lt hj] at cancel

theorem ring_index_ne {n start i j : Nat} (hi : i < n) (hj : j < n) (ne : i ≠ j) :
    (start + i) % n ≠ (start + j) % n :=
  fun same => ne (ring_index_injective hi hj same)

/-- The distance of two ring positions, as the difference of the indices modulo the size. -/
theorem ring_distance {n len : Nat} (start : Nat) (bound : len < n) :
    ((((start + len) % n : Nat) : Int) - ((start % n : Nat) : Int)) % (n : Int) = len := by
  push_cast
  rw [← Int.sub_emod]
  have gap : ((start : Int) + len - start) = len := by omega
  rw [gap]
  exact Int.emod_eq_of_lt (by omega) (by omega)

/-- The same distance, computed without going below zero. -/
theorem ring_distance_nat {n len : Nat} (start : Nat) (bound : len < n) :
    ((start + len) % n + n - start % n) % n = len := by
  have split := Nat.div_add_mod start n
  have low : start % n < n := Nat.mod_lt _ (by omega)
  rw [← Nat.mod_add_mod]
  by_cases wraps : start % n + len < n
  · rw [Nat.mod_eq_of_lt wraps, show start % n + len + n - start % n = len + n by omega,
      Nat.add_mod_right, Nat.mod_eq_of_lt bound]
  · have once : (start % n + len) % n = start % n + len - n := by
      rw [Nat.mod_eq_sub_mod (by omega), Nat.mod_eq_of_lt (by omega)]
    rw [once, show start % n + len - n + n - start % n = len by omega, Nat.mod_eq_of_lt bound]

theorem ring_succ {n start len : Nat} : ((start + len) % n + 1) % n = (start + (len + 1)) % n := by
  rw [Nat.mod_add_mod, Nat.add_assoc]

/-- The contents of `len` consecutive cells of a ring of `n` cells, oldest first. -/
def window (n : Nat) (cell : Nat → β) (start len : Nat) : List β :=
  (List.range len).map fun k => cell ((start + k) % n)

@[simp] theorem window_zero (n : Nat) (cell : Nat → β) (start : Nat) :
    window n cell start 0 = [] := rfl

@[simp] theorem length_window (n : Nat) (cell : Nat → β) (start len : Nat) :
    (window n cell start len).length = len := by
  simp [window]

theorem mem_window {n start len : Nat} {cell : Nat → β} {x : β} :
    x ∈ window n cell start len ↔ ∃ k < len, cell ((start + k) % n) = x := by
  simp [window]

@[simp] theorem getElem_window {n start len k : Nat} {cell : Nat → β}
    (bound : k < (window n cell start len).length) :
    (window n cell start len)[k] = cell ((start + k) % n) := by
  simp [window]

/-- The oldest cell of a window leaves it when the start advances. -/
theorem window_succ (n : Nat) (cell : Nat → β) (start len : Nat) :
    window n cell start (len + 1) = cell (start % n) :: window n cell (start + 1) len := by
  simp only [window, List.range_succ_eq_map, List.map_cons, Nat.add_zero, List.map_map]
  congr 2
  funext k
  simp only [Function.comp_apply, Nat.succ_eq_add_one]
  congr 2
  omega

/-- The newest cell of a window is the one before its end. -/
theorem window_succ_last (n : Nat) (cell : Nat → β) (start len : Nat) :
    window n cell start (len + 1) = window n cell start len ++ [cell ((start + len) % n)] := by
  simp [window, List.range_succ]

@[simp] theorem window_mod (n : Nat) (cell : Nat → β) (start len : Nat) :
    window n cell (start % n) len = window n cell start len := by
  simp [window]

theorem window_congr {n start len : Nat} {cell cell' : Nat → β}
    (same : ∀ k < len, cell ((start + k) % n) = cell' ((start + k) % n)) :
    window n cell start len = window n cell' start len := by
  apply List.map_congr_left
  intro k member
  exact same k (List.mem_range.mp member)

/-- Writing the cell behind a window does not change the window. -/
theorem window_update {n start len : Nat} (cell : Nat → β) (x : β) (room : len < n) :
    window n (Function.update cell ((start + len) % n) x) start len = window n cell start len := by
  apply window_congr
  intro k before
  exact Function.update_of_ne (ring_index_ne (by omega) room (by omega)) ..

/-- Writing the cell behind a window appends to it. -/
theorem window_push {n start len : Nat} (cell : Nat → β) (x : β) (room : len < n) :
    window n (Function.update cell ((start + len) % n) x) start (len + 1) =
      window n cell start len ++ [x] := by
  rw [window_succ_last, window_update cell x room, Function.update_self]

/-- The indices of `len` consecutive cells. -/
abbrev slots (n start len : Nat) : List Nat :=
  window n id start len

theorem slots_nodup {n start len : Nat} (bound : len ≤ n) : (slots n start len).Nodup := by
  refine List.Nodup.map_on ?_ List.nodup_range
  intro i hi j hj same
  exact ring_index_injective (by simp at hi; omega) (by simp at hj; omega) same

/-- A ring that is not full has a free cell behind its window. -/
theorem next_slot_free {n start len : Nat} (room : len < n) :
    (start + len) % n ∉ slots n start len := by
  intro member
  obtain ⟨k, before, same⟩ := mem_window.mp member
  exact ring_index_ne (by omega) room (by omega) same

end Basis

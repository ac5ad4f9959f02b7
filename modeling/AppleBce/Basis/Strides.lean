import Mathlib.Algebra.Order.BigOperators.Group.List
import Mathlib.Tactic.Ring

namespace Basis

/-- A total dealt out to `n` places, to each as much as the stride allows. -/
def strides (stride : Nat) : Nat → Nat → List Nat
  | _, 0 => []
  | total, n + 1 => min stride total :: strides stride (total - min stride total) n

@[simp] theorem length_strides (stride total n : Nat) : (strides stride total n).length = n := by
  induction n generalizing total with
  | zero => rfl
  | succ n ih => rw [strides, List.length_cons, ih]

/-- What is dealt out is the total, or what all the places take. -/
theorem sum_strides (stride total n : Nat) : (strides stride total n).sum = min total (n * stride) := by
  induction n generalizing total with
  | zero => simp [strides]
  | succ n ih =>
    have split : (n + 1) * stride = n * stride + stride := by ring
    rw [strides, List.sum_cons, ih, split]
    omega

/-- A place gets what is left of the total at its offset. -/
theorem getElem_strides {stride total n i : Nat} (bound : i < (strides stride total n).length) :
    (strides stride total n)[i] = min stride (total - i * stride) := by
  induction n generalizing total i with
  | zero => simp [strides] at bound
  | succ n ih =>
    cases i with
    | zero => simp [strides]
    | succ i =>
      have split : (i + 1) * stride = i * stride + stride := by ring
      simp only [strides, List.getElem_cons_succ]
      rw [ih, split]
      by_cases low : stride ≤ total
      · rw [Nat.min_eq_left low]
        omega
      · rw [Nat.min_eq_right (by omega)]
        omega

/-- Every place has room for what it gets exactly if each that the total reaches is as large as the
stride or takes the rest. -/
theorem strides_le_iff (stride total : Nat) (limits : List Nat) :
    List.Forall₂ (· ≤ ·) (strides stride total limits.length) limits ↔
      ∀ i (bound : i < limits.length), i * stride < total →
        stride ≤ limits[i] ∨ total - i * stride ≤ limits[i] := by
  rw [List.forall₂_iff_get]
  simp only [length_strides, true_and, List.get_eq_getElem, getElem_strides]
  constructor
  · intro fits i bound reached
    have here := fits i bound bound
    omega
  · intro fits i bound _
    by_cases reached : i * stride < total
    · have here := fits i bound reached
      omega
    · rw [show total - i * stride = 0 by omega, Nat.min_zero]
      exact Nat.zero_le _

end Basis

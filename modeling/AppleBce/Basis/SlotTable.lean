import Mathlib.Logic.Function.Basic

namespace Basis

variable {ι : Type} {slot : ι → Option Nat} {i : Nat}

/-- Every slot below `i` has one owner at most, and no slot from `i` on has any. -/
structure OwnedBelow (slot : ι → Option Nat) (i : Nat) : Prop where
  below : ∀ {k s}, slot k = some s → s < i
  unique : ∀ {k l s}, slot k = some s → slot l = some s → k = l

theorem OwnedBelow.none (free : ∀ k, slot k = none) : OwnedBelow slot i where
  below {k _} owned := by
    rw [free k] at owned
    cases owned
  unique {k _ _} owned _ := by
    rw [free k] at owned
    cases owned

theorem OwnedBelow.mono {j : Nat} (owned : OwnedBelow slot i) (order : i ≤ j) : OwnedBelow slot j where
  below own := Nat.lt_of_lt_of_le (owned.below own) order
  unique := owned.unique

variable [DecidableEq ι]

/-- The next slot can go to any owner, also to one that had another slot before. -/
theorem OwnedBelow.assign (owned : OwnedBelow slot i) (k : ι) :
    OwnedBelow (Function.update slot k (some i)) (i + 1) where
  below {l s} own := by
    by_cases same : l = k
    · subst same
      rw [Function.update_self, Option.some_inj] at own
      omega
    · rw [Function.update_of_ne same] at own
      exact Nat.lt_succ_of_lt (owned.below own)
  unique {l m s} first second := by
    by_cases same : l = k <;> by_cases also : m = k
    · rw [same, also]
    · subst same
      rw [Function.update_self, Option.some_inj] at first
      rw [Function.update_of_ne also] at second
      exact absurd (owned.below second) (by omega)
    · subst also
      rw [Function.update_self, Option.some_inj] at second
      rw [Function.update_of_ne same] at first
      exact absurd (owned.below first) (by omega)
    · rw [Function.update_of_ne same] at first
      rw [Function.update_of_ne also] at second
      exact owned.unique first second

end Basis

import Mathlib.Logic.Function.Basic

namespace Basis

universe u v
variable {σ : Type u} {n : Nat} {f : Nat → σ → σ} {s : σ}

/-- `for (i = 0; i < n; i++)`. -/
def forLoop (n : Nat) (f : Nat → σ → σ) (s : σ) : σ :=
  n.fold (fun i _ s => f i s) s

@[simp] theorem forLoop_zero : forLoop 0 f s = s := rfl

/-- The loop rule: what holds before the first round and is kept by every round holds at the end. -/
theorem forLoop_invariant {P : Nat → σ → Prop} (start : P 0 s)
    (round : ∀ i s, i < n → P i s → P (i + 1) (f i s)) : P n (forLoop n f s) := by
  induction n with
  | zero => exact start
  | succ n ih => exact round n _ n.lt_succ_self (ih fun i s below => round i s (Nat.lt_succ_of_lt below))

/-- The form for an invariant that does not mention the counter. -/
theorem forLoop_keeps {P : σ → Prop} (start : P s) (round : ∀ i s, i < n → P s → P (f i s)) :
    P (forLoop n f s) :=
  forLoop_invariant (P := fun _ => P) start round

end Basis

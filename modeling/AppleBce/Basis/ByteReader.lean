import Mathlib.Tactic.Common

namespace Basis

/-- How a reading of a memory ends: with what result, and below which address all the bytes lie
that it has looked at. -/
structure Reading (ε α : Type) where
  result : Except ε α
  reach : Nat

/-- A program that reads from a memory at an offset of its own. What it does is decided by the
bytes below its reach. -/
structure ByteReader (β ε α : Type) where
  run : (Nat → β) → Nat → Reading ε (α × Nat)
  footprint : ∀ (data other : Nat → β) offset,
    (∀ i < (run data offset).reach, other i = data i) → run other offset = run data offset

namespace ByteReader

variable {β ε α γ : Type}

def succeed (a : α) : ByteReader β ε α where
  run _ offset := ⟨.ok (a, offset), 0⟩
  footprint _ _ _ _ := rfl

def fail (e : ε) : ByteReader β ε α where
  run _ _ := ⟨.error e, 0⟩
  footprint _ _ _ _ := rfl

/-- The reading that goes on with the value and the offset of another one. -/
def continued (first : Reading ε (α × Nat)) (next : α → Nat → Reading ε γ) : Reading ε γ :=
  match first.result with
  | .error e => ⟨.error e, first.reach⟩
  | .ok (a, offset) => ⟨(next a offset).result, max first.reach (next a offset).reach⟩

def andThen (first : ByteReader β ε α) (next : α → ByteReader β ε γ) : ByteReader β ε γ where
  run data offset := continued (first.run data offset) fun a => (next a).run data
  footprint := by
    intro data other offset same
    have start : first.run other offset = first.run data offset := by
      refine first.footprint data other offset fun i below => same i ?_
      rw [continued]
      split
      · exact below
      · exact Nat.lt_of_lt_of_le below (Nat.le_max_left ..)
    rw [start]
    rw [continued] at same
    rw [continued, continued]
    split
    · rfl
    · next a past passed =>
      rw [passed] at same
      rw [(next a).footprint data other past fun i below => same i (Nat.lt_of_lt_of_le below (Nat.le_max_right ..))]

instance : Monad (ByteReader β ε) where
  pure := succeed
  bind := andThen

/-- The value of the bytes in the given place, which does not move the offset. -/
def peek (start width : Nat) (value : (Nat → β) → α)
    (decided : ∀ data other, (∀ i, start ≤ i → i < start + width → other i = data i) →
      value other = value data) : ByteReader β ε α where
  run data offset := ⟨.ok (value data, offset), start + width⟩
  footprint data other offset same := by
    rw [decided data other fun i _ below => same i below]

/-- The value of the next bytes, which moves the offset behind them. -/
def field (width : Nat) (value : (Nat → β) → Nat → α)
    (decided : ∀ data other start, (∀ i, start ≤ i → i < start + width → other i = data i) →
      value other start = value data start) : ByteReader β ε α where
  run data offset := ⟨.ok (value data offset, offset + width), offset + width⟩
  footprint data other offset same := by
    rw [decided data other offset fun i _ below => same i below]

def position : ByteReader β ε Nat where
  run _ offset := ⟨.ok (offset, offset), 0⟩
  footprint _ _ _ _ := rfl

def advance (width : Nat) : ByteReader β ε Unit where
  run _ offset := ⟨.ok ((), offset + width), 0⟩
  footprint _ _ _ _ := rfl

variable {data : Nat → β} {offset : Nat}

@[simp] theorem run_pure (a : α) :
    (pure a : ByteReader β ε α).run data offset = ⟨.ok (a, offset), 0⟩ := rfl

@[simp] theorem run_fail (e : ε) : (fail e : ByteReader β ε α).run data offset = ⟨.error e, 0⟩ := rfl

@[simp] theorem run_bind (first : ByteReader β ε α) (next : α → ByteReader β ε γ) :
    (first >>= next).run data offset =
      continued (first.run data offset) fun a => (next a).run data := rfl

@[simp] theorem run_map (f : α → γ) (x : ByteReader β ε α) :
    (f <$> x).run data offset = continued (x.run data offset) fun a past => ⟨.ok (f a, past), 0⟩ := rfl

@[simp] theorem continued_ok (a : α) (past reach : Nat) (next : α → Nat → Reading ε γ) :
    continued ⟨.ok (a, past), reach⟩ next =
      ⟨(next a past).result, max reach (next a past).reach⟩ := rfl

@[simp] theorem continued_error (e : ε) (reach : Nat) (next : α → Nat → Reading ε γ) :
    continued ⟨.error e, reach⟩ next = ⟨.error e, reach⟩ := rfl

theorem continued_of_error {first : Reading ε (α × Nat)} {e : ε} (next : α → Nat → Reading ε γ)
    (failed : first.result = .error e) : continued first next = ⟨.error e, first.reach⟩ := by
  rw [continued, failed]

@[simp] theorem run_position :
    (position : ByteReader β ε Nat).run data offset = ⟨.ok (offset, offset), 0⟩ := rfl

@[simp] theorem run_advance (width : Nat) :
    (advance width : ByteReader β ε Unit).run data offset = ⟨.ok ((), offset + width), 0⟩ := rfl

theorem ext {x y : ByteReader β ε α}
    (same : ∀ data offset, x.run data offset = y.run data offset) : x = y := by
  obtain ⟨run, footprint⟩ := x
  obtain ⟨run', footprint'⟩ := y
  have runs : run = run' := funext fun data => funext fun offset => same data offset
  subst runs
  rfl

theorem bind_succeed (x : ByteReader β ε α) : (x >>= fun a => pure a) = x := by
  apply ext
  intro data offset
  rw [run_bind]
  obtain ⟨result, reach⟩ := x.run data offset
  cases result with
  | error e => rfl
  | ok pair => rw [continued_ok, run_pure, Nat.max_zero]

theorem succeed_bind (a : α) (next : α → ByteReader β ε γ) : (pure a >>= next) = next a := by
  apply ext
  intro data offset
  rw [run_bind, run_pure, continued_ok, Nat.zero_max]

theorem bind_bind {δ : Type} (x : ByteReader β ε α) (next : α → ByteReader β ε γ)
    (last : γ → ByteReader β ε δ) :
    (x >>= next >>= last) = x >>= fun a => next a >>= last := by
  apply ext
  intro data offset
  rw [run_bind, run_bind, run_bind]
  obtain ⟨first, reach⟩ := x.run data offset
  cases first with
  | error e => rfl
  | ok pair =>
    obtain ⟨a, past⟩ := pair
    rw [continued_ok, continued_ok, run_bind]
    obtain ⟨second, far⟩ := (next a).run data past
    cases second with
    | error e => rfl
    | ok pair =>
      obtain ⟨b, farther⟩ := pair
      rw [continued_ok, continued_ok, Nat.max_assoc]

instance : LawfulMonad (ByteReader β ε) :=
  LawfulMonad.mk' (ByteReader β ε) bind_succeed succeed_bind bind_bind

end ByteReader

end Basis

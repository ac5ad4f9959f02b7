import Mathlib.Tactic.Common

namespace Basis

/-- How a program ends: with what value, in what state, and what it has recorded, oldest first. -/
structure Outcome (σ ε α : Type) where
  value : α
  state : σ
  log : List ε

/-- A program that works on a state and records events. -/
def Logged (σ ε α : Type) : Type :=
  σ → Outcome σ ε α

namespace Logged

variable {σ ε α γ : Type}

def succeed (a : α) : Logged σ ε α :=
  fun s => ⟨a, s, []⟩

def andThen (first : Logged σ ε α) (next : α → Logged σ ε γ) : Logged σ ε γ :=
  fun s =>
    let before := first s
    let rest := next before.value before.state
    ⟨rest.value, rest.state, before.log ++ rest.log⟩

instance : Monad (Logged σ ε) where
  pure := succeed
  bind := andThen

def record (e : ε) : Logged σ ε Unit :=
  fun s => ⟨(), s, [e]⟩

/-- A step of the state, with what it yields and records. -/
def change (f : σ → Outcome σ ε α) : Logged σ ε α :=
  f

/-- `for (i = 0; i < n; i++)`, with a value that is carried from round to round. -/
def loop (n : Nat) (body : Nat → α → Logged σ ε α) (a : α) : Logged σ ε α :=
  match n with
  | 0 => pure a
  | n + 1 => loop n body a >>= body n

/-- From a state with `pre` the program records allowed events only, and ends with `post`. -/
def Ensures (allowed : ε → Prop) (pre : σ → Prop) (m : Logged σ ε α) (post : α → σ → Prop) : Prop :=
  ∀ s, pre s → post (m s).value (m s).state ∧ ∀ e ∈ (m s).log, allowed e

namespace Ensures

variable {allowed : ε → Prop} {pre : σ → Prop} {post mid : α → σ → Prop} {m : Logged σ ε α}

theorem pure {a : α} (holds : ∀ s, pre s → post a s) : Ensures allowed pre (pure a : Logged σ ε α) post := by
  intro s start
  exact ⟨holds s start, nofun⟩

/-- The rule for one program after another. -/
theorem bind {next : α → Logged σ ε γ} {last : γ → σ → Prop} (first : Ensures allowed pre m mid)
    (then_ : ∀ a, Ensures allowed (mid a) (next a) last) : Ensures allowed pre (m >>= next) last := by
  intro s start
  obtain ⟨reached, fine⟩ := first s start
  obtain ⟨ended, also⟩ := then_ _ _ reached
  refine ⟨ended, fun e member => ?_⟩
  obtain early | late := List.mem_append.mp member
  · exact fine e early
  · exact also e late

theorem weaken {weaker : α → σ → Prop} (run : Ensures allowed pre m post)
    (holds : ∀ a s, post a s → weaker a s) : Ensures allowed pre m weaker := by
  intro s start
  obtain ⟨ended, fine⟩ := run s start
  exact ⟨holds _ _ ended, fine⟩

theorem record {e : ε} (fine : allowed e) : Ensures allowed pre (record e : Logged σ ε Unit) fun _ s => pre s := by
  intro s start
  refine ⟨start, fun other member => ?_⟩
  rw [List.mem_singleton.mp member]
  exact fine

theorem change {f : σ → Outcome σ ε α}
    (holds : ∀ s, pre s → post (f s).value (f s).state ∧ ∀ e ∈ (f s).log, allowed e) :
    Ensures allowed pre (change f) post :=
  holds

/-- The loop rule. -/
theorem loop {invariant : Nat → α → σ → Prop} {n : Nat} {body : Nat → α → Logged σ ε α} {a : α}
    (start : ∀ s, pre s → invariant 0 a s)
    (round : ∀ i b, i < n → Ensures allowed (invariant i b) (body i b) (invariant (i + 1))) :
    Ensures allowed pre (loop n body a) (invariant n) := by
  induction n with
  | zero => exact pure start
  | succ n ih =>
    have before := ih fun i b below => round i b (Nat.lt_succ_of_lt below)
    exact before.bind fun b => round n b n.lt_succ_self

end Ensures

end Logged

end Basis

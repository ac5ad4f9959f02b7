import Mathlib.Logic.Basic

namespace Basis

universe u v w
variable {σ : Type u} {α : Type v}

/-- A machine is given by the states a run may begin in and by what one labelled
step does. Labels carry every choice of the environment, so a step is a partial
function and concrete runs can be computed. -/
structure Machine (σ : Type u) (α : Type v) where
  init : σ → Prop
  step : σ → α → Option σ

namespace Machine

/-- States reached by runs all of whose steps meet the condition `C`, which may
look at the state before the step and at the label. -/
inductive ReachableUnder (M : Machine σ α) (C : σ → α → Prop) : σ → Prop
  | start {s} : M.init s → ReachableUnder M C s
  | next {s a t} : ReachableUnder M C s → C s a → M.step s a = some t → ReachableUnder M C t

/-- States reached by arbitrary runs. -/
def Reachable (M : Machine σ α) : σ → Prop :=
  M.ReachableUnder fun _ _ => True

variable {M : Machine σ α} {C D : σ → α → Prop} {I J : σ → Prop} {s t : σ} {a : α}

theorem Reachable.start (initial : M.init s) : M.Reachable s :=
  ReachableUnder.start initial

theorem Reachable.next (reach : M.Reachable s) (run : M.step s a = some t) : M.Reachable t :=
  ReachableUnder.next reach trivial run

theorem ReachableUnder.mono (weaker : ∀ s a, C s a → D s a) (reach : M.ReachableUnder C s) :
    M.ReachableUnder D s := by
  induction reach with
  | start initial => exact .start initial
  | next _ cond run ih => exact .next ih (weaker _ _ cond) run

theorem ReachableUnder.reachable (reach : M.ReachableUnder C s) : M.Reachable s :=
  reach.mono fun _ _ _ => trivial

/-- The invariant rule: what holds at the start and is kept by every step that
meets the condition holds in every state reached under it. -/
theorem ReachableUnder.invariant (initial : ∀ s, M.init s → I s)
    (keeps : ∀ s a t, I s → C s a → M.step s a = some t → I t) (reach : M.ReachableUnder C s) :
    I s := by
  induction reach with
  | start begins => exact initial _ begins
  | next _ cond run ih => exact keeps _ _ _ ih cond run

theorem Reachable.invariant (initial : ∀ s, M.init s → I s)
    (keeps : ∀ s a t, I s → M.step s a = some t → I t) (reach : M.Reachable s) : I s :=
  ReachableUnder.invariant initial (fun s a t held _ run => keeps s a t held run) reach

/-- The relative form: a step may use an invariant proved before. -/
theorem ReachableUnder.invariant_of (known : ∀ s, M.ReachableUnder C s → J s)
    (initial : ∀ s, M.init s → I s)
    (keeps : ∀ s a t, J s → I s → C s a → M.step s a = some t → I t)
    (reach : M.ReachableUnder C s) : I s := by
  induction reach with
  | start begins => exact initial _ begins
  | next before cond run ih => exact keeps _ _ _ (known _ before) ih cond run

/-- Runs a list of labels, stopping with `none` at the first step that is not enabled. -/
def run (M : Machine σ α) : σ → List α → Option σ
  | s, [] => some s
  | s, a :: as => (M.step s a).bind fun t => M.run t as

@[simp] theorem run_nil : M.run s [] = some s := rfl

@[simp] theorem run_cons {as : List α} :
    M.run s (a :: as) = (M.step s a).bind fun t => M.run t as := rfl

theorem run_single (step : M.step s a = some t) : M.run s [a] = some t := by
  rw [run_cons, step, Option.bind_some, run_nil]

theorem run_append {as bs : List α} :
    M.run s (as ++ bs) = (M.run s as).bind fun t => M.run t bs := by
  induction as generalizing s with
  | nil => rfl
  | cons a as ih =>
    simp only [List.cons_append, run_cons, ih, Option.bind_assoc]

theorem Reachable.of_run (reach : M.Reachable s) (as : List α) (ran : M.run s as = some t) :
    M.Reachable t := by
  induction as generalizing s with
  | nil => cases Option.some.inj ran; exact reach
  | cons a as ih =>
    obtain ⟨middle, first, rest⟩ := Option.bind_eq_some_iff.mp ran
    exact ih (reach.next first) rest

/-- Every step of a run satisfies `R`, as far as the run goes. -/
def Along (M : Machine σ α) (R : σ → α → σ → Prop) : σ → List α → Prop
  | _, [] => True
  | s, a :: as => ∀ t, M.step s a = some t → R s a t ∧ M.Along R t as

/-- The last step of a run. -/
theorem Along.last {R : σ → α → σ → Prop} (as : List α) (along : M.Along R s (as ++ [a]))
    (ran : M.run s (as ++ [a]) = some t) : ∃ r, R r a t := by
  induction as generalizing s with
  | nil => exact ⟨s, (along t (by simpa using ran)).1⟩
  | cons b as ih =>
    obtain ⟨r, first, ran⟩ := Option.bind_eq_some_iff.mp ran
    exact ih (along r first).2 ran

/-- Properties of steps that agree where an invariant holds agree along every run, if the steps that
have them keep the invariant. -/
theorem along_iff {R S : σ → α → σ → Prop} (keeps : ∀ s a t, I s → R s a t → M.step s a = some t → I t)
    (agree : ∀ s a t, I s → M.step s a = some t → (R s a t ↔ S s a t)) (held : I s) (as : List α) :
    M.Along R s as ↔ M.Along S s as := by
  induction as generalizing s with
  | nil => exact Iff.rfl
  | cons a as ih =>
    refine forall₂_congr fun t run => ?_
    have same := agree s a t held run
    constructor
    · rintro ⟨here, later⟩
      exact ⟨same.mp here, (ih (keeps s a t held here run)).mp later⟩
    · rintro ⟨here, later⟩
      exact ⟨same.mpr here, (ih (keeps s a t held (same.mpr here) run)).mpr later⟩

/-- The potential rule: where each step marked `p` uses up one of a potential, to which only a step
marked `q` adds, and no more than `k`, a run has no more of the former than these allow. -/
theorem run_potential {potential : σ → Nat} {p q : α → Bool} {k : Nat} {P : α → Prop}
    (pays : ∀ s a t, I s → P a → M.step s a = some t →
      I t ∧ potential t + (p a).toNat ≤ potential s + k * (q a).toNat)
    (held : I s) (as : List α) (allowed : ∀ a ∈ as, P a) (ran : M.run s as = some t) :
    potential t + as.countP p ≤ potential s + k * as.countP q := by
  induction as generalizing s with
  | nil =>
    cases Option.some.inj ran
    exact Nat.le_refl _
  | cons a as ih =>
    obtain ⟨r, run, ran⟩ := Option.bind_eq_some_iff.mp ran
    obtain ⟨kept, here⟩ := pays s a r held (allowed a (List.mem_cons_self ..)) run
    have later := ih kept (fun b member => allowed b (List.mem_cons_of_mem a member)) ran
    have marked (f : α → Bool) : (a :: as).countP f = as.countP f + (f a).toNat := by
      rw [List.countP_cons]
      cases f a <;> rfl
    rw [marked p, marked q, Nat.mul_add]
    omega

/-- What the steps of a run record, in order. -/
def trace {β : Type w} (M : Machine σ α) (record : σ → α → List β) : σ → List α → List β
  | _, [] => []
  | s, a :: as =>
    match M.step s a with
    | none => []
    | some t => record s a ++ M.trace record t as

/-- The machine whose runs begin in the given state: its reachable states are those reached later. -/
def since (M : Machine σ α) (s : σ) : Machine σ α where
  init := fun x => x = s
  step := M.step

theorem Reachable.later (reach : M.Reachable s) (later : (M.since s).ReachableUnder C t) :
    M.Reachable t := by
  induction later with
  | start begins => exact begins ▸ reach
  | next _ _ run ih => exact ih.next run

/-- The machine whose steps have to meet a condition that can be computed. -/
def guard (M : Machine σ α) (C : σ → α → Prop) [∀ s a, Decidable (C s a)] : Machine σ α where
  init := M.init
  step := fun s a => if C s a then M.step s a else none

theorem ReachableUnder.of_guard [∀ s a, Decidable (C s a)] (reach : (M.guard C).Reachable s) :
    M.ReachableUnder C s := by
  induction reach with
  | start initial => exact .start initial
  | next _ _ run ih =>
    simp only [guard, Option.ite_none_right_eq_some] at run
    exact .next ih run.1 run.2

theorem along_of_guard [∀ s a, Decidable (C s a)] (as : List α) (ran : (M.guard C).run s as = some t) :
    M.run s as = some t ∧ M.Along (fun s a _ => C s a) s as := by
  induction as generalizing s with
  | nil => exact ⟨ran, trivial⟩
  | cons a as ih =>
    obtain ⟨r, run, ran⟩ := Option.bind_eq_some_iff.mp ran
    obtain ⟨here, run⟩ := Option.ite_none_right_eq_some.mp run
    obtain ⟨ran, along⟩ := ih ran
    refine ⟨by rw [run_cons, run, Option.bind_some, ran], ?_⟩
    intro r' run'
    cases run.symm.trans run'
    exact ⟨here, along⟩

/-- A computed run all of whose steps are found to meet the condition. -/
theorem ReachableUnder.of_run [∀ s a, Decidable (C s a)] (initial : M.init s) (as : List α)
    (ran : (M.guard C).run s as = some t) : M.ReachableUnder C t :=
  .of_guard (Reachable.of_run (.start initial) as ran)

/-- `M` refines `N` when an abstraction `R` relates the beginnings and every step of `M`
is matched by a run of `N` of any length. -/
structure Refines {τ : Type u} {β : Type v} (M : Machine σ α) (N : Machine τ β)
    (R : σ → τ → Prop) : Prop where
  start : ∀ s, M.init s → ∃ x, N.init x ∧ R s x
  step : ∀ s a t x, R s x → M.step s a = some t → ∃ bs y, N.run x bs = some y ∧ R t y

theorem Refines.reachable {τ : Type u} {β : Type v} {N : Machine τ β} {R : σ → τ → Prop}
    (refines : Refines M N R) (reach : M.Reachable s) : ∃ x, N.Reachable x ∧ R s x := by
  induction reach with
  | start initial =>
    obtain ⟨x, begins, related⟩ := refines.start _ initial
    exact ⟨x, .start begins, related⟩
  | next _ _ run ih =>
    obtain ⟨x, reachX, related⟩ := ih
    obtain ⟨bs, y, ran, relatedY⟩ := refines.step _ _ _ _ related run
    exact ⟨y, reachX.of_run bs ran, relatedY⟩

end Machine

end Basis

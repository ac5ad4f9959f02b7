import Mathlib.Data.Finset.Erase
import Mathlib.Data.Finset.Insert
import Mathlib.Data.Set.Insert
import Mathlib.Logic.Function.Basic

namespace Basis

universe u v
variable {ρ : Type u} {ν : Type v}

/-- The life of an object that readers find without a lock: none has found it yet, they find it, it
is taken from where they find it, its owner waits for the readers that were inside when the wait
began, of whom these are left, and its memory is given back. -/
inductive Custody (ρ : Type u)
  | hidden
  | published
  | withdrawn
  | waiting (readers : Finset ρ)
  | reclaimed

namespace Custody

/-- The object may be in the hands of the reader. -/
def Protects (r : ρ) : Custody ρ → Prop
  | .hidden => False
  | .published => True
  | .withdrawn => True
  | .waiting readers => r ∈ readers
  | .reclaimed => False

/-- The wait when a reader leaves. -/
def leave [DecidableEq ρ] (r : ρ) : Custody ρ → Custody ρ
  | .waiting readers => .waiting (readers.erase r)
  | custody => custody

@[simp] theorem leave_published [DecidableEq ρ] {r : ρ} {custody : Custody ρ} :
    custody.leave r = .published ↔ custody = .published := by
  cases custody <;> simp [leave]

theorem protects_leave [DecidableEq ρ] {r q : ρ} {custody : Custody ρ} (other : q ≠ r)
    (protects : custody.Protects q) : (custody.leave r).Protects q := by
  cases custody with
  | waiting readers => exact Finset.mem_erase.mpr ⟨other, protects⟩
  | hidden | published | withdrawn | reclaimed => exact protects

end Custody

/-- What the readers inside may have found: all that was published at some time since they came in,
and of this nothing is given back, for a wait that has begun is for them too. -/
structure Protects (inside : Finset ρ) (custody : ν → Custody ρ) (found : ρ → Set ν) : Prop where
  outside : ∀ r, r ∉ inside → found r = ∅
  published : ∀ r ∈ inside, ∀ n, custody n = .published → n ∈ found r
  held : ∀ r, ∀ n ∈ found r, (custody n).Protects r

namespace Protects

variable {inside : Finset ρ} {custody : ν → Custody ρ} {found : ρ → Set ν} {r : ρ} {n : ν}

theorem inside_of_found (protects : Protects inside custody found) (member : n ∈ found r) : r ∈ inside := by
  by_contra outside
  rw [protects.outside r outside] at member
  exact member

/-- Nothing that a reader has found is given back. -/
theorem not_reclaimed (protects : Protects inside custody found) (member : n ∈ found r) :
    custody n ≠ .reclaimed := by
  intro reclaimed
  have held := protects.held r n member
  rw [reclaimed] at held
  exact held

/-- A wait that began before the reader came in, or is over, is for an object that it has not found. -/
theorem not_found (protects : Protects inside custody found) {readers : Finset ρ}
    (waiting : custody n = .waiting readers) (absent : r ∉ readers) : n ∉ found r := by
  intro member
  have held := protects.held r n member
  rw [waiting] at held
  exact absent held

section Steps

variable [DecidableEq ρ]

/-- A reader comes in and may find what is published. -/
theorem enter (protects : Protects inside custody found) (r : ρ) :
    Protects (insert r inside) custody
      (Function.update found r (found r ∪ {n | custody n = .published})) where
  outside q out := by
    have other : q ≠ r := by
      rintro rfl
      exact out (Finset.mem_insert_self ..)
    rw [Function.update_of_ne other]
    exact protects.outside q fun member => out (Finset.mem_insert_of_mem member)
  published q member n published := by
    by_cases same : q = r
    · rw [same, Function.update_self]
      exact Or.inr published
    · rw [Function.update_of_ne same]
      exact protects.published q (Finset.mem_of_mem_insert_of_ne member same) n published
  held q n member := by
    by_cases same : q = r
    · rw [same, Function.update_self] at member
      obtain old | (published : custody n = .published) := member
      · exact same ▸ protects.held r n old
      · rw [published]
        trivial
    · rw [Function.update_of_ne same] at member
      exact protects.held q n member

/-- A reader goes and leaves behind what it has found. -/
theorem leave (protects : Protects inside custody found) (r : ρ) :
    Protects (inside.erase r) (fun n => (custody n).leave r) (Function.update found r ∅) where
  outside q out := by
    by_cases same : q = r
    · rw [same, Function.update_self]
    · rw [Function.update_of_ne same]
      exact protects.outside q fun member => out (Finset.mem_erase.mpr ⟨same, member⟩)
  published q member n published := by
    obtain ⟨other, member⟩ := Finset.mem_erase.mp member
    rw [Function.update_of_ne other]
    exact protects.published q member n (Custody.leave_published.mp published)
  held q n member := by
    have other : q ≠ r := by
      rintro rfl
      rw [Function.update_self] at member
      exact member
    rw [Function.update_of_ne other] at member
    exact Custody.protects_leave other (protects.held q n member)

end Steps

section Owner

variable [DecidableEq ν] {next : Custody ρ}

/-- The owner publishes the object; the readers inside may find it. -/
theorem publish (protects : Protects inside custody found) (n : ν) :
    Protects inside (Function.update custody n .published)
      fun r => {m | m ∈ found r ∨ r ∈ inside ∧ m = n} where
  outside r out := by
    ext m
    simp [protects.outside r out, out]
  published r member m published := by
    by_cases same : m = n
    · exact Or.inr ⟨member, same⟩
    · rw [Function.update_of_ne same] at published
      exact Or.inl (protects.published r member m published)
  held r m member := by
    by_cases same : m = n
    · rw [same, Function.update_self]
      trivial
    · rw [Function.update_of_ne same]
      exact protects.held r m (member.resolve_right fun new => same new.2)

/-- Other changes of the owner, for all readers that may have found the object. -/
theorem change (protects : Protects inside custody found)
    (published : next = .published → custody n = .published)
    (held : ∀ r, n ∈ found r → next.Protects r) :
    Protects inside (Function.update custody n next) found where
  outside := protects.outside
  published r member m shown := by
    by_cases same : m = n
    · rw [same, Function.update_self] at shown
      exact same ▸ protects.published r member n (published shown)
    · rw [Function.update_of_ne same] at shown
      exact protects.published r member m shown
  held r m member := by
    by_cases same : m = n
    · rw [same, Function.update_self]
      exact held r (same ▸ member)
    · rw [Function.update_of_ne same]
      exact protects.held r m member

/-- The owner takes the object from where it is found. -/
theorem withdraw (protects : Protects inside custody found) :
    Protects inside (Function.update custody n .withdrawn) found :=
  protects.change (by simp) fun _ _ => trivial

/-- The owner begins to wait for all readers that are inside. -/
theorem synchronize (protects : Protects inside custody found) :
    Protects inside (Function.update custody n (.waiting inside)) found :=
  protects.change (by simp) fun _ member => protects.inside_of_found member

/-- The owner gives the memory back when none of the readers it waited for is left. -/
theorem reclaim (protects : Protects inside custody found) (elapsed : custody n = .waiting ∅) :
    Protects inside (Function.update custody n .reclaimed) found :=
  protects.change (by simp) fun r member =>
    absurd member (protects.not_found elapsed (Finset.notMem_empty r))

/-- An object that was never published is in nobody's hands. -/
theorem discard (protects : Protects inside custody found) (hidden : custody n = .hidden)
    (unpublished : next ≠ .published) : Protects inside (Function.update custody n next) found := by
  refine protects.change (fun published => absurd published unpublished) ?_
  intro r member
  have held := protects.held r n member
  rw [hidden] at held
  exact held.elim

end Owner

end Protects

end Basis

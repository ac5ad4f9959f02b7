import Mathlib.Data.Finset.Insert
import Mathlib.Data.Finset.Erase
import Mathlib.Logic.Function.Basic

namespace Basis

variable {ι κ : Type}

/-- The list has each member once. -/
structure Enrols (list : List ι) (member : ι → Prop) : Prop where
  once : list.Nodup
  mem : ∀ i, i ∈ list ↔ member i

variable {list : List ι} {member : ι → Prop} {i : ι}

theorem Enrols.enter (enrols : Enrols list member) (absent : ¬ member i) :
    Enrols (list ++ [i]) fun j => j = i ∨ member j where
  once := by
    rw [List.nodup_append]
    refine ⟨enrols.once, List.nodup_singleton i, ?_⟩
    rintro j listed _ last rfl
    rw [List.mem_singleton] at last
    exact absent (last ▸ (enrols.mem j).mp listed)
  mem := by
    intro j
    rw [List.mem_append, List.mem_singleton, enrols.mem]
    exact or_comm

theorem Enrols.remove [DecidableEq ι] (enrols : Enrols list member) (i : ι) :
    Enrols (list.erase i) fun j => j ≠ i ∧ member j where
  once := enrols.once.erase i
  mem := by
    intro j
    rw [enrols.once.mem_erase_iff, enrols.mem]

theorem Enrols.congr {other : ι → Prop} (enrols : Enrols list member)
    (same : ∀ i, member i ↔ other i) : Enrols list other where
  once := enrols.once
  mem i := (enrols.mem i).trans (same i)

variable [DecidableEq ι] [DecidableEq κ] {used : Finset κ} {key : ι → Option κ} {k : κ}

/-- The keys in use are those the owners have, and each has one owner. -/
structure Allotted (used : Finset κ) (key : ι → Option κ) : Prop where
  used : ∀ k, k ∈ used ↔ ∃ i, key i = some k
  unique : ∀ {i j k}, key i = some k → key j = some k → i = j

/-- An owner without a key takes one that is not in use. -/
theorem Allotted.take (allotted : Allotted used key) (fresh : k ∉ used) (free : key i = none) :
    Allotted (insert k used) (Function.update key i (some k)) := by
  have others : ∀ j, key j ≠ some k := fun j owned => fresh ((allotted.used k).mpr ⟨j, owned⟩)
  constructor
  · intro l
    rw [Finset.mem_insert, allotted.used]
    constructor
    · rintro (rfl | ⟨j, owned⟩)
      · exact ⟨i, Function.update_self ..⟩
      · have apart : j ≠ i := by
          rintro rfl
          rw [free] at owned
          cases owned
        exact ⟨j, by rw [Function.update_of_ne apart, owned]⟩
    · rintro ⟨j, owned⟩
      by_cases same : j = i
      · subst same
        rw [Function.update_self, Option.some_inj] at owned
        exact Or.inl owned.symm
      · rw [Function.update_of_ne same] at owned
        exact Or.inr ⟨j, owned⟩
  · intro j l m first second
    by_cases same : j = i <;> by_cases also : l = i
    · rw [same, also]
    · subst same
      rw [Function.update_self, Option.some_inj] at first
      rw [Function.update_of_ne also, ← first] at second
      exact absurd second (others l)
    · subst also
      rw [Function.update_self, Option.some_inj] at second
      rw [Function.update_of_ne same, ← second] at first
      exact absurd first (others j)
    · rw [Function.update_of_ne same] at first
      rw [Function.update_of_ne also] at second
      exact allotted.unique first second

/-- An owner gives its key back. -/
theorem Allotted.release (allotted : Allotted used key) (owned : key i = some k) :
    Allotted (used.erase k) (Function.update key i none) := by
  constructor
  · intro l
    rw [Finset.mem_erase, allotted.used]
    constructor
    · rintro ⟨differs, j, other⟩
      have apart : j ≠ i := by
        rintro rfl
        exact differs (Option.some.inj (other.symm.trans owned))
      exact ⟨j, by rw [Function.update_of_ne apart, other]⟩
    · rintro ⟨j, other⟩
      have apart : j ≠ i := by
        rintro rfl
        rw [Function.update_self] at other
        cases other
      rw [Function.update_of_ne apart] at other
      refine ⟨?_, j, other⟩
      rintro rfl
      exact apart (allotted.unique other owned)
  · intro j l m first second
    have apart : ∀ {j}, Function.update key i none j = some m → j ≠ i := by
      rintro j owned rfl
      rw [Function.update_self] at owned
      cases owned
    have firstApart := apart first
    have secondApart := apart second
    rw [Function.update_of_ne firstApart] at first
    rw [Function.update_of_ne secondApart] at second
    exact allotted.unique first second

/-- The table has at each key the owner that shows this key. -/
def Indexes (table : κ → Option ι) (key : ι → Option κ) : Prop :=
  ∀ k i, table k = some i ↔ key i = some k

variable {table : κ → Option ι}

theorem Indexes.enter (indexes : Indexes table key) (empty : table k = none) (hidden : key i = none) :
    Indexes (Function.update table k (some i)) (Function.update key i (some k)) := by
  intro l j
  by_cases atKey : l = k <;> by_cases same : j = i
  · rw [atKey, same, Function.update_self, Function.update_self]
    exact ⟨fun _ => rfl, fun _ => rfl⟩
  · rw [atKey, Function.update_self, Function.update_of_ne same, ← indexes, empty, Option.some_inj]
    exact ⟨fun also => absurd also.symm same, nofun⟩
  · rw [same, Function.update_self, Function.update_of_ne atKey, indexes, hidden, Option.some_inj]
    exact ⟨nofun, fun also => absurd also.symm atKey⟩
  · rw [Function.update_of_ne atKey, Function.update_of_ne same, indexes]

theorem Indexes.remove (indexes : Indexes table key) (shown : key i = some k) :
    Indexes (Function.update table k none) (Function.update key i none) := by
  have entry := (indexes k i).mpr shown
  intro l j
  by_cases atKey : l = k <;> by_cases same : j = i
  · rw [atKey, same, Function.update_self, Function.update_self]
    exact ⟨nofun, nofun⟩
  · rw [atKey, Function.update_self, Function.update_of_ne same, ← indexes, entry, Option.some_inj]
    exact ⟨nofun, fun also => absurd also.symm same⟩
  · rw [same, Function.update_self, Function.update_of_ne atKey, indexes, shown, Option.some_inj]
    exact ⟨fun also => absurd also.symm atKey, nofun⟩
  · rw [Function.update_of_ne atKey, Function.update_of_ne same, indexes]

end Basis

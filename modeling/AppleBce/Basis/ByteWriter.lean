import Mathlib.Tactic.Common

namespace Basis

section Store

variable {β : Type} (data : Nat → β) (start : Nat) (bytes : List β)

/-- The memory after a copy of the bytes to the given place. -/
def store : Nat → β := fun i =>
  if start ≤ i then (bytes[i - start]?).getD (data i) else data i

/-- The bytes are in the memory from `start` on. -/
def Holds : Prop :=
  ∀ i (inside : i < bytes.length), data (start + i) = bytes[i]

variable {data start bytes}

theorem store_before {i : Nat} (before : i < start) : store data start bytes i = data i := by
  rw [store, if_neg (by omega)]

theorem store_behind {i : Nat} (behind : start + bytes.length ≤ i) :
    store data start bytes i = data i := by
  have none : bytes[i - start]? = none := List.getElem?_eq_none (by omega)
  rw [store, if_pos (by omega), none]
  rfl

theorem holds_store : Holds (store data start bytes) start bytes := by
  intro i inside
  have place : start + i - start = i := by omega
  rw [store, if_pos (by omega), place, List.getElem?_eq_getElem inside]
  rfl

theorem holds_append {other : List β} :
    Holds data start (bytes ++ other) ↔
      Holds data start bytes ∧ Holds data (start + bytes.length) other := by
  constructor
  · intro both
    constructor
    · intro i inside
      rw [both i (by rw [List.length_append]; omega), List.getElem_append_left inside]
    · intro i inside
      have later := both (bytes.length + i) (by rw [List.length_append]; omega)
      rw [Nat.add_assoc, later, List.getElem_append_right (by omega)]
      congr 1
      omega
  · rintro ⟨first, second⟩ i inside
    rw [List.length_append] at inside
    by_cases early : i < bytes.length
    · rw [first i early, List.getElem_append_left early]
    · have later := second (i - bytes.length) (by omega)
      have place : start + bytes.length + (i - bytes.length) = start + i := by omega
      rw [← place, later, List.getElem_append_right (by omega)]

/-- A copy to another place leaves what the memory holds. -/
theorem Holds.store_elsewhere {place : Nat} {other : List β} (held : Holds data start bytes)
    (apart : start + bytes.length ≤ place ∨ place + other.length ≤ start) :
    Holds (store data place other) start bytes := by
  intro i inside
  rw [← held i inside]
  rcases apart with before | behind
  · exact store_before (by omega)
  · exact store_behind (by omega)

end Store

/-- A memory under construction, with the offset up to which it is written. -/
structure ByteWriter (β : Type) where
  data : Nat → β
  offset : Nat

namespace ByteWriter

variable {β : Type}

/-- Copies the bytes to the offset and moves it by the given step. -/
def put (w : ByteWriter β) (bytes : List β) (step : Nat) : ByteWriter β where
  data := store w.data w.offset bytes
  offset := w.offset + step

/-- From `start` on the writer has written exactly the given bytes, into a memory that was `before`. -/
structure Wrote (w : ByteWriter β) (before : Nat → β) (start : Nat) (bytes : List β) : Prop where
  holds : Holds w.data start bytes
  fin : w.offset = start + bytes.length
  rest : ∀ i, w.offset ≤ i → w.data i = before i

variable {w : ByteWriter β} {before : Nat → β} {start : Nat} {bytes more : List β} {step : Nat}

/-- A copy that moves the offset by its length appends to what is written. -/
theorem Wrote.put (wrote : w.Wrote before start bytes) (exact : step = more.length) :
    (w.put more step).Wrote before start (bytes ++ more) := by
  subst exact
  have place := wrote.fin
  refine ⟨holds_append.mpr ⟨?_, ?_⟩, ?_, ?_⟩
  · exact wrote.holds.store_elsewhere (Or.inl (by omega))
  · rw [← place]
    exact holds_store
  · rw [List.length_append, ByteWriter.put, place, Nat.add_assoc]
  · intro i behind
    have kept : (w.put more more.length).data i = w.data i := store_behind behind
    have earlier : w.offset ≤ i := Nat.le_trans (Nat.le_add_right ..) behind
    rw [kept, wrote.rest i earlier]

end ByteWriter

end Basis

import Mathlib.Logic.Function.Basic
import Mathlib.Data.List.Nodup
import Mathlib.Data.Set.Insert

namespace Basis

universe u
variable {ν : Type u}

/-- The links of a circular list with a head, where `none` is the head. Readers follow `next` while
writers change the links. -/
structure Links (ν : Type u) where
  next : Option ν → Option ν
  prev : Option ν → Option ν

namespace Links

def empty : Links ν where
  next := fun _ => none
  prev := fun _ => none

/-- The nodes from `a`, up to `b` and without it, in the order of the links in both directions. -/
def Segment (l : Links ν) (a : Option ν) : List ν → Option ν → Prop
  | [], b => l.next a = b ∧ l.prev b = a
  | x :: xs, b => l.next a = some x ∧ l.prev (some x) = a ∧ l.Segment (some x) xs b

/-- The links form the list. -/
structure Forms (l : Links ν) (list : List ν) : Prop where
  once : list.Nodup
  ring : l.Segment none list none

variable {l m : Links ν} {a b c : Option ν} {xs ys list : List ν} {n x : ν}

@[simp] theorem segment_nil : l.Segment a [] b ↔ l.next a = b ∧ l.prev b = a := Iff.rfl

@[simp] theorem segment_cons :
    l.Segment a (x :: xs) b ↔ l.next a = some x ∧ l.prev (some x) = a ∧ l.Segment (some x) xs b := Iff.rfl

theorem segment_append : l.Segment a (xs ++ n :: ys) b ↔ l.Segment a xs (some n) ∧ l.Segment (some n) ys b := by
  induction xs generalizing a with
  | nil => rw [List.nil_append, segment_cons, segment_nil, and_assoc]
  | cons x xs ih => simp only [List.cons_append, segment_cons, ih, and_assoc]

/-- A segment needs the forward links of its nodes and of the node before them, and the backward
links of its nodes and of the node behind them. -/
theorem Segment.congr (segment : l.Segment a xs b)
    (next : ∀ y, y = a ∨ (∃ x ∈ xs, y = some x) → m.next y = l.next y)
    (prev : ∀ y, y = b ∨ (∃ x ∈ xs, y = some x) → m.prev y = l.prev y) : m.Segment a xs b := by
  induction xs generalizing a with
  | nil => exact ⟨(next a (Or.inl rfl)).trans segment.1, (prev b (Or.inl rfl)).trans segment.2⟩
  | cons x xs ih =>
    obtain ⟨forward, backward, rest⟩ := segment
    refine ⟨(next a (Or.inl rfl)).trans forward, ?_, ih rest ?_ ?_⟩
    · exact (prev (some x) (Or.inr ⟨x, List.mem_cons_self .., rfl⟩)).trans backward
    · rintro y (rfl | ⟨z, member, rfl⟩)
      · exact next (some x) (Or.inr ⟨x, List.mem_cons_self .., rfl⟩)
      · exact next (some z) (Or.inr ⟨z, List.mem_cons_of_mem x member, rfl⟩)
    · rintro y (rfl | ⟨z, member, rfl⟩)
      · exact prev y (Or.inl rfl)
      · exact prev (some z) (Or.inr ⟨z, List.mem_cons_of_mem x member, rfl⟩)

/-- The node before the end of a segment. -/
theorem Segment.prev_mem (segment : l.Segment a xs b) : l.prev b = a ∨ ∃ x ∈ xs, l.prev b = some x := by
  induction xs generalizing a with
  | nil => exact Or.inl segment.2
  | cons x xs ih =>
    obtain ⟨-, -, rest⟩ := segment
    obtain first | ⟨y, member, last⟩ := ih rest
    · exact Or.inr ⟨x, List.mem_cons_self .., first⟩
    · exact Or.inr ⟨y, List.mem_cons_of_mem x member, last⟩

theorem Segment.next_prev (segment : l.Segment a xs b) : l.next (l.prev b) = b := by
  induction xs generalizing a with
  | nil =>
    obtain ⟨next, prev⟩ := segment
    rw [prev, next]
  | cons x xs ih => exact ih segment.2.2

theorem Segment.next_mem (segment : l.Segment a xs b) : l.next a = b ∨ ∃ x ∈ xs, l.next a = some x := by
  cases xs with
  | nil => exact Or.inl segment.1
  | cons x xs => exact Or.inr ⟨x, List.mem_cons_self .., segment.1⟩

/-- A segment is led to another node behind it: its last forward link changes, and with it the
backward link of that node. -/
theorem Segment.redirect (segment : l.Segment a xs b) (once : xs.Nodup) (first : ∀ x ∈ xs, a ≠ some x)
    (next : m.next (l.prev b) = c) (prev : m.prev c = l.prev b)
    (forward : ∀ y, y ≠ l.prev b → y = a ∨ (∃ x ∈ xs, y = some x) → m.next y = l.next y)
    (backward : ∀ x ∈ xs, m.prev (some x) = l.prev (some x)) : m.Segment a xs c := by
  induction xs generalizing a with
  | nil =>
    rw [segment.2] at next prev
    exact ⟨next, prev⟩
  | cons x xs ih =>
    obtain ⟨toX, fromX, rest⟩ := segment
    have apart : a ≠ l.prev b := by
      obtain last | ⟨y, member, last⟩ := rest.prev_mem
      · rw [last]
        exact first x (List.mem_cons_self ..)
      · rw [last]
        exact first y (List.mem_cons_of_mem x member)
    refine ⟨(forward a apart (Or.inl rfl)).trans toX, ?_, ?_⟩
    · exact (backward x (List.mem_cons_self ..)).trans fromX
    · refine ih rest (List.nodup_cons.mp once).2 ?_ ?_ ?_
      · rintro y member same
        cases same
        exact (List.nodup_cons.mp once).1 member
      · rintro y differ (rfl | ⟨z, member, rfl⟩)
        · exact forward (some x) differ (Or.inr ⟨x, List.mem_cons_self .., rfl⟩)
        · exact forward (some z) differ (Or.inr ⟨z, List.mem_cons_of_mem x member, rfl⟩)
      · exact fun y member => backward y (List.mem_cons_of_mem x member)

theorem empty_forms : (empty : Links ν).Forms [] where
  once := List.nodup_nil
  ring := ⟨rfl, rfl⟩

/-- What is reached from a node of a segment is in it, or its end. -/
theorem Segment.next_of_mem (segment : l.Segment a xs b) (member : x ∈ xs) :
    l.next (some x) = b ∨ ∃ y ∈ xs, l.next (some x) = some y := by
  obtain ⟨before, after, rfl⟩ := List.append_of_mem member
  obtain last | ⟨y, inside, next⟩ := (segment_append.mp segment).2.next_mem
  · exact Or.inl last
  · exact Or.inr ⟨y, by simp [inside], next⟩

theorem Forms.next_mem (forms : l.Forms list) (from' : a = none ∨ ∃ x ∈ list, a = some x)
    (next : l.next a = some n) : n ∈ list := by
  have reached : l.next a = none ∨ ∃ y ∈ list, l.next a = some y := by
    obtain rfl | ⟨x, member, rfl⟩ := from'
    · exact forms.ring.next_mem
    · exact forms.ring.next_of_mem member
  obtain last | ⟨y, member, inside⟩ := reached
  · rw [last] at next
    cases next
  · rw [inside] at next
    cases next
    exact member

variable [DecidableEq ν]

/-- `list_add_tail_rcu`: the new node is linked on both sides before the last node leads to it. -/
def addTail (l : Links ν) (n : ν) : Links ν where
  next := Function.update (Function.update l.next (some n) none) (l.prev none) (some n)
  prev := Function.update (Function.update l.prev (some n) (l.prev none)) none (some n)

/-- `list_del_rcu`: the node is led past, and keeps its forward link. -/
def remove (l : Links ν) (n : ν) : Links ν where
  next := Function.update l.next (l.prev (some n)) (l.next (some n))
  prev := Function.update l.prev (l.next (some n)) (l.prev (some n))

omit [DecidableEq ν] in
/-- The last node, or the head. -/
theorem Forms.last (forms : l.Forms list) : l.prev none = none ∨ ∃ x ∈ list, l.prev none = some x :=
  forms.ring.prev_mem

theorem Forms.addTail (forms : l.Forms list) (fresh : n ∉ list) : (l.addTail n).Forms (list ++ [n]) where
  once := by
    rw [List.nodup_append]
    refine ⟨forms.once, List.nodup_singleton n, ?_⟩
    rintro x member _ last rfl
    exact fresh (List.mem_singleton.mp last ▸ member)
  ring := by
    have other : ∀ x ∈ list, x ≠ n := fun x member same => fresh (same ▸ member)
    have apart : l.prev none ≠ some n := by
      obtain head | ⟨x, member, last⟩ := forms.last
      · simp [head]
      · simpa [last] using other x member
    rw [segment_append]
    constructor
    · refine forms.ring.redirect forms.once (by simp) ?_ ?_ ?_ ?_
      · simp [Links.addTail]
      · simp [Links.addTail]
      · rintro y differ (rfl | ⟨x, member, rfl⟩)
        · simp [Links.addTail, differ]
        · simp [Links.addTail, differ, other x member]
      · intro x member
        simp [Links.addTail, other x member]
    · rw [segment_nil]
      constructor
      · simp [Links.addTail, apart.symm]
      · simp [Links.addTail]

theorem Forms.remove (forms : l.Forms list) (member : n ∈ list) : (l.remove n).Forms (list.erase n) := by
  obtain ⟨xs, ys, rfl⟩ := List.append_of_mem member
  obtain ⟨once, ring⟩ := forms
  obtain ⟨before, after⟩ := segment_append.mp ring
  rw [List.nodup_append, List.nodup_cons] at once
  obtain ⟨onceXs, ⟨notYs, onceYs⟩, disjoint⟩ := once
  have notXs : n ∉ xs := fun inside => disjoint n inside n (List.mem_cons_self ..) rfl
  have apart : ∀ x ∈ xs, ∀ y ∈ ys, x ≠ y := fun x left y right =>
    disjoint x left y (List.mem_cons_of_mem n right)
  have erased : (xs ++ n :: ys).erase n = xs ++ ys := by
    rw [List.erase_append_right _ notXs, List.erase_cons_head]
  -- the node before the removed one is not among those behind it
  have leads : ∀ y ∈ ys, l.prev (some n) ≠ some y := by
    intro y right same
    obtain head | ⟨x, left, last⟩ := before.prev_mem
    · rw [head] at same
      cases same
    · rw [last] at same
      exact apart x left y right (Option.some.inj same)
  rw [erased]
  refine ⟨?_, ?_⟩
  · rw [List.nodup_append]
    exact ⟨onceXs, onceYs, apart⟩
  · cases ys with
    | nil =>
      obtain ⟨next, prev⟩ := after
      rw [List.append_nil]
      refine before.redirect onceXs (by simp) ?_ ?_ ?_ ?_
      · simp [Links.remove, next]
      · simp [Links.remove, next]
      · intro y differ _
        simp [Links.remove, differ]
      · intro x left
        simp [Links.remove, next]
    | cons y ys =>
      obtain ⟨next, prev, rest⟩ := after
      rw [List.nodup_cons] at onceYs
      rw [segment_append]
      constructor
      · refine before.redirect onceXs (by simp) ?_ ?_ ?_ ?_
        · simp [Links.remove, next]
        · simp [Links.remove, next]
        · intro z differ _
          simp [Links.remove, differ]
        · intro x left
          have differ : x ≠ y := apart x left y (List.mem_cons_self ..)
          simp [Links.remove, next, differ]
      · refine rest.congr ?_ ?_
        · rintro z (rfl | ⟨x, right, rfl⟩)
          · simp [Links.remove, (leads y (List.mem_cons_self ..)).symm]
          · simp [Links.remove, (leads x (List.mem_cons_of_mem y right)).symm]
        · rintro z (rfl | ⟨x, right, rfl⟩)
          · simp [Links.remove, next]
          · have differ : x ≠ y := fun same => onceYs.1 (same ▸ right)
            simp [Links.remove, next, differ]

/-- The nodes that a reader has found so far lead to none beside them. -/
def Closed (l : Links ν) (found : Set ν) : Prop :=
  ∀ x ∈ found, ∀ y, l.next (some x) = some y → y ∈ found

variable {found : Set ν}

omit [DecidableEq ν] in
theorem Forms.closed (forms : l.Forms list) : l.Closed {x | x ∈ list} :=
  fun x member _ next => forms.next_mem (Or.inr ⟨x, member, rfl⟩) next

theorem Closed.addTail (closed : l.Closed found) :
    (l.addTail n).Closed (insert n found) := by
  intro x member y next
  by_cases last : some x = l.prev none
  · simp only [Links.addTail, last, Function.update_self] at next
    cases next
    exact Set.mem_insert ..
  · by_cases new : x = n
    · simp [Links.addTail, new] at next
      subst new
      simp [last] at next
    · rw [Links.addTail] at next
      simp only [Function.update_of_ne last,
        Function.update_of_ne (show some x ≠ some n by simpa using new)] at next
      exact Set.mem_insert_of_mem n (closed x ((Set.mem_insert_iff.mp member).resolve_left new) y next)

/-- Removing a node that is still found makes a node lead to what it led to. -/
theorem Closed.remove (closed : l.Closed found) (kept : n ∈ found) : (l.remove n).Closed found := by
  intro x member y next
  by_cases before : some x = l.prev (some n)
  · simp only [Links.remove, before, Function.update_self] at next
    exact closed n kept y next
  · simp only [Links.remove, Function.update_of_ne before] at next
    exact closed x member y next

/-- Following the links from `a`, a reader comes to `v`. -/
inductive Leads (l : Links ν) : Option ν → ν → Prop
  | next {a : Option ν} {v : ν} (link : l.next a = some v) : Leads l a v
  | step {a : Option ν} {b v : ν} (link : l.next a = some b) (rest : Leads l (some b) v) : Leads l a v

/-- The node leads to no other, and none leads to it. -/
structure Untouched (l : Links ν) (n : ν) : Prop where
  last : l.next (some n) = none
  unled : ∀ a, l.next a ≠ some n

variable {v : ν}

omit [DecidableEq ν] in
theorem Leads.first (leads : l.Leads a v) : ∃ b, l.next a = some b := by
  cases leads with
  | next link => exact ⟨v, link⟩
  | step link _ => exact ⟨_, link⟩

omit [DecidableEq ν] in
theorem Untouched.leads_not (untouched : l.Untouched n) : ¬l.Leads (some n) v := by
  intro leads
  obtain ⟨b, link⟩ := leads.first
  rw [untouched.last] at link
  cases link

omit [DecidableEq ν] in
/-- From the node before a segment a reader comes to all nodes of the segment. -/
theorem Segment.leads (segment : l.Segment a xs b) (member : n ∈ xs) : l.Leads a n := by
  induction xs generalizing a with
  | nil => cases member
  | cons x xs ih =>
    obtain ⟨link, -, rest⟩ := segment
    obtain rfl | later := List.mem_cons.mp member
    · exact .next link
    · exact .step link (ih rest later)

omit [DecidableEq ν] in
theorem Forms.leads (forms : l.Forms list) (member : n ∈ list) : l.Leads none n :=
  forms.ring.leads member

omit [DecidableEq ν] in
/-- From a node of the list, or the head, a reader comes to nodes of the list. -/
theorem Forms.mem_of_leads (forms : l.Forms list) (leads : l.Leads a v)
    (from' : a = none ∨ ∃ x ∈ list, a = some x) : v ∈ list := by
  induction leads with
  | next link => exact forms.next_mem from' link
  | step link _ ih => exact ih (Or.inr ⟨_, forms.next_mem from' link, rfl⟩)

omit [DecidableEq ν] in
/-- The node before a node of the list leads to it, and is another. -/
theorem Forms.before (forms : l.Forms list) (member : n ∈ list) :
    l.next (l.prev (some n)) = some n ∧ l.prev (some n) ≠ some n := by
  obtain ⟨xs, ys, rfl⟩ := List.append_of_mem member
  obtain ⟨before, -⟩ := segment_append.mp forms.ring
  refine ⟨before.next_prev, ?_⟩
  obtain head | ⟨x, inside, last⟩ := before.prev_mem
  · simp [head]
  · intro same
    rw [last] at same
    cases same
    have once := forms.once
    rw [List.nodup_append] at once
    exact once.2.2 n inside n (List.mem_cons_self ..) rfl

omit [DecidableEq ν] in
/-- The last node of the list leads back to the head, and is none that is not in the list. -/
theorem Forms.behind (forms : l.Forms list) (fresh : n ∉ list) :
    l.next (l.prev none) = none ∧ l.prev none ≠ some n := by
  refine ⟨forms.ring.next_prev, ?_⟩
  obtain head | ⟨x, inside, last⟩ := forms.last
  · simp [head]
  · intro same
    rw [last] at same
    cases same
    exact fresh inside

theorem remove_next (l : Links ν) (n : ν) : (l.remove n).next (l.prev (some n)) = l.next (some n) :=
  Function.update_self ..

theorem remove_next_of_ne (other : a ≠ l.prev (some n)) : (l.remove n).next a = l.next a :=
  Function.update_of_ne other ..

theorem addTail_next (l : Links ν) (n : ν) : (l.addTail n).next (l.prev none) = some n :=
  Function.update_self ..

theorem addTail_next_new (apart : l.prev none ≠ some n) : (l.addTail n).next (some n) = none := by
  simp [Links.addTail, Function.update_of_ne apart.symm]

theorem addTail_next_of_ne (last : a ≠ l.prev none) (new : a ≠ some n) : (l.addTail n).next a = l.next a := by
  simp [Links.addTail, Function.update_of_ne last, Function.update_of_ne new]

/-- A way to another node is led past the removed one. -/
theorem Leads.remove (leads : l.Leads a v) (forms : l.Forms list) (member : n ∈ list) (other : v ≠ n) :
    (l.remove n).Leads a v := by
  obtain ⟨toN, apart⟩ := forms.before member
  induction leads with
  | @next a v link =>
    have notBefore : a ≠ l.prev (some n) := by
      rintro rfl
      exact other (Option.some.inj (link.symm.trans toN))
    exact .next ((remove_next_of_ne notBefore).trans link)
  | @step a b v link _ ih =>
    have rest := ih other
    by_cases before : a = l.prev (some n)
    · subst before
      cases Option.some.inj (link.symm.trans toN)
      -- the way goes on from the removed node, whose own link stays
      have same : (l.remove n).next (l.prev (some n)) = (l.remove n).next (some n) := by
        rw [remove_next, remove_next_of_ne apart.symm]
      cases rest with
      | next last => exact .next (same.trans last)
      | step link rest => exact .step (same.trans link) rest
    · exact .step ((remove_next_of_ne before).trans link) rest

/-- A removal leads nowhere new. -/
theorem Leads.of_remove (leads : (l.remove n).Leads a v) (toN : l.next (l.prev (some n)) = some n) :
    l.Leads a v := by
  induction leads with
  | @next a v link =>
    by_cases before : a = l.prev (some n)
    · subst before
      exact .step toN (.next ((l.remove_next n).symm.trans link))
    · exact .next ((remove_next_of_ne before).symm.trans link)
  | @step a b v link _ ih =>
    by_cases before : a = l.prev (some n)
    · subst before
      exact .step toN (.step ((l.remove_next n).symm.trans link) ih)
    · exact .step ((remove_next_of_ne before).symm.trans link) ih

theorem Leads.addTail (leads : l.Leads a v) (ends : l.next (l.prev none) = none)
    (untouched : l.Untouched n) : (l.addTail n).Leads a v := by
  have stays : ∀ a b, l.next a = some b → (l.addTail n).next a = some b := by
    intro a b link
    have notLast : a ≠ l.prev none := by
      rintro rfl
      cases ends.symm.trans link
    have notNew : a ≠ some n := by
      rintro rfl
      cases untouched.last.symm.trans link
    exact (addTail_next_of_ne notLast notNew).trans link
  induction leads with
  | next link => exact .next (stays _ _ link)
  | step link _ ih => exact .step (stays _ _ link) ih

/-- A new last node leads to itself only. -/
theorem Leads.of_addTail (leads : (l.addTail n).Leads a v) (apart : l.prev none ≠ some n)
    (untouched : l.Untouched n) : v = n ∨ l.Leads a v := by
  have links : ∀ a b, (l.addTail n).next a = some b → b = n ∨ l.next a = some b := by
    intro a b link
    by_cases last : a = l.prev none
    · subst last
      exact Or.inl (Option.some.inj ((l.addTail_next n).symm.trans link)).symm
    · by_cases new : a = some n
      · subst new
        cases (addTail_next_new apart).symm.trans link
      · exact Or.inr ((addTail_next_of_ne last new).symm.trans link)
  induction leads with
  | next link => exact (links _ _ link).imp_right .next
  | @step a b v link rest ih =>
    obtain new | later := ih
    · exact Or.inl new
    · obtain rfl | old := links _ _ link
      · exact absurd later untouched.leads_not
      · exact Or.inr (.step old later)

theorem Untouched.addTail (untouched : l.Untouched x) (other : x ≠ n) (apart : l.prev none ≠ some x) :
    (l.addTail n).Untouched x where
  last := by
    have differ : some x ≠ some n := by simpa using other
    exact (addTail_next_of_ne apart.symm differ).trans untouched.last
  unled a := by
    simp only [Links.addTail, Function.update_apply]
    split
    · simpa using other.symm
    · split
      · simp
      · exact untouched.unled a

theorem Untouched.remove (untouched : l.Untouched x) (toN : l.next (l.prev (some n)) = some n) :
    (l.remove n).Untouched x where
  last := by
    have differ : some x ≠ l.prev (some n) := by
      intro same
      rw [← same, untouched.last] at toN
      cases toN
    exact (remove_next_of_ne differ).trans untouched.last
  unled a := by
    simp only [Links.remove, Function.update_apply]
    split
    · exact untouched.unled (some n)
    · exact untouched.unled a

/-- No way leads back to where it began. -/
def Acyclic (l : Links ν) : Prop :=
  ∀ x, ¬l.Leads (some x) x

theorem Acyclic.addTail (acyclic : l.Acyclic) (apart : l.prev none ≠ some n) (untouched : l.Untouched n) :
    (l.addTail n).Acyclic := by
  intro x leads
  obtain rfl | old := leads.of_addTail apart untouched
  · obtain ⟨b, link⟩ := leads.first
    cases (addTail_next_new apart).symm.trans link
  · exact acyclic x old

theorem Acyclic.remove (acyclic : l.Acyclic) (toN : l.next (l.prev (some n)) = some n) :
    (l.remove n).Acyclic :=
  fun x leads => acyclic x (leads.of_remove toN)

end Links

end Basis

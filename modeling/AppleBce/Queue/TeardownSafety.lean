import AppleBce.Queue.TeardownEffects

namespace AppleBce

open Basis

namespace TeardownRun

variable {s t : TeardownRun} {p : BceQueuePtr}

/-- Between `found`, which has all that the interrupt thread may have come across, and `walk`, the
nodes that were in the list at some time since it came in. -/
structure Guarded (s : TeardownRun) (found : QueuesReader → Set BceQueuePtr) (walk : Set BceQueuePtr) :
    Prop where
  protects : Protects s.inside s.custody found
  listed : ∃ list, s.links.Forms list ∧ ∀ p, p ∈ list ↔ s.InList p
  closed : s.links.Closed walk
  walked : ∀ p ∈ walk, p ∈ found .dmaIrq
  reached : s.irq.isSome → ∀ p, s.InList p → p ∈ walk
  held : ∀ pass, s.irq = some pass → ∀ p, pass.Holds p → p ∈ found .dmaIrq
  cursor : ∀ pass, s.irq = some pass → ∀ p, pass.stage.cursor = some p → p ∈ walk

theorem inside_of_irq (irq : s.irq.isSome) : .dmaIrq ∈ s.inside := by
  simp [inside, irq]

theorem inside_congr (irq : t.irq.isSome = s.irq.isSome) : t.inside = s.inside := by
  rw [inside, inside, irq]

variable {found : QueuesReader → Set BceQueuePtr} {walk : Set BceQueuePtr}

/-- Outside the thread has come across nothing. -/
theorem Guarded.outside (guarded : s.Guarded found walk) (irq : ¬s.irq.isSome) : walk = ∅ := by
  have none : found .dmaIrq = ∅ := guarded.protects.outside .dmaIrq (by simp [inside, irq])
  ext p
  constructor
  · intro member
    have member := guarded.walked p member
    rwa [none] at member
  · exact fun absurd => absurd.elim

/-- What is published may be come across. -/
theorem Guarded.found_of_published (guarded : s.Guarded found walk) (irq : s.irq.isSome)
    (published : s.custody p = .published) : p ∈ found .dmaIrq :=
  guarded.protects.published .dmaIrq (inside_of_irq irq) p published

theorem Guarded.effect (guarded : s.Guarded found walk) (effect : Effect s t) (irq : t.irq = s.irq) :
    ∃ found walk, t.Guarded found walk := by
  have same : t.inside = s.inside := inside_congr (by rw [irq])
  obtain ⟨list, forms, mem⟩ := guarded.listed
  cases effect with
  | keeps links inList protects =>
    refine ⟨found, walk, ?_, ⟨list, ?_, ?_⟩, ?_, guarded.walked, ?_, ?_, ?_⟩
    · rw [same]
      exact protects found guarded.protects
    · rwa [links]
    · exact fun p => (mem p).trans (inList p).symm
    · rw [links]
      exact guarded.closed
    · exact fun inside p member => guarded.reached (irq ▸ inside) p ((inList p).mp member)
    · exact fun pass now => guarded.held pass (irq ▸ now)
    · exact fun pass now => guarded.cursor pass (irq ▸ now)
  | publishes p links inList custody =>
    refine ⟨fun r => {m | m ∈ found r ∨ r ∈ s.inside ∧ m = p}, walk, ?_, ⟨list, ?_, ?_⟩, ?_, ?_, ?_, ?_, ?_⟩
    · rw [same, custody]
      exact guarded.protects.publish p
    · rwa [links]
    · exact fun p => (mem p).trans (inList p).symm
    · rw [links]
      exact guarded.closed
    · exact fun x member => Or.inl (guarded.walked x member)
    · exact fun inside p member => guarded.reached (irq ▸ inside) p ((inList p).mp member)
    · exact fun pass now x holds => Or.inl (guarded.held pass (irq ▸ now) x holds)
    · exact fun pass now => guarded.cursor pass (irq ▸ now)
  | adds q _ links inList fresh published custody =>
    have forms' := forms.addTail fun member => fresh ((mem (.user q)).mp member)
    have mem' : ∀ x, x ∈ list ++ [.user q] ↔ t.InList x := by
      intro x
      rw [List.mem_append, List.mem_singleton, mem, inList, or_comm]
    by_cases inside : s.irq.isSome
    · refine ⟨found, insert (.user q) walk, ?_, ⟨list ++ [.user q], ?_, mem'⟩, ?_, ?_, ?_, ?_, ?_⟩
      · rw [same, custody]
        exact guarded.protects
      · rwa [links]
      · rw [links]
        exact guarded.closed.addTail
      · rintro x (rfl | member)
        · exact guarded.found_of_published inside published
        · exact guarded.walked x member
      · intro _ x member
        obtain rfl | old := (inList x).mp member
        · exact Set.mem_insert ..
        · exact Set.mem_insert_of_mem _ (guarded.reached inside x old)
      · exact fun pass now => guarded.held pass (irq ▸ now)
      · exact fun pass now x cursor => Set.mem_insert_of_mem _ (guarded.cursor pass (irq ▸ now) x cursor)
    · have empty := guarded.outside inside
      have out : t.irq = none := by rw [irq]; simpa using inside
      refine ⟨found, walk, ?_, ⟨list ++ [.user q], ?_, mem'⟩, ?_, guarded.walked, ?_, ?_, ?_⟩
      · rw [same, custody]
        exact guarded.protects
      · rwa [links]
      · rw [empty]
        exact fun x member => member.elim
      · simp [out]
      · simp [out]
      · simp [out]
  | removes p links inList member protects =>
    have forms' := forms.remove ((mem p).mpr member)
    have mem' : ∀ x, x ∈ list.erase p ↔ t.InList x := by
      intro x
      rw [forms.once.mem_erase_iff, mem, inList]
    have closed : t.links.Closed walk := by
      rw [links]
      by_cases inside : s.irq.isSome
      · exact guarded.closed.remove (guarded.reached inside p member)
      · rw [guarded.outside inside]
        exact fun x member => member.elim
    refine ⟨found, walk, ?_, ⟨list.erase p, ?_, mem'⟩, closed, guarded.walked, ?_, ?_, ?_⟩
    · rw [same]
      exact protects found guarded.protects
    · rwa [links]
    · exact fun inside x member => guarded.reached (irq ▸ inside) x ((inList x).mp member).2
    · exact fun pass now => guarded.held pass (irq ▸ now)
    · exact fun pass now => guarded.cursor pass (irq ▸ now)

/-- The pass goes on with other pointers, that it may have come across. -/
theorem Guarded.onPass {pass next : DmaIrqPass} {cqs : BceQueuePtr → BceQueueCq}
    {sqs : BceQueuePtr → BceQueueSq} (guarded : s.Guarded found walk) (now : s.irq = some pass)
    (held : ∀ p, next.Holds p → pass.Holds p ∨ p ∈ found .dmaIrq)
    (cursor : ∀ p, next.stage.cursor = some p → pass.stage.cursor = some p ∨ p ∈ walk) :
    Guarded { s with cqs, sqs, irq := some next } found walk where
  protects := by
    have same : inside { s with cqs, sqs, irq := some next } = s.inside := inside_congr (by simp [now])
    rw [same]
    exact guarded.protects
  listed := guarded.listed
  closed := guarded.closed
  walked := guarded.walked
  reached _ := guarded.reached (by simp [now])
  held after at' p holds := by
    cases Option.some.inj at'
    exact (held p holds).elim (guarded.held pass now p) id
  cursor after at' p here := by
    cases Option.some.inj at'
    exact (cursor p here).elim (guarded.cursor pass now p) id

/-- `int_sq_list` is given the target queue at most. -/
theorem accept_mem {e : BceQeCompletion} {target : Option BceQueuePtr} {ce : List BceQueuePtr}
    (member : p ∈ (s.accept e target ce).2) : p ∈ ce ∨ target = some p := by
  unfold accept at member
  split at member
  next => exact Or.inl member
  next x =>
    split at member
    · exact Or.inl member
    · split at member
      · exact Or.inl member
      · dsimp only at member
        split at member
        · exact Or.inl member
        · obtain old | last := List.mem_append.mp member
          · exact Or.inl old
          · rw [List.mem_singleton.mp last]
            exact Or.inr rfl

theorem Guarded.enter (guarded : s.Guarded found walk) (ordered : s.Ordered) (out : s.irq = none) :
    ∃ found walk, Guarded { s with irq := some ⟨.walking none, [], []⟩ } found walk := by
  obtain ⟨list, forms, mem⟩ := guarded.listed
  have inside : inside { s with irq := some ⟨.walking none, [], []⟩ } = insert .dmaIrq s.inside := by
    simp [inside, out]
  refine ⟨Function.update found .dmaIrq (found .dmaIrq ∪ {p | s.custody p = .published}), {p | p ∈ list},
    ?_, ⟨list, forms, mem⟩, forms.closed, ?_, fun _ p => (mem p).mpr, ?_, ?_⟩
  · rw [inside]
    exact guarded.protects.enter .dmaIrq
  · intro p member
    rw [Function.update_self]
    exact Or.inr (ordered.published ((mem p).mp member))
  · rintro pass now p (inCe | cursor | target)
    · cases Option.some.inj now
      cases inCe
    · cases Option.some.inj now
      cases cursor
    · cases Option.some.inj now
      cases target
  · intro pass now p cursor
    cases Option.some.inj now
    cases cursor

theorem Guarded.leave (guarded : s.Guarded found walk) : ∃ found walk, s.leave.Guarded found walk := by
  have custody : s.leave.custody = fun p => (s.custody p).leave .dmaIrq := by
    funext p
    cases memory : s.memory p with
    | kept =>
      have after : s.leave.memory p = .kept := by simp [TeardownRun.leave, memory, QueueMemory.leave]
      have place : s.leave.place p = s.place p := by cases p <;> rfl
      rw [custody_kept memory, custody_kept after, place]
      cases p with
      | command type =>
        rw [TeardownRun.place]
        split <;> rfl
      | user q =>
        rw [TeardownRun.place]
        split
        · rfl
        · cases s.calls.life q with
          | holding qid stage => cases stage <;> rfl
          | unborn | starting | failed | destroyed => rfl
    | synchronizing readers =>
      have after : s.leave.memory p = .synchronizing (readers.erase .dmaIrq) := by
        simp [TeardownRun.leave, memory, QueueMemory.leave]
      rw [custody_synchronizing memory, custody_synchronizing after]
      rfl
    | freed =>
      have after : s.leave.memory p = .freed := by simp [TeardownRun.leave, memory, QueueMemory.leave]
      rw [custody_freed memory, custody_freed after]
      rfl
  have inside : s.leave.inside = s.inside.erase .dmaIrq := by
    by_cases irq : s.irq.isSome <;> simp [TeardownRun.leave, TeardownRun.inside, irq]
  refine ⟨Function.update found .dmaIrq ∅, ∅, ?_, guarded.listed, fun p member => member.elim,
    fun p member => member.elim, ?_, ?_, ?_⟩
  · rw [custody, inside]
    exact guarded.protects.leave .dmaIrq
  · exact fun irq => absurd irq (by simp [TeardownRun.leave])
  · exact fun pass now => absurd now (by simp [TeardownRun.leave])
  · exact fun pass now => absurd now (by simp [TeardownRun.leave])

theorem Guarded.irqStep (guarded : s.Guarded found walk) (ordered : s.Ordered) (run : s.irqStep = some t) :
    ∃ found walk, t.Guarded found walk := by
  obtain ⟨list, forms, mem⟩ := guarded.listed
  unfold TeardownRun.irqStep at run
  split at run
  next out =>
    cases Option.some.inj run
    exact guarded.enter ordered out
  next pass now =>
    have inside : s.irq.isSome := by simp [now]
    obtain ⟨stage, ce, polled⟩ := pass
    dsimp only at run
    split at run
    next pos =>
      split at run
      next =>
        cases Option.some.inj run
        refine ⟨found, walk, guarded.onPass now ?_ ?_⟩
        · rintro p (inCe | cursor | target)
          · exact Or.inl (Or.inl inCe)
          · cases cursor
          · cases target
        · exact fun p cursor => absurd cursor (by simp [DmaIrqStage.cursor])
      next cq next =>
        cases Option.some.inj run
        -- the next node is in the list, or the one that the walk is at led to it when it was removed
        have onWalk : cq ∈ walk := by
          cases pos with
          | none => exact guarded.reached inside cq ((mem cq).mp (forms.next_mem (Or.inl rfl) next))
          | some c => exact guarded.closed c (guarded.cursor _ now c rfl) cq next
        refine ⟨found, walk, guarded.onPass now ?_ ?_⟩
        · rintro p (inCe | cursor | target)
          · exact Or.inl (Or.inl inCe)
          · cases Option.some.inj cursor
            exact Or.inr (guarded.walked cq onWalk)
          · cases target
        · intro p cursor
          cases Option.some.inj cursor
          exact Or.inr onWalk
    next cq =>
      split at run
      next =>
        cases Option.some.inj run
        refine ⟨found, walk, guarded.onPass now ?_ fun p cursor => Or.inl cursor⟩
        rintro p (inCe | cursor | target)
        · exact Or.inl (Or.inl inCe)
        · exact Or.inl (Or.inr (Or.inl cursor))
        · obtain ⟨-, entry⟩ := Option.ite_none_left_eq_some.mp target
          exact Or.inr (guarded.found_of_published inside (ordered.entered entry))
      next =>
        cases Option.some.inj run
        refine ⟨found, walk, guarded.onPass now ?_ fun p cursor => Or.inl cursor⟩
        rintro p (inCe | cursor | target)
        · exact Or.inl (Or.inl inCe)
        · exact Or.inl (Or.inr (Or.inl cursor))
        · cases target
    next cq e target =>
      cases Option.some.inj run
      refine ⟨found, walk, guarded.onPass now ?_ fun p cursor => Or.inl cursor⟩
      rintro p (inCe | cursor | none)
      · obtain old | new := accept_mem inCe
        · exact Or.inl (Or.inl old)
        · exact Or.inl (Or.inr (Or.inr new))
      · exact Or.inl (Or.inr (Or.inl cursor))
      · cases none
    next =>
      obtain ⟨-, run⟩ := Option.ite_none_right_eq_some.mp run
      cases Option.some.inj run
      exact guarded.leave

theorem Guarded.completionStep {after : BceQueueSq} (guarded : s.Guarded found walk)
    (run : s.completionStep after = some t) : t.Guarded found walk := by
  unfold TeardownRun.completionStep at run
  split at run
  next q ce polled now =>
    cases Option.some.inj run
    refine guarded.onPass now ?_ fun p cursor => Or.inl cursor
    rintro p (inCe | cursor | target)
    · exact Or.inl (Or.inl (List.mem_cons_of_mem q inCe))
    · cases cursor
    · cases target
  next => cases run

theorem start_guarded (cqs : BceQueuePtr → BceQueueCq) (sqs : BceQueuePtr → BceQueueSq) :
    (start cqs sqs).Guarded (fun _ => ∅) ∅ where
  protects := by
    refine ⟨fun _ _ => rfl, ?_, fun r p member => member.elim⟩
    intro r member
    simp [inside, start] at member
  listed := by
    refine ⟨[commandCq], Links.empty_forms.addTail (by simp), ?_⟩
    intro p
    cases p with
    | command type => cases type <;> simp [InList, start, commandCq]
    | user q => simp [InList, start, commandCq, RegistryRun.start, QueueLife.custody]
  closed _ member := member.elim
  walked _ member := member.elim
  reached := by simp [start]
  held := by simp [start]
  cursor := by simp [start]

theorem Guarded.step {label : TeardownStep} (guarded : s.Guarded found walk) (ordered : s.Ordered)
    (run : s.step label = some t) : ∃ found walk, t.Guarded found walk := by
  by_cases irq : label = .irq
  · subst irq
    exact guarded.irqStep ordered run
  · by_cases completion : ∃ after, label = .completion after
    · obtain ⟨after, rfl⟩ := completion
      exact ⟨found, walk, guarded.completionStep run⟩
    · obtain ⟨effect, same⟩ := effect_step ordered run irq (not_exists.mp completion)
      exact guarded.effect effect same

/-- In every run the calls are in order, and the interrupt thread is guarded. -/
theorem guarded_reachable (reach : machine.Reachable s) :
    s.Ordered ∧ ∃ found walk, s.Guarded found walk := by
  refine reach.invariant (I := fun s => s.Ordered ∧ ∃ found walk, s.Guarded found walk) ?_ ?_
  · rintro _ ⟨cqs, sqs, rfl⟩
    exact ⟨start_ordered cqs sqs, _, _, start_guarded cqs sqs⟩
  · rintro s label t ⟨ordered, found, walk, guarded⟩ run
    exact ⟨ordered.step run, guarded.step ordered run⟩

/-- Over every order of the loads and stores of creates, destroys, the removal of the command queues
and the passes of the interrupt thread, with any contents of the rings. A queue that a pass has a
pointer to, as its position in `cq_list`, as the target it looked up in `queues` or in `int_sq_list`,
is not freed; and if `synchronize_srcu` runs for it, it waits for that pass. -/
theorem queues_outlive_passes {pass : DmaIrqPass} (reach : machine.Reachable s) (now : s.irq = some pass)
    (holds : pass.Holds p) :
    s.memory p ≠ .freed ∧ ∀ readers, s.memory p = .synchronizing readers → .dmaIrq ∈ readers := by
  obtain ⟨-, found, walk, guarded⟩ := guarded_reachable reach
  have member := guarded.held pass now p holds
  constructor
  · intro freed
    exact guarded.protects.not_reclaimed member (custody_freed freed)
  · intro readers memory
    by_contra left
    exact guarded.protects.not_found (custody_synchronizing memory) left member

/-- A destroy call waits for the pass that polls the CQ after its removal from `cq_list`. -/
theorem queues_outlive_passes_user : ∃ s pass, machine.Reachable s ∧ s.irq = some pass ∧
    pass.stage = .polling (.user ⟨.cq, 0⟩) ∧ s.links.next (some commandCq) = none ∧
    s.memory (.user ⟨.cq, 0⟩) = .synchronizing {.dmaIrq} ∧ s.memory (.user ⟨.cq, 0⟩) ≠ .freed := by
  obtain ⟨s, ran, now, last, memory⟩ : ∃ s, machine.run
      (start (fun _ => ⟨0, 1, fun _ => ⟨0, 0, 0, 0, 0, 0⟩, 0⟩) fun _ => bceAllocSq 0 1)
      [.call (.createCq 0 0x100), .call (.qidAlloc ⟨.cq, 0⟩ (some 2)), .call (.allocated ⟨.cq, 0⟩ (some 0x8000)),
        .call (.registered ⟨.cq, 0⟩ 0), .call (.publish ⟨.cq, 0⟩), .store, .irq, .irq, .irq, .irq,
        .call (.destroy ⟨.cq, 0⟩), .call (.unregistered ⟨.cq, 0⟩ 0), .call (.unpublish ⟨.cq, 0⟩), .store,
        .synchronize ⟨.cq, 0⟩] = some s ∧
      s.irq = some ⟨.polling (.user ⟨.cq, 0⟩), [], [commandCq, .user ⟨.cq, 0⟩]⟩ ∧
      s.links.next (some commandCq) = none ∧ s.memory (.user ⟨.cq, 0⟩) = .synchronizing {.dmaIrq} :=
    ⟨_, rfl, rfl, rfl, rfl⟩
  have reach : machine.Reachable s := Machine.Reachable.of_run (.start ⟨_, _, rfl⟩) _ ran
  exact ⟨s, _, reach, now, rfl, last, memory, (queues_outlive_passes reach now (Or.inr (Or.inl rfl))).1⟩

end TeardownRun

end AppleBce

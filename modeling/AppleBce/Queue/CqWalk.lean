import AppleBce.Queue.TeardownSafety

namespace AppleBce

open Basis

/-- The list position of a pass, the head included, as long as the walk goes on. -/
def DmaIrqStage.position : DmaIrqStage → Option (Option BceQueuePtr)
  | .walking pos => some pos
  | .polling cq | .handling cq .. => some (some cq)
  | .dispatching => none

namespace TeardownRun

variable {s t : TeardownRun} {p n : BceQueuePtr} {q : BceQueueRef} {list : List BceQueuePtr}

/-- The queue may have been a node of the list. Its life goes on from there, so it never becomes one
again. -/
def Linked (s : TeardownRun) : BceQueuePtr → Prop
  | .command _ => True
  | .user q => (s.calls.life q).custody ≠ .hidden ∧ s.lock ≠ some (.adding q)

theorem Ordered.linked (ordered : s.Ordered) (member : s.InList p) : s.Linked p := by
  cases p with
  | command type => trivial
  | user q =>
    obtain lock | ⟨-, published, unlocked⟩ := member
    · obtain ⟨-, ⟨qid, life⟩, -⟩ := ordered.deleting q lock
      exact ⟨by simp [life, QueueLife.custody], by simp [lock]⟩
    · exact ⟨by simp [published], unlocked⟩

theorem Linked.congr (linked : s.Linked p) (lock : ∀ q, t.lock = some (.adding q) → s.lock = some (.adding q))
    (life : ∀ q, (t.calls.life q).custody = (s.calls.life q).custody) : t.Linked p := by
  cases p with
  | command type => trivial
  | user q => exact ⟨by rw [life]; exact linked.1, fun locked => linked.2 (lock q locked)⟩

theorem linked_call {a : RegistryStep} {calls : RegistryRun} (allowed : s.allows a)
    (run : s.calls.step a = some calls) (linked : s.Linked p) : (s.called calls a).Linked p := by
  cases a with
  | publish x =>
    cases p with
    | command type => trivial
    | user q =>
      have other : q ≠ x := by
        rintro rfl
        exact linked.1 (life_publish run).1
      refine ⟨?_, ?_⟩
      · simp only [called, RegistryRun.life_others rfl run other]
        exact linked.1
      · intro lock
        obtain ⟨-, same⟩ := Option.ite_none_right_eq_some.mp lock
        cases same
        exact other rfl
  | unpublish x =>
    cases p with
    | command type => trivial
    | user q =>
      refine ⟨?_, ?_⟩
      · by_cases same : q = x
        · subst same
          simp [called, (life_unpublish run).2]
        · simp only [called, RegistryRun.life_others rfl run same]
          exact linked.1
      · intro lock
        cases (Option.ite_none_right_eq_some.mp lock).2
  | remove =>
    cases Option.some.inj run
    exact linked.congr (fun _ lock => lock) fun _ => rfl
  | createCq | createSq | createSqWithFlags | qidAlloc x | allocated x | registered x | destroy x | abandon x
  | unregistered x | synchronized x | release x =>
    have same := life_custody rfl run (by simp) (by simp)
    exact linked.congr (fun _ lock => lock) same

theorem linked_step {label : TeardownStep} (run : s.step label = some t) (linked : s.Linked p) : t.Linked p := by
  cases label with
  | call a =>
    obtain ⟨allowed, ran⟩ := Option.ite_none_right_eq_some.mp run
    obtain ⟨calls, called, rfl⟩ := Option.map_eq_some_iff.mp ran
    exact linked_call allowed called linked
  | store =>
    simp only [step, storeStep] at run
    split at run
    case h_1 => cases run
    case h_2 | h_3 =>
      cases Option.some.inj run
      exact linked.congr (by simp) fun _ => rfl
    case h_4 lock =>
      split at run
      case h_1 | h_2 =>
        cases Option.some.inj run
        exact linked.congr (by simp [lock]) fun _ => rfl
      case h_3 => cases run
  | synchronize q =>
    simp only [step] at run
    split at run
    next =>
      cases Option.some.inj (Option.ite_none_left_eq_some.mp run).2
      exact linked.congr (fun _ lock => lock) fun _ => rfl
    next => cases run
  | free q =>
    cases Option.some.inj (Option.ite_none_right_eq_some.mp run).2
    exact linked.congr (fun _ lock => lock) fun _ => rfl
  | freeCommandQueues =>
    cases Option.some.inj (Option.ite_none_right_eq_some.mp run).2
    exact linked.congr (by simp) fun _ => rfl
  | synchronizeCommands =>
    simp only [step] at run
    split at run
    next =>
      cases Option.some.inj run
      exact linked.congr (fun _ lock => lock) fun _ => rfl
    next => cases run
  | freeCommands =>
    cases Option.some.inj (Option.ite_none_right_eq_some.mp run).2
    exact linked.congr (fun _ lock => lock) fun _ => rfl
  | irq =>
    obtain ⟨-, rfl⟩ | ⟨cqs, sqs, pass, rfl⟩ := irqStep_cases run
    · exact linked.congr (fun _ lock => lock) fun _ => rfl
    · exact linked.congr (fun _ lock => lock) fun _ => rfl
  | completion after =>
    simp only [step, completionStep] at run
    split at run
    next =>
      cases Option.some.inj run
      exact linked.congr (fun _ lock => lock) fun _ => rfl
    next => cases run
  | rings cqs sqs =>
    cases Option.some.inj run
    exact linked.congr (fun _ lock => lock) fun _ => rfl

/-- No link leads to a queue that has not been linked, and from its position a pass comes to no CQ
that it has polled. -/
structure Walks (s : TeardownRun) : Prop where
  untouched : ∀ p, ¬s.Linked p → s.links.Untouched p
  acyclic : s.links.Acyclic
  once : ∀ pass, s.irq = some pass → pass.polled.Nodup
  linked : ∀ pass, s.irq = some pass → ∀ p ∈ pass.polled, s.Linked p
  ahead : ∀ pass, s.irq = some pass → ∀ pos, pass.stage.position = some pos →
    ∀ p ∈ pass.polled, ¬s.links.Leads pos p

/-- The links change, and the pass does not. -/
theorem Walks.relinked (walks : s.Walks) (irq : t.irq = s.irq) (linked : ∀ p, s.Linked p → t.Linked p)
    (untouched : ∀ p, ¬t.Linked p → s.links.Untouched p → t.links.Untouched p) (acyclic : t.links.Acyclic)
    (leads : ∀ pos p, s.Linked p → t.links.Leads pos p → s.links.Leads pos p) : t.Walks where
  untouched p new := untouched p new (walks.untouched p fun old => new (linked p old))
  acyclic := acyclic
  once pass now := walks.once pass (irq ▸ now)
  linked pass now p member := linked p (walks.linked pass (irq ▸ now) p member)
  ahead pass now pos position p member comes :=
    walks.ahead pass (irq ▸ now) pos position p member
      (leads pos p (walks.linked pass (irq ▸ now) p member) comes)

theorem Walks.effect (walks : s.Walks) (effect : Effect s t) (ordered : t.Ordered)
    (listed : ∃ list, s.links.Forms list ∧ ∀ p, p ∈ list ↔ s.InList p) (irq : t.irq = s.irq)
    (linked : ∀ p, s.Linked p → t.Linked p) : t.Walks := by
  obtain ⟨list, forms, mem⟩ := listed
  cases effect with
  | keeps links | publishes p links =>
    refine walks.relinked irq linked ?_ ?_ ?_
    · exact fun p _ untouched => links ▸ untouched
    · exact links ▸ walks.acyclic
    · exact fun pos p _ leads => links ▸ leads
  | adds q lock links inList fresh =>
    have new : ¬s.Linked (.user q) := fun old => old.2 lock
    have untouched := walks.untouched _ new
    obtain ⟨-, apart⟩ := forms.behind fun member => fresh ((mem (.user q)).mp member)
    refine walks.relinked irq linked ?_ ?_ ?_
    · intro p unlinked old
      have differ : p ≠ .user q := by
        rintro rfl
        exact unlinked (ordered.linked ((inList (.user q)).mpr (Or.inl rfl)))
      have notLast : s.links.prev none ≠ some p := by
        refine (forms.behind fun member => ?_).2
        exact unlinked (ordered.linked ((inList p).mpr (Or.inr ((mem p).mp member))))
      rw [links]
      exact old.addTail differ notLast
    · rw [links]
      exact walks.acyclic.addTail apart untouched
    · intro pos p old leads
      rw [links] at leads
      obtain rfl | before := leads.of_addTail apart untouched
      · exact absurd old new
      · exact before
  | removes p links inList member =>
    obtain ⟨toP, -⟩ := forms.before ((mem p).mpr member)
    refine walks.relinked irq linked ?_ ?_ ?_
    · intro x _ untouched
      rw [links]
      exact untouched.remove toP
    · rw [links]
      exact walks.acyclic.remove toP
    · intro pos x _ leads
      rw [links] at leads
      exact leads.of_remove toP

/-- The pass goes on at its position, or ends its walk. -/
theorem Walks.onPass {pass next : DmaIrqPass} {cqs : BceQueuePtr → BceQueueCq}
    {sqs : BceQueuePtr → BceQueueSq} (walks : s.Walks) (now : s.irq = some pass)
    (polled : next.polled = pass.polled)
    (position : ∀ pos, next.stage.position = some pos → pass.stage.position = some pos) :
    Walks { s with cqs, sqs, irq := some next } where
  untouched p unlinked := walks.untouched p fun linked =>
    unlinked (linked.congr (fun _ lock => lock) fun _ => rfl)
  acyclic := walks.acyclic
  once after at' := by
    cases Option.some.inj at'
    rw [polled]
    exact walks.once pass now
  linked after at' p member := by
    cases Option.some.inj at'
    rw [polled] at member
    exact (walks.linked pass now p member).congr (fun _ lock => lock) fun _ => rfl
  ahead after at' pos here p member := by
    cases Option.some.inj at'
    rw [polled] at member
    exact walks.ahead pass now pos (position pos here) p member

theorem Walks.irqStep (walks : s.Walks) (run : s.irqStep = some t) : t.Walks := by
  unfold TeardownRun.irqStep at run
  split at run
  next out =>
    cases Option.some.inj run
    refine ⟨walks.untouched, walks.acyclic, ?_, ?_, ?_⟩
    · intro after at'
      cases Option.some.inj at'
      exact List.nodup_nil
    · intro after at' p member
      cases Option.some.inj at'
      cases member
    · intro after at' pos _ p member
      cases Option.some.inj at'
      cases member
  next pass now =>
    obtain ⟨stage, ce, polled⟩ := pass
    dsimp only at run
    split at run
    next pos =>
      split at run
      next =>
        cases Option.some.inj run
        exact walks.onPass now rfl fun pos here => absurd here (by simp [DmaIrqStage.position])
      next cq link =>
        cases Option.some.inj run
        have fresh : cq ∉ polled := fun member => walks.ahead _ now pos rfl cq member (.next link)
        refine ⟨walks.untouched, walks.acyclic, ?_, ?_, ?_⟩
        · intro after at'
          cases Option.some.inj at'
          rw [List.nodup_append]
          refine ⟨walks.once _ now, List.nodup_singleton cq, ?_⟩
          rintro x member _ last rfl
          exact fresh (List.mem_singleton.mp last ▸ member)
        · intro after at' p member
          cases Option.some.inj at'
          obtain old | new := List.mem_append.mp member
          · exact walks.linked _ now p old
          · cases List.mem_singleton.mp new
            by_contra unlinked
            exact (walks.untouched cq unlinked).unled pos link
        · intro after at' pos here p member leads
          cases Option.some.inj at'
          cases Option.some.inj here
          obtain old | new := List.mem_append.mp member
          · exact walks.ahead _ now _ rfl p old (.step link leads)
          · cases List.mem_singleton.mp new
            exact walks.acyclic cq leads
    next cq =>
      split at run
      · cases Option.some.inj run
        exact walks.onPass now rfl fun pos here => here
      · cases Option.some.inj run
        exact walks.onPass now rfl fun pos here => here
    next cq e target =>
      cases Option.some.inj run
      exact walks.onPass now rfl fun pos here => here
    next =>
      cases Option.some.inj (Option.ite_none_right_eq_some.mp run).2
      refine ⟨fun p unlinked => walks.untouched p fun linked => unlinked ?_, walks.acyclic, by simp [leave],
        by simp [leave], by simp [leave]⟩
      exact linked.congr (fun _ lock => lock) fun _ => rfl

theorem Walks.completionStep {after : BceQueueSq} (walks : s.Walks) (run : s.completionStep after = some t) :
    t.Walks := by
  unfold TeardownRun.completionStep at run
  split at run
  next q ce polled now =>
    cases Option.some.inj run
    exact walks.onPass now rfl fun pos here => here
  next => cases run

theorem start_walks (cqs : BceQueuePtr → BceQueueCq) (sqs : BceQueuePtr → BceQueueSq) :
    (start cqs sqs).Walks where
  untouched p unlinked := by
    have empty : (Links.empty : Links BceQueuePtr).Untouched p := ⟨rfl, by simp [Links.empty]⟩
    have differ : p ≠ commandCq := by
      rintro rfl
      exact unlinked trivial
    exact empty.addTail differ (by simp [Links.empty])
  acyclic := by
    have empty : (Links.empty : Links BceQueuePtr).Untouched commandCq := ⟨rfl, by simp [Links.empty]⟩
    refine Links.Acyclic.addTail ?_ (by simp [Links.empty]) empty
    intro x leads
    obtain ⟨b, link⟩ := leads.first
    cases link
  once := by simp [start]
  linked := by simp [start]
  ahead := by simp [start]

theorem Walks.step {label : TeardownStep} (walks : s.Walks) (ordered : s.Ordered)
    (listed : ∃ list, s.links.Forms list ∧ ∀ p, p ∈ list ↔ s.InList p) (run : s.step label = some t) :
    t.Walks := by
  by_cases irq : label = .irq
  · subst irq
    exact walks.irqStep run
  · by_cases completion : ∃ after, label = .completion after
    · obtain ⟨after, rfl⟩ := completion
      exact walks.completionStep run
    · obtain ⟨effect, same⟩ := effect_step ordered run irq (not_exists.mp completion)
      exact walks.effect effect (ordered.step run) listed same fun p => linked_step run

theorem listed_reachable (reach : machine.Reachable s) :
    ∃ list, s.links.Forms list ∧ ∀ p, p ∈ list ↔ s.InList p := by
  obtain ⟨-, found, walk, guarded⟩ := guarded_reachable reach
  exact guarded.listed

theorem walks_reachable (reach : machine.Reachable s) : s.Walks := by
  refine Machine.ReachableUnder.invariant_of (fun _ reach => ?_) ?_ ?_ reach
    (J := fun s => s.Ordered ∧ ∃ list, s.links.Forms list ∧ ∀ p, p ∈ list ↔ s.InList p)
  · exact ⟨(guarded_reachable reach).1, listed_reachable reach⟩
  · rintro _ ⟨cqs, sqs, rfl⟩
    exact start_walks cqs sqs
  · rintro s label t ⟨ordered, listed⟩ walks - run
    exact walks.step ordered listed run

/-- The pass has polled the CQ, or comes to it as long as it is in the list. -/
def Awaits (s : TeardownRun) (n : BceQueuePtr) : Prop :=
  ∀ pass, s.irq = some pass →
    (s.links.Leads none n → n ∈ pass.polled ∨ ∃ pos, pass.stage.position = some pos ∧ s.links.Leads pos n) ∧
      (pass.stage.position = none → n ∈ pass.polled)

/-- The links change, and the way to the CQ that is left in the list does not. -/
theorem Awaits.relinked (awaits : s.Awaits n) (has : s.links.Leads none n) (irq : t.irq = s.irq)
    (leads : t.links.Leads none n → ∀ pos, s.links.Leads pos n → t.links.Leads pos n) : t.Awaits n := by
  intro pass now
  obtain ⟨comes, polled⟩ := awaits pass (irq ▸ now)
  refine ⟨fun still => ?_, polled⟩
  obtain member | ⟨pos, position, way⟩ := comes has
  · exact Or.inl member
  · exact Or.inr ⟨pos, position, leads still pos way⟩

theorem Awaits.effect (awaits : s.Awaits n) (has : s.links.Leads none n) (effect : Effect s t) (walks : s.Walks)
    (listed : ∃ list, s.links.Forms list ∧ ∀ p, p ∈ list ↔ s.InList p) (irq : t.irq = s.irq) : t.Awaits n := by
  obtain ⟨list, forms, mem⟩ := listed
  cases effect with
  | keeps links | publishes p links => exact awaits.relinked has irq fun _ pos way => links ▸ way
  | adds q lock links inList fresh =>
    have untouched := walks.untouched (.user q) fun old => old.2 lock
    obtain ⟨ends, -⟩ := forms.behind fun member => fresh ((mem (.user q)).mp member)
    refine awaits.relinked has irq fun _ pos way => ?_
    rw [links]
    exact way.addTail ends untouched
  | removes p links inList member =>
    have member := (mem p).mpr member
    refine awaits.relinked has irq fun still pos way => ?_
    rw [links] at still ⊢
    have other : n ≠ p := by
      have stays := (forms.remove member).mem_of_leads still (Or.inl rfl)
      exact (forms.once.mem_erase_iff.mp stays).1
    exact way.remove forms member other

/-- The pass goes on at its position. -/
theorem Awaits.onPass {pass next : DmaIrqPass} {cqs : BceQueuePtr → BceQueueCq}
    {sqs : BceQueuePtr → BceQueueSq} (awaits : s.Awaits n) (now : s.irq = some pass)
    (polled : next.polled = pass.polled) (position : next.stage.position = pass.stage.position) :
    Awaits { s with cqs, sqs, irq := some next } n := by
  intro after at'
  cases Option.some.inj at'
  rw [polled, position]
  exact awaits pass now

theorem Awaits.irqStep (awaits : s.Awaits n) (has : s.links.Leads none n) (inside : s.irq.isSome)
    (run : s.irqStep = some t) : t.Awaits n := by
  unfold TeardownRun.irqStep at run
  split at run
  next out => simp [out] at inside
  next pass now =>
    obtain ⟨stage, ce, polled⟩ := pass
    dsimp only at run
    split at run
    next pos =>
      obtain ⟨comes, -⟩ := awaits _ now
      have comes := comes has
      split at run
      next ended =>
        cases Option.some.inj run
        -- no way leaves the last position
        have member : n ∈ polled := by
          obtain member | ⟨here, position, way⟩ := comes
          · exact member
          · cases Option.some.inj position
            obtain ⟨b, link⟩ := way.first
            cases ended.symm.trans link
        intro after at'
        cases Option.some.inj at'
        exact ⟨fun _ => Or.inl member, fun _ => member⟩
      next cq link =>
        cases Option.some.inj run
        intro after at'
        cases Option.some.inj at'
        refine ⟨fun _ => ?_, fun ended => absurd ended (by simp [DmaIrqStage.position])⟩
        obtain member | ⟨here, position, way⟩ := comes
        · exact Or.inl (List.mem_append_left [cq] member)
        · cases Option.some.inj position
          cases way with
          | next last =>
            cases Option.some.inj (link.symm.trans last)
            exact Or.inl (List.mem_append_right polled (List.mem_singleton_self n))
          | step first rest =>
            cases Option.some.inj (link.symm.trans first)
            exact Or.inr ⟨_, rfl, rest⟩
    next cq =>
      split at run
      · cases Option.some.inj run
        exact awaits.onPass now rfl rfl
      · cases Option.some.inj run
        exact awaits.onPass now rfl rfl
    next cq e target =>
      cases Option.some.inj run
      exact awaits.onPass now rfl rfl
    next =>
      cases Option.some.inj (Option.ite_none_right_eq_some.mp run).2
      simp [Awaits, leave]

theorem Awaits.step {label : TeardownStep} (awaits : s.Awaits n) (has : s.links.Leads none n)
    (inside : s.irq.isSome) (reach : machine.Reachable s) (run : s.step label = some t) : t.Awaits n := by
  by_cases irq : label = .irq
  · subst irq
    exact awaits.irqStep has inside run
  · by_cases completion : ∃ after, label = .completion after
    · obtain ⟨after, rfl⟩ := completion
      simp only [TeardownRun.step, TeardownRun.completionStep] at run
      split at run
      next q ce polled now =>
        cases Option.some.inj run
        exact awaits.onPass now rfl rfl
      next => cases run
    · obtain ⟨effect, same⟩ := effect_step (guarded_reachable reach).1 run irq (not_exists.mp completion)
      exact awaits.effect has effect (walks_reachable reach) (listed_reachable reach) same

/-- In every pass, with creates and destroys between any two of its loads, no CQ is polled twice, and a CQ
that is in `cq_list` from the beginning to the end of the walk is polled once. -/
theorem walk_polls_once {pass : DmaIrqPass} (reach : machine.Reachable t) (now : t.irq = some pass) :
    (∀ p, pass.polled.count p ≤ 1) ∧
      ∀ s n, machine.Reachable s → s.irq = some ⟨.walking none, [], []⟩ →
        (machine.since s).ReachableUnder (fun x _ => x.irq.isSome ∧ x.links.Leads none n) t →
        pass.stage = .dispatching → pass.polled.count n = 1 := by
  have once := (walks_reachable reach).once pass now
  refine ⟨List.nodup_iff_count_le_one.mp once, fun s n before entered walk ended => ?_⟩
  have awaits : t.Awaits n := by
    refine Machine.ReachableUnder.invariant_of (fun _ later => before.later later) ?_ ?_ walk
      (I := fun x => x.Awaits n)
    · rintro _ rfl after at'
      cases Option.some.inj (entered.symm.trans at')
      exact ⟨fun leads => Or.inr ⟨none, rfl, leads⟩, fun ended => absurd ended (by simp [DmaIrqStage.position])⟩
    · rintro x label y reachX awaits ⟨inside, has⟩ run
      exact awaits.step has inside reachX run
  exact List.count_eq_one_of_mem once ((awaits pass now).2 (by rw [ended]; rfl))

/-- The pass is at a CQ that a destroy call takes out of the list, and comes to the next one from
there. -/
theorem walk_polls_once_removed : ∃ s t pass, machine.Reachable s ∧
    (machine.since s).ReachableUnder
      (fun x _ => x.irq.isSome ∧ x.links.Leads none (.user ⟨.cq, 1⟩)) t ∧ t.irq = some pass ∧
    t.links.next (some commandCq) = some (.user ⟨.cq, 1⟩) ∧ .user ⟨.cq, 0⟩ ∈ pass.polled ∧
    pass.polled.count (.user ⟨.cq, 1⟩) = 1 := by
  obtain ⟨s, ran, entered, rest⟩ : ∃ s, machine.run
      (start (fun _ => ⟨0, 1, fun _ => ⟨0, 0, 0, 0, 0, 0⟩, 0⟩) fun _ => bceAllocSq 0 1)
      [.call (.createCq 0 0x100), .call (.qidAlloc ⟨.cq, 0⟩ (some 2)), .call (.allocated ⟨.cq, 0⟩ (some 0x8000)),
        .call (.registered ⟨.cq, 0⟩ 0), .call (.publish ⟨.cq, 0⟩), .store, .call (.createCq 1 0x100),
        .call (.qidAlloc ⟨.cq, 1⟩ (some 3)), .call (.allocated ⟨.cq, 1⟩ (some 0x9000)),
        .call (.registered ⟨.cq, 1⟩ 0), .call (.publish ⟨.cq, 1⟩), .store, .irq] = some s ∧
      s.irq = some ⟨.walking none, [], []⟩ ∧
      ∃ t, ((machine.since s).guard fun x _ => x.irq.isSome ∧ x.links.next none = some commandCq ∧
        (x.links.next (some commandCq) = some (.user ⟨.cq, 1⟩) ∨
          x.links.next (some commandCq) = some (.user ⟨.cq, 0⟩) ∧
            x.links.next (some (.user ⟨.cq, 0⟩)) = some (.user ⟨.cq, 1⟩))).run s
        [.irq, .irq, .irq, .call (.destroy ⟨.cq, 0⟩), .call (.unregistered ⟨.cq, 0⟩ 0), .call (.unpublish ⟨.cq, 0⟩),
          .store, .irq, .irq, .irq, .irq] = some t ∧
        t.irq = some ⟨.dispatching, [], [commandCq, .user ⟨.cq, 0⟩, .user ⟨.cq, 1⟩]⟩ ∧
        t.links.next (some commandCq) = some (.user ⟨.cq, 1⟩) :=
    ⟨_, rfl, rfl, _, rfl, rfl, rfl⟩
  obtain ⟨t, guarded, now, removed⟩ := rest
  have reach : machine.Reachable s := Machine.Reachable.of_run (.start ⟨_, _, rfl⟩) _ ran
  have walk : (machine.since s).ReachableUnder
      (fun x _ => x.irq.isSome ∧ x.links.Leads none (.user ⟨.cq, 1⟩)) t := by
    refine Machine.ReachableUnder.mono ?_ (Machine.ReachableUnder.of_run rfl _ guarded)
    rintro x - ⟨inside, first, second | ⟨second, third⟩⟩
    · exact ⟨inside, .step first (.next second)⟩
    · exact ⟨inside, .step first (.step second (.next third))⟩
  exact ⟨s, t, _, reach, walk, now, removed, by simp,
    (walk_polls_once (reach.later walk) now).2 s _ reach entered walk rfl⟩

end TeardownRun

end AppleBce

import AppleBce.Queue.TeardownOrder

namespace AppleBce

open Basis

namespace TeardownRun

variable {s t : TeardownRun} {a : RegistryStep} {q : BceQueueRef} {p : BceQueuePtr} {calls : RegistryRun}

/-- What a step of the calls does to who may have a pointer to a queue, and to the list: it changes
neither the list nor what is published, or publishes a queue, or links a published one, or leads the
list past one. -/
inductive Effect (s t : TeardownRun) : Prop
  | keeps (links : t.links = s.links) (inList : ∀ p, t.InList p ↔ s.InList p)
      (protects : ∀ found, Protects s.inside s.custody found → Protects s.inside t.custody found)
  | publishes (p : BceQueuePtr) (links : t.links = s.links) (inList : ∀ x, t.InList x ↔ s.InList x)
      (custody : t.custody = Function.update s.custody p .published)
  | adds (q : BceQueueRef) (lock : s.lock = some (.adding q)) (links : t.links = s.links.addTail (.user q))
      (inList : ∀ x, t.InList x ↔ x = .user q ∨ s.InList x) (fresh : ¬s.InList (.user q))
      (published : s.custody (.user q) = .published) (custody : t.custody = s.custody)
  | removes (p : BceQueuePtr) (links : t.links = s.links.remove p)
      (inList : ∀ x, t.InList x ↔ x ≠ p ∧ s.InList x) (member : s.InList p)
      (protects : ∀ found, Protects s.inside s.custody found → Protects s.inside t.custody found)

theorem Effect.unchanged (links : t.links = s.links) (inList : ∀ p, t.InList p ↔ s.InList p)
    (custody : t.custody = s.custody) : Effect s t :=
  .keeps links inList fun found protects => by rwa [custody]

theorem Effect.changes {next : Custody QueuesReader} (links : t.links = s.links)
    (inList : ∀ p, t.InList p ↔ s.InList p) (custody : t.custody = Function.update s.custody p next)
    (protects : ∀ found, Protects s.inside s.custody found →
      Protects s.inside (Function.update s.custody p next) found) : Effect s t :=
  .keeps links inList fun found protected' => by
    rw [custody]
    exact protects found protected'

/-- One pointer is in other hands, and the others as before. -/
theorem custody_update {next : Custody QueuesReader} (here : t.custody p = next)
    (others : ∀ x, x ≠ p → t.custody x = s.custody x) : t.custody = Function.update s.custody p next :=
  Function.eq_update_iff.mpr ⟨here, others⟩

/-- The list is the same when the calls have not stored. -/
theorem inList_congr (commands : t.commands = s.commands) (lock : t.lock = s.lock)
    (custody : ∀ q, (t.calls.life q).custody = (s.calls.life q).custody) (p : BceQueuePtr) :
    t.InList p ↔ s.InList p := by
  cases p with
  | command type => cases type <;> simp [InList, commands]
  | user q => simp only [InList, lock, custody]

theorem place_congr (commands : t.commands = s.commands) (lock : t.lock = s.lock)
    (custody : ∀ q, (t.calls.life q).custody = (s.calls.life q).custody) : t.place p = s.place p := by
  cases p with
  | command type => simp only [place, commands]
  | user q => simp only [place, lock, custody]

theorem effect_plain (named : a.queue = some q) (run : s.calls.step a = some calls) (publish : a ≠ .publish q)
    (unpublish : a ≠ .unpublish q) : Effect s { s with calls } := by
  have same := life_custody named run publish unpublish
  refine .unchanged rfl (inList_congr rfl rfl same) ?_
  funext p
  exact custody_congr rfl (place_congr rfl rfl same)

theorem effect_abandon (ordered : s.Ordered) (run : s.calls.step (.abandon q) = some calls) :
    Effect s (s.called calls (.abandon q)) := by
  have same := life_custody rfl run (by simp) (by simp)
  have hidden : (s.calls.life q).custody = .hidden ∧ s.calls.life q ≠ .failed := by
    have move := RegistryRun.step_lifeMove rfl run
    generalize s.calls.life q = l, calls.life q = m at move
    cases move with
    | prepares _ _ _ _ abandon | unregisters _ _ _ abandon => exact absurd rfl abandon
    | abandons => exact ⟨rfl, by simp⟩
  have unlocked : s.lock ≠ some (.deleting q) := by
    intro lock
    obtain ⟨-, ⟨qid, life⟩, -⟩ := ordered.deleting q lock
    rw [life] at hidden
    cases hidden.1
  have before : s.custody (.user q) = .hidden := by
    rw [custody_kept ((ordered.fits q).of_hidden hidden.1 hidden.2), place_user unlocked, hidden.1]
  refine .changes (p := .user q) rfl (inList_congr rfl rfl same) (custody_update ?_ ?_)
    fun found protects => protects.discard before (by simp : Custody.reclaimed ≠ .published)
  · exact custody_freed (by simp [called])
  · intro x other
    exact custody_congr (by simp [called, other]) (place_congr rfl rfl same)

/-- The life of a queue before and after the store that shows or hides it. -/
theorem life_publish (run : s.calls.step (.publish q) = some calls) :
    (s.calls.life q).custody = .hidden ∧ (calls.life q).custody = .published := by
  have move := RegistryRun.step_lifeMove rfl run
  generalize s.calls.life q = l, calls.life q = m at move ⊢
  cases move with
  | prepares _ _ _ publish | unregisters _ _ publish => exact absurd rfl publish
  | publishes => exact ⟨rfl, rfl⟩

theorem life_unpublish (run : s.calls.step (.unpublish q) = some calls) :
    (s.calls.life q).custody = .published ∧ (calls.life q).custody = .withdrawn := by
  have move := RegistryRun.step_lifeMove rfl run
  generalize s.calls.life q = l, calls.life q = m at move ⊢
  cases move with
  | prepares _ _ _ _ _ unpublish | unregisters _ _ _ _ unpublish => exact absurd rfl unpublish
  | unpublishes => exact ⟨rfl, rfl⟩

theorem effect_publish (ordered : s.Ordered) (free : s.lock = none)
    (run : s.calls.step (.publish q) = some calls) : Effect s (s.called calls (.publish q)) := by
  obtain ⟨hidden, published⟩ := life_publish run
  have others : ∀ x, x ≠ q → calls.life x = s.calls.life x := fun x => RegistryRun.life_others rfl run
  have kept : s.memory (.user q) = .kept := ((ordered.publish free run).fits q).of_published published
  have unlocked : ∀ x, (s.called calls (.publish q)).lock ≠ some (.deleting x) := by
    intro x lock
    simp only [called] at lock
    cases (Option.ite_none_right_eq_some.mp lock).2
  refine .publishes (.user q) rfl ?_ (custody_update ?_ ?_)
  · intro x
    cases x with
    | command type => cases type <;> rfl
    | user x =>
      by_cases same : x = q
      · subst same
        by_cases type : x.type = .cq
        · simp [InList, called, type, free, hidden]
        · simp [InList, called, type, free]
      · by_cases type : q.type = .cq
        · simp [InList, called, type, free, others x same, Ne.symm same]
        · simp [InList, called, type, free, others x same]
  · rw [custody_kept (s := s.called calls (.publish q)) kept, place_user (unlocked q)]
    exact published
  · intro x other
    refine custody_congr rfl ?_
    cases x with
    | command type => rfl
    | user x =>
      rw [place_user (unlocked x), place_user (s := s) (by simp [free])]
      simp only [called, others x (by simpa using other)]

theorem effect_unpublish (ordered : s.Ordered) (free : s.lock = none)
    (run : s.calls.step (.unpublish q) = some calls) : Effect s (s.called calls (.unpublish q)) := by
  obtain ⟨published, withdrawn⟩ := life_unpublish run
  have others : ∀ x, x ≠ q → calls.life x = s.calls.life x := fun x => RegistryRun.life_others rfl run
  have kept := (ordered.fits q).of_published published
  have before : s.custody (.user q) = .published := by
    rw [custody_kept kept, place_user (by simp [free]), published]
  have elsewhere : ∀ x, x ≠ .user q → (s.called calls (.unpublish q)).custody x = s.custody x := by
    intro x other
    refine custody_congr rfl ?_
    cases x with
    | command type => rfl
    | user x =>
      have differ : x ≠ q := by simpa using other
      have unlocked : (s.called calls (.unpublish q)).lock ≠ some (.deleting x) := by
        intro lock
        simp only [called] at lock
        cases (Option.ite_none_right_eq_some.mp lock).2
        exact differ rfl
      rw [place_user unlocked, place_user (s := s) (by simp [free])]
      simp only [called, others x differ]
  by_cases type : q.type = .cq
  · -- the queue is a node of the list until the next store
    have locked : (s.called calls (.unpublish q)).lock = some (.deleting q) := by simp [called, type]
    refine .unchanged rfl ?_ ?_
    · intro x
      cases x with
      | command type => cases type <;> rfl
      | user x =>
        by_cases same : x = q
        · subst same
          simp [InList, called, type, free, published]
        · simp [InList, called, type, free, others x same, Ne.symm same]
    · funext x
      by_cases same : x = .user q
      · rw [same, before, custody_kept (s := s.called calls (.unpublish q)) kept, place, if_pos locked]
      · exact elsewhere x same
  · have unlocked : (s.called calls (.unpublish q)).lock = none := by simp [called, type]
    refine .changes (p := .user q) rfl ?_ (custody_update ?_ elsewhere) fun found => Protects.withdraw
    · intro x
      cases x with
      | command type => cases type <;> rfl
      | user x =>
        by_cases same : x = q
        · subst same
          simp [InList, called, type, free]
        · simp [InList, called, type, free, others x same]
    · rw [custody_kept (s := s.called calls (.unpublish q)) kept, place_user (by simp [unlocked])]
      exact withdrawn

theorem effect_call (ordered : s.Ordered) (allowed : s.allows a) (run : s.calls.step a = some calls) :
    Effect s (s.called calls a) := by
  cases a with
  | publish q => exact effect_publish ordered allowed run
  | unpublish q => exact effect_unpublish ordered allowed run
  | abandon q => exact effect_abandon ordered run
  | remove =>
    cases Option.some.inj run
    exact .unchanged rfl (inList_congr rfl rfl fun _ => rfl) rfl
  | createCq | createSq | createSqWithFlags | qidAlloc q | allocated q | registered q | destroy q
  | unregistered q | synchronized q | release q => exact effect_plain rfl run (by simp) (by simp)

theorem effect_adding (ordered : s.Ordered) (lock : s.lock = some (.adding q)) :
    Effect s { s with links := s.links.addTail (.user q), lock := none } := by
  obtain ⟨type, published⟩ := ordered.adding q lock
  refine .adds q lock rfl ?_ (by simp [InList, lock]) ?_ ?_
  · intro x
    cases x with
    | command type => cases type <;> simp [InList]
    | user x =>
      by_cases same : x = q
      · simp [InList, same, type, published]
      · simp [InList, same, lock, Ne.symm same]
  · rw [custody_kept ((ordered.fits q).of_published published), place_user (by simp [lock]), published]
  · funext x
    refine custody_congr rfl ?_
    cases x with
    | command type => rfl
    | user x => simp [place, lock]

theorem effect_deleting (ordered : s.Ordered) (lock : s.lock = some (.deleting q)) :
    Effect s { s with links := s.links.remove (.user q), lock := none } := by
  obtain ⟨-, ⟨qid, life⟩, kept⟩ := ordered.deleting q lock
  have custody : custody { s with links := s.links.remove (.user q), lock := none } =
      Function.update s.custody (.user q) .withdrawn := by
    refine custody_update ?_ ?_
    · simp [custody, kept, place, life, QueueLife.custody]
    · intro x other
      refine custody_congr rfl ?_
      cases x with
      | command type => rfl
      | user x =>
        have differ : q ≠ x := fun same => other (by rw [same])
        simp [place, lock, differ]
  refine .removes (.user q) rfl ?_ (by simp [InList, lock]) ?_
  · intro x
    cases x with
    | command type => cases type <;> simp [InList]
    | user x =>
      by_cases same : x = q
      · simp [InList, same, life, QueueLife.custody]
      · simp [InList, same, lock, Ne.symm same]
  · intro found protects
    rw [custody]
    exact protects.withdraw

/-- A store to `queues` takes a command queue out. -/
theorem effect_commandStore (type : BceQueueType) {commands : CommandStores} {lock : Option QueuesLock}
    (kept : s.memory (.command type) = .kept) (live : s.commands ≠ .live) (next : commands ≠ .live)
    (here : commands.entered type = false)
    (others : ∀ other, other ≠ type → commands.entered other = s.commands.entered other)
    (locked : s.lock = some .commands) (unlocked : ∀ q, lock ≠ some (.deleting q) ∧ lock ≠ some (.adding q)) :
    Effect s { s with commands, lock } := by
  refine .changes (p := .command type) rfl ?_ (custody_update ?_ ?_) fun found => Protects.withdraw
  · intro x
    cases x with
    | command type => cases type <;> simp [InList, live, next]
    | user x => simp [InList, locked, unlocked]
  · simp [custody, kept, place, here]
  · intro x other
    refine custody_congr rfl ?_
    cases x with
    | command x => simp only [place, others x (by simpa using other)]
    | user x => simp [place, locked, unlocked]

theorem effect_store (ordered : s.Ordered) (run : s.storeStep = some t) : Effect s t := by
  unfold storeStep at run
  split at run
  case h_1 => cases run
  case h_2 q lock =>
    cases Option.some.inj run
    exact effect_adding ordered lock
  case h_3 q lock =>
    cases Option.some.inj run
    exact effect_deleting ordered lock
  case h_4 lock =>
    split at run
    case h_1 stores =>
      cases Option.some.inj run
      refine effect_commandStore .cq (ordered.commandKept (by simp [stores])) (by simp [stores])
        (by simp) rfl ?_ lock (by simp [lock])
      intro other differ
      cases other with
      | cq => exact absurd rfl differ
      | sq => rw [stores]; rfl
    case h_2 stores =>
      cases Option.some.inj run
      refine effect_commandStore .sq
        (ordered.commandMemory.trans (ordered.commandKept (by simp [stores]))) (by simp [stores])
        (by simp) rfl ?_ lock (by simp)
      intro other differ
      cases other with
      | cq => rw [stores]; rfl
      | sq => exact absurd rfl differ
    case h_3 => cases run

/-- The memory of a queue changes while the calls stay where they are. -/
theorem effect_memory {memory : QueueMemory} {next : Custody QueuesReader}
    (here : ∀ x : TeardownRun, x.memory p = memory → x.custody p = next)
    (protects : ∀ found, Protects s.inside s.custody found →
      Protects s.inside (Function.update s.custody p next) found) :
    Effect s { s with memory := Function.update s.memory p memory } := by
  refine .changes (p := p) rfl (inList_congr rfl rfl fun _ => rfl) (custody_update ?_ ?_) protects
  · exact here _ (Function.update_self ..)
  · intro x other
    exact custody_congr (Function.update_of_ne other ..) rfl

/-- The memory of the command queues changes. -/
theorem effect_commandMemory {memory : QueueMemory} {next : Custody QueuesReader}
    (here : ∀ (x : TeardownRun) p, x.memory p = memory → x.custody p = next)
    (protects : ∀ found, Protects s.inside s.custody found →
      Protects s.inside (Function.update (Function.update s.custody commandCq next) commandSq next) found) :
    Effect s { s with
      memory := Function.update (Function.update s.memory commandCq memory) commandSq memory } := by
  refine .keeps rfl (inList_congr rfl rfl fun _ => rfl) fun found protected' => ?_
  have custody : custody { s with
      memory := Function.update (Function.update s.memory commandCq memory) commandSq memory } =
        Function.update (Function.update s.custody commandCq next) commandSq next := by
    funext x
    by_cases sq : x = commandSq
    · rw [sq, Function.update_self]
      exact here _ _ (by simp)
    · rw [Function.update_of_ne sq]
      by_cases cq : x = commandCq
      · rw [cq, Function.update_self]
        exact here _ _ (by simp [commandCq, commandSq])
      · rw [Function.update_of_ne cq]
        exact custody_congr (by simp [sq, cq]) rfl
  rw [custody]
  exact protects found protected'

theorem custody_elapsed (elapsed : (s.memory p).elapsed) : s.custody p = .waiting ∅ := by
  cases memory : s.memory p with
  | synchronizing readers =>
    rw [memory] at elapsed
    cases elapsed
    exact custody_synchronizing memory
  | kept | freed =>
    rw [memory] at elapsed
    exact elapsed.elim

theorem effect_step {label : TeardownStep} (ordered : s.Ordered) (run : s.step label = some t)
    (irq : label ≠ .irq) (completion : ∀ after, label ≠ .completion after) : Effect s t ∧ t.irq = s.irq := by
  cases label with
  | call a =>
    obtain ⟨allowed, ran⟩ := Option.ite_none_right_eq_some.mp run
    obtain ⟨r, called, rfl⟩ := Option.map_eq_some_iff.mp ran
    exact ⟨effect_call ordered allowed called, by cases a <;> rfl⟩
  | store =>
    refine ⟨effect_store ordered run, ?_⟩
    simp only [step, storeStep] at run
    split at run
    case h_1 => cases run
    case h_2 | h_3 =>
      cases Option.some.inj run
      rfl
    case h_4 =>
      split at run
      case h_1 | h_2 =>
        cases Option.some.inj run
        rfl
      case h_3 => cases run
  | synchronize q =>
    simp only [step] at run
    split at run
    next qid life memory =>
      obtain ⟨unlocked, run⟩ := Option.ite_none_left_eq_some.mp run
      cases Option.some.inj run
      refine ⟨effect_memory (fun x memory => custody_synchronizing memory) ?_, rfl⟩
      exact fun found => Protects.synchronize
    next => cases run
  | free q =>
    obtain ⟨⟨-, elapsed⟩, run⟩ := Option.ite_none_right_eq_some.mp run
    cases Option.some.inj run
    refine ⟨effect_memory (fun x memory => custody_freed memory) ?_, rfl⟩
    exact fun found protects => protects.reclaim (custody_elapsed elapsed)
  | freeCommandQueues =>
    obtain ⟨⟨live, free⟩, run⟩ := Option.ite_none_right_eq_some.mp run
    cases Option.some.inj run
    refine ⟨.removes commandCq rfl ?_ live ?_, rfl⟩
    · intro x
      cases x with
      | command type => cases type <;> simp [InList, commandCq]
      | user x => simp [InList, commandCq, free]
    · intro found protects
      have same :
          custody { s with links := s.links.remove commandCq, commands := .unlinked, lock := some .commands } =
          s.custody := by
        funext x
        refine custody_congr rfl ?_
        cases x with
        | command type => cases type <;> simp [place, live, CommandStores.entered]
        | user x => simp [place, free]
      rwa [same]
  | synchronizeCommands =>
    simp only [step] at run
    split at run
    next =>
      cases Option.some.inj run
      refine ⟨effect_commandMemory (fun x p memory => custody_synchronizing memory) ?_, rfl⟩
      exact fun found protects => protects.synchronize.synchronize
    next => cases run
  | freeCommands =>
    obtain ⟨elapsed, run⟩ := Option.ite_none_right_eq_some.mp run
    cases Option.some.inj run
    refine ⟨effect_commandMemory (fun x p memory => custody_freed memory) ?_, rfl⟩
    intro found protects
    refine (protects.reclaim (custody_elapsed elapsed)).reclaim ?_
    rw [Function.update_of_ne (by simp [commandSq, commandCq])]
    exact custody_elapsed (ordered.commandMemory ▸ elapsed)
  | irq => exact absurd rfl irq
  | completion after => exact absurd rfl (completion after)
  | rings cqs sqs =>
    cases Option.some.inj run
    exact ⟨.unchanged rfl (fun _ => Iff.rfl) (funext fun p => by cases p <;> rfl), rfl⟩

end TeardownRun

end AppleBce

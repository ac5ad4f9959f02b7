import AppleBce.Queue.Teardown

namespace AppleBce

open Basis

/-- Who may have a pointer to a queue, by where its calls are, when none waits for readers. -/
def QueueLife.custody : QueueLife → Custody QueuesReader
  | .holding _ stage =>
    match stage with
    | .live | .unregistering _ | .unpublishing => .published
    | .synchronizing | .releasing => .withdrawn
    | .allocating .. | .registering _ | .publishing | .abandoning => .hidden
  | .destroyed => .withdrawn
  | .unborn | .starting .. | .failed => .hidden

theorem QueueLife.custody_of_published {life : QueueLife} {qid : Nat} (published : life.published = some qid) :
    life.custody = .published := by
  cases life with
  | holding held stage => cases stage <;> first | rfl | cases published
  | unborn | starting | failed | destroyed => cases published

/-- What the step of a call does to the life of its queue. -/
inductive LifeMove : RegistryStep → BceQueueRef → QueueLife → QueueLife → Prop
  | prepares {a : RegistryStep} {q : BceQueueRef} {l m : QueueLife} (before : l.custody = .hidden)
      (after : m.custody = .hidden) (begun : l ≠ .failed) (publish : a ≠ .publish q)
      (abandon : a ≠ .abandon q) (unpublish : a ≠ .unpublish q) : LifeMove a q l m
  | publishes {q : BceQueueRef} {qid : Nat} :
      LifeMove (.publish q) q (.holding qid .publishing) (.holding qid .live)
  | abandons {q : BceQueueRef} {qid : Nat} : LifeMove (.abandon q) q (.holding qid .abandoning) .failed
  | unregisters {a : RegistryStep} {q : BceQueueRef} {l m : QueueLife} (before : l.custody = .published)
      (after : m.custody = .published) (publish : a ≠ .publish q) (abandon : a ≠ .abandon q)
      (unpublish : a ≠ .unpublish q) : LifeMove a q l m
  | unpublishes {q : BceQueueRef} {qid : Nat} :
      LifeMove (.unpublish q) q (.holding qid .unpublishing) (.holding qid .synchronizing)
  | synchronizes {q : BceQueueRef} {qid : Nat} :
      LifeMove (.synchronized q) q (.holding qid .synchronizing) (.holding qid .releasing)
  | releases {q : BceQueueRef} {qid : Nat} : LifeMove (.release q) q (.holding qid .releasing) .destroyed

namespace RegistryRun

variable {s t : RegistryRun} {a : RegistryStep} {q p : BceQueueRef} {qid : Nat}

theorem lifeMove_setLife {life : QueueLife} (move : LifeMove a q (s.life q) life) :
    LifeMove a q (s.life q) ((s.setLife q life).life q) := by
  have new : (s.setLife q life).life q = life := Function.update_self ..
  rwa [new]

theorem lifeMove_create {life : QueueLife} (unborn : s.life q = .unborn) (after : life.custody = .hidden)
    (publish : a ≠ .publish q) (abandon : a ≠ .abandon q) (unpublish : a ≠ .unpublish q) :
    LifeMove a q (s.life q) ((s.setLife q life).life q) :=
  lifeMove_setLife (.prepares (by rw [unborn]; rfl) after (by simp [unborn]) publish abandon unpublish)

theorem lifeMove_createSqWithFlags {number : Nat} {cq : Option Nat} {name : Option String}
    {elCount : BitVec 32} {flags : BitVec 16} (unborn : s.life ⟨.sq, number⟩ = .unborn)
    (publish : a ≠ .publish ⟨.sq, number⟩) (abandon : a ≠ .abandon ⟨.sq, number⟩)
    (unpublish : a ≠ .unpublish ⟨.sq, number⟩) :
    LifeMove a ⟨.sq, number⟩ (s.life ⟨.sq, number⟩)
      ((s.createSqWithFlags number cq name elCount flags).life ⟨.sq, number⟩) := by
  unfold createSqWithFlags
  split
  · exact lifeMove_create unborn rfl publish abandon unpublish
  · exact lifeMove_create unborn rfl publish abandon unpublish

theorem holdingStep_lifeMove {stage : QidStage} (life : s.life q = .holding qid stage)
    (named : a.queue = some q) (run : s.holdingStep q qid stage a = some t) :
    LifeMove a q (s.life q) (t.life q) := by
  unfold holdingStep at run
  split at run
  case h_1 =>
    cases Option.some.inj run
    exact lifeMove_setLife (.prepares (by rw [life]; rfl) rfl (by simp [life]) (by simp) (by simp) (by simp))
  case h_2 =>
    cases Option.some.inj run
    exact lifeMove_setLife (.prepares (by rw [life]; rfl) rfl (by simp [life]) (by simp) (by simp) (by simp))
  case h_3 status =>
    cases Option.some.inj run
    refine lifeMove_setLife (.prepares (by rw [life]; rfl) ?_ (by simp [life]) (by simp) (by simp) (by simp))
    split <;> rfl
  case h_4 =>
    cases Option.some.inj run
    cases named
    exact lifeMove_setLife (s := s) (by rw [life]; exact .publishes)
  case h_5 =>
    cases Option.some.inj run
    cases named
    exact lifeMove_setLife (s := s) (by rw [life]; exact .abandons)
  case h_6 =>
    cases Option.some.inj run
    refine lifeMove_setLife (.unregisters (by rw [life]; rfl) ?_ (by simp) (by simp) (by simp))
    split <;> rfl
  case h_7 =>
    cases Option.some.inj run
    exact lifeMove_setLife (.unregisters (by rw [life]; rfl) rfl (by simp) (by simp) (by simp))
  case h_8 =>
    cases Option.some.inj run
    cases named
    exact lifeMove_setLife (s := s) (by rw [life]; exact .unpublishes)
  case h_9 =>
    cases Option.some.inj run
    cases named
    exact lifeMove_setLife (s := s) (by rw [life]; exact .synchronizes)
  case h_10 =>
    cases Option.some.inj run
    cases named
    exact lifeMove_setLife (s := s) (by rw [life]; exact .releases)
  case h_11 => cases run

theorem qidAlloc_lifeMove {result : Option Nat} (run : s.step (.qidAlloc q result) = some t) :
    LifeMove (.qidAlloc q result) q (s.life q) (t.life q) := by
  simp only [step] at run
  split at run
  next elCount sq life =>
    cases result with
    | none =>
      cases Option.some.inj run
      exact lifeMove_setLife (.prepares (by rw [life]; rfl) rfl (by simp [life]) (by simp) (by simp) (by simp))
    | some qid =>
      obtain ⟨-, run⟩ := Option.ite_none_right_eq_some.mp run
      cases Option.some.inj run
      exact lifeMove_setLife (.prepares (by rw [life]; rfl) rfl (by simp [life]) (by simp) (by simp) (by simp))
  next => cases run

/-- Every step of a call is one of the intended moves of its queue. -/
theorem step_lifeMove (named : a.queue = some q) (run : s.step a = some t) :
    LifeMove a q (s.life q) (t.life q) := by
  cases a with
  | createCq number elCount =>
    cases named
    obtain ⟨unborn, run⟩ := Option.ite_none_right_eq_some.mp run
    cases Option.some.inj run
    exact lifeMove_create unborn rfl (by simp) (by simp) (by simp)
  | createSq number cq name elCount direction =>
    cases named
    obtain ⟨unborn, run⟩ := Option.ite_none_right_eq_some.mp run
    cases Option.some.inj run
    unfold createSq
    split
    · exact lifeMove_create unborn rfl (by simp) (by simp) (by simp)
    · exact lifeMove_createSqWithFlags unborn (by simp) (by simp) (by simp)
  | createSqWithFlags number cq name elCount flags =>
    cases named
    obtain ⟨unborn, run⟩ := Option.ite_none_right_eq_some.mp run
    cases Option.some.inj run
    exact lifeMove_createSqWithFlags unborn (by simp) (by simp) (by simp)
  | qidAlloc p result =>
    cases named
    exact qidAlloc_lifeMove run
  | remove => cases named
  | allocated p | registered p | publish p | abandon p | destroy p | unregistered p | unpublish p
  | synchronized p | release p =>
    cases named
    simp only [step] at run
    split at run
    next qid stage life => exact holdingStep_lifeMove life rfl run
    next => cases run

theorem life_others (named : a.queue = some q) (run : s.step a = some t) (other : p ≠ q) :
    t.life p = s.life p := by
  obtain ⟨-, life⟩ | ⟨r, moved, changes⟩ := step_changes run
  · rw [life]
  · cases named.symm.trans moved
    exact changes.others p other

end RegistryRun

/-- The memory of a queue, by where its calls are. -/
inductive MemoryFits : QueueLife → QueueMemory → Prop
  | kept {life : QueueLife} (unreleased : ∀ qid, life ≠ .holding qid .releasing)
      (undestroyed : life ≠ .destroyed) : MemoryFits life .kept
  | waiting {qid : Nat} {readers : Finset QueuesReader} :
      MemoryFits (.holding qid .synchronizing) (.synchronizing readers)
  | waited {qid : Nat} : MemoryFits (.holding qid .releasing) (.synchronizing ∅)
  | released : MemoryFits .destroyed (.synchronizing ∅)
  | freed : MemoryFits .destroyed .freed
  | abandoned : MemoryFits .failed .freed

theorem MemoryFits.of_published {life : QueueLife} {memory : QueueMemory} (fits : MemoryFits life memory)
    (published : life.custody = .published) : memory = .kept := by
  cases fits with
  | kept => rfl
  | waiting | waited | released | freed | abandoned => cases published

theorem MemoryFits.of_hidden {life : QueueLife} {memory : QueueMemory} (fits : MemoryFits life memory)
    (hidden : life.custody = .hidden) (begun : life ≠ .failed) : memory = .kept := by
  cases fits with
  | kept => rfl
  | waiting | waited | released | freed => cases hidden
  | abandoned => exact absurd rfl begun

theorem MemoryFits.kept_of_custody {life : QueueLife} (shown : life.custody ≠ .withdrawn) :
    MemoryFits life .kept := by
  refine .kept ?_ ?_
  · rintro qid rfl
    exact shown rfl
  · rintro rfl
    exact shown rfl

theorem LifeMove.fits {a : RegistryStep} {q : BceQueueRef} {l m : QueueLife} {memory : QueueMemory}
    (move : LifeMove a q l m) (fits : MemoryFits l memory) (elapsed : a = .synchronized q → memory.elapsed)
    (abandon : a ≠ .abandon q) : MemoryFits m memory := by
  cases move with
  | prepares before after begun =>
    rw [fits.of_hidden before begun]
    exact .kept_of_custody (by simp [after])
  | publishes =>
    rw [fits.of_hidden rfl (by simp)]
    exact .kept_of_custody (by simp [QueueLife.custody])
  | abandons => exact absurd rfl abandon
  | unregisters before after =>
    rw [fits.of_published before]
    exact .kept_of_custody (by simp [after])
  | unpublishes =>
    rw [fits.of_published rfl]
    exact .kept (by simp) (by simp)
  | synchronizes =>
    have elapsed := elapsed rfl
    cases fits with
    | kept => exact elapsed.elim
    | waiting =>
      cases elapsed
      exact .waited
  | releases =>
    cases fits with
    | kept unreleased => exact absurd rfl (unreleased _)
    | waited => exact .released

/-- Between the stores of a call, who may have a pointer to its queue stays the same. -/
theorem LifeMove.custody_eq {a : RegistryStep} {q : BceQueueRef} {l m : QueueLife} (move : LifeMove a q l m)
    (publish : a ≠ .publish q) (unpublish : a ≠ .unpublish q) : m.custody = l.custody := by
  cases move with
  | prepares before after | unregisters before after => rw [before, after]
  | publishes => exact absurd rfl publish
  | unpublishes => exact absurd rfl unpublish
  | abandons | synchronizes | releases => rfl

namespace TeardownRun

variable {s t : TeardownRun} {a : RegistryStep} {q : BceQueueRef} {p : BceQueuePtr} {calls : RegistryRun}

/-- Who may have a pointer to a queue whose memory is kept and for which nobody waits: it is in the
tables until the last store of its removal. -/
def place (s : TeardownRun) : BceQueuePtr → Custody QueuesReader
  | .command type => if s.commands.entered type then .published else .withdrawn
  | .user q => if s.lock = some (.deleting q) then .published else (s.calls.life q).custody

def custody (s : TeardownRun) (p : BceQueuePtr) : Custody QueuesReader :=
  match s.memory p with
  | .kept => s.place p
  | .synchronizing readers => .waiting readers
  | .freed => .reclaimed

/-- The queue is a node of the list. -/
def InList (s : TeardownRun) : BceQueuePtr → Prop
  | .command .cq => s.commands = .live
  | .command .sq => False
  | .user q => s.lock = some (.deleting q) ∨
      q.type = .cq ∧ (s.calls.life q).custody = .published ∧ s.lock ≠ some (.adding q)

/-- The calls are in step with the lock, the memory and the stores made so far. -/
structure Ordered (s : TeardownRun) : Prop where
  agrees : s.calls.registry.Agrees s.calls.life
  fits : ∀ q, MemoryFits (s.calls.life q) (s.memory (.user q))
  adding : ∀ q, s.lock = some (.adding q) → q.type = .cq ∧ (s.calls.life q).custody = .published
  deleting : ∀ q, s.lock = some (.deleting q) →
    q.type = .cq ∧ (∃ qid, s.calls.life q = .holding qid .synchronizing) ∧ s.memory (.user q) = .kept
  commands : s.lock = some .commands ↔ s.commands = .unlinked ∨ s.commands = .unentered
  commandMemory : s.memory commandSq = s.memory commandCq
  commandKept : s.commands ≠ .withdrawn → s.memory commandCq = .kept

theorem custody_kept (memory : s.memory p = .kept) : s.custody p = s.place p := by
  rw [custody, memory]

theorem custody_synchronizing {readers : Finset QueuesReader} (memory : s.memory p = .synchronizing readers) :
    s.custody p = .waiting readers := by
  rw [custody, memory]

theorem custody_freed (memory : s.memory p = .freed) : s.custody p = .reclaimed := by
  rw [custody, memory]

theorem custody_congr (memory : t.memory p = s.memory p) (place : t.place p = s.place p) :
    t.custody p = s.custody p := by
  rw [custody, custody, memory, place]

theorem place_user (lock : s.lock ≠ some (.deleting q)) : s.place (.user q) = (s.calls.life q).custody := by
  rw [place, if_neg lock]

/-- What is in the list is published. -/
theorem Ordered.published (ordered : s.Ordered) (member : s.InList p) : s.custody p = .published := by
  cases p with
  | command type =>
    cases type with
    | cq =>
      have live : s.commands = .live := member
      have kept : s.memory (.command .cq) = .kept := ordered.commandKept (by simp [live])
      rw [custody_kept kept, place, live]
      rfl
    | sq => exact member.elim
  | user q =>
    obtain lock | ⟨-, published, -⟩ := member
    · rw [custody_kept (ordered.deleting q lock).2.2, place, if_pos lock]
    · rw [custody_kept ((ordered.fits q).of_published published), place, published]
      split <;> rfl

/-- What `bce->queues` has is published. -/
theorem Ordered.entered (ordered : s.Ordered) {qid : Nat} (entry : s.queues qid = some p) :
    s.custody p = .published := by
  unfold queues at entry
  split at entry
  next type _ =>
    obtain ⟨entered, same⟩ := Option.ite_none_right_eq_some.mp entry
    cases same
    have withdrawn : s.commands ≠ .withdrawn := by
      intro withdrawn
      rw [withdrawn] at entered
      cases type <;> cases entered
    have kept : s.memory (.command type) = .kept := by
      cases type with
      | cq => exact ordered.commandKept withdrawn
      | sq => exact ordered.commandMemory.trans (ordered.commandKept withdrawn)
    rw [custody_kept kept, place, if_pos entered]
  next commands =>
    cases p with
    | command type => exact absurd entry (commands type)
    | user q =>
      have published := QueueLife.custody_of_published ((ordered.agrees.indexed qid (.user q)).mp entry)
      rw [custody_kept ((ordered.fits q).of_published published), place, published]
      split <;> rfl

theorem life_custody (named : a.queue = some q) (run : s.calls.step a = some calls) (publish : a ≠ .publish q)
    (unpublish : a ≠ .unpublish q) (p : BceQueueRef) :
    (calls.life p).custody = (s.calls.life p).custody := by
  by_cases same : p = q
  · rw [same]
    exact (RegistryRun.step_lifeMove named run).custody_eq publish unpublish
  · rw [RegistryRun.life_others named run same]

/-- A step of a call that stores nothing under the lock. -/
theorem Ordered.plain (ordered : s.Ordered) (named : a.queue = some q) (allowed : s.allows a)
    (run : s.calls.step a = some calls) (publish : a ≠ .publish q) (abandon : a ≠ .abandon q)
    (unpublish : a ≠ .unpublish q) : Ordered { s with calls } := by
  have move := RegistryRun.step_lifeMove named run
  have elapsed : a = .synchronized q → (s.memory (.user q)).elapsed := by
    rintro rfl
    exact allowed
  constructor
  case agrees => exact RegistryRun.agrees_step ordered.agrees run
  case fits =>
    intro p
    by_cases same : p = q
    · rw [same]
      exact move.fits (ordered.fits q) elapsed abandon
    · simp only [RegistryRun.life_others named run same]
      exact ordered.fits p
  case adding =>
    intro p lock
    obtain ⟨type, published⟩ := ordered.adding p lock
    exact ⟨type, (life_custody named run publish unpublish p).trans published⟩
  case deleting =>
    intro p lock
    obtain ⟨type, ⟨qid, life⟩, kept⟩ := ordered.deleting p lock
    refine ⟨type, ⟨qid, ?_⟩, kept⟩
    by_cases same : p = q
    · subst same
      rw [life] at move
      generalize calls.life p = m at move
      cases move with
      | prepares before | unregisters before => cases before
      | synchronizes =>
        have elapsed := elapsed rfl
        rw [kept] at elapsed
        exact elapsed.elim
    · exact (RegistryRun.life_others named run same).trans life
  case commands => exact ordered.commands
  case commandMemory => exact ordered.commandMemory
  case commandKept => exact ordered.commandKept

theorem Ordered.publish (ordered : s.Ordered) (free : s.lock = none)
    (run : s.calls.step (.publish q) = some calls) : (s.called calls (.publish q)).Ordered := by
  have move := RegistryRun.step_lifeMove rfl run
  have shown : (calls.life q).custody = .published := by
    generalize s.calls.life q = l, calls.life q = m at move
    cases move with
    | prepares _ _ _ publish | unregisters _ _ publish => exact absurd rfl publish
    | publishes => rfl
  have unlocked : s.commands ≠ .unlinked ∧ s.commands ≠ .unentered := by
    rw [← not_or, ← ordered.commands, free]
    simp
  constructor
  case agrees => exact RegistryRun.agrees_step ordered.agrees run
  case fits =>
    intro p
    by_cases same : p = q
    · rw [same]
      exact move.fits (ordered.fits q) (by simp) (by simp)
    · have others : calls.life p = s.calls.life p := RegistryRun.life_others rfl run same
      simp only [called, others]
      exact ordered.fits p
  case adding =>
    intro p lock
    simp only [called] at lock
    obtain ⟨type, lock⟩ := Option.ite_none_right_eq_some.mp lock
    cases lock
    exact ⟨type, shown⟩
  case deleting =>
    intro p lock
    simp only [called] at lock
    cases (Option.ite_none_right_eq_some.mp lock).2
  case commands =>
    simp only [called, unlocked, or_self, iff_false]
    split <;> simp
  case commandMemory => exact ordered.commandMemory
  case commandKept => exact ordered.commandKept

theorem Ordered.unpublish (ordered : s.Ordered) (free : s.lock = none)
    (run : s.calls.step (.unpublish q) = some calls) : (s.called calls (.unpublish q)).Ordered := by
  have move := RegistryRun.step_lifeMove rfl run
  obtain ⟨qid, before, after⟩ : ∃ qid, s.calls.life q = .holding qid .unpublishing ∧
      calls.life q = .holding qid .synchronizing := by
    generalize s.calls.life q = l, calls.life q = m at move
    cases move with
    | prepares _ _ _ _ _ unpublish | unregisters _ _ _ _ unpublish => exact absurd rfl unpublish
    | unpublishes => exact ⟨_, rfl, rfl⟩
  have unlocked : s.commands ≠ .unlinked ∧ s.commands ≠ .unentered := by
    rw [← not_or, ← ordered.commands, free]
    simp
  constructor
  case agrees => exact RegistryRun.agrees_step ordered.agrees run
  case fits =>
    intro p
    by_cases same : p = q
    · rw [same]
      exact move.fits (ordered.fits q) (by simp) (by simp)
    · have others : calls.life p = s.calls.life p := RegistryRun.life_others rfl run same
      simp only [called, others]
      exact ordered.fits p
  case adding =>
    intro p lock
    simp only [called] at lock
    cases (Option.ite_none_right_eq_some.mp lock).2
  case deleting =>
    intro p lock
    simp only [called] at lock
    obtain ⟨type, lock⟩ := Option.ite_none_right_eq_some.mp lock
    cases lock
    exact ⟨type, ⟨qid, after⟩, (ordered.fits q).of_published (by rw [before]; rfl)⟩
  case commands =>
    simp only [called, unlocked, or_self, iff_false]
    split <;> simp
  case commandMemory => exact ordered.commandMemory
  case commandKept => exact ordered.commandKept

theorem memory_command {memory : BceQueuePtr → QueueMemory} {new : QueueMemory} {type : BceQueueType} :
    Function.update memory (.user q) new (.command type) = memory (.command type) :=
  Function.update_of_ne (by simp) _ _

theorem memory_user {memory : BceQueuePtr → QueueMemory} {new : QueueMemory} {type : BceQueueType} :
    Function.update memory (.command type) new (.user q) = memory (.user q) :=
  Function.update_of_ne (by simp) _ _

/-- The memory of one queue changes while the lock is not on it. -/
theorem Ordered.withMemory (ordered : s.Ordered) {memory : QueueMemory}
    (fits : MemoryFits (s.calls.life q) memory) (unlocked : s.lock ≠ some (.deleting q)) :
    Ordered { s with memory := Function.update s.memory (.user q) memory } where
  agrees := ordered.agrees
  fits p := by
    by_cases same : p = q
    · rw [same]
      simpa using fits
    · simpa [same] using ordered.fits p
  adding := ordered.adding
  deleting p lock := by
    obtain ⟨type, life, kept⟩ := ordered.deleting p lock
    have other : p ≠ q := by
      rintro rfl
      exact unlocked lock
    exact ⟨type, life, by simpa [other] using kept⟩
  commands := ordered.commands
  commandMemory := by
    simp only [commandSq, commandCq, memory_command]
    exact ordered.commandMemory
  commandKept notWithdrawn := by
    simp only [commandCq, memory_command]
    exact ordered.commandKept notWithdrawn

theorem Ordered.abandon (ordered : s.Ordered) (run : s.calls.step (.abandon q) = some calls) :
    (s.called calls (.abandon q)).Ordered := by
  have move := RegistryRun.step_lifeMove rfl run
  obtain ⟨qid, before, after⟩ : ∃ qid, s.calls.life q = .holding qid .abandoning ∧ calls.life q = .failed := by
    generalize s.calls.life q = l, calls.life q = m at move
    cases move with
    | prepares _ _ _ _ abandon | unregisters _ _ _ abandon => exact absurd rfl abandon
    | abandons => exact ⟨_, rfl, rfl⟩
  constructor
  case agrees => exact RegistryRun.agrees_step ordered.agrees run
  case fits =>
    intro p
    by_cases same : p = q
    · subst same
      simp only [called, Function.update_self, after]
      exact .abandoned
    · have others : calls.life p = s.calls.life p := RegistryRun.life_others rfl run same
      simpa [called, others, same] using ordered.fits p
  case adding =>
    intro p lock
    obtain ⟨type, published⟩ := ordered.adding p lock
    refine ⟨type, ?_⟩
    have other : p ≠ q := by
      rintro rfl
      rw [before] at published
      cases published
    simpa only [called, RegistryRun.life_others rfl run other] using published
  case deleting =>
    intro p lock
    obtain ⟨type, ⟨k, life⟩, kept⟩ := ordered.deleting p lock
    have other : p ≠ q := by
      rintro rfl
      rw [before] at life
      cases life
    refine ⟨type, ⟨k, ?_⟩, by simpa [called, other] using kept⟩
    simpa only [called, RegistryRun.life_others rfl run other] using life
  case commands => exact ordered.commands
  case commandMemory =>
    simp only [called, commandSq, commandCq, memory_command]
    exact ordered.commandMemory
  case commandKept =>
    intro notWithdrawn
    simp only [called, commandCq, memory_command]
    exact ordered.commandKept notWithdrawn

theorem Ordered.store (ordered : s.Ordered) (run : s.storeStep = some t) : t.Ordered := by
  unfold storeStep at run
  split at run
  case h_1 => cases run
  case h_2 q lock =>
    cases Option.some.inj run
    have unlocked : s.commands ≠ .unlinked ∧ s.commands ≠ .unentered := by
      rw [← not_or, ← ordered.commands, lock]
      simp
    exact ⟨ordered.agrees, ordered.fits, by simp, by simp, by simp [unlocked], ordered.commandMemory,
      ordered.commandKept⟩
  case h_3 q lock =>
    cases Option.some.inj run
    have unlocked : s.commands ≠ .unlinked ∧ s.commands ≠ .unentered := by
      rw [← not_or, ← ordered.commands, lock]
      simp
    exact ⟨ordered.agrees, ordered.fits, by simp, by simp, by simp [unlocked], ordered.commandMemory,
      ordered.commandKept⟩
  case h_4 lock =>
    split at run
    case h_1 stores =>
      cases Option.some.inj run
      exact ⟨ordered.agrees, ordered.fits, by simp [lock], by simp [lock], by simp [lock],
        ordered.commandMemory, fun _ => ordered.commandKept (by simp [stores])⟩
    case h_2 stores =>
      cases Option.some.inj run
      exact ⟨ordered.agrees, ordered.fits, by simp, by simp, by simp, ordered.commandMemory, by simp⟩
    case h_3 => cases run

theorem Ordered.freeCommandQueues (ordered : s.Ordered) (live : s.commands = .live) :
    Ordered { s with links := s.links.remove commandCq, commands := .unlinked, lock := some .commands } where
  agrees := ordered.agrees
  fits := ordered.fits
  adding := by simp
  deleting := by simp
  commands := by simp
  commandMemory := ordered.commandMemory
  commandKept _ := ordered.commandKept (by simp [live])

theorem Ordered.withCommandMemory (ordered : s.Ordered) (withdrawn : s.commands = .withdrawn)
    (memory : QueueMemory) :
    Ordered { s with
      memory := Function.update (Function.update s.memory commandCq memory) commandSq memory } where
  agrees := ordered.agrees
  fits p := by
    simp only [commandSq, commandCq, memory_user]
    exact ordered.fits p
  adding := ordered.adding
  deleting p lock := by
    simp only [commandSq, commandCq, memory_user]
    exact ordered.deleting p lock
  commands := ordered.commands
  commandMemory := by simp [commandSq, commandCq]
  commandKept notWithdrawn := absurd withdrawn notWithdrawn

theorem MemoryFits.leave {life : QueueLife} {memory : QueueMemory} (fits : MemoryFits life memory) :
    MemoryFits life memory.leave := by
  cases fits with
  | kept unreleased undestroyed => exact .kept unreleased undestroyed
  | waiting => exact .waiting
  | waited => exact .waited
  | released => exact .released
  | freed => exact .freed
  | abandoned => exact .abandoned

theorem Ordered.leave (ordered : s.Ordered) : s.leave.Ordered where
  agrees := ordered.agrees
  fits p := MemoryFits.leave (ordered.fits p)
  adding := ordered.adding
  deleting p lock := by
    obtain ⟨type, life, kept⟩ := ordered.deleting p lock
    exact ⟨type, life, by simp [TeardownRun.leave, kept, QueueMemory.leave]⟩
  commands := ordered.commands
  commandMemory := by
    simp only [TeardownRun.leave, ordered.commandMemory]
  commandKept notWithdrawn := by
    simp only [TeardownRun.leave, ordered.commandKept notWithdrawn, QueueMemory.leave]

/-- Steps of the interrupt thread that do not end the pass, and changes of the rings. -/
theorem Ordered.onPass (ordered : s.Ordered) (cqs : BceQueuePtr → BceQueueCq) (sqs : BceQueuePtr → BceQueueSq)
    (irq : Option DmaIrqPass) : Ordered { s with cqs, sqs, irq } where
  agrees := ordered.agrees
  fits := ordered.fits
  adding := ordered.adding
  deleting := ordered.deleting
  commands := ordered.commands
  commandMemory := ordered.commandMemory
  commandKept := ordered.commandKept

theorem Ordered.call (ordered : s.Ordered) (allowed : s.allows a) (run : s.calls.step a = some calls) :
    (s.called calls a).Ordered := by
  cases a with
  | publish q => exact ordered.publish allowed run
  | unpublish q => exact ordered.unpublish allowed run
  | abandon q => exact ordered.abandon run
  | remove =>
    cases Option.some.inj run
    exact ⟨ordered.agrees, ordered.fits, ordered.adding, ordered.deleting, ordered.commands,
      ordered.commandMemory, ordered.commandKept⟩
  | createCq | createSq | createSqWithFlags | qidAlloc q | allocated q | registered q | destroy q
  | unregistered q | synchronized q | release q =>
    exact ordered.plain rfl allowed run (by simp) (by simp) (by simp)

/-- A step of the interrupt thread ends the pass or goes on with it. -/
theorem irqStep_cases (run : s.irqStep = some t) :
    (s.irq.isSome ∧ t = s.leave) ∨ ∃ cqs sqs pass, t = { s with cqs, sqs, irq := some pass } := by
  unfold irqStep at run
  split at run
  next => exact Or.inr ⟨s.cqs, s.sqs, _, (Option.some.inj run).symm⟩
  next pass irq =>
    split at run
    next pos _ =>
      split at run
      · exact Or.inr ⟨s.cqs, s.sqs, _, (Option.some.inj run).symm⟩
      · exact Or.inr ⟨s.cqs, s.sqs, _, (Option.some.inj run).symm⟩
    next cq _ =>
      dsimp only at run
      split at run
      · exact Or.inr ⟨s.cqs, s.sqs, _, (Option.some.inj run).symm⟩
      · exact Or.inr ⟨s.cqs, s.sqs, _, (Option.some.inj run).symm⟩
    next cq e target _ => exact Or.inr ⟨_, _, _, (Option.some.inj run).symm⟩
    next =>
      obtain ⟨-, run⟩ := Option.ite_none_right_eq_some.mp run
      exact Or.inl ⟨by simp [irq], (Option.some.inj run).symm⟩

theorem Ordered.step {label : TeardownStep} (ordered : s.Ordered) (run : s.step label = some t) :
    t.Ordered := by
  cases label with
  | call a =>
    obtain ⟨allowed, ran⟩ := Option.ite_none_right_eq_some.mp run
    obtain ⟨calls, called, rfl⟩ := Option.map_eq_some_iff.mp ran
    exact ordered.call allowed called
  | store => exact ordered.store run
  | synchronize q =>
    simp only [TeardownRun.step] at run
    split at run
    next qid life _ =>
      obtain ⟨unlocked, run⟩ := Option.ite_none_left_eq_some.mp run
      cases Option.some.inj run
      exact ordered.withMemory (by rw [life]; exact .waiting) unlocked
    next => cases run
  | free q =>
    obtain ⟨⟨destroyed, elapsed⟩, run⟩ := Option.ite_none_right_eq_some.mp run
    cases Option.some.inj run
    refine ordered.withMemory (by rw [destroyed]; exact .freed) ?_
    intro lock
    obtain ⟨-, ⟨qid, life⟩, -⟩ := ordered.deleting q lock
    rw [destroyed] at life
    cases life
  | freeCommandQueues =>
    obtain ⟨⟨live, -⟩, run⟩ := Option.ite_none_right_eq_some.mp run
    cases Option.some.inj run
    exact ordered.freeCommandQueues live
  | synchronizeCommands =>
    simp only [TeardownRun.step] at run
    split at run
    next withdrawn _ =>
      cases Option.some.inj run
      exact ordered.withCommandMemory withdrawn _
    next => cases run
  | freeCommands =>
    obtain ⟨elapsed, run⟩ := Option.ite_none_right_eq_some.mp run
    cases Option.some.inj run
    refine ordered.withCommandMemory ?_ _
    by_contra kept
    rw [ordered.commandKept kept] at elapsed
    exact elapsed
  | irq =>
    obtain ⟨-, rfl⟩ | ⟨cqs, sqs, pass, rfl⟩ := irqStep_cases run
    · exact ordered.leave
    · exact ordered.onPass cqs sqs (some pass)
  | completion after =>
    simp only [TeardownRun.step, completionStep] at run
    split at run
    next =>
      cases Option.some.inj run
      exact ordered.onPass _ _ _
    next => cases run
  | rings cqs sqs =>
    cases Option.some.inj run
    exact ordered.onPass cqs sqs s.irq

theorem start_ordered (cqs : BceQueuePtr → BceQueueCq) (sqs : BceQueuePtr → BceQueueSq) :
    (start cqs sqs).Ordered where
  agrees := QueueRegistry.start_agrees
  fits _ := .kept (by simp [start, RegistryRun.start]) (by simp [start, RegistryRun.start])
  adding := by simp [start]
  deleting := by simp [start]
  commands := by simp [start]
  commandMemory := rfl
  commandKept _ := rfl

end TeardownRun

end AppleBce

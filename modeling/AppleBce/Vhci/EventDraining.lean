import AppleBce.Vhci.EventQueues

namespace AppleBce

open Basis

/-- What makes submissions whether the queue is draining or not: the firmware-command worker when
it finds a message, and a caller of resume that has flushed when it finds nothing submitted. -/
def EventQueueRun.HandsBack (r : EventQueueRun) : EventQueueOp → Prop
  | .worker _ => ∃ c ∈ r.sq.firmwareCompletions, c.aborted = false
  | .resumeFlushed => r.drained = true
  | _ => False

/-- No submission was made, and notified submissions only made more room. -/
structure BceQueueSq.OnlyGrows (before after : BceQueueSq) : Prop where
  tail : after.tail = before.tail
  available : before.availableCommands ≤ after.availableCommands

theorem BceQueueSq.OnlyGrows.refl (sq : BceQueueSq) : sq.OnlyGrows sq :=
  ⟨rfl, le_rfl⟩

theorem BceQueueSq.OnlyGrows.trans {a b c : BceQueueSq} (first : a.OnlyGrows b) (second : b.OnlyGrows c) :
    a.OnlyGrows c :=
  ⟨second.tail.trans first.tail, first.available.trans second.available⟩

theorem EventQueueRun.op_draining {name : EventQueueName} {r r' : EventQueueRun} {o : EventQueueOp}
    (run : r.op name o = some r') (no_resume : o ≠ .resume) (draining : r.draining = true) :
    r'.draining = true := by
  cases o with
  | handler =>
    simp only [op, Option.ite_none_left_eq_some, Option.some.injEq] at run
    obtain ⟨-, rfl⟩ := run
    simp only [BceVhciEventQueue.completion, draining, ↓reduceIte]
  | worker env =>
    simp only [op, Option.ite_none_right_eq_some, Option.some.injEq] at run
    obtain ⟨-, rfl⟩ := run
    exact draining
  | pause =>
    cases Option.some.inj run
    rfl
  | resume => exact absurd rfl no_resume
  | resumeFlushed =>
    simp only [op, Option.ite_none_right_eq_some, Option.some.injEq] at run
    obtain ⟨-, rfl⟩ := run
    simp only [BceVhciEventQueue.resumeFlushed]
    split <;> exact draining

/-- An operation that leaves its queue draining keeps all buffers back, unless it hands some back. -/
theorem EventQueueRun.op_onlyGrows_iff {name : EventQueueName} {r r' : EventQueueRun} {o : EventQueueOp}
    {pos h d : Nat} {es : List BceQeCompletion} (ring : EventRing r.sq r.next es pos h d)
    (run : r.op name o = some r') (draining : r.draining = true) (still : r'.draining = true) :
    r.sq.OnlyGrows r'.sq ↔ ¬r.HandsBack o := by
  obtain ⟨pos', h', count, ring', fewer, same, makes⟩ := op_ring ring run
  have small : h' + es.length + (d + count) ≤ vhciEventPendingCount := ring'.bound
  have size : vhciEventPendingCount < vhciEventQueueElCount := by decide
  have grows : r.sq.OnlyGrows r'.sq ↔ count = 0 := by
    constructor
    · intro kept
      have tails := kept.tail
      rw [ring.tail, ring'.tail, same] at tails
      rw [show pos + h + es.length + (d + count) = pos + h + es.length + d + count by omega] at tails
      have apart : (pos + h + es.length + d + count) % vhciEventQueueElCount =
          (pos + h + es.length + d + 0) % vhciEventQueueElCount := tails
      exact ring_index_injective (by omega) (by omega) apart
    · rintro rfl
      constructor
      · rw [ring.tail, ring'.tail, same, Nat.add_zero]
      · rw [ring.available, ring'.available]
        omega
  rw [grows]
  cases o with
  | handler => simpa [HandsBack] using makes draining
  | worker env =>
    simp only [Makes] at makes
    rw [makes]
    simp [HandsBack]
  | pause => simpa [HandsBack, Makes] using makes
  | resume =>
    simp only [op, Option.some.injEq] at run
    subst run
    simp only [BceVhciEventQueue.resume] at still
    split at still <;> simp [BceVhciEventQueue.submitPending] at still
  | resumeFlushed =>
    simp only [Makes] at makes
    rw [makes, HandsBack, BceVhciEventQueue.resubmits]
    split
    · rename_i empty
      simp [empty, vhciEventPendingCount]
    · rename_i outstanding
      simp [outstanding]

namespace EventQueues

variable {s t : EventQueues} {q : EventQueueName} {r r' : EventQueueRun} {l : EventStep}

/-- The step hands buffers of the queue back to the device. -/
def HandsBack (q : EventQueueName) (s : EventQueues) : EventStep → Prop
  | .op q' o => q' = q ∧ ∃ r, s.queues q = some r ∧ r.HandsBack o
  | _ => False

/-- Only a call of resume ends the draining. -/
theorem step_draining (rings : s.Rings) (run : s.step l = some t) (before : s.queues q = some r)
    (draining : r.draining = true) (no_resume : l ≠ .op q .resume) :
    ∃ r', t.queues q = some r' ∧ r'.draining = true ∧ (r.sq.OnlyGrows r'.sq ↔ ¬s.HandsBack q l) := by
  obtain ⟨r', after, ⟨o, rfl, ran⟩ | ⟨other, same, tail, available⟩⟩ := rings.step_queue run before
  · have still : r'.draining = true := by
      have kept : o ≠ .resume := fun resumes => no_resume (by rw [resumes])
      exact EventQueueRun.op_draining ran kept draining
    obtain ⟨pos, h, d, ring⟩ := rings.ring before
    refine ⟨r', after, still, ?_⟩
    rw [EventQueueRun.op_onlyGrows_iff ring ran draining still]
    simp [HandsBack, before]
  · refine ⟨r', after, same.trans draining, iff_of_true ⟨tail, available.ge⟩ ?_⟩
    cases l with
    | op q' o =>
      rintro ⟨rfl, -⟩
      exact other o rfl
    | _ => exact not_false

/-- A step that leaves the queue draining and hands none of its buffers back. -/
def KeepsBack (q : EventQueueName) (s : EventQueues) (l : EventStep) : Prop :=
  l ≠ .op q .resume ∧ ¬s.HandsBack q l

/-- Once an event queue drains, no submission is made on it and its available commands only grow,
for as long as the firmware-command worker finds no message and no caller of resume that slept
over the pause finds the queue empty; and of the steps before the next resume only those two
make submissions. -/
theorem draining_hands_nothing_back (reach : eventMachine.Reachable s) (paused : s.queues q = some r)
    (draining : r.draining = true) (window : (eventMachine.since s).ReachableUnder (KeepsBack q) t) :
    ∃ r', t.queues q = some r' ∧ r'.draining = true ∧ r.sq.OnlyGrows r'.sq ∧
      r'.sq.availableCommands = (vhciEventQueueElCount : Int) - 1 - r'.sq.submitted ∧
      ∀ l u, t.step l = some u → l ≠ .op q .resume →
        ∃ r'', u.queues q = some r'' ∧ (r'.sq.OnlyGrows r''.sq ↔ ¬t.HandsBack q l) := by
  have rings : t.Rings := rings_reachable (reach.later window)
  have drains : ∃ r', t.queues q = some r' ∧ r'.draining = true ∧ r.sq.OnlyGrows r'.sq := by
    clear rings
    induction window with
    | start begins => exact ⟨r, begins ▸ paused, draining, .refl _⟩
    | next before keeps run ih =>
      obtain ⟨r', here, still, kept⟩ := ih
      obtain ⟨r'', after, again, grows⟩ :=
        step_draining (rings_reachable (reach.later before)) run here still keeps.1
      exact ⟨r'', after, again, kept.trans (grows.mpr keeps.2)⟩
  obtain ⟨r', here, still, kept⟩ := drains
  obtain ⟨pos, h, d, ring⟩ := rings.ring here
  refine ⟨r', here, still, kept, ring.available_eq, ?_⟩
  intro l u run no_resume
  obtain ⟨r'', after, -, grows⟩ := step_draining rings run here still no_resume
  exact ⟨r'', after, grows⟩

/-- The queue of system events is created and paused. -/
def systemPaused : EventQueues :=
  after ⟨fun _ => none, []⟩ [.create .system 6, .op .system .pause] rfl

/-- The handler finds its oldest buffer flushed. -/
theorem draining_hands_nothing_back_flush :
    ∃ t r r', eventMachine.run systemPaused [.complete .system bceCompletionAborted 0 0, .harvest,
        .op .system .handler] = some t ∧ systemPaused.queues .system = some r ∧
      t.queues .system = some r' ∧ r.sq.OnlyGrows r'.sq := by
  let s := systemPaused
  let s₁ := s.after [.complete .system bceCompletionAborted 0 0] rfl
  let s₂ := s₁.after [.harvest] rfl
  let t := s₂.after [.op .system .handler] rfl
  have begins : eventMachine.Reachable s := .of_run (.start rfl) _ run_after
  have window : (eventMachine.since s).ReachableUnder (KeepsBack .system) t := by
    refine .next (s := s₂) (a := .op .system .handler) (.next (s := s₁) (a := .harvest) (.next (s := s)
      (a := .complete .system bceCompletionAborted 0 0) (.start rfl) ?_ rfl) ?_ rfl) ?_ rfl
    all_goals simp [KeepsBack, HandsBack, EventQueueRun.HandsBack]
  obtain ⟨r', here, -, grows, -⟩ :=
    draining_hands_nothing_back (r := (s.queues .system).get rfl) begins rfl rfl window
  exact ⟨t, _, r', rfl, rfl, here, grows⟩

/-- The firmware-command queue is paused with an event that was completed before, and the worker
handles it. -/
theorem draining_worker_hands_back : ¬∀ (s t : EventQueues) (l : EventStep) (q : EventQueueName)
    (r r' : EventQueueRun), eventMachine.Reachable s → s.step l = some t → s.queues q = some r →
    t.queues q = some r' → r.draining = true → r'.draining = true → r.sq.OnlyGrows r'.sq := by
  intro keeps
  let s := after ⟨fun _ => none, []⟩
    [.create .commands 5, .complete .commands bceCompletionSuccess 16 0, .harvest, .op .commands .pause] rfl
  let t := s.after [.op .commands (.worker pauseThenStale)] rfl
  have kept := keeps s t (.op .commands (.worker pauseThenStale)) .commands ((s.queues .commands).get rfl)
    ((t.queues .commands).get rfl) (Machine.Reachable.of_run (.start rfl) _ run_after) ?_ ?_ ?_ rfl rfl
  · exact absurd kept.tail (by decide)
  all_goals rfl

end EventQueues

end AppleBce

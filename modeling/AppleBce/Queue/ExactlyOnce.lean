import AppleBce.Queue.Delivery

namespace AppleBce

open Basis

/-- `t` is reached from `s` by a run in which the device writes nothing. -/
def Settles (cfg : DeliveryConfig) (s t : DeliveryRun) : Prop :=
  ∃ as, (deliveryMachine cfg).run s as = some t ∧ t.stream = s.stream

namespace Settles

variable {cfg : DeliveryConfig} {s t u : DeliveryRun}

theorem refl (s : DeliveryRun) : Settles cfg s s :=
  ⟨[], rfl, rfl⟩

theorem trans (first : Settles cfg s t) (second : Settles cfg t u) : Settles cfg s u := by
  obtain ⟨as, ranFirst, sameFirst⟩ := first
  obtain ⟨bs, ranSecond, sameSecond⟩ := second
  refine ⟨as ++ bs, ?_, sameSecond.trans sameFirst⟩
  rw [Machine.run_append, ranFirst, Option.bind_some, ranSecond]

theorem of_step {a : DeliveryStep} (run : s.step cfg a = some t) (same : t.stream = s.stream) :
    Settles cfg s t :=
  ⟨[a], Machine.run_single run, same⟩

theorem reachable (settles : Settles cfg s t) (reach : (deliveryMachine cfg).Reachable s) :
    (deliveryMachine cfg).Reachable t := by
  obtain ⟨as, ran, -⟩ := settles
  exact reach.of_run as ran

end Settles

namespace AppleBceDevice

theorem pollLoop_fixed (cq rounds : Nat) (dev : AppleBceDevice) (ce : List Nat) :
    (pollLoop cq rounds dev ce).1.queues = dev.queues ∧ (pollLoop cq rounds dev ce).1.cqList = dev.cqList := by
  induction rounds generalizing dev ce with
  | zero => exact ⟨rfl, rfl⟩
  | succ rounds ih =>
    rw [pollLoop]
    split
    · exact ih ..
    · exact ⟨rfl, rfl⟩

theorem pollCq_fixed (dev : AppleBceDevice) (cq : Nat) (ce : List Nat) :
    (dev.pollCq cq ce).1.queues = dev.queues ∧ (dev.pollCq cq ce).1.cqList = dev.cqList := by
  rw [pollCq]
  split
  · exact pollLoop_fixed ..
  · exact ⟨rfl, rfl⟩

end AppleBceDevice

namespace DeliveryRun

/-- The polling phase ends with every listed completion queue harvested. -/
theorem settles_poll (cfg : DeliveryConfig) {s : DeliveryRun} {todo ce : List Nat}
    (phase : s.irq = .running todo ce) :
    ∃ t ce', Settles cfg s t ∧ t.irq = .running [] ce' ∧ t.dev.queues = s.dev.queues ∧
      t.dev.cqList = s.dev.cqList ∧ ∀ cq, cq ∈ todo ∨ s.inCq cq = [] → t.inCq cq = [] := by
  induction todo generalizing s ce with
  | nil => exact ⟨s, ce, .refl s, phase, rfl, rfl, fun cq either => by simpa using either⟩
  | cons cq todo ih =>
    obtain ⟨t, ce', settles, last, queues, cqList, harvested⟩ := ih (s := s.poll cq todo ce) rfl
    have fixed := s.dev.pollCq_fixed cq ce
    have first : s.step cfg .irqPoll = some (s.poll cq todo ce) := by
      rw [step, phase]
    refine ⟨t, ce', (Settles.of_step first rfl).trans settles, last, queues.trans fixed.1, cqList.trans fixed.2, ?_⟩
    intro x either
    refine harvested x ?_
    by_cases same : x = cq
    · exact Or.inr (by simp only [poll, same, Function.update_self])
    · rcases either with member | empty
      · exact Or.inl (List.mem_of_ne_of_mem same member)
      · exact Or.inr (by simp only [poll, Function.update_of_ne same, empty])

/-- The dispatching phase ends and leaves the interrupt. -/
theorem settles_dispatch (cfg : DeliveryConfig) {s : DeliveryRun} {ce : List Nat} (phase : s.irq = .running [] ce) :
    ∃ t, Settles cfg s t ∧ t.irq = .idle ∧ t.dev.queues = s.dev.queues ∧
      t.dev.cqList = s.dev.cqList ∧ t.inCq = s.inCq := by
  induction ce generalizing s with
  | nil =>
    exact ⟨{ s with irq := .idle }, .of_step (a := .irqLeave) (by rw [step, phase]) rfl, rfl, rfl, rfl, rfl⟩
  | cons q ce ih =>
    obtain ⟨t, settles, last, queues, cqList, inCq⟩ := ih (s := s.dispatch cfg q ce) rfl
    have first : s.step cfg .irqDispatch = some (s.dispatch cfg q ce) := by
      rw [step, phase]
    exact ⟨t, (Settles.of_step first rfl).trans settles, last, queues, cqList, inCq⟩

/-- From any state the interrupt can finish and run once more, after which every listed
completion queue is harvested. -/
theorem settles_pass (cfg : DeliveryConfig) (s : DeliveryRun) :
    ∃ t, Settles cfg s t ∧ t.irq = .idle ∧ t.dev.queues = s.dev.queues ∧
      t.dev.cqList = s.dev.cqList ∧ ∀ cq ∈ s.dev.cqList, t.inCq cq = [] := by
  obtain ⟨t, settles, idle, queues, cqList⟩ : ∃ t, Settles cfg s t ∧ t.irq = .idle ∧
      t.dev.queues = s.dev.queues ∧ t.dev.cqList = s.dev.cqList := by
    cases phase : s.irq with
    | idle => exact ⟨s, .refl s, phase, rfl, rfl⟩
    | running todo ce =>
      obtain ⟨t, ce', polling, polled, queues, cqList, -⟩ := settles_poll cfg phase
      obtain ⟨u, dispatching, idle, queuesU, cqListU, -⟩ := settles_dispatch cfg polled
      exact ⟨u, polling.trans dispatching, idle, queuesU.trans queues, cqListU.trans cqList⟩
  have enter : Settles cfg t { t with irq := .running t.dev.cqList [] } :=
    .of_step (a := .irqEnter) (by rw [step, idle]) rfl
  obtain ⟨u, ce', polling, polled, queuesU, cqListU, harvested⟩ :=
    settles_poll cfg (s := { t with irq := .running t.dev.cqList [] }) rfl
  obtain ⟨v, dispatching, idleV, queuesV, cqListV, inCq⟩ := settles_dispatch cfg polled
  refine ⟨v, settles.trans (enter.trans (polling.trans dispatching)), idleV,
    queuesV.trans (queuesU.trans queues), cqListV.trans (cqListU.trans cqList), ?_⟩
  intro cq member
  rw [inCq]
  exact harvested cq (Or.inl (by simpa only [cqList] using member))

/-- A running worker can take all that is harvested for its queue. -/
theorem settles_work {cfg : DeliveryConfig} {s : DeliveryRun} {q : Nat}
    (reach : (deliveryMachine cfg).Reachable s) (running : (s.work q).running) :
    ∃ t, Settles cfg s t ∧ (t.dev.sqs q).nextCompletion = none ∧ t.dev.queues = s.dev.queues ∧
      t.inCq = s.inCq := by
  -- each completion taken brings the queue one step nearer to all that was written for it
  induction gap : (entriesOf q s.stream).length - (s.obtained q).length generalizing s with
  | zero =>
    have inv := delivery_invariant reach
    obtain ⟨before, harvested, queue⟩ := inv.delivers.queue q (inv.worker q (Or.inr running)).1
    refine ⟨s, .refl s, ?_, rfl, rfl⟩
    by_contra available
    obtain ⟨⟨c, after⟩, taken⟩ := Option.ne_none_iff_exists'.mp available
    obtain ⟨e, rest, rfl, -, -⟩ := queue.flow.next taken
    have written := congrArg List.length queue.written
    simp only [List.length_append, List.length_cons] at written
    have obtained := queue.length_obtained
    omega
  | succ left ih =>
    by_cases available : (s.dev.sqs q).nextCompletion = none
    · exact ⟨s, .refl s, available, rfl, rfl⟩
    · obtain ⟨⟨c, after⟩, taken⟩ := Option.ne_none_iff_exists'.mp available
      let next : DeliveryRun := { s with
        dev := { s.dev with sqs := Function.update s.dev.sqs q after }
        obtained := Function.update s.obtained q
          (s.obtained q ++ [⟨(s.dev.sqs q).head, s.owed q, c⟩])
        owed := Function.update s.owed q (s.owed q + 1) }
      have first : s.step cfg (.workNext q) = some next := by
        rw [step, if_pos running, taken, Option.map_some]
      have nearer : (entriesOf q next.stream).length - (next.obtained q).length = left := by
        simp only [next, Function.update_self, List.length_append, List.length_singleton]
        omega
      obtain ⟨t, settles, empty, queues, inCq⟩ := ih (s := next)
        (reach.next (a := .workNext q) first) running nearer
      exact ⟨t, (Settles.of_step first rfl).trans settles, empty, queues, inCq⟩

end DeliveryRun

/-- Without further writes every live queue can be brought to the point where its handler
has obtained all that was written for it. -/
theorem settles_all {cfg : DeliveryConfig} {s : DeliveryRun} {q : Nat}
    (reach : (deliveryMachine cfg).Reachable s) (live : s.dev.queues q = some .sq) :
    ∃ t, Settles cfg s t ∧
      (t.obtained q).map ObtainedCompletion.data = (entriesOf q s.stream).map BceQeCompletion.data := by
  obtain ⟨t, settles, idle, queues, -, harvested⟩ := s.settles_pass cfg
  have reachT := settles.reachable reach
  have inv := delivery_invariant reachT
  have noneBehind : unharvested cfg t.inCq q = [] := by
    rw [unharvested, harvested _ ((delivery_invariant reach).polled q live), entriesOf_nil]
  obtain ⟨before, waiting, queue⟩ := inv.delivers.queue q (by rw [queues]; exact live)
  rw [noneBehind] at queue
  by_cases active : waiting = []
  · subst active
    refine ⟨t, settles, ?_⟩
    rw [queue.taken, ← settles.choose_spec.2, queue.written, List.append_nil, List.append_nil]
  · -- what still waits is left to a worker
    obtain ⟨deferred, working⟩ : ¬cfg.inline q ∧ ((t.work q).queued ∨ (t.work q).running) := by
      simpa only [idle, IrqPhase.listed, List.not_mem_nil, false_or] using queue.waiting active
    obtain ⟨u, starting, running, inCq⟩ : ∃ u, Settles cfg t u ∧ (u.work q).running ∧ u.inCq = t.inCq := by
      by_cases running : (t.work q).running
      · exact ⟨t, .refl t, running, rfl⟩
      · have queued := working.resolve_right running
        have start : t.step cfg (.workStart q) =
            some { t with work := Function.update t.work q ⟨false, true⟩ } := by
          rw [DeliveryRun.step, if_pos ⟨queued, running⟩]
        exact ⟨_, .of_step start rfl, by simp, rfl⟩
    have reachU := starting.reachable reachT
    obtain ⟨v, taking, empty, queuesV, inCqV⟩ := DeliveryRun.settles_work reachU running
    have invV := delivery_invariant (taking.reachable reachU)
    have activeU := (delivery_invariant reachU).worker q (Or.inr running)
    obtain ⟨beforeV, waitingV, queueV⟩ := invV.delivers.queue q (by rw [queuesV]; exact activeU.1)
    obtain rfl := queueV.flow.next_none empty
    rw [unharvested, inCqV, inCq, ← unharvested, noneBehind] at queueV
    have all := settles.trans (starting.trans taking)
    refine ⟨v, all, ?_⟩
    rw [queueV.taken, ← all.choose_spec.2, queueV.written, List.append_nil, List.append_nil]

/-- Every run delivers the entries of a live queue exactly once and in order: what its handler
obtained, what is unread and what is unharvested make up what was written for it, and nothing
stays behind for good. The head of the queue trails the completion index by the completions not
notified, so a handler that notifies each before it asks for the next reads the slot of the
submission that completed. -/
theorem completions_delivered_once {cfg : DeliveryConfig} {s : DeliveryRun} {q : Nat}
    (reach : (deliveryMachine cfg).Reachable s) (live : s.dev.queues q = some .sq) :
    (entriesOf q s.stream).map BceQeCompletion.data =
        (s.obtained q).map ObtainedCompletion.data ++ (s.dev.sqs q).unread ++
          (unharvested cfg s.inCq q).map BceQeCompletion.data ∧
      (∃ t, Settles cfg s t ∧
        (t.obtained q).map ObtainedCompletion.data = (entriesOf q s.stream).map BceQeCompletion.data) ∧
      (s.dev.sqs q).completionCidx = ((s.dev.sqs q).head + s.owed q) % (s.dev.sqs q).elCount ∧
      (s.owed q = 0 → (s.dev.sqs q).completionCidx = (s.dev.sqs q).head) ∧
      (cfg.inline q → s.owed q = 0 ∧ ∀ o ∈ s.obtained q, o.owed = 0) ∧
      ∀ k o, (s.obtained q)[k]? = some o → o.owed = 0 → o.slot = k % (s.dev.sqs q).elCount := by
  obtain ⟨before, harvested, queue⟩ := (delivery_invariant reach).delivers.queue q live
  refine ⟨queue.data_eq, settles_all reach live, queue.head, ?_, queue.prompt, ?_⟩
  · intro notOwed
    rw [queue.head, notOwed, Nat.add_zero, Nat.mod_eq_of_lt queue.inRing]
  · intro k o at_k notOwed
    obtain ⟨bound, slot⟩ := queue.slot k o at_k
    rwa [notOwed, Nat.add_zero, Nat.mod_eq_of_lt bound] at slot

/-- Two queues of two elements share one completion queue; the handler of the second one
queues its worker. -/
def sharedCq : DeliveryConfig where
  cqOf := fun _ => 0
  inline := fun q => q = 1

def sharedCqStart : DeliveryRun where
  dev := {
    queues := fun q => if q = 1 ∨ q = 2 then some .sq else none
    sqs := fun q => bceAllocSq q 2
    cqs := fun cq => ⟨cq, 4, fun _ => ⟨0, 0, 0, 0, 0, 0⟩, 0⟩
    cqList := [0]
    doorbell := fun _ => 0 }
  irq := .idle
  work := fun _ => ⟨false, false⟩
  owed := fun _ => 0
  inCq := fun _ => []
  stream := []
  obtained := fun _ => []

theorem sharedCqStart_init : DeliveryRun.Init sharedCq sharedCqStart where
  irq := rfl
  work := rfl
  owed := rfl
  inCq := rfl
  stream := rfl
  obtained := rfl
  sq := fun q _ => ⟨le_rfl, rfl, rfl, rfl, rfl, List.mem_cons_self ..⟩
  cq := by
    intro cq member
    exact ⟨(by decide : 0 < 4), (by decide : 0 ≤ 4), rfl, by simp,
      fun _ _ _ => by simp [sharedCqStart, BceQeCompletion.pending]⟩

def sharedCqRun : List DeliveryStep :=
  [.write ⟨7, 70, 1, 0, 0, 0x8000⟩, .write ⟨8, 80, 2, 0, 0, 0x8000⟩, .irqEnter, .irqPoll,
    .irqDispatch, .irqDispatch, .irqLeave, .workStart 2, .workNext 2]

/-- Both queues complete one submission, and each handler gets its own completion. -/
theorem completions_delivered_once_shared : ∃ s,
    (deliveryMachine sharedCq).run sharedCqStart sharedCqRun = some s ∧
      s.obtained 1 = [⟨0, 0, ⟨0, 70, 7⟩⟩] ∧ s.obtained 2 = [⟨0, 0, ⟨0, 80, 8⟩⟩] ∧
      (entriesOf 1 s.stream).map BceQeCompletion.data =
        (s.obtained 1).map ObtainedCompletion.data ++ (s.dev.sqs 1).unread ++
          (unharvested sharedCq s.inCq 1).map BceQeCompletion.data := by
  refine ⟨_, rfl, rfl, rfl, ?_⟩
  exact (completions_delivered_once ((Machine.Reachable.start sharedCqStart_init).of_run sharedCqRun rfl) rfl).1

end AppleBce

import AppleBce.Vhci.EventQueues
import Mathlib.Algebra.BigOperators.Group.Finset.Basic
import Mathlib.Algebra.Order.BigOperators.Group.Finset

namespace AppleBce

open Basis

namespace EventQueues

variable {s t : EventQueues} {q : EventQueueName} {r r' : EventQueueRun}

def names : Finset EventQueueName :=
  {.commands, .system, .isochronous, .interrupt, .asynchronous}

theorem mem_names (q : EventQueueName) : q ∈ names := by
  cases q <;> decide

/-- The shared completion queue holds the entries of the five queues and no others. -/
theorem length_cq (s : EventQueues) : s.cq.length = ∑ q ∈ names, (s.unharvested q).length := by
  have split := Multiset.sum_count_eq_card (s := names) (m := (s.cq.map Prod.fst : Multiset EventQueueName))
    fun q _ => mem_names q
  rw [Multiset.coe_card, List.length_map] at split
  rw [← split]
  refine Finset.sum_congr rfl fun q _ => ?_
  rw [unharvested, List.length_map, Multiset.coe_count, List.count_eq_countP, List.countP_map,
    List.countP_eq_length_filter]
  congr 1

theorem Rings.unharvested_le (rings : s.Rings) (q : EventQueueName) :
    (s.unharvested q).length ≤ vhciEventPendingCount := by
  have ring := rings q
  cases here : s.queues q with
  | none =>
    rw [here] at ring
    generalize s.unharvested q = es at ring
    cases ring
    exact Nat.zero_le _
  | some r =>
    obtain ⟨pos, h, d, ring⟩ := rings.ring here
    have bound := ring.bound
    omega

/-- The shared completion queue has room for all buffers of the five queues. -/
theorem Rings.length_cq_le (rings : s.Rings) : s.cq.length ≤ vhciEventCqElCount := by
  rw [length_cq]
  refine (Finset.sum_le_card_nsmul names _ vhciEventPendingCount fun q _ => rings.unharvested_le q).trans ?_
  decide

end EventQueues

/-- What a check of resume leaves submitted: all buffers if it found none, and otherwise what it
found. -/
theorem EventQueueRun.resumed {name : EventQueueName} {r r' : EventQueueRun} {o : EventQueueOp} {pos h d : Nat}
    {es : List BceQeCompletion} (ring : EventRing r.sq r.next es pos h d) (run : r.op name o = some r')
    (check : o = .resume ∨ o = .resumeFlushed) :
    (r.sq.submitted = 0 → r'.sq.submitted = vhciEventPendingCount) ∧
      (r.sq.submitted ≠ 0 → r'.sq = r.sq) := by
  have sq : r'.sq = eventQueueSubmitPending r.resubmits r.sq := by
    rcases check with rfl | rfl
    · cases Option.some.inj run
      exact r.toBceVhciEventQueue.resume_sq
    · simp only [op, Option.ite_none_right_eq_some, Option.some.injEq] at run
      obtain ⟨-, rfl⟩ := run
      exact r.toBceVhciEventQueue.resumeFlushed_sq
  have drained : r.drained = true ↔ r.sq.submitted = 0 := by
    rw [BceVhciEventQueue.drained, decide_eq_true_iff, ring.drained_iff, ring.submitted]
  rw [sq, BceVhciEventQueue.resubmits]
  constructor
  · intro none
    rw [if_pos (drained.mpr none)]
    rw [ring.submitted] at none
    rw [(ring.submit (show h + es.length + (d + vhciEventPendingCount) ≤ _ by omega)).submitted]
    omega
  · intro outstanding
    rw [if_neg (mt drained.mp outstanding)]
    rfl

/-- In every run of the five event queues each queue has at most `VHCI_EVENT_PENDING_COUNT`
buffers submitted and not yet notified, and its available commands count the others; a check of
resume that finds none submitted leaves exactly that many, and one that finds any submits nothing;
and the shared completion queue always has room for its entries. -/
theorem EventQueues.occupancy {s : EventQueues} (reach : eventMachine.Reachable s) :
    (∀ q r, s.queues q = some r → r.sq.submitted ≤ vhciEventPendingCount ∧
      r.sq.availableCommands = (vhciEventQueueElCount : Int) - 1 - r.sq.submitted ∧
      ∀ o r', r.op q o = some r' → o = .resume ∨ o = .resumeFlushed →
        (r.sq.submitted = 0 → r'.sq.submitted = vhciEventPendingCount) ∧
          (r.sq.submitted ≠ 0 → r'.sq = r.sq)) ∧
    s.cq.length ≤ vhciEventCqElCount := by
  have rings := rings_reachable reach
  refine ⟨?_, rings.length_cq_le⟩
  intro q r here
  obtain ⟨pos, h, d, ring⟩ := rings.ring here
  refine ⟨?_, ring.available_eq, fun o r' run check => EventQueueRun.resumed ring run check⟩
  rw [ring.submitted]
  exact ring.bound

/-- A pause that timed out: the handler has notified one flushed buffer when resume looks, and 31
are still submitted. -/
theorem EventQueues.occupancy_timeout : ∃ s r, eventMachine.run ⟨fun _ => none, []⟩
      [.create .system 6, .op .system .pause, .complete .system bceCompletionAborted 0 0, .harvest,
        .op .system .handler, .op .system .resume] = some s ∧
    s.queues .system = some r ∧ r.resuming = 1 ∧ r.sq.submitted = 31 ∧
      r.sq.submitted ≤ vhciEventPendingCount ∧ s.cq.length ≤ vhciEventCqElCount := by
  let s := after ⟨fun _ => none, []⟩
    [.create .system 6, .op .system .pause, .complete .system bceCompletionAborted 0 0, .harvest,
      .op .system .handler, .op .system .resume] rfl
  obtain ⟨each, room⟩ := occupancy (s := s) (.of_run (.start rfl) _ run_after)
  exact ⟨s, (s.queues .system).get rfl, rfl, rfl, by decide, by decide, (each .system _ rfl).1, room⟩

end AppleBce

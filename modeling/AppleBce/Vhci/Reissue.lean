import AppleBce.Vhci.Linked
import AppleBce.Vhci.Resume

namespace AppleBce

open Basis

namespace BceVhciTransferQueue

variable {q r s : BceVhciTransferQueue} {u v : BceVhciUrb} {done rest : List BceVhciUrb}

theorem resumeLoop_evq (done rest : List BceVhciUrb) (q : BceVhciTransferQueue) :
    (resumeLoop done rest q).evq = q.evq := by
  refine resumeLoop_invariant (I := fun r => r.evq = q.evq) ?_ ?_ done rest q rfl
  · intro _ u _ r _ same
    exact (u.init_frame r).1.evq.trans same
  · intro _ u _ r _ same
    exact (u.resume_fits r).frame.evq.trans same

/-- What was deferred is only what an inactive queue defers. -/
def Drained (q : BceVhciTransferQueue) : Prop :=
  ∀ msg ∈ q.evq, msg.cmd = BceVhciCommand.transferRequest.code

/-- A queue that was paused, with everything the T2 had of it aborted. -/
structure Aborted (q : BceVhciTransferQueue) : Prop where
  wf : q.WellFormed
  sound : q.nullSq = false
  empty : ∀ out, q.outstanding out = []
  drained : q.Drained

/-- The answer to the `set_state` command concerns nothing of this. -/
theorem Aborted.answered (aborted : q.Aborted) (state : BitVec 32) : Aborted { q with state } :=
  ⟨⟨aborted.wf.urbs, aborted.wf.present, aborted.wf.distinct⟩, aborted.sound, aborted.empty, aborted.drained⟩

theorem resumeSection_reissued_iff (aborted : q.Aborted) : q.resumeSection.Reissued ↔ q.Resumable := by
  have empty : ∀ out id, q.load out id = 0 := by
    intro out id
    rw [load, aborted.empty]
    rfl
  have resuming : Resuming [] q.urbList { q with active := true } :=
    ⟨⟨aborted.wf.urbs, aborted.wf.present, aborted.wf.distinct⟩, fun u _ out => empty out u.id⟩
  have wf : (resumeLoop [] q.urbList { q with active := true }).WellFormed :=
    resumeLoop_wellFormed [] q.urbList _ ⟨aborted.wf.urbs, aborted.wf.present, aborted.wf.distinct⟩
  constructor
  · intro reissued
    by_contra wrong
    have left := resumeLoop_wrong resuming wrong
    have requests : Drained (resumeLoop [] q.urbList { q with active := true }) := by
      rw [Drained, resumeLoop_evq]
      exact aborted.drained
    have delivered := deliverLoop_unserved _ wf left requests
    exact initLoop_unserved [] _ _ (deliverLoop_wellFormed _ wf) delivered reissued
  · intro right
    obtain ⟨sound, loaded⟩ := resumeLoop_right resuming aborted.sound (List.forall_mem_nil _) right
    have all := deliverPending_allLoaded ⟨wf, sound, loaded⟩
    exact ⟨all.sound, fun u linked => served_of_loaded (all.loaded u linked)⟩

theorem setStateAnswered_same (q : BceVhciTransferQueue) (env : PauseEnv) :
    ∃ state, q.setStateAnswered env = { q with state } := by
  unfold setStateAnswered
  split
  · exact ⟨_, rfl⟩
  · exact ⟨q.state, rfl⟩

theorem doResume_zero {env : PauseEnv} (ok : (q.doResume env).1 = 0) :
    ∃ state, (q.doResume env).2 = resumeSection { q with state } := by
  obtain ⟨state, answered⟩ := q.setStateAnswered_same env
  unfold doResume at ok ⊢
  simp only [answered] at ok ⊢
  split
  case isTrue failed =>
    rw [if_pos failed] at ok
    exact absurd ok failed
  case isFalse succeeded =>
    rw [if_neg succeeded] at ok
    split
    case isTrue other =>
      rw [if_pos other] at ok
      exact absurd (show Errno.inval.neg = 0 from ok) (by decide)
    case isFalse => exact ⟨state, rfl⟩

/-- A resume that returns 0 and activates the queue has run the locked section of `do_resume`. -/
theorem transferQueueResume_zero {src : BceVhciPauseSource} {env : PauseEnv} (paused : q.active = false)
    (ok : (q.transferQueueResume src env).1 = 0) (activated : (q.transferQueueResume src env).2.active) :
    ∃ state, (q.transferQueueResume src env).2 = (resumeSection { q with state }).clearPaused src := by
  unfold transferQueueResume at ok activated ⊢
  split
  case isTrue idle =>
    rw [if_pos idle, paused] at activated
    cases activated
  case isFalse held =>
    rw [if_neg held] at ok activated
    split
    case isTrue others =>
      rw [if_pos others, clearPaused, paused] at activated
      cases activated
    case isFalse last =>
      rw [if_neg last] at ok
      have zero : (q.doResume env).1 = 0 := by
        split at ok
        · rename_i run
          rw [run]
        · rename_i run
          rw [run]
          exact ok
      obtain ⟨state, section_⟩ := doResume_zero zero
      refine ⟨state, ?_⟩
      rw [← section_, ← Prod.eta (q.doResume env)]
      simp only [zero]

theorem initLoop_evq (done rest : List BceVhciUrb) (q : BceVhciTransferQueue) :
    (initLoop done rest q).evq = q.evq := by
  induction rest generalizing done q with
  | nil => rfl
  | cons urb rest ih =>
    rw [initLoop]
    split
    · rfl
    · split
      · refine (ih _ _).trans ?_
        exact (urb.init_frame q).1.evq
      · exact ih _ _

/-- Delivering takes messages away from the front. -/
theorem deliverLoop_evq (msgs : List BceVhciMessage) (q : BceVhciTransferQueue) :
    (deliverLoop msgs q).evq <:+ msgs := by
  induction msgs generalizing q with
  | nil => exact List.suffix_refl _
  | cons msg msgs ih =>
    unfold deliverLoop
    split
    · exact List.suffix_refl _
    · simp only
      split
      · exact List.suffix_refl _
      · exact (ih _).trans (List.suffix_cons msg msgs)

theorem deliverPending_evq (q : BceVhciTransferQueue) : q.deliverPending.evq <:+ q.evq := by
  rw [deliverPending, initPendingUrbs, initLoop_evq]
  exact deliverLoop_evq q.evq q

theorem drained_of_suffix (drained : q.Drained) (suffix : r.evq <:+ q.evq) : r.Drained :=
  fun msg member => drained msg (suffix.subset member)

theorem drained_of_evq (drained : q.Drained) (same : r.evq = q.evq) : r.Drained := by
  rw [Drained, same]
  exact drained

theorem completion_evq (q : BceVhciTransferQueue) (out : Bool) (c : BceSqCompletionData) :
    (q.completion out c).evq = q.evq := by
  have body : (q.completionBody out c).evq = q.evq := by
    rcases q.completionBody_cases out c with same | ⟨-, -, absorbs⟩ | ⟨urb, rest, -, -, -, -, taken⟩
    · rw [same]
    · rw [absorbs]
      refine (initLoop_evq _ _ _).trans ?_
      cases out <;> rfl
    · rw [taken]
      exact (urb.transferCompletion_fits c q).frame.evq
  obtain ⟨_, _, _, _, ended⟩ := q.completion_eq out c
  rw [ended]
  exact body

theorem cancelLoop_evq (rest : List BceVhciUrb) (q : BceVhciTransferQueue) :
    (cancelLoop rest q).evq = q.evq := by
  induction rest generalizing q with
  | nil => rfl
  | cons urb rest ih => exact ih _

theorem cancelSlot_evq (q : BceVhciTransferQueue) (vurb : BceVhciUrb) : (q.cancelSlot vurb).evq = q.evq := by
  obtain ⟨_, _, _, cancelled⟩ := q.cancelSlot_eq vurb
  rw [cancelled]

/-- An event for an inactive queue is dropped, or is a `TRANSFER_REQUEST`. -/
theorem event_drained (drained : q.Drained) (inactive : q.active = false) (msg : BceVhciMessage)
    (allocated : Bool) : (q.event msg allocated).Drained := by
  unfold event
  rw [if_pos (by rw [inactive]; nofun)]
  split
  · rename_i request
    unfold deferEvent
    split
    · exact drained
    · intro m member
      rcases List.mem_append.mp member with old | new
      · exact drained m old
      · rw [List.mem_singleton.mp new]
        exact request.1
  · exact drained

theorem urbCreate_drained (drained : q.Drained) (inactive : q.active = false) (urb : Urb) (allocated : Bool)
    (link : Option Errno) : (q.urbCreate urb allocated link).2.Drained := by
  have asleep : ¬q.active = true := by simp [inactive]
  rcases q.urbCreate_outcomes urb allocated link with
    ⟨e, ran⟩ | ⟨e, active, -⟩ | ⟨active, -⟩ | ⟨-, -, -, wReset, wResume, ran⟩
  · rw [ran]
    exact drained
  · exact absurd active asleep
  · exact absurd active asleep
  · rw [ran]
    exact drained_of_suffix drained (deliverPending_evq _)

end BceVhciTransferQueue

namespace TransferRun

variable {s t : TransferRun} {a : TransferStep}

theorem opStep_drained {op : TransferOp} (drained : s.q.Drained) (inactive : s.q.active = false)
    (run : s.opStep op = some t) : t.q.Drained := by
  cases op with
  | create urb allocated link =>
    obtain ⟨-, after⟩ := Option.ite_none_right_eq_some.mp run
    cases after
    rw [created_q]
    exact BceVhciTransferQueue.urbCreate_drained drained inactive urb allocated link
  | cancel id status =>
    obtain ⟨-, after⟩ := Option.ite_none_right_eq_some.mp run
    cases after
    rw [afterCancel_q]
    rcases s.q.urbRequestCancel_cases id status with ⟨e, run⟩ | run | ⟨_, vurb, _, -, -, ⟨run, -⟩ | run⟩
    · rw [run]
      exact drained
    · rw [run]
      exact drained
    · rw [run]
      exact BceVhciTransferQueue.drained_of_evq drained (s.q.cancelSlot_evq vurb)
    · rw [run]
      exact BceVhciTransferQueue.drained_of_evq drained (s.q.cancelSlot_evq vurb)
  | event msg allocated =>
    obtain ⟨-, after⟩ := Option.ite_none_right_eq_some.mp run
    cases after
    exact BceVhciTransferQueue.event_drained drained inactive msg allocated
  | completion out c =>
    obtain ⟨-, after⟩ := Option.ite_none_right_eq_some.mp run
    cases after
    exact BceVhciTransferQueue.drained_of_evq drained (s.q.completion_evq out c)
  | completionEnd =>
    cases Option.some.inj run
    exact BceVhciTransferQueue.drained_of_suffix drained s.q.deliverPending_evq

/-- While the queue is inactive only `TRANSFER_REQUEST`s are deferred. -/
theorem step_drained (drained : s.q.Drained) (inactive : s.q.active = false)
    (run : s.step a = some t) : t.q.Drained := by
  cases step_effect run with
  | op op _ run => exact opStep_drained drained inactive run
  | giveback urb rest _ _ _ after =>
    subst after
    exact drained
  | resumed _ onWorker src _ _ _ after =>
    subst after
    refine BceVhciTransferQueue.drained_of_suffix drained
      ((BceVhciTransferQueue.deliverPending_evq _).trans ?_)
    exact (BceVhciTransferQueue.resumeLoop_evq _ _ _).symm ▸ List.suffix_refl _
  | flushed rest _ _ _ after =>
    subst after
    exact drained
  | cancelledAll _ _ after =>
    subst after
    exact BceVhciTransferQueue.drained_of_evq drained (BceVhciTransferQueue.cancelLoop_evq _ _)
  | spliced _ _ _ after =>
    subst after
    exact drained
  | quiet same logs =>
    rcases same.evq with kept | removed
    · exact BceVhciTransferQueue.drained_of_evq drained kept
    · intro msg member
      rw [removed] at member
      cases member

/-- A paused queue, from the section of `do_pause` that removes what was deferred. -/
theorem drained_of_run (drained : s.q.Drained)
    (paused : (machine.since s).ReachableUnder (fun x _ => x.q.active = false) t) : t.q.Drained := by
  refine paused.invariant (I := fun x => x.q.Drained) ?_ ?_
  · rintro _ rfl
    exact drained
  · exact fun x a y drained inactive run => step_drained drained inactive run

/-- Behind that section nothing is deferred. -/
theorem drained_of_removes {onWorker : Bool} {src : BceVhciPauseSource} {env : PauseEnv}
    (held : s.holder = some (onWorker, .removePending src)) (removes : s.step (.advance env) = some t) :
    t.q.Drained := by
  obtain ⟨-, removes⟩ := Option.ite_none_left_eq_some.mp removes
  simp only [held, advanceStep] at removes
  obtain ⟨-, after⟩ := Option.ite_none_right_eq_some.mp removes
  cases after
  intro msg deferred
  cases deferred

end TransferRun

namespace BceVhciTransferQueue

variable {q : BceVhciTransferQueue}

theorem aborted_of_empty {s : TransferRun} (reach : TransferRun.machine.Reachable s)
    (sound : s.q.nullSq = false) (emptyOut : s.q.outstanding true = [])
    (emptyIn : s.q.outstanding false = []) (evq : s.q.evq = []) : s.q.Aborted := by
  refine ⟨TransferRun.wellFormed_of_reach reach, sound, ?_, ?_⟩
  · rintro (_ | _)
    · exact emptyIn
    · exact emptyOut
  · intro msg member
    rw [evq] at member
    cases member

/-- After a resume that returns 0 and activates a paused queue whose submissions were all aborted,
every linked URB that waits for a completion has its one submission back and no missing queue was
used, exactly when the linked URBs are those that `do_resume` handles rightly. -/
theorem resume_reissues_aborted {src : BceVhciPauseSource} {env : PauseEnv} (paused : q.active = false)
    (aborted : q.Aborted) (ok : (q.transferQueueResume src env).1 = 0)
    (activated : (q.transferQueueResume src env).2.active) :
    (q.transferQueueResume src env).2.Reissued ↔ q.Resumable := by
  obtain ⟨state, after⟩ := transferQueueResume_zero paused ok activated
  rw [after]
  exact resumeSection_reissued_iff (aborted.answered state)

/-- The same behind a pause, which removes what was deferred: in any state up to which the queue has stayed
inactive, and in which everything the T2 had of it is aborted. -/
theorem resume_reissues_paused {s r t : TransferRun} {onWorker : Bool} {src own : BceVhciPauseSource}
    {env answer : PauseEnv} (reach : TransferRun.machine.Reachable s)
    (held : s.holder = some (onWorker, .removePending own)) (removes : s.step (.advance answer) = some r)
    (paused : (TransferRun.machine.since r).ReachableUnder (fun x _ => x.q.active = false) t)
    (inactive : t.q.active = false) (sound : t.q.nullSq = false) (empty : ∀ out, t.q.outstanding out = [])
    (ok : (t.q.transferQueueResume src env).1 = 0) (activated : (t.q.transferQueueResume src env).2.active) :
    (t.q.transferQueueResume src env).2.Reissued ↔ t.q.Resumable := by
  have drained := TransferRun.drained_of_run (TransferRun.drained_of_removes held removes) paused
  have removed : TransferRun.machine.step s (.advance answer) = some r := removes
  have reached : TransferRun.machine.Reachable t := (reach.next removed).later paused
  have aborted : t.q.Aborted := ⟨TransferRun.wellFormed_of_reach reached, sound, empty, drained⟩
  obtain ⟨state, after⟩ := transferQueueResume_zero inactive ok activated
  rw [after]
  exact resumeSection_reissued_iff (aborted.answered state)

/-- An URB that receives was caught by a pause of the firmware, and the resume re-issues it. -/
theorem resume_reissues_aborted_in : ∃ s, TransferRun.machine.Reachable s ∧ s.q.Resumable ∧
    (s.q.urbList.map fun u => (u.id, u.state)) = [(1, .waitingForCompletion)] ∧
    (s.q.transferQueueResume .firmware ⟨false, 0, 0⟩).2.Reissued := by
  have ran : (TransferRun.ranUnder (fun _ _ => True) bulkIn []
      [.op (.create (sampleUrb 1 true) true none), .lock (.pause .firmware), .advance ⟨false, 0, 1⟩,
        .advance ⟨false, 0, 1⟩, .op (.completion false ⟨2, 0, 0⟩), .op .completionEnd,
        .advance ⟨false, 0, 1⟩, .advance ⟨false, 0, 1⟩]).map
      (fun s => (s.q.urbList.map fun u => (u.id, u.state, u.dir),
        [s.q.evq.length, (s.q.outstanding true).length, (s.q.outstanding false).length,
          s.q.remainingActiveRequests, s.q.reservations.length], s.q.room,
        [s.q.active, s.q.nullSq, (s.q.transferQueueResume .firmware ⟨false, 0, 0⟩).2.active,
          decide ((s.q.transferQueueResume .firmware ⟨false, 0, 0⟩).1 = 0)])) =
        some ([(1, .waitingForCompletion, .fromDevice)], [0, 0, 0, 7, 0], some 255,
          [false, false, true, true]) := by
    decide
  obtain ⟨s, reach, seen⟩ := TransferRun.reachableUnder_of_ran ran
  simp only [Prod.mk.injEq, List.cons.injEq, List.length_eq_zero_iff, decide_eq_true_eq, and_true] at seen
  obtain ⟨urbs, ⟨evq, emptyOut, emptyIn, slots, answers⟩, room, inactive, sound, activated, ok⟩ := seen
  have aborted := aborted_of_empty reach sound emptyOut emptyIn evq
  obtain ⟨u, linked, waiting⟩ := List.map_eq_singleton_iff.mp urbs
  simp only [Prod.mk.injEq] at waiting
  have resumable : s.q.Resumable := by
    rw [Resumable, room, slots, answers, linked]
    simp [ResumesRight, waiting]
  refine ⟨s, reach, resumable, ?_, (resume_reissues_aborted inactive aborted ok activated).mpr resumable⟩
  simp [linked, waiting]

/-- An URB that has sent its data was caught by a pause of the firmware. The resume reserves its
submission on the `sq_in` that the endpoint does not have. -/
theorem sent_urb_received_again : ¬∀ s, TransferRun.machine.Reachable s → s.q.active = false →
    s.q.Aborted → ∀ src env, (s.q.transferQueueResume src env).1 = 0 →
      (s.q.transferQueueResume src env).2.active → (s.q.transferQueueResume src env).2.Reissued := by
  intro reissues
  have ran : (TransferRun.ranUnder (fun _ _ => True) bulkOut []
      [.op (.create (sampleUrb 1 false) true none), .op (.event ⟨0x1000, 0, 0, 512⟩ true),
        .lock (.pause .firmware), .advance ⟨false, 0, 1⟩, .advance ⟨false, 0, 1⟩,
        .op (.completion true ⟨2, 0, 0⟩), .op .completionEnd, .advance ⟨false, 0, 1⟩,
        .advance ⟨false, 0, 1⟩]).map
      (fun s => ([s.q.evq.length, (s.q.outstanding true).length, (s.q.outstanding false).length],
        [s.q.active, s.q.nullSq, (s.q.transferQueueResume .firmware ⟨false, 0, 0⟩).2.active,
          decide ((s.q.transferQueueResume .firmware ⟨false, 0, 0⟩).1 = 0),
          (s.q.transferQueueResume .firmware ⟨false, 0, 0⟩).2.nullSq])) =
        some ([0, 0, 0], [false, false, true, true, true]) := by
    decide
  obtain ⟨s, reach, seen⟩ := TransferRun.reachableUnder_of_ran ran
  simp only [Prod.mk.injEq, List.cons.injEq, List.length_eq_zero_iff, decide_eq_true_eq, and_true] at seen
  obtain ⟨⟨evq, emptyOut, emptyIn⟩, inactive, sound, activated, ok, fault⟩ := seen
  have reissued := reissues s reach inactive (aborted_of_empty reach sound emptyOut emptyIn evq)
    .firmware ⟨false, 0, 0⟩ ok activated
  exact not_reissued_of_fault fault reissued

end BceVhciTransferQueue

end AppleBce

import AppleBce.Vhci.Linked

namespace AppleBce

open Basis

namespace BceVhciTransferQueue

variable {q r : BceVhciTransferQueue}

/-- The completions the queue still expects of cancelled URBs. -/
def ghosts (q : BceVhciTransferQueue) : Nat :=
  q.ghostInCount + q.ghostOutCount

/-- A data transfer in flight, which its cancel makes a ghost. -/
def leavesGhost (vurb : BceVhciUrb) : Bool :=
  vurb.state = .waitingForCompletion ∧ vurb.isControl = false

/-- The URB that is cancelled has a data transfer in flight. -/
def cancelLeavesGhost (q : BceVhciTransferQueue) (id : Nat) : Bool :=
  match q.urbList.find? fun vurb => vurb.id = id with
  | none => false
  | some vurb => leavesGhost vurb

theorem ghosts_eq_zero : q.ghosts = 0 ↔ ∀ out, q.ghostCount out = 0 := by
  simp [ghosts, ghostCount]

theorem Conserves.ghosts (conserves : q.Conserves r) : r.ghosts = q.ghosts := by
  rw [BceVhciTransferQueue.ghosts, conserves.ghostInCount, conserves.ghostOutCount]
  rfl

theorem cancelSlot_ghosts (q : BceVhciTransferQueue) (vurb : BceVhciUrb) :
    (q.cancelSlot vurb).ghosts = q.ghosts + (leavesGhost vurb).toNat := by
  unfold cancelSlot leavesGhost
  split
  · rename_i pending
    simp [pending]
  · split
    · rename_i control
      simp [control]
    · rename_i data
      split
      · rename_i waiting
        split
        · simp only [ghosts, waiting, data]
          simp
          omega
        · simp only [ghosts, waiting, data]
          simp
          omega
      · rename_i idle
        simp [idle, ghosts]

theorem urbRequestCancel_ghosts (q : BceVhciTransferQueue) (id : Nat) (status : Int) :
    (q.urbRequestCancel id status).2.ghosts = q.ghosts + (q.cancelLeavesGhost id).toNat := by
  unfold urbRequestCancel cancelLeavesGhost
  cases found : q.urbList.find? fun vurb => vurb.id = id with
  | none => rfl
  | some vurb =>
    simp only
    split
    · rename_i cancelled
      simp [leavesGhost, cancelled]
    · split
      · exact q.cancelSlot_ghosts vurb
      · exact q.cancelSlot_ghosts vurb

theorem urbRequestCancel_fixed (q : BceVhciTransferQueue) (id : Nat) (status : Int) :
    (q.urbRequestCancel id status).2.endp = q.endp ∧
      (q.urbRequestCancel id status).2.maxActiveRequests = q.maxActiveRequests := by
  rcases q.urbRequestCancel_cases id status with ⟨e, done⟩ | done | ⟨_, vurb, _, _, _, ⟨done, _⟩ | done⟩
  · rw [done]
    exact ⟨rfl, rfl⟩
  · rw [done]
    exact ⟨rfl, rfl⟩
  · rw [done]
    exact ⟨(q.cancelSlot_frame vurb).2.2.1, (q.cancelSlot_frame vurb).2.2.2.1⟩
  · rw [done]
    exact ⟨(q.cancelSlot_frame vurb).2.2.1, (q.cancelSlot_frame vurb).2.2.2.1⟩

/-- A completion that is ABORTED, or that finds no ghost, is none of a ghost. -/
theorem completion_ghosts (q : BceVhciTransferQueue) (out : Bool) (c : BceSqCompletionData)
    (calm : c.status = bceCompletionAborted ∨ q.ghostCount out = 0) :
    (q.completion out c).ghosts = q.ghosts := by
  have body : q.Conserves (q.completionBody out c) := by
    rcases q.completionBody_cases out c with same | ⟨normal, ghost, -⟩ | ⟨urb, rest, -, -, linked, -, taken⟩
    · rw [same]
      exact .refl q
    · exact absurd (calm.resolve_left normal) ghost.ne'
    · rw [taken]
      exact head_conserves linked (urb.transferCompletion_fits c q)
  exact (body.trans ((outputDone_conserves _ out).trans (notify_conserves _ out))).ghosts

/-- A normal completion is credited to the URB at the head, unless it is taken for a ghost. -/
theorem completionBody_normal {out : Bool} {c : BceSqCompletionData} {urb : BceVhciUrb}
    {rest : List BceVhciUrb} (normal : c.status ≠ bceCompletionAborted)
    (linked : q.urbList = urb :: rest) (started : urb.state ≠ .initPending) :
    q.completionBody out c = if q.ghostCount out = 0 then afterUrb [] rest (urb.transferCompletion c q)
      else (q.absorbGhost out).initPendingUrbs := by
  by_cases none : q.ghostCount out = 0
  · simp [completionBody, normal, none, linked, started]
  · simp [completionBody, normal, none, Nat.pos_of_ne_zero none]

end BceVhciTransferQueue

namespace TransferRun

variable {s t : TransferRun} {a : TransferStep}

/-- The step is the locked section of the flush worker. -/
def clearsGhosts (s : TransferRun) (a : TransferStep) : Bool :=
  a = .work ∧ s.worker.head? = some .flushSection

/-- The step cancels an URB that has a data transfer in flight. -/
def leavesGhost (s : TransferRun) : TransferStep → Bool
  | .op (.cancel id _) => s.q.cancelLeavesGhost id
  | _ => false

/-- The completions that a step handles are ABORTED, or find no ghost. -/
def Calm (s : TransferRun) (a : TransferStep) : Prop :=
  ∀ out c, a = .op (.completion out c) → c.status = bceCompletionAborted ∨ s.q.ghostCount out = 0

theorem opStep_ghosts {op : TransferOp} (calm : s.Calm (.op op)) (run : s.opStep op = some t) :
    t.q.ghosts = s.q.ghosts + (s.leavesGhost (.op op)).toNat := by
  cases op with
  | create urb allocated link =>
    obtain ⟨-, after⟩ := Option.ite_none_right_eq_some.mp run
    cases after
    rw [created_q]
    rcases s.q.urbCreate_cases urb allocated link with ⟨e, -, same⟩ | ⟨-, same⟩
    · exact same.ghosts
    · exact same.ghosts
  | cancel id status =>
    obtain ⟨-, after⟩ := Option.ite_none_right_eq_some.mp run
    cases after
    rw [afterCancel_q]
    exact s.q.urbRequestCancel_ghosts id status
  | event msg allocated =>
    obtain ⟨-, after⟩ := Option.ite_none_right_eq_some.mp run
    cases after
    exact (s.q.event_conserves msg allocated).ghosts
  | completion out c =>
    obtain ⟨-, after⟩ := Option.ite_none_right_eq_some.mp run
    cases after
    exact s.q.completion_ghosts out c (calm out c rfl)
  | completionEnd =>
    cases Option.some.inj run
    exact s.q.deliverPending_conserves.ghosts

theorem workStep_ghosts (run : s.workStep = some t) :
    t.q.ghosts = if s.clearsGhosts .work then 0 else s.q.ghosts := by
  by_cases ahead : s.worker.head? = some .flushSection
  · obtain ⟨rest, worker⟩ := List.head?_eq_some_iff.mp ahead
    simp only [workStep, worker] at run
    obtain ⟨-, after⟩ := Option.ite_none_right_eq_some.mp run
    cases after
    have cleared : s.clearsGhosts .work = true := by simp [clearsGhosts, ahead]
    rw [cleared]
    rfl
  · have kept : s.clearsGhosts .work = false := by simp [clearsGhosts, ahead]
    rw [kept]
    rcases workStep_cases run with ⟨rest, worker, -⟩ | ⟨same, -⟩
    · rw [worker] at ahead
      exact absurd rfl ahead
    · simp [BceVhciTransferQueue.ghosts, same.ghostInCount, same.ghostOutCount]

/-- Ghosts come from cancels, and go in the section of the flush worker. -/
theorem step_ghosts (calm : s.Calm a) (run : s.step a = some t) :
    t.q.ghosts = if s.clearsGhosts a then 0 else s.q.ghosts + (s.leavesGhost a).toNat := by
  have taken := (Option.ite_none_left_eq_some.mp run).2
  by_cases special : a = .work ∨ ∃ op, a = .op op
  · rcases special with rfl | ⟨op, rfl⟩
    · exact workStep_ghosts taken
    · have kept : s.clearsGhosts (.op op) = false := by simp [clearsGhosts]
      rw [kept]
      exact opStep_ghosts calm taken
  · simp only [not_or, not_exists] at special
    obtain ⟨notWork, notOp⟩ := special
    have kept : s.clearsGhosts a = false := by simp [clearsGhosts, notWork]
    have leaves : s.leavesGhost a = false := by
      unfold leavesGhost
      split
      · exact absurd rfl (notOp _)
      · rfl
    rw [kept, leaves]
    cases step_effect run with
    | op op label _ => exact absurd label (notOp op)
    | flushed _ label _ _ _ => exact absurd label notWork
    | giveback _ _ _ _ _ after | spliced _ _ _ after =>
      subst after
      rfl
    | resumed _ _ _ _ _ _ after =>
      subst after
      exact s.q.resumeSection_conserves.ghosts
    | cancelledAll _ _ after =>
      subst after
      exact s.q.cancelAll_conserves.ghosts
    | quiet same _ => simp [BceVhciTransferQueue.ghosts, same.ghostInCount, same.ghostOutCount]

/-- The endpoint and the number of its requests that may be active at once are fixed. -/
theorem step_fixed (run : s.step a = some t) :
    t.q.endp = s.q.endp ∧ t.q.maxActiveRequests = s.q.maxActiveRequests := by
  cases step_effect run with
  | op op _ run =>
    cases op with
    | create urb allocated link =>
      obtain ⟨-, after⟩ := Option.ite_none_right_eq_some.mp run
      cases after
      rw [created_q]
      rcases s.q.urbCreate_cases urb allocated link with ⟨e, -, same⟩ | ⟨-, same⟩
      · exact ⟨same.endp, same.maxActiveRequests⟩
      · exact ⟨same.endp, same.maxActiveRequests⟩
    | cancel id status =>
      obtain ⟨-, after⟩ := Option.ite_none_right_eq_some.mp run
      cases after
      rw [afterCancel_q]
      exact s.q.urbRequestCancel_fixed id status
    | event msg allocated =>
      obtain ⟨-, after⟩ := Option.ite_none_right_eq_some.mp run
      cases after
      exact ⟨(s.q.event_conserves msg allocated).endp, (s.q.event_conserves msg allocated).maxActiveRequests⟩
    | completion out c =>
      obtain ⟨-, after⟩ := Option.ite_none_right_eq_some.mp run
      cases after
      exact ⟨(s.q.completion_balanced out c).endp, (s.q.completion_balanced out c).maxActiveRequests⟩
    | completionEnd =>
      cases Option.some.inj run
      exact ⟨s.q.deliverPending_conserves.endp, s.q.deliverPending_conserves.maxActiveRequests⟩
  | giveback _ _ _ _ _ after | spliced _ _ _ after | flushed _ _ _ _ after =>
    subst after
    exact ⟨rfl, rfl⟩
  | resumed _ _ _ _ _ _ after =>
    subst after
    exact ⟨s.q.resumeSection_conserves.endp, s.q.resumeSection_conserves.maxActiveRequests⟩
  | cancelledAll _ _ after =>
    subst after
    exact ⟨s.q.cancelAll_conserves.endp, s.q.cancelAll_conserves.maxActiveRequests⟩
  | quiet same _ => exact ⟨same.endp, same.maxActiveRequests⟩

theorem step_endp (run : s.step a = some t) : t.q.endp = s.q.endp :=
  (step_fixed run).1

/-- The URBs of a control endpoint leave no ghosts. -/
theorem leavesGhost_control (wf : s.q.WellFormed) (control : s.q.endp.num = 0) :
    s.leavesGhost a = false := by
  unfold leavesGhost
  split
  · rename_i id _
    unfold BceVhciTransferQueue.cancelLeavesGhost
    split
    · rfl
    · rename_i vurb found
      have belongs := (wf.urbs vurb (List.mem_of_find?_eq_some found)).isControl
      simp [BceVhciTransferQueue.leavesGhost, belongs, control]
  · rfl

theorem ghosts_control (reach : machine.Reachable s) (control : s.q.endp.num = 0) :
    s.q.ghosts = 0 := by
  suffices s.q.endp.num = 0 → s.q.ghosts = 0 from this control
  refine Machine.ReachableUnder.invariant_of (I := fun s => s.q.endp.num = 0 → s.q.ghosts = 0)
    (fun _ reach => wellFormed_of_reach reach) ?_ ?_ reach
  · rintro s ⟨endp, devAddr, memory, reservations, q, create, rfl⟩ -
    have unused := createTransferQueue_unused create
    rw [fresh, BceVhciTransferQueue.ghosts, unused.ghostInCount, unused.ghostOutCount]
  · intro s a t wf none _ run control
    have same : s.q.endp.num = 0 := by
      rw [← step_endp run]
      exact control
    have calm : s.Calm a := by
      intro out c _
      exact .inr (BceVhciTransferQueue.ghosts_eq_zero.mp (none same) out)
    rw [step_ghosts calm run, none same, leavesGhost_control wf same]
    split <;> rfl

/-- Whether no transfer that was in flight when its URB was cancelled is counted at the end of a
run, from what is known at its beginning: the last cancel of that kind is followed by the section of
the flush worker. -/
def cleared (known : Bool) (s : TransferRun) : List TransferStep → Bool
  | [] => known
  | a :: as =>
    match s.step a with
    | none => known
    | some t => cleared (s.clearsGhosts a || known && !s.leavesGhost a) t as

/-- The run lemma: as long as the completions are ABORTED, the ghosts are those of the cancels since
the last section of the flush worker. -/
theorem cleared_iff {as : List TransferStep} {known : Bool} (reach : machine.Reachable s)
    (ran : machine.run s as = some t)
    (aborted : ∀ out c, .op (.completion out c) ∈ as →
      c.status = bceCompletionAborted ∨ s.q.endp.num = 0)
    (before : known = true ↔ s.q.ghosts = 0) : cleared known s as = true ↔ t.q.ghosts = 0 := by
  induction as generalizing s known with
  | nil =>
    cases Option.some.inj ran
    exact before
  | cons a as ih =>
    obtain ⟨middle, run, rest⟩ := Option.bind_eq_some_iff.mp ran
    have run : s.step a = some middle := run
    have calm : s.Calm a := by
      rintro out c rfl
      refine (aborted out c (List.mem_cons_self ..)).imp_right fun control => ?_
      exact BceVhciTransferQueue.ghosts_eq_zero.mp (ghosts_control reach control) out
    have after := step_ghosts calm run
    simp only [cleared, run]
    refine ih (reach.next run) rest ?_ ?_
    · intro out c member
      rw [step_endp run]
      exact aborted out c (List.mem_cons_of_mem _ member)
    · rw [after]
      cases s.clearsGhosts a with
      | true => simp
      | false => cases s.leavesGhost a <;> simp [before]

/-- From any state on, with whatever pauses, resets and flushes, while the T2 completes what it had as
ABORTED: the queue expects no completion of a cancelled URB exactly if the flush worker has cleared
the ghosts since the last cancel that left one. Then the next normal completion is credited to the
URB at the head, and else one on some queue is swallowed. -/
theorem flush_clears_ghosts {as : List TransferStep} (reach : machine.Reachable s)
    (ran : machine.run s as = some t)
    (aborted : ∀ out c, .op (.completion out c) ∈ as →
      c.status = bceCompletionAborted ∨ s.q.endp.num = 0) :
    (cleared (s.q.ghosts = 0) s as = true ↔ ∀ out, t.q.ghostCount out = 0) ∧
    (cleared (s.q.ghosts = 0) s as = true → ∀ out c urb rest, c.status ≠ bceCompletionAborted →
      t.q.urbList = urb :: rest → urb.state ≠ .initPending →
      t.q.completionBody out c = .afterUrb [] rest (urb.transferCompletion c t.q)) ∧
    (cleared (s.q.ghosts = 0) s as = false → ∃ out, ∀ c urb rest, c.status ≠ bceCompletionAborted →
      t.q.urbList = urb :: rest → urb.state ≠ .initPending →
      t.q.completionBody out c = (t.q.absorbGhost out).initPendingUrbs) := by
  have counted : cleared (s.q.ghosts = 0) s as = true ↔ ∀ out, t.q.ghostCount out = 0 :=
    (cleared_iff reach ran aborted (by simp)).trans BceVhciTransferQueue.ghosts_eq_zero
  refine ⟨counted, ?_, ?_⟩
  · intro clear out c urb rest normal linked started
    rw [BceVhciTransferQueue.completionBody_normal normal linked started,
      if_pos (counted.mp clear out)]
  · intro stale
    have ghost : ¬∀ out, t.q.ghostCount out = 0 := by
      rw [← counted, stale]
      exact Bool.false_ne_true
    obtain ⟨out, some⟩ := not_forall.mp ghost
    refine ⟨out, ?_⟩
    intro c urb rest normal linked started
    rw [BceVhciTransferQueue.completionBody_normal normal linked started, if_neg some]

/-- The T2 answers the command of a pause, or that of a resume. -/
def paused : TransferStep :=
  .advance ⟨false, 0, 1⟩

def activated : TransferStep :=
  .advance ⟨false, 0, 0⟩

def abortedCompletion : TransferStep :=
  .op (.completion false ⟨bceCompletionAborted, 0, 0⟩)

/-- The last URB is cancelled in flight, and its submission is aborted by the flush worker. -/
theorem flush_clears_ghosts_worker : ∃ s t, machine.Reachable s ∧ s.q.ghostInCount = 1 ∧
    machine.run s [abortedCompletion, .op .completionEnd, paused, .work] = some t ∧
    ∀ out, t.q.ghostCount out = 0 := by
  have ran : (ranUnder (fun _ _ => True) bulkIn []
      [.op (.create (sampleUrb 1 true) true none), .op (.cancel 1 Errno.connreset.neg), .queueFlush,
        .startWork .flush, .work, paused, paused, paused]).map
      (fun s => (s.q.ghostInCount,
        cleared (s.q.ghosts = 0) s [abortedCompletion, .op .completionEnd, paused, .work],
        (machine.run s [abortedCompletion, .op .completionEnd, paused, .work]).isSome)) =
        some (1, true, true) := by
    decide
  obtain ⟨s, reach, seen⟩ := reachableUnder_of_ran ran
  simp only [Prod.mk.injEq] at seen
  obtain ⟨ghost, clear, goes⟩ := seen
  obtain ⟨t, window⟩ := Option.isSome_iff_exists.mp goes
  have aborted : ∀ out c, TransferStep.op (.completion out c) ∈
      [abortedCompletion, .op .completionEnd, paused, .work] →
      c.status = bceCompletionAborted ∨ s.q.endp.num = 0 := by
    intro out c member
    simp only [abortedCompletion, paused, List.mem_cons, TransferStep.op.injEq,
      TransferOp.completion.injEq, reduceCtorEq, List.not_mem_nil, or_false] at member
    rw [member.2]
    exact .inl rfl
  exact ⟨s, t, reach.reachable, ghost, window,
    (flush_clears_ghosts reach.reachable window aborted).1.mp clear⟩

/-- An URB in flight is cancelled, and the firmware pauses the endpoint and flushes its submission
and that of another URB. Both are aborted, the ghost stays, and after the resume it swallows the
completion of the other URB, which is left without a submission. -/
theorem ghost_survives_flush : ∃ s t u, machine.Reachable s ∧
    (s.q.outstanding false).map UrbSubmission.urb = [1, 2] ∧ s.q.ghostInCount = 1 ∧
    machine.run s [abortedCompletion, abortedCompletion, .op .completionEnd] = some t ∧
    t.q.outstanding false = [] ∧ t.q.ghostInCount = 1 ∧
    machine.run t [paused, .startWork .firmwareResume, .work, activated, activated, activated,
      activated, .op (.completion false ⟨bceCompletionSuccess, 512, 0⟩)] = some u ∧
    u.q.outstanding false = [] ∧
    (u.q.urbList.map fun vurb => (vurb.id, vurb.state)) = [(2, .waitingForCompletion)] := by
  have ran : (ranUnder (fun _ _ => True) bulkIn []
      [.op (.create (sampleUrb 1 true) true none), .op (.create (sampleUrb 2 true) true none),
        .op (.cancel 1 Errno.connreset.neg), .startWork .firmwarePause, .work, paused, paused,
        paused]).map
      (fun s => ((s.q.outstanding false).map UrbSubmission.urb, s.q.ghostInCount,
        (machine.run s [abortedCompletion, abortedCompletion, .op .completionEnd]).map fun t =>
          ((t.q.outstanding false).length, t.q.ghostInCount,
            (machine.run t [paused, .startWork .firmwareResume, .work, activated, activated,
              activated, activated, .op (.completion false ⟨bceCompletionSuccess, 512, 0⟩)]).map
              fun u => ((u.q.outstanding false).length,
                u.q.urbList.map fun vurb => (vurb.id, vurb.state))))) =
        some ([1, 2], 1, some (0, 1, some (0, [(2, .waitingForCompletion)]))) := rfl
  obtain ⟨s, reach, seen⟩ := reachableUnder_of_ran ran
  simp only [Prod.mk.injEq, Option.map_eq_some_iff, List.length_eq_zero_iff] at seen
  obtain ⟨submitted, ghost, t, window, emptied, stale, u, resumed, swallowed, left⟩ := seen
  exact ⟨s, t, u, reach.reachable, submitted, ghost, window, emptied, stale, resumed, swallowed, left⟩

end TransferRun

end AppleBce

import AppleBce.Vhci.Linked
import AppleBce.Vhci.OutputRun

namespace AppleBce

open Basis

namespace BceVhciTransferQueue

variable {q r s : BceVhciTransferQueue}

/-- Each output that is submitted is counted as pending, and none is taken off. -/
structure Tallies (q r : BceVhciTransferQueue) : Prop where
  counted : r.sqOutPending + (q.outstanding true).length = q.sqOutPending + (r.outstanding true).length
  raised : q.sqOutPending ≤ r.sqOutPending

theorem tallies_of_same (sqOut : r.sqOut = q.sqOut) (pending : r.sqOutPending = q.sqOutPending) :
    q.Tallies r where
  counted := by
    have same : r.outstanding true = q.outstanding true := outstanding_of_sq sqOut
    rw [pending, same]
  raised := pending.ge

theorem Tallies.trans (first : q.Tallies r) (second : r.Tallies s) : q.Tallies s where
  counted := by
    have before := first.counted
    have after := second.counted
    omega
  raised := first.raised.trans second.raised

theorem Tallies.grows (tallies : q.Tallies r) : (q.outstanding true).length ≤ (r.outstanding true).length := by
  have counted := tallies.counted
  have raised := tallies.raised
  omega

theorem dataTransferIn_tallies (u : BceVhciUrb) (q : BceVhciTransferQueue) : q.Tallies (u.dataTransferIn q).q := by
  rcases u.dataTransferIn_cases q with
    ⟨-, run⟩ | ⟨-, -, run⟩ | ⟨_, -, -, -, run⟩ | ⟨_, _, -, -, -, run⟩
  all_goals
    rw [run]
    exact tallies_of_same rfl rfl

theorem sendOutData_tallies (u : BceVhciUrb) (addr size : BitVec 64) (q : BceVhciTransferQueue) :
    q.Tallies (u.sendOutData addr size q).2 := by
  rcases u.sendOutData_cases addr size q with ⟨-, run⟩ | ⟨_, -, -, run⟩ | ⟨fifo, next, present, room, run⟩
  · rw [run]
    exact tallies_of_same rfl rfl
  · rw [run]
    exact tallies_of_same rfl rfl
  · rw [run]
    have before : q.outstanding true = fifo.items := by simp only [outstanding, sq, present]
    have grown : next.items.length = fifo.items.length + 1 := by
      rw [(BoundedFifo.submit_some room).2.1, List.length_append, List.length_singleton]
    constructor
    · show q.sqOutPending + 1 + _ = q.sqOutPending + next.items.length
      rw [before, grown]
      omega
    · exact Nat.le_succ _

/-- The end of a round takes the submission it is about off its queue. -/
theorem notify_outstanding (q : BceVhciTransferQueue) (out : Bool) :
    (q.notifySubmissionComplete out).outstanding true =
      if out then (q.outstanding true).tail else q.outstanding true := by
  cases out with
  | false =>
    unfold notifySubmissionComplete
    split <;> rfl
  | true =>
    unfold notifySubmissionComplete
    cases present : q.sq true with
    | none => simp [outstanding, present]
    | some fifo => simp [outstanding, present, BoundedFifo.pop]

theorem notify_sqOutPending (q : BceVhciTransferQueue) (out : Bool) :
    (q.notifySubmissionComplete out).sqOutPending = q.sqOutPending := by
  obtain ⟨sqIn, sqOut, notified⟩ := q.notifySubmissionComplete_eq out
  rw [notified]

/-- All work on URBs keeps count of the outputs. -/
theorem tallies_relation : UrbRelation Tallies where
  refl _ := tallies_of_same rfl rfl
  trans := .trans
  receive := dataTransferIn_tallies
  send := sendOutData_tallies
  complete _ _ _ := tallies_of_same rfl rfl
  stop _ := tallies_of_same rfl rfl
  stall _ := tallies_of_same rfl rfl
  account := tallies_of_same rfl rfl

end BceVhciTransferQueue

namespace TransferRun

open BceVhciTransferQueue

variable {s t : TransferRun} {a : TransferStep}

theorem opStep_tallies {op : TransferOp} (parts : ∀ out c, op ≠ .completion out c) (run : s.opStep op = some t) :
    s.q.Tallies t.q := by
  cases op with
  | create urb allocated link =>
    obtain ⟨-, after⟩ := Option.ite_none_right_eq_some.mp run
    cases after
    rw [created_q]
    exact tallies_relation.urbCreate s.q urb allocated link
  | cancel id status =>
    obtain ⟨-, after⟩ := Option.ite_none_right_eq_some.mp run
    cases after
    rw [afterCancel_q]
    exact tallies_relation.urbRequestCancel s.q id status
  | event msg allocated =>
    obtain ⟨-, after⟩ := Option.ite_none_right_eq_some.mp run
    cases after
    exact tallies_relation.event s.q msg allocated
  | completion out c => exact absurd rfl (parts out c)
  | completionEnd =>
    cases Option.some.inj run
    exact tallies_relation.deliverPending s.q

/-- But for the rounds of the completion handler, every step keeps count of the outputs. -/
theorem step_tallies (parts : ∀ out c, a ≠ .op (.completion out c)) (run : s.step a = some t) :
    s.q.Tallies t.q := by
  cases step_effect run with
  | op op label taken =>
    subst label
    exact opStep_tallies (fun out c here => parts out c (congrArg TransferStep.op here)) taken
  | giveback _ _ _ _ _ after | flushed _ _ _ _ after | spliced _ _ _ after =>
    subst after
    exact tallies_of_same rfl rfl
  | resumed _ _ _ _ _ _ after =>
    subst after
    exact Tallies.trans (r := { s.q with active := true }) (tallies_of_same rfl rfl)
      (tallies_relation.resumeSection s.q)
  | cancelledAll _ _ after =>
    subst after
    exact Tallies.trans (r := { s.q with active := false }) (tallies_of_same rfl rfl)
      (tallies_relation.cancelLoop s.q.urbList _)
  | quiet same _ => exact tallies_of_same same.sqOut same.sqOutPending

end TransferRun

namespace OutputRun

variable {s t : OutputRun} {a : OutputStep}

/-- The output submissions whose completion has not been processed yet, oldest first. -/
def unprocessed (s : OutputRun) : List UrbSubmission :=
  if s.round = some (true, .notify) then (s.run.q.outstanding true).tail else s.run.q.outstanding true

/-- The step accounts for the completion of an output. -/
def Processes (s : OutputRun) (a : OutputStep) : Prop :=
  a = .account ∧ s.round = some (true, .account)

/-- The counter is that of the outputs to be processed, the handler is at one that is there, and
`do_pause` only sleeps, without a wake-up on its way, for one that is to come. -/
structure Exact (s : OutputRun) : Prop where
  counted : s.run.q.sqOutPending = s.unprocessed.length
  held : ∀ stage, s.round = some (true, stage) → 0 < (s.run.q.outstanding true).length
  asleep : s.wait = .asleep false → 0 < s.run.q.sqOutPending

theorem unprocessed_length (s : OutputRun) : s.unprocessed.length =
    (s.run.q.outstanding true).length - if s.round = some (true, .notify) then 1 else 0 := by
  unfold unprocessed
  split
  · exact List.length_tail
  · rfl

theorem exact_of_init (initial : machine.init s) : s.Exact := by
  obtain ⟨run, ⟨endp, devAddr, memory, reservations, q, create, rfl⟩, rfl⟩ := initial
  refine ⟨?_, nofun, nofun⟩
  have none : (TransferRun.fresh q).q.sqOutPending = 0 := (createTransferQueue_counts create).2
  have nothing := BceVhciTransferQueue.outstanding_of_unused (createTransferQueue_unused create) true
  rw [none, unprocessed, if_neg nofun]
  exact (congrArg List.length nothing).symm

/-- A step that leaves the round as it is and keeps count of the outputs. -/
theorem Exact.of_tallies (exact : s.Exact) (tallies : s.run.q.Tallies t.run.q) (round : t.round = s.round)
    (wait : t.wait = .asleep false → s.wait = .asleep false) : t.Exact where
  counted := by
    have before := exact.counted
    have counted := tallies.counted
    have held := exact.held .notify
    rw [unprocessed_length] at before ⊢
    rw [round]
    split at before
    · rename_i here
      have some := held here
      rw [if_pos here]
      omega
    · rename_i here
      rw [if_neg here]
      omega
  held stage here := (exact.held stage (round.symm.trans here)).trans_le tallies.grows
  asleep sleeps := (exact.asleep (wait sleeps)).trans_le tallies.raised

/-- A round of `sq_out` finds a pending output. -/
theorem Exact.positive (exact : s.Exact) (here : s.round = some (true, .account)) : 0 < s.run.q.sqOutPending := by
  have counted := exact.counted
  have held := exact.held .account here
  rw [unprocessed, if_neg (by rw [here]; exact nofun)] at counted
  omega

theorem account_exact {out : Bool} (exact : s.Exact) (here : s.round = some (out, .account)) :
    Exact {
      run := { s.run with q := s.run.q.outputDone out }
      round := some (out, .notify)
      wait := if out ∧ s.run.q.sqOutPending = 1 then s.wait.wakeUp else s.wait } := by
  have counted := exact.counted
  rw [unprocessed, if_neg (by rw [here]; exact nofun)] at counted
  cases out with
  | false =>
    refine ⟨?_, nofun, ?_⟩
    · rw [unprocessed, if_neg nofun]
      exact counted
    · intro sleeps
      rw [if_neg (by simp)] at sleeps
      exact exact.asleep sleeps
  | true =>
    have positive := exact.positive here
    rw [BceVhciTransferQueue.outputDone_of_pending positive]
    refine ⟨?_, fun _ _ => exact.held .account here, ?_⟩
    · rw [unprocessed, if_pos rfl, List.length_tail]
      show s.run.q.sqOutPending - 1 = (s.run.q.outstanding true).length - 1
      omega
    · intro sleeps
      show 0 < s.run.q.sqOutPending - 1
      by_cases last : s.run.q.sqOutPending = 1
      · have woken : true = true ∧ s.run.q.sqOutPending = 1 := ⟨rfl, last⟩
        rw [if_pos woken] at sleeps
        exact absurd sleeps s.wait.wakeUp_ne_asleep
      · omega

theorem notify_exact {out : Bool} (exact : s.Exact) (here : s.round = some (out, .notify)) :
    Exact { s with
      run := { s.run with q := s.run.q.notifySubmissionComplete out }
      round := none } := by
  have counted := exact.counted
  have popped : (s.run.q.notifySubmissionComplete out).outstanding true = s.unprocessed := by
    rw [BceVhciTransferQueue.notify_outstanding, unprocessed, here]
    cases out with
    | false => rw [if_neg nofun, if_neg nofun]
    | true => rw [if_pos rfl, if_pos rfl]
  have kept := s.run.q.notify_sqOutPending out
  refine ⟨?_, nofun, ?_⟩
  · rw [unprocessed, if_neg nofun]
    exact kept.trans (counted.trans (congrArg List.length popped.symm))
  · intro sleeps
    exact (exact.asleep sleeps).trans_eq kept.symm

theorem wait_exact {wait : OutputWait} (exact : s.Exact) (next : s.wait.next s.run.q.sqOutPending = some wait) :
    Exact { s with wait } where
  counted := exact.counted
  held := exact.held
  asleep := by
    intro sleeps
    have sleeps : wait = .asleep false := sleeps
    subst sleeps
    exact OutputWait.pending_of_next next

theorem step_exact (exact : s.Exact) (run : machine.step s a = some t) : t.Exact := by
  cases step_effect run with
  | run b _ run parts _ round wait =>
    refine exact.of_tallies (TransferRun.step_tallies parts run) round fun sleeps => ?_
    rcases wait with same | reset
    · exact same.symm.trans sleeps
    · rw [reset] at sleeps
      cases sleeps
  | take out c _ idle _ held after =>
    subst after
    have tallies := BceVhciTransferQueue.tallies_relation.completionBody s.run.q out c
    have begun : Exact { s with run := { s.run with q := s.run.q.completionBody out c, handling := some out } } :=
      exact.of_tallies tallies rfl id
    refine ⟨?_, ?_, begun.asleep⟩
    · have counted := begun.counted
      rw [unprocessed, if_neg nofun]
      rw [unprocessed, if_neg (by rw [idle]; exact nofun)] at counted
      exact counted
    · intro stage here
      cases Option.some.inj here
      exact (List.length_pos_of_ne_nil held).trans_le tallies.grows
  | account out _ here after =>
    subst after
    exact account_exact exact here
  | notify out _ here after =>
    subst after
    exact notify_exact exact here
  | wait wait _ _ next after =>
    subst after
    exact wait_exact exact next
  | expire _ _ _ after =>
    subst after
    exact ⟨exact.counted, exact.held, nofun⟩

theorem exact_of_reach (reach : machine.Reachable s) : s.Exact :=
  reach.invariant (fun _ => exact_of_init) fun _ _ _ => step_exact

/-- What a round of `sq_out` does when it accounts for its completion. -/
theorem processes_effect (exact : s.Exact) (processes : s.Processes a) (run : machine.step s a = some t) :
    0 < s.run.q.sqOutPending ∧ t.run.q.sqOutPending + 1 = s.run.q.sqOutPending ∧
      t.unprocessed = s.unprocessed.tail ∧
      (t.run.q.sqOutPending = 0 → t.run.q.wakeups = s.run.q.wakeups + 1 ∧ t.wait = s.wait.wakeUp) := by
  obtain ⟨rfl, here⟩ := processes
  have positive := exact.positive here
  have before : s.unprocessed = s.run.q.outstanding true := if_neg (by rw [here]; exact nofun)
  have done := BceVhciTransferQueue.outputDone_of_pending positive
  obtain ⟨-, run⟩ := Option.ite_none_left_eq_some.mp run
  simp only [account, here, done, Option.some.injEq, true_and] at run
  subst run
  refine ⟨positive, Nat.sub_add_cancel positive, ?_, ?_⟩
  · rw [before]
    exact if_pos rfl
  · intro last
    have last : s.run.q.sqOutPending - 1 = 0 := last
    have one : s.run.q.sqOutPending = 1 := by omega
    exact ⟨if_pos one, if_pos one⟩

/-- Nothing else brings the counter down. -/
theorem pending_of_other (other : ¬s.Processes a) (run : machine.step s a = some t) :
    s.run.q.sqOutPending ≤ t.run.q.sqOutPending := by
  cases step_effect run with
  | run b _ run parts _ _ _ => exact (TransferRun.step_tallies parts run).raised
  | take out c _ _ _ _ after =>
    subst after
    exact (BceVhciTransferQueue.tallies_relation.completionBody s.run.q out c).raised
  | account out label here after =>
    subst after
    cases out with
    | true => exact absurd ⟨label, here⟩ other
    | false => exact (congrArg BceVhciTransferQueue.sqOutPending (if_neg (by simp))).ge
  | notify out _ _ after =>
    subst after
    exact (s.run.q.notify_sqOutPending out).ge
  | wait _ _ _ _ after | expire _ _ _ after =>
    subst after
    exact le_rfl

/-- A wait ends in time only when it finds nothing pending. -/
theorem ended_in_time (run : machine.step s a = some t) (ended : t.wait = .ended false)
    (waited : s.wait ≠ .ended false) : s.run.q.sqOutPending = 0 ∧ t.unprocessed = s.unprocessed := by
  cases step_effect run with
  | run _ _ _ _ _ _ wait =>
    rcases wait with same | reset
    · exact absurd (same.symm.trans ended) waited
    · rw [reset] at ended
      cases ended
  | take _ _ _ _ _ _ after | notify _ _ _ after =>
    subst after
    exact absurd ended waited
  | account out _ _ after =>
    subst after
    have ended : (if out ∧ s.run.q.sqOutPending = 1 then s.wait.wakeUp else s.wait) = .ended false := ended
    split at ended
    · cases before : s.wait <;> simp [before, OutputWait.wakeUp] at ended
      exact absurd (before.trans (congrArg OutputWait.ended ended)) waited
    · exact absurd ended waited
  | wait wait _ _ next after =>
    subst after
    have ended : wait = .ended false := ended
    subst ended
    exact ⟨OutputWait.none_of_next next, rfl⟩
  | expire _ _ _ after =>
    subst after
    cases ended

/-- In every state reached, `sq_out_pending` is the number of outputs whose completion is not processed.
Each part of a round that processes one finds the counter positive, brings it down by one and, where it
gets to 0, wakes `sq_out_wait_queue`; nothing else brings it down. So `do_pause` never sleeps on for
outputs that are all processed, and a wait that ends in time leaves none behind. -/
theorem sq_out_pending_exact (reach : machine.Reachable s) :
    s.run.q.sqOutPending = s.unprocessed.length ∧
    (∀ a t, machine.step s a = some t →
      (s.Processes a → 0 < s.run.q.sqOutPending ∧ t.run.q.sqOutPending + 1 = s.run.q.sqOutPending ∧
        t.unprocessed = s.unprocessed.tail ∧
        (t.run.q.sqOutPending = 0 → t.run.q.wakeups = s.run.q.wakeups + 1 ∧ t.wait = s.wait.wakeUp)) ∧
      (¬s.Processes a → s.run.q.sqOutPending ≤ t.run.q.sqOutPending) ∧
      (t.wait = .ended false → s.wait ≠ .ended false → s.unprocessed = [] ∧ t.unprocessed = [])) ∧
    (s.wait = .asleep false → s.unprocessed ≠ []) := by
  have exact := exact_of_reach reach
  refine ⟨exact.counted, ?_, ?_⟩
  · intro a t run
    refine ⟨fun processes => processes_effect exact processes run, fun other => pending_of_other other run, ?_⟩
    intro ended waited
    obtain ⟨none, same⟩ := ended_in_time run ended waited
    have empty : s.unprocessed = [] := List.length_eq_zero_iff.mp (exact.counted.symm.trans none)
    exact ⟨empty, same.trans empty⟩
  · intro asleep empty
    have positive := exact.asleep asleep
    rw [exact.counted, empty] at positive
    cases positive

/-- A pause that sleeps for the one output in flight is woken by its completion and ends in time. -/
theorem sq_out_pending_exact_pause : ∃ s r t, machine.Reachable s ∧ s.wait = .asleep false ∧
    s.run.q.sqOutPending = 1 ∧ s.unprocessed ≠ [] ∧
    machine.run s [.take true ⟨bceCompletionSuccess, 512, 0⟩, .account, .notify, .wait] = some r ∧
    machine.step r .wait = some t ∧ t.wait = .ended false ∧ t.unprocessed = [] := by
  have ran : (machine.run ⟨.bulkOutFresh, none, .reads⟩ [.run (.op (.create (sampleUrb 1 false) true none)),
      .run (.op (.event (bytesRequest 512) true)), .run (.lock (.pause .suspend)), .run (.advance ⟨false, 0, 0⟩),
      .wait, .wait, .wait]).map (fun s => (s.wait, s.run.q.sqOutPending,
        (machine.run s [.take true ⟨bceCompletionSuccess, 512, 0⟩, .account, .notify, .wait]).map fun r =>
          (r.wait, (machine.step r .wait).map fun t => t.wait))) =
      some (.asleep false, 1, some (.queued false, some (.ended false))) := rfl
  obtain ⟨s, reached, seen⟩ := Option.map_eq_some_iff.mp ran
  simp only [Prod.mk.injEq, Option.map_eq_some_iff] at seen
  obtain ⟨asleep, pending, r, woken, queued, t, step, ended⟩ := seen
  have reach : machine.Reachable s :=
    .of_run (.start ⟨_, TransferRun.bulkOutFresh_init, rfl⟩) _ reached
  have later := (sq_out_pending_exact (reach.of_run _ woken)).2.1 .wait t step
  have empty := later.2.2 ended (by rw [queued]; exact nofun)
  exact ⟨s, r, t, reach, asleep, pending, (sq_out_pending_exact reach).2.2 asleep, woken, step, ended, empty.2⟩

end OutputRun

/-- As long as the rounds of the handler are taken as a whole, what is pending is what the T2 has not
completed. -/
theorem TransferRun.sqOutPending_eq {s : TransferRun} (reach : machine.Reachable s) (sound : ¬s.q.nullSq) :
    s.q.sqOutPending = (s.q.outstanding true).length := by
  obtain ⟨r, reached, same⟩ := OutputRun.transferRun_refines.reachable reach
  obtain rfl := same.resolve_left sound
  exact (OutputRun.exact_of_reach reached).counted

end AppleBce

import AppleBce.Vhci.PauseSources

namespace AppleBce

open Basis

/-- What is left of a round of the completion handler: the accounting of the output and
`bce_notify_submission_complete`, or only the latter. -/
inductive RoundStage
  | account
  | notify
  deriving DecidableEq, Repr

/-- Where `do_pause` is with its wait for the pending outputs: it reads the counter, then
`wait_event_timeout` tests the condition, goes on the wait queue, tests again, and sleeps until it is
woken or its time is over. -/
inductive OutputWait
  | reads
  | tests
  | queued (woken : Bool)
  | asleep (woken : Bool)
  | expired
  | ended (timedOut : Bool)
  deriving DecidableEq, Repr

/-- `wake_up`, which only reaches who is on the wait queue. -/
def OutputWait.wakeUp : OutputWait → OutputWait
  | .queued _ => .queued true
  | .asleep _ => .asleep true
  | wait => wait

/-- The next action of the wait, for a value of `sq_out_pending` it reads. -/
def OutputWait.next (pending : Nat) : OutputWait → Option OutputWait
  | .reads => some (if 0 < pending then .tests else .ended false)
  | .tests => some (if pending = 0 then .ended false else .queued false)
  | .queued woken => some (if pending = 0 then .ended false else .asleep woken)
  | .asleep woken => if woken then some (.queued false) else none
  | .expired => some (.ended (pending ≠ 0))
  | .ended _ => none

def OutputWait.isOver : OutputWait → Bool
  | .ended _ => true
  | _ => false

theorem OutputWait.wakeUp_ne_asleep (wait : OutputWait) : wait.wakeUp ≠ .asleep false := by
  cases wait <;> exact nofun

/-- A wait goes to sleep only where it has found something pending. -/
theorem OutputWait.pending_of_next {pending : Nat} {wait : OutputWait}
    (next : wait.next pending = some (.asleep false)) : 0 < pending := by
  cases wait with
  | reads =>
    simp only [OutputWait.next] at next
    split at next <;> cases next
  | tests =>
    simp only [OutputWait.next] at next
    split at next <;> cases next
  | queued woken =>
    simp only [OutputWait.next] at next
    split at next
    · cases next
    · omega
  | asleep woken => cases (Option.ite_none_right_eq_some.mp next).2
  | expired | ended => cases next

/-- A wait that ends in time has found nothing pending. -/
theorem OutputWait.none_of_next {pending : Nat} {wait : OutputWait}
    (next : wait.next pending = some (.ended false)) : pending = 0 := by
  cases wait with
  | reads =>
    simp only [OutputWait.next] at next
    split at next
    · cases next
    · omega
  | tests =>
    simp only [OutputWait.next] at next
    split at next
    · assumption
    · cases next
  | queued woken =>
    simp only [OutputWait.next] at next
    split at next
    · assumption
    · cases next
  | asleep woken => cases (Option.ite_none_right_eq_some.mp next).2
  | expired =>
    simp only [OutputWait.next, Option.some.injEq, OutputWait.ended.injEq, decide_eq_false_iff_not] at next
    omega
  | ended => cases next

/-- A transfer queue in use, with the round its completion handler is in and the wait of the
`do_pause` that holds `pause_lock`. -/
structure OutputRun where
  run : TransferRun
  round : Option (Bool × RoundStage)
  wait : OutputWait

/-- A step of the queue, a part of a round of the completion handler, or one of the wait. -/
inductive OutputStep
  | run (a : TransferStep)
  | take (out : Bool) (c : BceSqCompletionData)
  | account
  | notify
  | wait
  | expire
  deriving DecidableEq

namespace OutputRun

/-- `do_pause` gives its command once it has waited, unless the controller is in recovery or the
queue has no output. -/
def mayAdvance (s : OutputRun) (env : PauseEnv) : Prop :=
  match s.run.holder with
  | some (_, .pauseCommand _) =>
    if env.recovering then s.wait = .reads
    else s.run.q.sqOut = none ∨ s.wait.isOver
  | _ => True

instance (s : OutputRun) (env : PauseEnv) : Decidable (s.mayAdvance env) := by
  unfold mayAdvance
  split <;> infer_instance

/-- A step of the queue. The rounds of the handler are taken in parts, and the handler ends behind
its last one. -/
def runStep (s : OutputRun) : TransferStep → Option OutputRun
  | .op (.completion _ _) => none
  | .op .completionEnd =>
    if s.round = none then (s.run.step (.op .completionEnd)).map fun run => { s with run } else none
  | .advance env =>
    if s.mayAdvance env then (s.run.step (.advance env)).map fun run => { s with run, wait := .reads }
    else none
  | a => (s.run.step a).map fun run => { s with run }

/-- The beginning of a round, for a completion of a queue. -/
def take (s : OutputRun) (out : Bool) (c : BceSqCompletionData) : Option OutputRun :=
  if s.round = none ∧ (s.run.unlocked ∨ s.run.handling = some out) ∧ s.run.q.outstanding out ≠ [] then
    some { s with
      run := { s.run with q := s.run.q.completionBody out c, handling := some out }
      round := some (out, .account) }
  else none

/-- `atomic_dec_if_positive` and `wake_up`. -/
def account (s : OutputRun) : Option OutputRun :=
  match s.round with
  | some (out, .account) =>
    some {
      run := { s.run with q := s.run.q.outputDone out }
      round := some (out, .notify)
      wait := if out ∧ s.run.q.sqOutPending = 1 then s.wait.wakeUp else s.wait }
  | _ => none

/-- The end of a round. -/
def notify (s : OutputRun) : Option OutputRun :=
  match s.round with
  | some (out, .notify) =>
    some { s with
      run := { s.run with q := s.run.q.notifySubmissionComplete out }
      round := none }
  | _ => none

/-- `do_pause` is at its wait. -/
def waits (s : OutputRun) : Prop :=
  match s.run.holder with
  | some (_, .pauseCommand _) => s.run.q.sqOut.isSome
  | _ => False

instance (s : OutputRun) : Decidable s.waits := by
  unfold waits
  split <;> infer_instance

def waitStep (s : OutputRun) : Option OutputRun :=
  if s.waits then (s.wait.next s.run.q.sqOutPending).map fun wait => { s with wait } else none

/-- The time of a sleeping `do_pause` is over. -/
def expireStep (s : OutputRun) : Option OutputRun :=
  match s.wait with
  | .asleep _ => some { s with wait := .expired }
  | _ => none

def step (s : OutputRun) (a : OutputStep) : Option OutputRun :=
  if s.run.q.nullSq ∨ s.run.teardown = .destroyed then none
  else
    match a with
    | .run a => s.runStep a
    | .take out c => s.take out c
    | .account => s.account
    | .notify => s.notify
    | .wait => s.waitStep
    | .expire => s.expireStep

/-- The life of the transfer queue of any endpoint, down to the parts of its rounds and waits. -/
def machine : Machine OutputRun OutputStep where
  init := fun s => ∃ run, TransferRun.machine.init run ∧ s = ⟨run, none, .reads⟩
  step := step

end OutputRun

/-- The submission queues of a transfer queue, and what is counted of its outputs. -/
structure QueueOutputs where
  sqIn : Option (BoundedFifo UrbSubmission)
  sqOut : Option (BoundedFifo UrbSubmission)
  sqOutPending : Nat
  wakeups : Nat

namespace BceVhciTransferQueue

variable {q r : BceVhciTransferQueue}

def outputs (q : BceVhciTransferQueue) : QueueOutputs where
  sqIn := q.sqIn
  sqOut := q.sqOut
  sqOutPending := q.sqOutPending
  wakeups := q.wakeups

/-- The queue with other outputs. -/
def overlay (q : BceVhciTransferQueue) (o : QueueOutputs) : BceVhciTransferQueue :=
  { q with sqIn := o.sqIn, sqOut := o.sqOut, sqOutPending := o.sqOutPending, wakeups := o.wakeups }

/-- The rest of a round of the completion handler. -/
def finishRound (q : BceVhciTransferQueue) : Option (Bool × RoundStage) → BceVhciTransferQueue
  | none => q
  | some (out, .account) => (q.outputDone out).notifySubmissionComplete out
  | some (out, .notify) => q.notifySubmissionComplete out

theorem outputDone_overlay (q r : BceVhciTransferQueue) (out : Bool) :
    (r.overlay q.outputs).outputDone out = r.overlay (q.outputDone out).outputs := by
  simp only [outputDone, apply_ite outputs, apply_ite r.overlay]
  rfl

theorem notifySubmissionComplete_overlay (q r : BceVhciTransferQueue) (out : Bool) :
    (r.overlay q.outputs).notifySubmissionComplete out = r.overlay (q.notifySubmissionComplete out).outputs := by
  have same : (r.overlay q.outputs).sq out = q.sq out := by cases out <;> rfl
  unfold notifySubmissionComplete
  rw [same]
  cases q.sq out with
  | none => rfl
  | some fifo => cases out <;> rfl

theorem outputDone_nullSq (q : BceVhciTransferQueue) (out : Bool) : (q.outputDone out).nullSq = q.nullSq := by
  obtain ⟨pending, wakeups, accounted⟩ := q.outputDone_eq out
  rw [accounted]

theorem notifySubmissionComplete_nullSq (q : BceVhciTransferQueue) (out : Bool) :
    (q.notifySubmissionComplete out).nullSq = q.nullSq := by
  obtain ⟨sqIn, sqOut, notified⟩ := q.notifySubmissionComplete_eq out
  rw [notified]

/-- It concerns the outputs alone. -/
theorem finishRound_overlay (q r : BceVhciTransferQueue) (round : Option (Bool × RoundStage)) :
    (r.overlay q.outputs).finishRound round = r.overlay (q.finishRound round).outputs := by
  match round with
  | none => rfl
  | some (out, .account) => rw [finishRound, outputDone_overlay, notifySubmissionComplete_overlay, finishRound]
  | some (out, .notify) => rw [finishRound, notifySubmissionComplete_overlay, finishRound]

theorem setStateAnswered_overlay (o : QueueOutputs) (q : BceVhciTransferQueue) (env : PauseEnv) :
    (q.overlay o).setStateAnswered env = (q.setStateAnswered env).overlay o := by
  unfold setStateAnswered
  split <;> rfl

end BceVhciTransferQueue

namespace TransferRun

variable {s t : TransferRun} {a : TransferStep}

def overlay (s : TransferRun) (o : QueueOutputs) : TransferRun :=
  { s with q := s.q.overlay o }

theorem overlay_q (o : QueueOutputs) (s : TransferRun) : (s.overlay o).q = s.q.overlay o := rfl

theorem lockStep_overlay (o : QueueOutputs) (onWorker : Bool) (call : PauseCall) :
    (s.overlay o).lockStep onWorker call = (s.lockStep onWorker call).map (overlay · o) := by
  cases call <;> simp only [lockStep, apply_ite (Option.map _), Option.map_some, Option.map_none] <;> rfl

theorem advanceStep_overlay (o : QueueOutputs) (busy : ¬s.unlocked) (onWorker : Bool) (env : PauseEnv)
    (stage : PauseStage) :
    (s.overlay o).advanceStep onWorker env stage = (s.advanceStep onWorker env stage).map (overlay · o) := by
  cases stage with
  | resumeSection src =>
    have blocked : ¬(s.overlay o).unlocked := busy
    simp only [advanceStep, if_neg busy, if_neg blocked, Option.map_none]
  | pauseCommand src | resumeCommand src | suspendCommand =>
    simp only [advanceStep, overlay_q, BceVhciTransferQueue.setStateAnswered_overlay,
      apply_ite (Option.map _), Option.map_some]
    rfl
  | _ =>
    simp only [advanceStep, apply_ite (Option.map _), Option.map_some, Option.map_none]
    rfl

theorem workStep_overlay (o : QueueOutputs) : (s.overlay o).workStep = s.workStep.map (overlay · o) := by
  unfold workStep
  cases worker : s.worker with
  | nil =>
    have same : (s.overlay o).worker = [] := worker
    simp only [same, Option.map_none]
  | cons call rest =>
    have same : (s.overlay o).worker = call :: rest := worker
    rw [same]
    cases call with
    | lock call =>
      simp only [lockStep_overlay, apply_ite (Option.map _), Option.map_none]
      rfl
    | _ =>
      simp only [apply_ite (Option.map _), Option.map_some, Option.map_none]
      rfl

theorem startWork_overlay (o : QueueOutputs) (item : WorkItem) :
    (s.overlay o).startWork item = (s.startWork item).map (overlay · o) := by
  cases item <;>
    simp only [startWork, apply_ite (Option.map _), Option.map_some, Option.map_none] <;>
    rfl

theorem destroyStep_overlay (o : QueueOutputs) : (s.overlay o).destroyStep = s.destroyStep.map (overlay · o) := by
  unfold destroyStep
  have same : (s.overlay o).teardown = s.teardown := rfl
  rw [same]
  cases s.teardown <;>
    simp only [apply_ite (Option.map _), Option.map_some, Option.map_none] <;> rfl

theorem step_overlay (o : QueueOutputs) (busy : ¬s.unlocked) (notOp : ∀ op, a ≠ .op op) :
    (s.overlay o).step a = (s.step a).map (overlay · o) := by
  have blocked : ¬(s.overlay o).unlocked := busy
  unfold step
  rw [apply_ite (Option.map _)]
  refine ite_congr rfl (fun _ => rfl) fun _ => ?_
  cases a with
  | op op => exact absurd rfl (notOp op)
  | giveback =>
    have same : (s.overlay o).q.givebackUrbList = s.q.givebackUrbList := rfl
    simp only [same]
    split
    · rfl
    · rw [if_neg busy, if_neg blocked, Option.map_none]
  | queueFlush =>
    rw [apply_ite (Option.map _)]
    rfl
  | endpointReset => rfl
  | cancelAll => rw [if_neg busy, if_neg blocked, Option.map_none]
  | startWork item => exact startWork_overlay o item
  | work => exact workStep_overlay o
  | lock call =>
    simp only [lockStep_overlay, apply_ite (Option.map _), Option.map_none]
    rfl
  | advance env =>
    have same : (s.overlay o).holder = s.holder := rfl
    simp only [same]
    split
    · rfl
    · exact advanceStep_overlay o busy _ env _
  | destroy => exact destroyStep_overlay o

/-- Between the parts of a round no step touches the outputs, nor looks at them. -/
theorem step_busy (busy : ¬s.unlocked) (notOp : ∀ op, a ≠ .op op) (run : s.step a = some t) :
    t.q.outputs = s.q.outputs ∧ ∀ o, (s.overlay o).step a = some (t.overlay o) := by
  have moved : ∀ o, (s.overlay o).step a = some (t.overlay o) := by
    intro o
    rw [step_overlay o busy notOp, run, Option.map_some]
  have same : t = t.overlay s.q.outputs := Option.some.inj (run.symm.trans (moved s.q.outputs))
  refine ⟨?_, moved⟩
  rw [same]
  rfl

theorem step_handling (notOp : ∀ op, a ≠ .op op) (run : s.step a = some t) : t.handling = s.handling := by
  cases step_effect run with
  | op op label _ => exact absurd label (notOp op)
  | giveback _ _ _ _ _ after | resumed _ _ _ _ _ _ after | flushed _ _ _ _ after | cancelledAll _ _ after
  | spliced _ _ _ after =>
    subst after
    rfl
  | quiet _ logs => exact logs.handling

end TransferRun

namespace OutputRun

variable {s t : OutputRun} {a : OutputStep}

/-- The queue with the round of its handler brought to an end. -/
def settled (s : OutputRun) : TransferRun :=
  { s.run with q := s.run.q.finishRound s.round }

theorem settled_overlay (round : t.round = s.round) (same : t.run.q.outputs = s.run.q.outputs) :
    t.settled = t.run.overlay (s.run.q.finishRound s.round).outputs := by
  have kept : t.run.q.overlay s.run.q.outputs = t.run.q := by
    rw [← same]
    rfl
  rw [settled, round, TransferRun.overlay, ← BceVhciTransferQueue.finishRound_overlay, kept]

/-- The handler whose round it is has `urb_lock`. -/
def Rounds (s : OutputRun) : Prop :=
  ∀ out stage, s.round = some (out, stage) → s.run.handling = some out

/-- What a step does to the queue, the round and the wait. -/
inductive Effect (s : OutputRun) (a : OutputStep) (t : OutputRun) : Prop
  | run (b : TransferStep) (label : a = .run b) (run : s.run.step b = some t.run)
      (parts : ∀ out c, b ≠ .op (.completion out c)) (last : b = .op .completionEnd → s.round = none)
      (round : t.round = s.round) (wait : t.wait = s.wait ∨ t.wait = .reads)
  | take (out : Bool) (c : BceSqCompletionData) (label : a = .take out c) (idle : s.round = none)
      (free : s.run.unlocked ∨ s.run.handling = some out) (held : s.run.q.outstanding out ≠ [])
      (after : t = { s with
        run := { s.run with q := s.run.q.completionBody out c, handling := some out }
        round := some (out, .account) })
  | account (out : Bool) (label : a = .account) (here : s.round = some (out, .account))
      (after : t = {
        run := { s.run with q := s.run.q.outputDone out }
        round := some (out, .notify)
        wait := if out ∧ s.run.q.sqOutPending = 1 then s.wait.wakeUp else s.wait })
  | notify (out : Bool) (label : a = .notify) (here : s.round = some (out, .notify))
      (after : t = { s with
        run := { s.run with q := s.run.q.notifySubmissionComplete out }
        round := none })
  | wait (wait : OutputWait) (label : a = .wait) (waits : s.waits)
      (next : s.wait.next s.run.q.sqOutPending = some wait) (after : t = { s with wait })
  | expire (woken : Bool) (label : a = .expire) (asleep : s.wait = .asleep woken)
      (after : t = { s with wait := .expired })

theorem step_effect (run : machine.step s a = some t) : Effect s a t := by
  obtain ⟨-, run⟩ := Option.ite_none_left_eq_some.mp run
  cases a with
  | run b =>
    simp only [runStep] at run
    split at run
    · cases run
    · obtain ⟨idle, run⟩ := Option.ite_none_right_eq_some.mp run
      obtain ⟨r, taken, after⟩ := Option.map_eq_some_iff.mp run
      cases after
      exact .run _ rfl taken nofun (fun _ => idle) rfl (.inl rfl)
    · obtain ⟨-, run⟩ := Option.ite_none_right_eq_some.mp run
      obtain ⟨r, taken, after⟩ := Option.map_eq_some_iff.mp run
      cases after
      exact .run _ rfl taken nofun nofun rfl (.inr rfl)
    · rename_i parts last _
      obtain ⟨r, taken, after⟩ := Option.map_eq_some_iff.mp run
      cases after
      exact .run _ rfl taken parts (fun here => absurd here last) rfl (.inl rfl)
  | take out c =>
    obtain ⟨⟨idle, free, held⟩, after⟩ := Option.ite_none_right_eq_some.mp run
    exact .take out c rfl idle free held (Option.some.inj after).symm
  | account =>
    simp only [account] at run
    split at run
    · rename_i out here
      exact .account out rfl here (Option.some.inj run).symm
    · cases run
  | notify =>
    simp only [notify] at run
    split at run
    · rename_i out here
      exact .notify out rfl here (Option.some.inj run).symm
    · cases run
  | wait =>
    obtain ⟨waits, run⟩ := Option.ite_none_right_eq_some.mp run
    obtain ⟨wait, next, after⟩ := Option.map_eq_some_iff.mp run
    exact .wait wait rfl waits next after.symm
  | expire =>
    simp only [expireStep] at run
    split at run
    · rename_i woken asleep
      exact .expire woken rfl asleep (Option.some.inj run).symm
    · cases run

/-- In a round the steps of the queue itself are no operations on URBs. -/
theorem notOp_of_round {b : TransferStep} {r : TransferRun} (run : s.run.step b = some r)
    (parts : ∀ out c, b ≠ .op (.completion out c)) (last : b = .op .completionEnd → s.round = none)
    (busy : ¬s.run.unlocked) (halfway : s.round ≠ none) (op : TransferOp) : b ≠ .op op := by
  rintro rfl
  obtain ⟨-, run⟩ := Option.ite_none_left_eq_some.mp run
  cases op with
  | create urb allocated link => exact busy (Option.ite_none_right_eq_some.mp run).1.1
  | cancel id status => exact busy (Option.ite_none_right_eq_some.mp run).1
  | event msg allocated => exact busy (Option.ite_none_right_eq_some.mp run).1
  | completion out c => exact parts out c rfl
  | completionEnd => exact halfway (last rfl)

theorem Rounds.busy {out : Bool} {stage : RoundStage} (rounds : s.Rounds) (here : s.round = some (out, stage)) :
    ¬s.run.unlocked := by
  rw [TransferRun.unlocked, rounds out stage here]
  exact nofun

theorem step_rounds (rounds : s.Rounds) (run : machine.step s a = some t) : t.Rounds := by
  intro out stage here
  cases step_effect run with
  | run b _ run parts last round _ =>
    rw [round] at here
    have busy := rounds.busy here
    have notOp := notOp_of_round run parts last busy (by rw [here]; exact nofun)
    rw [← rounds out stage here]
    exact TransferRun.step_handling notOp run
  | take _ _ _ _ _ _ after =>
    subst after
    cases Option.some.inj here
    rfl
  | account before _ here' after =>
    subst after
    cases Option.some.inj here
    exact rounds _ _ here'
  | notify _ _ _ after =>
    subst after
    cases here
  | wait _ _ _ _ after | expire _ _ _ after =>
    subst after
    exact rounds out stage here

/-- Taking a round in parts is a way to take it at once: whatever comes between the parts can as well
come behind its end. -/
theorem refines :
    Machine.Refines machine TransferRun.machine fun s x => x = s.settled ∧ s.Rounds where
  start := by
    rintro s ⟨run, initial, rfl⟩
    exact ⟨run, initial, rfl, nofun⟩
  step := by
    rintro s a t x ⟨rfl, rounds⟩ run
    have after := step_rounds rounds run
    have alive := (Option.ite_none_left_eq_some.mp run).1
    cases step_effect run with
    | run b _ run parts last round _ =>
      refine ⟨[b], t.settled, Machine.run_single ?_, rfl, after⟩
      cases here : s.round with
      | none =>
        rw [settled, settled, round, here]
        exact run
      | some middle =>
        have busy : ¬s.run.unlocked := rounds.busy here
        have notOp := notOp_of_round run parts last busy (by rw [here]; exact nofun)
        obtain ⟨same, moved⟩ := TransferRun.step_busy busy notOp run
        rw [settled_overlay rfl rfl, settled_overlay round same]
        exact moved _
    | take out c _ idle free held after' =>
      subst after'
      refine ⟨[.op (.completion out c)], _, Machine.run_single ?_, rfl, after⟩
      rw [settled, idle]
      exact (if_neg alive).trans (if_pos ⟨free, held⟩)
    | account out _ here after' =>
      subst after'
      refine ⟨[], _, rfl, ?_, after⟩
      rw [settled, here]
      rfl
    | notify out _ here after' =>
      subst after'
      refine ⟨[], _, rfl, ?_, after⟩
      rw [settled, here]
      rfl
    | wait _ _ _ _ after' | expire _ _ _ after' =>
      subst after'
      exact ⟨[], _, rfl, rfl, after⟩

/-- `do_pause` may wait until its time is over, whatever is pending. -/
theorem waits_out {run : TransferRun} {onWorker : Bool} {src : BceVhciPauseSource}
    (alive : ¬(run.q.nullSq ∨ run.teardown = .destroyed)) (held : run.holder = some (onWorker, .pauseCommand src))
    (present : run.q.sqOut.isSome) :
    ∃ as timedOut, machine.run ⟨run, none, .reads⟩ as = some ⟨run, none, .ended timedOut⟩ := by
  have waits : ∀ wait, waits ⟨run, none, wait⟩ := by
    intro wait
    unfold OutputRun.waits
    simp only [held]
    exact present
  have waitStep : ∀ wait, machine.step ⟨run, none, wait⟩ .wait =
      (wait.next run.q.sqOutPending).map fun wait => ⟨run, none, wait⟩ := by
    intro wait
    exact (if_neg alive).trans (if_pos (waits wait))
  have expires : machine.step ⟨run, none, .asleep false⟩ .expire = some ⟨run, none, .expired⟩ := if_neg alive
  by_cases none : run.q.sqOutPending = 0
  · exact ⟨[.wait], false, by simp [waitStep, OutputWait.next, none]⟩
  · refine ⟨[.wait, .wait, .wait, .expire, .wait], true, ?_⟩
    simp [waitStep, expires, OutputWait.next, none, Nat.pos_of_ne_zero none]

/-- The step in which `do_pause` gives its command comes behind a wait, if there is something to wait for. -/
theorem advances {run after : TransferRun} {env : PauseEnv} (step : run.step (.advance env) = some after) :
    ∃ as, machine.run ⟨run, none, .reads⟩ as = some ⟨after, none, .reads⟩ := by
  have alive := (Option.ite_none_left_eq_some.mp step).1
  have gives : ∀ wait, mayAdvance ⟨run, none, wait⟩ env →
      machine.step ⟨run, none, wait⟩ (.run (.advance env)) = some ⟨after, none, .reads⟩ := by
    intro wait may
    refine (if_neg alive).trans ((if_pos may).trans ?_)
    rw [step, Option.map_some]
  by_cases may : mayAdvance ⟨run, none, .reads⟩ env
  · exact ⟨_, Machine.run_single (gives .reads may)⟩
  · unfold mayAdvance at may
    split at may
    · rename_i onWorker src held
      have held : run.holder = some (onWorker, .pauseCommand src) := held
      split at may
      · exact absurd rfl may
      · rename_i normal
        have present : run.q.sqOut.isSome := Option.isSome_iff_ne_none.mpr fun none => may (.inl none)
        obtain ⟨as, timedOut, ran⟩ := waits_out alive held present
        have may : mayAdvance ⟨run, none, .ended timedOut⟩ env := by
          simp only [mayAdvance, held, if_neg normal]
          exact .inr rfl
        refine ⟨as ++ [.run (.advance env)], ?_⟩
        rw [Machine.run_append, ran, Option.bind_some]
        exact Machine.run_single (gives _ may)
    · exact absurd trivial may

/-- A round of the handler in its parts. -/
theorem completes {run : TransferRun} {out : Bool} {c : BceSqCompletionData}
    (alive : ¬(run.q.nullSq ∨ run.teardown = .destroyed)) (free : run.unlocked ∨ run.handling = some out)
    (held : run.q.outstanding out ≠ []) (sound : ¬(run.q.completion out c).nullSq) :
    machine.run ⟨run, none, .reads⟩ [.take out c, .account, .notify] =
      some ⟨{ run with q := run.q.completion out c, handling := some out }, none, .reads⟩ := by
  rw [BceVhciTransferQueue.completion] at sound ⊢
  have taken : machine.step ⟨run, none, .reads⟩ (.take out c) =
      some ⟨{ run with q := run.q.completionBody out c, handling := some out }, some (out, .account), .reads⟩ :=
    (if_neg alive).trans (if_pos ⟨rfl, free, held⟩)
  rw [Machine.run_cons, taken, Option.bind_some]
  generalize run.q.completionBody out c = q at sound ⊢
  rw [BceVhciTransferQueue.notifySubmissionComplete_nullSq] at sound
  have counted : ¬((q.outputDone out).nullSq ∨ run.teardown = .destroyed) :=
    fun fault => alive (.inr (fault.resolve_left sound))
  rw [BceVhciTransferQueue.outputDone_nullSq] at sound
  have begun : ¬(q.nullSq ∨ run.teardown = .destroyed) :=
    fun fault => alive (.inr (fault.resolve_left sound))
  have accounted : machine.step ⟨{ run with q, handling := some out }, some (out, .account), .reads⟩ .account =
      some ⟨{ run with q := q.outputDone out, handling := some out }, some (out, .notify), .reads⟩ := by
    refine (if_neg begun).trans ?_
    simp only [account, OutputWait.wakeUp, ite_self]
  rw [Machine.run_cons, accounted, Option.bind_some]
  exact Machine.run_single (if_neg counted)

/-- Nothing is lost either: what the queue does in whole rounds it can do in parts, up to a fault. -/
theorem transferRun_refines :
    Machine.Refines TransferRun.machine machine fun x s => x.q.nullSq ∨ s = ⟨x, none, .reads⟩ where
  start := fun x initial => ⟨_, ⟨x, initial, rfl⟩, .inr rfl⟩
  step := by
    rintro x a y s related run
    have alive := (Option.ite_none_left_eq_some.mp run).1
    obtain rfl := related.resolve_left fun fault => alive (.inl fault)
    by_cases fault : y.q.nullSq
    · exact ⟨[], _, rfl, .inl fault⟩
    suffices ∃ as, machine.run ⟨x, none, .reads⟩ as = some ⟨y, none, .reads⟩ from
      this.imp fun _ ran => ⟨_, ran, .inr rfl⟩
    have alone (plain : runStep ⟨x, none, .reads⟩ a = (x.step a).map fun run => ⟨run, none, .reads⟩) :
        ∃ as, machine.run ⟨x, none, .reads⟩ as = some ⟨y, none, .reads⟩ := by
      refine ⟨[.run a], Machine.run_single ((if_neg alive).trans (plain.trans ?_))⟩
      rw [show x.step a = some y from run, Option.map_some]
    cases a with
    | advance env => exact advances run
    | op op =>
      cases op with
      | completion out c =>
        have run := (Option.ite_none_left_eq_some.mp run).2
        obtain ⟨⟨free, held⟩, after⟩ := Option.ite_none_right_eq_some.mp run
        cases after
        exact ⟨_, completes alive free held fault⟩
      | completionEnd =>
        refine alone ?_
        rw [runStep, if_pos rfl]
      | _ => exact alone rfl
    | _ => exact alone rfl

end OutputRun

end AppleBce

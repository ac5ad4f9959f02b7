import AppleBce.Basis.Machine
import AppleBce.Vhci.FirmwareEvents
import AppleBce.Vhci.TransferOps

namespace AppleBce

open Basis

/-- The calls that take `pause_lock`: `bce_vhci_transfer_queue_pause` and `_resume`, the reset
worker and `bce_vhci_bus_suspend`. -/
inductive PauseCall
  | pause (src : BceVhciPauseSource)
  | resume (src : BceVhciPauseSource)
  | reset
  | suspend
  deriving DecidableEq, Repr

/-- What the holder of `pause_lock` does next. -/
inductive PauseStage
  | removePending (src : BceVhciPauseSource)
  | pauseCommand (src : BceVhciPauseSource)
  | pauseCheck (src : BceVhciPauseSource) (status : Int)
  | pauseSet (src : BceVhciPauseSource)
  | resumeCommand (src : BceVhciPauseSource)
  | resumeCheck (src : BceVhciPauseSource)
  | resumeSection (src : BceVhciPauseSource)
  | resumeClear (src : BceVhciPauseSource)
  | resetMark
  | resetRemove
  | resetEnd
  | suspendCommand
  | suspendSet
  deriving DecidableEq, Repr

/-- The work items of the ordered workqueue that act on the queue: its own three, and what a
message of the firmware asks for. -/
inductive WorkItem
  | flush
  | reset
  | resume
  | firmwareResume
  | firmwarePause
  | firmwareStall
  deriving DecidableEq, Repr

/-- The sections of a work item. -/
inductive WorkCall
  | lock (call : PauseCall)
  | flushSection
  | markStalled
  | stall
  | requestReset
  deriving DecidableEq, Repr

/-- What a work item does, section by section. The command to reset EP0 between the pause and
the section of the flush worker has no effect on the queue. -/
def WorkItem.program : WorkItem → List WorkCall
  | .flush => [.lock (.pause .internalWq), .flushSection, .lock (.resume .internalWq)]
  | .reset => [.lock .reset, .lock (.resume .internalWq)]
  | .resume => [.lock (.resume .internalWq)]
  | .firmwareResume => [.lock (.resume .firmware)]
  | .firmwarePause => [.lock (.pause .firmware)]
  | .firmwareStall => [.markStalled, .stall, .requestReset]

/-- How far `bce_vhci_destroy_transfer_queue` is. -/
inductive Teardown
  | live
  | resumeCancelled
  | resetCancelled
  | flushCancelled
  | spliced
  | destroyed
  deriving DecidableEq, Repr

/-- What the T2 answers a command and whether the controller is in recovery. -/
structure PauseEnv where
  recovering : Bool
  status : Int
  answer : BitVec 64
  deriving DecidableEq, Repr

/-- The operations that are one section under `urb_lock`. A run of the completion handler is
one round for each completion, then its end. -/
inductive TransferOp
  | create (urb : Urb) (allocated : Bool) (link : Option Errno)
  | cancel (id : Nat) (status : Int)
  | event (msg : BceVhciMessage) (allocated : Bool)
  | completion (out : Bool) (c : BceSqCompletionData)
  | completionEnd
  deriving DecidableEq

/-- All that can happen to a transfer queue next. -/
inductive TransferStep
  | op (op : TransferOp)
  | giveback
  | queueFlush
  | endpointReset
  | cancelAll
  | startWork (item : WorkItem)
  | work
  | lock (call : PauseCall)
  | advance (env : PauseEnv)
  | destroy
  deriving DecidableEq

/-- A transfer queue in use: who holds `pause_lock` (the worker or another thread) and at which
stage, what the worker has still to do, the queue whose completion handler is running, and the
cancels that have left `urb_lock` and not queued the flush worker yet. The last fields record
the URBs whose `bce_vhci_urb_create` returned 0 and the others, those given back, and the
started control URBs among the cancelled ones left to the flush worker. -/
structure TransferRun where
  q : BceVhciTransferQueue
  holder : Option (Bool × PauseStage)
  item : WorkItem
  worker : List WorkCall
  handling : Option Bool
  cancels : Nat
  teardown : Teardown
  accepted : List Nat
  rejected : List Nat
  given : List Urb
  controlFlushes : List Nat

namespace BceVhciTransferQueue

/-- `bce_vhci_cmd_endpoint_set_state`, which stores the state the T2 answers unless the command
failed, was answered with an internal error or without power. -/
def setStateAnswered (q : BceVhciTransferQueue) (env : PauseEnv) : BceVhciTransferQueue :=
  if 0 ≤ env.status ∧ env.status ≠ BceVhciMessageStatus.internalError.code.toNat ∧
      env.status ≠ BceVhciMessageStatus.noPower.code.toNat then
    { q with state := env.answer.setWidth 32 }
  else q

def IsInState (q : BceVhciTransferQueue) (state : BceVhciEndpointState) : Prop :=
  q.state = state.code.setWidth 32

instance (q : BceVhciTransferQueue) (state : BceVhciEndpointState) : Decidable (q.IsInState state) :=
  inferInstanceAs (Decidable (_ = _))

def pausedFor (q : BceVhciTransferQueue) (src : BceVhciPauseSource) : Bool :=
  q.pausedBy &&& src.bit != 0

def setPaused (q : BceVhciTransferQueue) (src : BceVhciPauseSource) : BceVhciTransferQueue :=
  { q with pausedBy := q.pausedBy ||| src.bit }

def clearPaused (q : BceVhciTransferQueue) (src : BceVhciPauseSource) : BceVhciTransferQueue :=
  { q with pausedBy := q.pausedBy &&& ~~~src.bit }

/-- The URB is one the USB core submits to this endpoint: apart from the control endpoint its
direction is that of the endpoint. -/
def Takes (q : BceVhciTransferQueue) (urb : Urb) : Prop :=
  q.endp.num = 0 ∨ urb.dirIn = q.endp.dirIn

instance (q : BceVhciTransferQueue) (urb : Urb) : Decidable (q.Takes urb) :=
  inferInstanceAs (Decidable (_ ∨ _))

end BceVhciTransferQueue

namespace TransferRun

/-- The holder goes on to a stage. -/
def goto (s : TransferRun) (onWorker : Bool) (stage : PauseStage) : TransferRun :=
  { s with holder := some (onWorker, stage) }

/-- The holder releases `pause_lock`, and the worker goes on behind the call. -/
def release (s : TransferRun) (onWorker : Bool) : TransferRun :=
  { s with holder := none, worker := if onWorker then s.worker.tail else s.worker }

/-- `urb_lock` is free. -/
def unlocked (s : TransferRun) : Prop :=
  s.handling = none

instance (s : TransferRun) : Decidable s.unlocked :=
  inferInstanceAs (Decidable (_ = _))

/-- The beginning of a call, once it has `pause_lock`. -/
def lockStep (s : TransferRun) (onWorker : Bool) : PauseCall → Option TransferRun
  | .pause src =>
    if s.q.pausedFor src then some (s.release onWorker)
    else if s.q.pausedBy ≠ 0 then some ({ s with q := s.q.setPaused src }.release onWorker)
    else if s.unlocked then
      some ({ s with q := { s.q with active := false } }.goto onWorker (.removePending src))
    else none
  | .resume src =>
    if ¬s.q.pausedFor src then some (s.release onWorker)
    else if s.q.pausedBy &&& ~~~src.bit ≠ 0 then
      some ({ s with q := s.q.clearPaused src }.release onWorker)
    else some (s.goto onWorker (.resumeCommand src))
  | .reset =>
    if ¬s.unlocked then none
    else if ¬s.q.stalled then some { s with worker := [] }
    else some ({ s with q := { s.q with active := false } }.goto onWorker .resetMark)
  | .suspend =>
    if s.q.pausedBy ≠ 0 then some ({ s with q := s.q.setPaused .suspend }.release onWorker)
    else if s.unlocked then
      some ({ s with q := { s.q with active := false } }.goto onWorker .suspendCommand)
    else none

/-- The next section of the holder. -/
def advanceStep (s : TransferRun) (onWorker : Bool) (env : PauseEnv) : PauseStage → Option TransferRun
  | .removePending src =>
    if s.unlocked then some ({ s with q := s.q.removePending }.goto onWorker (.pauseCommand src))
    else none
  | .pauseCommand src =>
    if env.recovering then some (s.goto onWorker (.pauseSet src))
    else some ({ s with q := s.q.setStateAnswered env }.goto onWorker (.pauseCheck src env.status))
  | .pauseCheck src status =>
    if status = 0 ∧ ¬s.q.IsInState .paused then some (s.release onWorker)
    else some (s.goto onWorker (.pauseSet src))
  | .pauseSet src => some ({ s with q := s.q.setPaused src }.release onWorker)
  | .resumeCommand src =>
    let answered := { s with q := s.q.setStateAnswered env }
    if env.status ≠ 0 then some (answered.release onWorker)
    else some (answered.goto onWorker (.resumeCheck src))
  | .resumeCheck src =>
    if ¬s.q.IsInState .active then some (s.release onWorker)
    else some (s.goto onWorker (.resumeSection src))
  | .resumeSection src =>
    if s.unlocked then some ({ s with q := s.q.resumeSection }.goto onWorker (.resumeClear src))
    else none
  | .resumeClear src => some ({ s with q := s.q.clearPaused src }.release onWorker)
  | .resetMark => some ({ s with q := s.q.setPaused .internalWq }.goto onWorker .resetRemove)
  | .resetRemove =>
    if s.unlocked then some ({ s with q := s.q.removePending }.goto onWorker .resetEnd) else none
  | .resetEnd =>
    if s.unlocked then some ({ s with q := { s.q with stalled := false } }.release onWorker)
    else none
  | .suspendCommand =>
    some ({ s with q := s.q.setStateAnswered env }.goto onWorker .suspendSet)
  | .suspendSet => some ({ s with q := s.q.setPaused .suspend }.release onWorker)

/-- The next section of the worker. -/
def workStep (s : TransferRun) : Option TransferRun :=
  match s.worker with
  | [] => none
  | .lock call :: _ => if s.holder = none then s.lockStep true call else none
  | .flushSection :: rest =>
    if s.unlocked then some { s with q := s.q.flushSection, worker := rest } else none
  | .markStalled :: rest =>
    some { s with
      q := { s.q with state := BceVhciEndpointState.stalled.code.setWidth 32 }
      worker := rest }
  | .stall :: rest =>
    if s.unlocked then
      some { s with q := { s.q with active := false, stalled := true }, worker := rest }
    else none
  | .requestReset :: rest => some { s with q := s.q.requestReset, worker := rest }

/-- The worker takes an item that is queued. The firmware may send a message at any time. -/
def startWork (s : TransferRun) (item : WorkItem) : Option TransferRun :=
  let started := { s with item, worker := item.program }
  if s.worker ≠ [] then none
  else
    match item with
    | .flush => if s.q.wFlush then some { started with q := { s.q with wFlush := false } } else none
    | .reset => if s.q.wReset then some { started with q := { s.q with wReset := false } } else none
    | .resume => if s.q.wResume then some { started with q := { s.q with wResume := false } } else none
    | _ => some started

/-- The worker is busy with an item. -/
def running (s : TransferRun) (item : WorkItem) : Prop :=
  s.worker ≠ [] ∧ s.item = item

instance (s : TransferRun) (item : WorkItem) : Decidable (s.running item) :=
  inferInstanceAs (Decidable (_ ∧ _))

/-- The next action of `bce_vhci_destroy_transfer_queue`. `cancel_work_sync` waits for a running
item. -/
def destroyStep (s : TransferRun) : Option TransferRun :=
  match s.teardown with
  | .live =>
    if s.running .resume then none
    else some { s with q := { s.q with wResume := false }, teardown := .resumeCancelled }
  | .resumeCancelled =>
    if s.running .reset then none
    else some { s with q := { s.q with wReset := false }, teardown := .resetCancelled }
  | .resetCancelled =>
    if s.running .flush then none
    else some { s with q := { s.q with wFlush := false }, teardown := .flushCancelled }
  | .flushCancelled =>
    if s.unlocked then some { s with q := s.q.destroySplice, teardown := .spliced } else none
  | .spliced =>
    if s.unlocked ∧ s.q.givebackUrbList = [] then
      some { s with q := s.q.removePending, teardown := .destroyed }
    else none
  | .destroyed => none

/-- Recording the result of `bce_vhci_urb_create`. -/
def created (s : TransferRun) (id : Nat) (result : Option Errno × BceVhciTransferQueue) : TransferRun :=
  match result.1 with
  | none => { s with q := result.2, accepted := s.accepted ++ [id] }
  | some _ => { s with q := result.2, rejected := s.rejected ++ [id] }

/-- Recording what `bce_vhci_urb_request_cancel` did. -/
def afterCancel (s : TransferRun) (id : Nat) (result : CancelOutcome × BceVhciTransferQueue) :
    TransferRun :=
  match result.1 with
  | .givenBack urb => { s with q := result.2, given := s.given ++ [urb] }
  | .deferred controlFlush =>
    { s with
      q := result.2
      cancels := s.cancels + 1
      controlFlushes := if controlFlush then s.controlFlushes ++ [id] else s.controlFlushes }
  | _ => { s with q := result.2 }

/-- An operation under `urb_lock`. The T2 completes the oldest submission of a queue, and while
the handler of a queue runs nothing else has the lock. -/
def opStep (s : TransferRun) : TransferOp → Option TransferRun
  | .create urb allocated link =>
    if s.unlocked ∧ urb.id ∉ s.accepted ∧ urb.id ∉ s.rejected ∧ s.q.Takes urb then
      some (s.created urb.id (s.q.urbCreate urb allocated link))
    else none
  | .cancel id status =>
    if s.unlocked then some (s.afterCancel id (s.q.urbRequestCancel id status)) else none
  | .event msg allocated =>
    if s.unlocked then some { s with q := s.q.event msg allocated } else none
  | .completion out c =>
    if (s.unlocked ∨ s.handling = some out) ∧ s.q.outstanding out ≠ [] then
      some { s with q := s.q.completion out c, handling := some out }
    else none
  | .completionEnd => some { s with q := s.q.deliverPending, handling := none }

/-- One step of the queue's life. A missing submission queue is a fault in the kernel, and a
queue that is destroyed is gone. -/
def step (s : TransferRun) (a : TransferStep) : Option TransferRun :=
  if s.q.nullSq ∨ s.teardown = .destroyed then none
  else
    match a with
    | .op op => s.opStep op
    | .giveback =>
      match s.q.givebackUrbList with
      | [] => none
      | urb :: rest =>
        if s.unlocked then
          some { s with q := { s.q with givebackUrbList := rest }, given := s.given ++ [urb] }
        else none
    | .queueFlush =>
      if 0 < s.cancels then
        some { s with q := { s.q with wFlush := true }, cancels := s.cancels - 1 }
      else none
    | .endpointReset => some { s with q := s.q.requestReset }
    | .cancelAll => if s.unlocked then some { s with q := s.q.cancelAll } else none
    | .startWork item => s.startWork item
    | .work => s.workStep
    | .lock call => if s.holder = none ∧ call ≠ .reset then s.lockStep false call else none
    | .advance env =>
      match s.holder with
      | none => none
      | some (onWorker, stage) => s.advanceStep onWorker env stage
    | .destroy => s.destroyStep

/-- A transfer queue that was just created for an endpoint. -/
def fresh (q : BceVhciTransferQueue) : TransferRun where
  q := q
  holder := none
  item := .flush
  worker := []
  handling := none
  cancels := 0
  teardown := .live
  accepted := []
  rejected := []
  given := []
  controlFlushes := []

/-- The life of the transfer queue of any endpoint. -/
def machine : Machine TransferRun TransferStep where
  init := fun s => ∃ endp devAddr memory reservations q,
    bceVhciCreateTransferQueue endp devAddr endp.queueDir memory reservations = some q ∧ s = fresh q
  step := step

end TransferRun

/-- What a section that does not look at the URBs leaves alone. It never activates the queue. -/
structure BceVhciTransferQueue.Quiet (q r : BceVhciTransferQueue) : Prop where
  endp : r.endp = q.endp
  devAddr : r.devAddr = q.devAddr
  endpAddr : r.endpAddr = q.endpAddr
  maxActiveRequests : r.maxActiveRequests = q.maxActiveRequests
  remaining : r.remainingActiveRequests = q.remainingActiveRequests
  active : r.active → q.active
  sqIn : r.sqIn = q.sqIn
  sqOut : r.sqOut = q.sqOut
  evq : r.evq = q.evq ∨ r.evq = []
  urbList : r.urbList = q.urbList
  givebackUrbList : r.givebackUrbList = q.givebackUrbList
  sqOutPending : r.sqOutPending = q.sqOutPending
  flushGivebackList : r.flushGivebackList = q.flushGivebackList
  ghostInCount : r.ghostInCount = q.ghostInCount
  ghostOutCount : r.ghostOutCount = q.ghostOutCount
  messages : r.messages = q.messages
  reservations : r.reservations = q.reservations
  inits : r.inits = q.inits
  nullSq : r.nullSq = q.nullSq

namespace TransferRun

variable {s t : TransferRun} {a : TransferStep}

/-- What only operations on URBs record. -/
structure SameLogs (s t : TransferRun) : Prop where
  handling : t.handling = s.handling
  accepted : t.accepted = s.accepted
  rejected : t.rejected = s.rejected
  given : t.given = s.given
  controlFlushes : t.controlFlushes = s.controlFlushes

/-- What a step does to the queue and to the record of its URBs. -/
inductive Effect (s : TransferRun) (a : TransferStep) (t : TransferRun) : Prop
  | op (op : TransferOp) (label : a = .op op) (run : s.opStep op = some t)
  | giveback (urb : Urb) (rest : List Urb) (label : a = .giveback)
      (first : s.q.givebackUrbList = urb :: rest) (free : s.unlocked)
      (after : t = { s with q := { s.q with givebackUrbList := rest }, given := s.given ++ [urb] })
  | resumed (env : PauseEnv) (onWorker : Bool) (src : BceVhciPauseSource) (label : a = .advance env)
      (held : s.holder = some (onWorker, .resumeSection src)) (free : s.unlocked)
      (after : t = { s with q := s.q.resumeSection }.goto onWorker (.resumeClear src))
  | flushed (rest : List WorkCall) (label : a = .work) (ahead : s.worker = .flushSection :: rest)
      (free : s.unlocked) (after : t = { s with q := s.q.flushSection, worker := rest })
  | cancelledAll (label : a = .cancelAll) (free : s.unlocked)
      (after : t = { s with q := s.q.cancelAll })
  | spliced (label : a = .destroy) (stage : s.teardown = .flushCancelled) (free : s.unlocked)
      (after : t = { s with q := s.q.destroySplice, teardown := .spliced })
  | quiet (same : s.q.Quiet t.q) (logs : s.SameLogs t)

/-- Only the flags of the queue and its deferred events change. -/
theorem quiet_control {q : BceVhciTransferQueue} {state : BitVec 32} {active stalled : Bool}
    {pausedBy : BitVec 32} {evq : List BceVhciMessage} {wReset wResume wFlush : Bool}
    (activates : active → q.active) (clears : evq = q.evq ∨ evq = []) :
    q.Quiet { q with state, active, stalled, pausedBy, evq, wReset, wResume, wFlush } :=
  ⟨rfl, rfl, rfl, rfl, rfl, activates, rfl, rfl, clears, rfl, rfl, rfl, rfl, rfl, rfl, rfl, rfl, rfl, rfl⟩

theorem quiet_setStateAnswered (q : BceVhciTransferQueue) (env : PauseEnv) :
    q.Quiet (q.setStateAnswered env) := by
  unfold BceVhciTransferQueue.setStateAnswered
  split
  · exact quiet_control id (.inl rfl)
  · exact quiet_control id (.inl rfl)

/-- Taking `pause_lock` changes nothing but flags. -/
theorem lockStep_quiet {onWorker : Bool} {call : PauseCall} (run : s.lockStep onWorker call = some t) :
    s.q.Quiet t.q ∧ s.SameLogs t := by
  cases call with
  | pause src =>
    simp only [lockStep] at run
    split at run
    · cases Option.some.inj run
      exact ⟨quiet_control id (.inl rfl), ⟨rfl, rfl, rfl, rfl, rfl⟩⟩
    · split at run
      · cases Option.some.inj run
        exact ⟨quiet_control id (.inl rfl), ⟨rfl, rfl, rfl, rfl, rfl⟩⟩
      · obtain ⟨-, after⟩ := Option.ite_none_right_eq_some.mp run
        cases after
        exact ⟨quiet_control nofun (.inl rfl), ⟨rfl, rfl, rfl, rfl, rfl⟩⟩
  | resume src =>
    simp only [lockStep] at run
    split at run
    · cases Option.some.inj run
      exact ⟨quiet_control id (.inl rfl), ⟨rfl, rfl, rfl, rfl, rfl⟩⟩
    · split at run <;> cases Option.some.inj run <;>
        exact ⟨quiet_control id (.inl rfl), ⟨rfl, rfl, rfl, rfl, rfl⟩⟩
  | reset =>
    simp only [lockStep] at run
    split at run
    · cases run
    · split at run
      · cases Option.some.inj run
        exact ⟨quiet_control id (.inl rfl), ⟨rfl, rfl, rfl, rfl, rfl⟩⟩
      · cases Option.some.inj run
        exact ⟨quiet_control nofun (.inl rfl), ⟨rfl, rfl, rfl, rfl, rfl⟩⟩
  | suspend =>
    simp only [lockStep] at run
    split at run
    · cases Option.some.inj run
      exact ⟨quiet_control id (.inl rfl), ⟨rfl, rfl, rfl, rfl, rfl⟩⟩
    · obtain ⟨-, after⟩ := Option.ite_none_right_eq_some.mp run
      cases after
      exact ⟨quiet_control nofun (.inl rfl), ⟨rfl, rfl, rfl, rfl, rfl⟩⟩

/-- Of the sections of a holder only the locked one of `do_resume` looks at the URBs. -/
theorem advanceStep_cases {onWorker : Bool} {env : PauseEnv} {stage : PauseStage}
    (run : s.advanceStep onWorker env stage = some t) :
    (∃ src, stage = .resumeSection src ∧ s.unlocked ∧
      t = { s with q := s.q.resumeSection }.goto onWorker (.resumeClear src)) ∨
    (s.q.Quiet t.q ∧ s.SameLogs t) := by
  cases stage with
  | resumeSection src =>
    obtain ⟨free, after⟩ := Option.ite_none_right_eq_some.mp run
    exact .inl ⟨src, rfl, free, (Option.some.inj after).symm⟩
  | removePending src | resetRemove =>
    obtain ⟨-, after⟩ := Option.ite_none_right_eq_some.mp run
    cases after
    exact .inr ⟨quiet_control id (.inr rfl), ⟨rfl, rfl, rfl, rfl, rfl⟩⟩
  | resetEnd =>
    obtain ⟨-, after⟩ := Option.ite_none_right_eq_some.mp run
    cases after
    exact .inr ⟨quiet_control id (.inl rfl), ⟨rfl, rfl, rfl, rfl, rfl⟩⟩
  | pauseCommand src =>
    simp only [advanceStep] at run
    split at run <;> cases Option.some.inj run
    · exact .inr ⟨quiet_control id (.inl rfl), ⟨rfl, rfl, rfl, rfl, rfl⟩⟩
    · exact .inr ⟨quiet_setStateAnswered s.q env, ⟨rfl, rfl, rfl, rfl, rfl⟩⟩
  | resumeCommand src =>
    simp only [advanceStep] at run
    split at run <;> cases Option.some.inj run <;>
      exact .inr ⟨quiet_setStateAnswered s.q env, ⟨rfl, rfl, rfl, rfl, rfl⟩⟩
  | pauseCheck src status =>
    simp only [advanceStep] at run
    split at run <;> cases Option.some.inj run <;>
      exact .inr ⟨quiet_control id (.inl rfl), ⟨rfl, rfl, rfl, rfl, rfl⟩⟩
  | resumeCheck src =>
    simp only [advanceStep] at run
    split at run <;> cases Option.some.inj run <;>
      exact .inr ⟨quiet_control id (.inl rfl), ⟨rfl, rfl, rfl, rfl, rfl⟩⟩
  | suspendCommand =>
    cases Option.some.inj run
    exact .inr ⟨quiet_setStateAnswered s.q env, ⟨rfl, rfl, rfl, rfl, rfl⟩⟩
  | pauseSet src | resumeClear src | resetMark | suspendSet =>
    cases Option.some.inj run
    exact .inr ⟨quiet_control id (.inl rfl), ⟨rfl, rfl, rfl, rfl, rfl⟩⟩

/-- Of the sections of the worker only that of the flush worker looks at the URBs. -/
theorem workStep_cases (run : s.workStep = some t) :
    (∃ rest, s.worker = .flushSection :: rest ∧ s.unlocked ∧
      t = { s with q := s.q.flushSection, worker := rest }) ∨
    (s.q.Quiet t.q ∧ s.SameLogs t) := by
  unfold workStep at run
  split at run
  · cases run
  · exact .inr (lockStep_quiet (Option.ite_none_right_eq_some.mp run).2)
  · rename_i rest ahead
    obtain ⟨free, after⟩ := Option.ite_none_right_eq_some.mp run
    exact .inl ⟨rest, ahead, free, (Option.some.inj after).symm⟩
  · cases Option.some.inj run
    exact .inr ⟨quiet_control id (.inl rfl), ⟨rfl, rfl, rfl, rfl, rfl⟩⟩
  · obtain ⟨-, after⟩ := Option.ite_none_right_eq_some.mp run
    cases after
    exact .inr ⟨quiet_control nofun (.inl rfl), ⟨rfl, rfl, rfl, rfl, rfl⟩⟩
  · cases Option.some.inj run
    exact .inr ⟨quiet_control id (.inl rfl), ⟨rfl, rfl, rfl, rfl, rfl⟩⟩

theorem startWork_quiet {item : WorkItem} (run : s.startWork item = some t) :
    s.q.Quiet t.q ∧ s.SameLogs t := by
  unfold startWork at run
  simp only at run
  split at run
  · cases run
  · cases item with
    | flush | reset | resume =>
      obtain ⟨-, after⟩ := Option.ite_none_right_eq_some.mp run
      cases after
      exact ⟨quiet_control id (.inl rfl), ⟨rfl, rfl, rfl, rfl, rfl⟩⟩
    | firmwareResume | firmwarePause | firmwareStall =>
      cases Option.some.inj run
      exact ⟨quiet_control id (.inl rfl), ⟨rfl, rfl, rfl, rfl, rfl⟩⟩

/-- Of the actions of the teardown only the splice looks at the URBs. -/
theorem destroyStep_cases (run : s.destroyStep = some t) :
    (s.teardown = .flushCancelled ∧ s.unlocked ∧
      t = { s with q := s.q.destroySplice, teardown := .spliced }) ∨
    (s.q.Quiet t.q ∧ s.SameLogs t) := by
  unfold destroyStep at run
  split at run
  · obtain ⟨-, after⟩ := Option.ite_none_left_eq_some.mp run
    cases after
    exact .inr ⟨quiet_control id (.inl rfl), ⟨rfl, rfl, rfl, rfl, rfl⟩⟩
  · obtain ⟨-, after⟩ := Option.ite_none_left_eq_some.mp run
    cases after
    exact .inr ⟨quiet_control id (.inl rfl), ⟨rfl, rfl, rfl, rfl, rfl⟩⟩
  · obtain ⟨-, after⟩ := Option.ite_none_left_eq_some.mp run
    cases after
    exact .inr ⟨quiet_control id (.inl rfl), ⟨rfl, rfl, rfl, rfl, rfl⟩⟩
  · rename_i stage
    obtain ⟨free, after⟩ := Option.ite_none_right_eq_some.mp run
    exact .inl ⟨stage, free, (Option.some.inj after).symm⟩
  · obtain ⟨-, after⟩ := Option.ite_none_right_eq_some.mp run
    cases after
    exact .inr ⟨quiet_control id (.inr rfl), ⟨rfl, rfl, rfl, rfl, rfl⟩⟩
  · cases run

/-- Every step is an operation on URBs, one of five sections, or changes nothing but flags. -/
theorem step_effect (run : s.step a = some t) : Effect s a t := by
  obtain ⟨-, run⟩ := Option.ite_none_left_eq_some.mp run
  cases a with
  | op op => exact .op op rfl run
  | giveback =>
    simp only at run
    split at run
    · cases run
    · rename_i urb rest first
      obtain ⟨free, after⟩ := Option.ite_none_right_eq_some.mp run
      exact .giveback urb rest rfl first free (Option.some.inj after).symm
  | queueFlush =>
    obtain ⟨-, after⟩ := Option.ite_none_right_eq_some.mp run
    cases after
    exact .quiet (quiet_control id (.inl rfl)) ⟨rfl, rfl, rfl, rfl, rfl⟩
  | endpointReset =>
    cases Option.some.inj run
    exact .quiet (quiet_control id (.inl rfl)) ⟨rfl, rfl, rfl, rfl, rfl⟩
  | cancelAll =>
    obtain ⟨free, after⟩ := Option.ite_none_right_eq_some.mp run
    exact .cancelledAll rfl free (Option.some.inj after).symm
  | startWork item =>
    obtain ⟨same, logs⟩ := startWork_quiet run
    exact .quiet same logs
  | work =>
    rcases workStep_cases run with ⟨rest, ahead, free, after⟩ | ⟨same, logs⟩
    · exact .flushed rest rfl ahead free after
    · exact .quiet same logs
  | lock call =>
    obtain ⟨same, logs⟩ := lockStep_quiet (Option.ite_none_right_eq_some.mp run).2
    exact .quiet same logs
  | advance env =>
    simp only at run
    split at run
    · cases run
    · rename_i onWorker stage held
      rcases advanceStep_cases run with ⟨src, rfl, free, after⟩ | ⟨same, logs⟩
      · exact .resumed env onWorker src rfl held free after
      · exact .quiet same logs
  | destroy =>
    rcases destroyStep_cases run with ⟨stage, free, after⟩ | ⟨same, logs⟩
    · exact .spliced rfl stage free after
    · exact .quiet same logs

/-- A computed run of the queue of an endpoint, all of whose steps meet a condition. -/
def ranUnder (C : TransferRun → TransferStep → Prop) [∀ s a, Decidable (C s a)] (endp : UsbEndpoint)
    (reservations : List Bool) (steps : List TransferStep) : Option TransferRun :=
  (bceVhciCreateTransferQueue endp 1 endp.queueDir ⟨true, true, true⟩ reservations).bind
    fun q => (machine.guard C).run (fresh q) steps

theorem reachableUnder_of_ran {β : Type} {C : TransferRun → TransferStep → Prop}
    [∀ s a, Decidable (C s a)] {endp : UsbEndpoint} {reservations : List Bool}
    {steps : List TransferStep} {view : TransferRun → β} {x : β}
    (ran : (ranUnder C endp reservations steps).map view = some x) :
    ∃ s, machine.ReachableUnder C s ∧ view s = x := by
  obtain ⟨s, ran, seen⟩ := Option.map_eq_some_iff.mp ran
  obtain ⟨q, create, ran⟩ := Option.bind_eq_some_iff.mp ran
  exact ⟨s, .of_run ⟨endp, 1, _, reservations, q, create, rfl⟩ steps ran, seen⟩

end TransferRun

/-- An URB of 512 bytes. -/
def sampleUrb (id : Nat) (dirIn : Bool) : Urb where
  id := id
  dirIn := dirIn
  transferBufferLength := 512
  transferDma := 0x10000
  setupDma := 0x20000
  isoFrameDesc := []
  actualLength := 0
  errorCount := 0
  status := Errno.inprogress.neg

def bulkIn : UsbEndpoint := ⟨0x81, .bulk, 512⟩

def bulkOut : UsbEndpoint := ⟨0x01, .bulk, 512⟩

def intIn : UsbEndpoint := ⟨0x82, .int, 8⟩

def controlEndpoint : UsbEndpoint := ⟨0, .control, 64⟩

def bytesRequest (size : BitVec 64) : BceVhciMessage :=
  ⟨BceVhciCommand.transferRequest.code, 0, 0x101, size⟩

def TransferRun.bulkOutFresh : TransferRun :=
  .fresh ((bceVhciCreateTransferQueue bulkOut 1 .toDevice ⟨true, true, true⟩ []).get rfl)

theorem TransferRun.bulkOutFresh_init : machine.init bulkOutFresh :=
  ⟨bulkOut, 1, ⟨true, true, true⟩, [], _, rfl, rfl⟩

end AppleBce

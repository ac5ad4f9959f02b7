import AppleBce.Vhci.InactiveStarts

namespace AppleBce

open Basis

/-- The functions on an URB that its queue calls. -/
inductive UrbAction
  | init
  | update (msg : BceVhciMessage)
  | transferCompletion (c : BceSqCompletionData)
  | resume
  deriving DecidableEq

/-- A call of one of them, with the URB and the queue it finds. -/
structure CalledUrb where
  action : UrbAction
  urb : BceVhciUrb
  q : BceVhciTransferQueue

namespace CalledUrb

def result (call : CalledUrb) : UrbCall :=
  match call.action with
  | .init => call.urb.init call.q
  | .update msg => call.urb.update msg call.q
  | .transferCompletion c => call.urb.transferCompletion c call.q
  | .resume => call.urb.resume call.q

/-- The call reserves a submission on `sq_out`: it is a `TRANSFER_REQUEST` for the data or for the
setup packet, and the URB waits for it. -/
def Sends (call : CalledUrb) : Prop :=
  match call.action with
  | .update msg =>
    msg.cmd = BceVhciCommand.transferRequest.code ∧
      (call.urb.state = .waitingForTransferRequest ∨
        call.urb.isControl ∧ call.urb.state = .controlWaitingForSetupRequest)
  | _ => False

/-- The call begins to receive: it reserves a message to the T2 and a submission on `sq_in`. -/
def Receives (call : CalledUrb) : Prop :=
  match call.action with
  | .init => call.urb.isControl = false ∧ call.urb.dir ≠ .toDevice ∧ call.q.canInitUrb
  | .transferCompletion _ =>
    call.urb.isControl ∧ call.urb.state = .controlWaitingForSetupCompletion ∧ call.urb.dir ≠ .toDevice
  | .resume => call.urb.state = .waitingForCompletion
  | .update _ => False

instance (call : CalledUrb) : Decidable call.Sends := by
  unfold Sends
  split <;> infer_instance

instance (call : CalledUrb) : Decidable call.Receives := by
  unfold Receives
  split <;> infer_instance

/-- What the call reserves on `sq_out` it gets. -/
def Sent (call : CalledUrb) : Prop :=
  call.Sends → ∃ fifo ∈ call.q.sqOut, fifo.items.length + fifo.reserved < fifo.capacity

/-- What the call reserves to receive it gets. -/
def Received (call : CalledUrb) : Prop :=
  call.Receives → (call.urb.dataTransferIn call.q).ret = none

instance (call : CalledUrb) : Decidable call.Sent :=
  inferInstanceAs (Decidable (_ → ∃ fifo ∈ call.q.sqOut, _))

instance (call : CalledUrb) : Decidable call.Received :=
  inferInstanceAs (Decidable (_ → _ = _))

/-- The submissions the call makes on `sq_out`. -/
def submissions (call : CalledUrb) : List UrbSubmission :=
  (call.result.q.outstanding true).drop (call.q.outstanding true).length

/-- The message of the call, with each submission it leads to. -/
def answers (call : CalledUrb) : List (BceVhciMessage × UrbSubmission) :=
  match call.action with
  | .update msg => call.submissions.map fun x => (msg, x)
  | _ => []

end CalledUrb

namespace BceVhciTransferQueue

/-- The calls of the loop of `bce_vhci_transfer_queue_init_pending_urbs`. -/
def initCalls : List BceVhciUrb → BceVhciTransferQueue → List CalledUrb
  | [], _ => []
  | urb :: rest, q =>
    if ¬q.canInitUrb then []
    else if urb.state = .initPending then ⟨.init, urb, q⟩ :: initCalls rest (urb.init q).q
    else initCalls rest q

def initPendingCalls (q : BceVhciTransferQueue) : List CalledUrb :=
  initCalls q.urbList q

/-- Those of the loop over the deferred messages. -/
def deliverCalls : List BceVhciMessage → BceVhciTransferQueue → List CalledUrb
  | [], _ => []
  | msg :: msgs, q =>
    match q.urbList with
    | [] => []
    | urb :: rest =>
      let call := urb.update msg q
      ⟨.update msg, urb, q⟩ ::
        if call.ret = some .again then [] else deliverCalls msgs (afterUrb [] rest call)

def deliverPendingCalls (q : BceVhciTransferQueue) : List CalledUrb :=
  deliverCalls q.evq q ++ (deliverLoop q.evq q).initPendingCalls

def eventDeliveredCalls (q : BceVhciTransferQueue) (msg : BceVhciMessage) : List CalledUrb :=
  if msg.cmd = BceVhciCommand.transferRequest.code ∧ (q.evq ≠ [] ∨ q.urbList = []) then []
  else
    match q.urbList with
    | [] => []
    | urb :: rest =>
      let call := urb.update msg q
      ⟨.update msg, urb, q⟩ ::
        if call.ret = some .again then [] else (afterUrb [] rest call).initPendingCalls

/-- Those of `bce_vhci_transfer_queue_event`. -/
def eventCalls (q : BceVhciTransferQueue) (msg : BceVhciMessage) : List CalledUrb :=
  if ¬q.active then [] else q.deliverPendingCalls ++ q.deliverPending.eventDeliveredCalls msg

/-- Those of one round of the completion handler. -/
def completionCalls (q : BceVhciTransferQueue) (out : Bool) (c : BceSqCompletionData) : List CalledUrb :=
  if c.status = bceCompletionAborted then []
  else if 0 < q.ghostCount out then (q.absorbGhost out).initPendingCalls
  else
    match q.urbList with
    | [] => []
    | urb :: _ => if urb.state = .initPending then [] else [⟨.transferCompletion c, urb, q⟩]

def resumeLoopCalls : List BceVhciUrb → BceVhciTransferQueue → List CalledUrb
  | [], _ => []
  | urb :: rest, q =>
    if urb.state = .initPending then
      if ¬q.canInitUrb then [] else ⟨.init, urb, q⟩ :: resumeLoopCalls rest (urb.init q).q
    else ⟨.resume, urb, q⟩ :: resumeLoopCalls rest (urb.resume q).q

/-- Those of the locked section of `bce_vhci_transfer_queue_do_resume`. -/
def resumeSectionCalls (q : BceVhciTransferQueue) : List CalledUrb :=
  resumeLoopCalls q.urbList { q with active := true } ++
    (resumeLoop [] q.urbList { q with active := true }).deliverPendingCalls

/-- Those of `bce_vhci_urb_create`. -/
def createCalls (q : BceVhciTransferQueue) (urb : Urb) (allocated : Bool) (link : Option Errno) :
    List CalledUrb :=
  if ¬allocated ∨ link ≠ none then []
  else
    let vurb := q.newUrb urb
    if q.active then
      if q.canInitUrb then
        let call := vurb.init q
        ⟨.init, vurb, q⟩ ::
          match call.ret with
          | some _ => []
          | none => (afterUrb q.urbList [] call).deliverPendingCalls
      else deliverPendingCalls { q with urbList := q.urbList ++ [vurb] }
    else deliverPendingCalls { q.requestReactivation with urbList := q.urbList ++ [vurb] }

end BceVhciTransferQueue

namespace TransferRun

open BceVhciTransferQueue

/-- The calls of a step. -/
def calls (s : TransferRun) : TransferStep → List CalledUrb
  | .op (.create urb allocated link) => s.q.createCalls urb allocated link
  | .op (.event msg _) => s.q.eventCalls msg
  | .op (.completion out c) => s.q.completionCalls out c
  | .op .completionEnd => s.q.deliverPendingCalls
  | .advance _ =>
    match s.holder with
    | some (_, .resumeSection _) => s.q.resumeSectionCalls
    | _ => []
  | _ => []

end TransferRun

end AppleBce

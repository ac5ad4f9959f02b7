import AppleBce.Vhci.Urb

namespace AppleBce

open Basis

/-- What `bce_vhci_urb_request_cancel` did: it returned the error of `usb_hcd_check_unlink_urb`,
found the URB cancelled already, gave it back, or left it to the flush worker, with its local
`control_flush`. -/
inductive CancelOutcome
  | refused (e : Errno)
  | already
  | givenBack (urb : Urb)
  | deferred (controlFlush : Bool)
  deriving DecidableEq

namespace BceVhciTransferQueue

/-- Putting an URB back, unless it was completed. -/
def afterUrb (done rest : List BceVhciUrb) (call : UrbCall) : BceVhciTransferQueue :=
  { call.q with urbList := done ++ (call.urb.toList ++ rest) }

/-- `bce_vhci_transfer_queue_defer_event`; the flag is whether `kmalloc` succeeds. -/
def deferEvent (q : BceVhciTransferQueue) (msg : BceVhciMessage) (allocated : Bool) :
    BceVhciTransferQueue :=
  if ¬allocated then { q with stalled := true }.requestReset
  else { q with evq := q.evq ++ [msg] }

/-- The loop of `bce_vhci_transfer_queue_init_pending_urbs`, with the URBs it has passed. -/
def initLoop (done : List BceVhciUrb) : List BceVhciUrb → BceVhciTransferQueue → BceVhciTransferQueue
  | [], q => { q with urbList := done }
  | urb :: rest, q =>
    if ¬q.canInitUrb then { q with urbList := done ++ urb :: rest }
    else if urb.state = .initPending then
      let call := urb.init q
      initLoop (done ++ call.urb.toList) rest call.q
    else initLoop (done ++ [urb]) rest q

/-- `bce_vhci_transfer_queue_init_pending_urbs`. -/
def initPendingUrbs (q : BceVhciTransferQueue) : BceVhciTransferQueue :=
  initLoop [] q.urbList q

/-- The loop of `bce_vhci_transfer_queue_deliver_pending` over `evq`. -/
def deliverLoop : List BceVhciMessage → BceVhciTransferQueue → BceVhciTransferQueue
  | [], q => { q with evq := [] }
  | msg :: msgs, q =>
    match q.urbList with
    | [] => { q with evq := msg :: msgs }
    | urb :: rest =>
      let call := urb.update msg q
      if call.ret = some .again then { afterUrb [] rest call with evq := msg :: msgs }
      else deliverLoop msgs (afterUrb [] rest call)

/-- `bce_vhci_transfer_queue_deliver_pending`. -/
def deliverPending (q : BceVhciTransferQueue) : BceVhciTransferQueue :=
  (deliverLoop q.evq q).initPendingUrbs

/-- `bce_vhci_transfer_queue_remove_pending`. -/
def removePending (q : BceVhciTransferQueue) : BceVhciTransferQueue :=
  { q with evq := [] }

/-- The loop of `bce_vhci_transfer_queue_cancel_all`. -/
def cancelLoop : List BceVhciUrb → BceVhciTransferQueue → BceVhciTransferQueue
  | [], q => { q with urbList := [] }
  | urb :: rest, q => cancelLoop rest (urb.complete Errno.connreset.neg q)

/-- The locked section of `bce_vhci_transfer_queue_cancel_all`. -/
def cancelAll (q : BceVhciTransferQueue) : BceVhciTransferQueue :=
  cancelLoop q.urbList { q with active := false }

/-- `READ_ONCE(q->paused_by) & BCE_VHCI_PAUSE_INTERNAL_WQ`. -/
def pausedInternally (q : BceVhciTransferQueue) : Prop :=
  q.pausedBy &&& BceVhciPauseSource.internalWq.bit ≠ 0

instance (q : BceVhciTransferQueue) : Decidable q.pausedInternally :=
  inferInstanceAs (Decidable (_ ≠ _))

/-- The end of `bce_vhci_transfer_queue_event`, after it has delivered what was deferred. -/
def eventDelivered (q : BceVhciTransferQueue) (msg : BceVhciMessage) (allocated : Bool) :
    BceVhciTransferQueue :=
  if msg.cmd = BceVhciCommand.transferRequest.code ∧ (q.evq ≠ [] ∨ q.urbList = []) then
    q.deferEvent msg allocated
  else
    match q.urbList with
    | [] => q
    | urb :: rest =>
      let call := urb.update msg q
      if call.ret = some .again then (afterUrb [] rest call).deferEvent msg allocated
      else (afterUrb [] rest call).initPendingUrbs

/-- `bce_vhci_transfer_queue_event`, without the give-back behind its locked section. -/
def event (q : BceVhciTransferQueue) (msg : BceVhciMessage) (allocated : Bool) :
    BceVhciTransferQueue :=
  if ¬q.active then
    if msg.cmd = BceVhciCommand.transferRequest.code ∧ q.endpAddr = 0 ∧ q.pausedInternally then
      q.deferEvent msg allocated
    else q
  else q.deliverPending.eventDelivered msg allocated

/-- `atomic_dec_if_positive` on `sq_out_pending` and the wake-up when it gets to 0. -/
def outputDone (q : BceVhciTransferQueue) (out : Bool) : BceVhciTransferQueue :=
  if out ∧ 0 < q.sqOutPending then
    { q with
      sqOutPending := q.sqOutPending - 1
      wakeups := if q.sqOutPending = 1 then q.wakeups + 1 else q.wakeups }
  else q

/-- `bce_notify_submission_complete`. -/
def notifySubmissionComplete (q : BceVhciTransferQueue) (out : Bool) : BceVhciTransferQueue :=
  match q.sq out with
  | none => q
  | some fifo => q.setSq fifo.pop out

def ghostCount (q : BceVhciTransferQueue) : Bool → Nat
  | true => q.ghostOutCount
  | false => q.ghostInCount

/-- Absorbing a completion of a cancelled URB: its slot is free again. -/
def absorbGhost (q : BceVhciTransferQueue) : Bool → BceVhciTransferQueue
  | true => { q with
      ghostOutCount := q.ghostOutCount - 1
      remainingActiveRequests := q.remainingActiveRequests + 1 }
  | false => { q with
      ghostInCount := q.ghostInCount - 1
      remainingActiveRequests := q.remainingActiveRequests + 1 }

/-- What a completion means to the queue, up to the accounting at the end of the round. -/
def completionBody (q : BceVhciTransferQueue) (out : Bool) (c : BceSqCompletionData) :
    BceVhciTransferQueue :=
  if c.status = bceCompletionAborted then q
  else if 0 < q.ghostCount out then (q.absorbGhost out).initPendingUrbs
  else
    match q.urbList with
    | [] => q
    | urb :: rest =>
      if urb.state = .initPending then q else afterUrb [] rest (urb.transferCompletion c q)

/-- One round of the loop of `bce_vhci_transfer_queue_completion`. -/
def completion (q : BceVhciTransferQueue) (out : Bool) (c : BceSqCompletionData) :
    BceVhciTransferQueue :=
  ((q.completionBody out c).outputDone out).notifySubmissionComplete out

/-- The loop of `bce_vhci_transfer_queue_do_resume`, with the URBs it has passed. -/
def resumeLoop (done : List BceVhciUrb) : List BceVhciUrb → BceVhciTransferQueue → BceVhciTransferQueue
  | [], q => { q with urbList := done }
  | urb :: rest, q =>
    if urb.state = .initPending then
      if ¬q.canInitUrb then { q with urbList := done ++ urb :: rest }
      else
        let call := urb.init q
        resumeLoop (done ++ call.urb.toList) rest call.q
    else
      let call := urb.resume q
      resumeLoop (done ++ call.urb.toList) rest call.q

/-- The locked section of `bce_vhci_transfer_queue_do_resume`. -/
def resumeSection (q : BceVhciTransferQueue) : BceVhciTransferQueue :=
  (resumeLoop [] q.urbList { q with active := true }).deliverPending

/-- The locked section of `bce_vhci_transfer_queue_flush_w`. -/
def flushSection (q : BceVhciTransferQueue) : BceVhciTransferQueue :=
  { q with
    ghostInCount := 0
    ghostOutCount := 0
    remainingActiveRequests := q.maxActiveRequests
    givebackUrbList := q.givebackUrbList ++ q.flushGivebackList
    flushGivebackList := [] }

/-- The splice of `bce_vhci_destroy_transfer_queue`. -/
def destroySplice (q : BceVhciTransferQueue) : BceVhciTransferQueue :=
  { q with
    givebackUrbList := q.givebackUrbList ++ q.flushGivebackList
    flushGivebackList := [] }

/-- The `struct bce_vhci_urb` that `bce_vhci_urb_create` makes for an URB of the endpoint. -/
def newUrb (q : BceVhciTransferQueue) (urb : Urb) : BceVhciUrb where
  urb := urb
  dir := if urb.dirIn then .fromDevice else .toDevice
  isControl := q.endp.num = 0

/-- The work `bce_vhci_urb_create` queues for an URB on an inactive endpoint. -/
def requestReactivation (q : BceVhciTransferQueue) : BceVhciTransferQueue :=
  if q.stalled then q.requestReset
  else if q.pausedInternally then { q with wResume := true }
  else q

/-- `bce_vhci_urb_create`, without the give-back behind its locked section: its result, where
`none` is 0, and the queue. `allocated` is whether `kzalloc` succeeds and `link` is what
`usb_hcd_link_urb_to_ep` returns. -/
def urbCreate (q : BceVhciTransferQueue) (urb : Urb) (allocated : Bool) (link : Option Errno) :
    Option Errno × BceVhciTransferQueue :=
  if ¬allocated then (some .nomem, q)
  else
    match link with
    | some e => (some e, q)
    | none =>
      let vurb := q.newUrb urb
      if q.active then
        if q.canInitUrb then
          let call := vurb.init q
          match call.ret with
          | some e => (some e, call.q)
          | none => (none, (afterUrb q.urbList [] call).deliverPending)
        else (none, deliverPending { q with urbList := q.urbList ++ [vurb] })
      else (none, deliverPending { q.requestReactivation with urbList := q.urbList ++ [vurb] })

/-- The slot of a cancelled URB: a data transfer in flight becomes a ghost, that of a control
URB stays taken until the flush, and any other is free. -/
def cancelSlot (q : BceVhciTransferQueue) (vurb : BceVhciUrb) : BceVhciTransferQueue :=
  if vurb.state = .initPending then q
  else if vurb.isControl then q
  else if vurb.state = .waitingForCompletion then
    if vurb.dir = .fromDevice then { q with ghostInCount := q.ghostInCount + 1 }
    else { q with ghostOutCount := q.ghostOutCount + 1 }
  else { q with remainingActiveRequests := q.remainingActiveRequests + 1 }

/-- The locked section of `bce_vhci_urb_request_cancel` and a give-back behind it.
`usb_hcd_check_unlink_urb` insists that the URB is linked. The flush worker is queued after
the section. -/
def urbRequestCancel (q : BceVhciTransferQueue) (id : Nat) (status : Int) :
    CancelOutcome × BceVhciTransferQueue :=
  match q.urbList.find? fun vurb => vurb.id = id with
  | none => (.refused .idrm, q)
  | some vurb =>
    if vurb.state = .cancelled then (.already, q)
    else
      let controlFlush : Bool := vurb.state ≠ .initPending ∧ vurb.isControl
      let q : BceVhciTransferQueue :=
        { q.cancelSlot vurb with urbList := q.urbList.eraseP fun vurb => vurb.id = id }
      let urb := { vurb.urb with status }
      if controlFlush ∨ (0 < q.ghostInCount ∨ 0 < q.ghostOutCount) ∧ q.urbList = [] then
        (.deferred controlFlush, { q with flushGivebackList := q.flushGivebackList ++ [urb] })
      else (.givenBack urb, q)

/-- The URBs that hold a slot. -/
def startedCount (urbs : List BceVhciUrb) : Nat :=
  urbs.countP BceVhciUrb.started

@[simp] theorem startedCount_nil : startedCount [] = 0 := rfl

@[simp] theorem startedCount_cons (u : BceVhciUrb) (urbs : List BceVhciUrb) :
    startedCount (u :: urbs) = u.started.toNat + startedCount urbs := by
  rw [startedCount, List.countP_cons, Nat.add_comm, startedCount]
  cases u.started <;> rfl

@[simp] theorem startedCount_append (urbs more : List BceVhciUrb) :
    startedCount (urbs ++ more) = startedCount urbs + startedCount more :=
  List.countP_append

/-- The URBs that are linked or queued for give-back. -/
def heldIds (q : BceVhciTransferQueue) : List Nat :=
  q.urbList.map BceVhciUrb.id ++ q.givebackUrbList.map Urb.id

/-- Slots and URBs are neither lost nor made, and the ghosts and the flush are left alone. -/
structure Conserves (q r : BceVhciTransferQueue) : Prop where
  endp : r.endp = q.endp
  maxActiveRequests : r.maxActiveRequests = q.maxActiveRequests
  pausedBy : r.pausedBy = q.pausedBy
  endpAddr : r.endpAddr = q.endpAddr
  wFlush : r.wFlush = q.wFlush
  flushGivebackList : r.flushGivebackList = q.flushGivebackList
  ghostInCount : r.ghostInCount = q.ghostInCount
  ghostOutCount : r.ghostOutCount = q.ghostOutCount
  slots : r.remainingActiveRequests + startedCount r.urbList =
    q.remainingActiveRequests + startedCount q.urbList
  owners : r.heldIds.Perm q.heldIds
  comes : ∀ v ∈ r.urbList, ∃ u ∈ q.urbList, u.Same v

variable {q r s : BceVhciTransferQueue} {u : BceVhciUrb} {done rest : List BceVhciUrb}

theorem Conserves.refl (q : BceVhciTransferQueue) : q.Conserves q :=
  ⟨rfl, rfl, rfl, rfl, rfl, rfl, rfl, rfl, rfl, .refl _, fun v member => ⟨v, member, .refl v⟩⟩

theorem Conserves.trans (first : q.Conserves r) (second : r.Conserves s) : q.Conserves s where
  endp := second.endp.trans first.endp
  maxActiveRequests := second.maxActiveRequests.trans first.maxActiveRequests
  pausedBy := second.pausedBy.trans first.pausedBy
  endpAddr := second.endpAddr.trans first.endpAddr
  wFlush := second.wFlush.trans first.wFlush
  flushGivebackList := second.flushGivebackList.trans first.flushGivebackList
  ghostInCount := second.ghostInCount.trans first.ghostInCount
  ghostOutCount := second.ghostOutCount.trans first.ghostOutCount
  slots := second.slots.trans first.slots
  owners := second.owners.trans first.owners
  comes := by
    intro w member
    obtain ⟨v, member', same'⟩ := second.comes w member
    obtain ⟨u, member'', same⟩ := first.comes v member'
    exact ⟨u, member'', same.trans same'⟩

/-- A queue that differs only in what is not accounted for. -/
theorem Conserves.of_frame (frame : q.Frame r)
    (remaining : r.remainingActiveRequests = q.remainingActiveRequests)
    (giveback : r.givebackUrbList = q.givebackUrbList) : q.Conserves r where
  endp := frame.endp
  maxActiveRequests := frame.maxActiveRequests
  pausedBy := frame.pausedBy
  endpAddr := frame.endpAddr
  wFlush := frame.wFlush
  flushGivebackList := frame.flushGivebackList
  ghostInCount := frame.ghostInCount
  ghostOutCount := frame.ghostOutCount
  slots := by
    simp only [frame.urbList, remaining]
  owners := by
    simp only [heldIds, frame.urbList, giveback]
    exact .refl _
  comes := by
    intro v member
    rw [frame.urbList] at member
    exact ⟨v, member, .refl v⟩

/-- Putting the URB back after a call that accounts for it. -/
theorem afterUrb_conserves {call : UrbCall} (fits : UrbCall.Fits u q call)
    (done rest : List BceVhciUrb) :
    Conserves { q with urbList := done ++ u :: rest } (afterUrb done rest call) := by
  have frame := fits.frame
  refine ⟨frame.endp, frame.maxActiveRequests, frame.pausedBy, frame.endpAddr, frame.wFlush,
    frame.flushGivebackList, frame.ghostInCount, frame.ghostOutCount, ?_, ?_, ?_⟩
  · cases present : call.urb with
    | none =>
      obtain ⟨urb, -, -, remaining⟩ := fits.completed present
      simp only [afterUrb, present, Option.toList_none, List.nil_append, startedCount_append,
        startedCount_cons, remaining]
      omega
    | some v =>
      obtain ⟨same, started, remaining, -⟩ := fits.kept v present
      simp only [afterUrb, present, Option.toList_some, List.singleton_append, startedCount_append,
        startedCount_cons, started, remaining]
  · cases present : call.urb with
    | none =>
      obtain ⟨urb, id, giveback, -⟩ := fits.completed present
      simp only [heldIds, afterUrb, present, giveback, Option.toList_none, List.nil_append,
        List.map_append, List.map_cons, List.map_nil, id]
      grind
    | some v =>
      obtain ⟨same, -, -, giveback⟩ := fits.kept v present
      simp only [heldIds, afterUrb, present, giveback, Option.toList_some, List.singleton_append,
        List.map_append, List.map_cons, same.id]
      exact .refl _
  · intro v member
    simp only [afterUrb, List.mem_append, Option.mem_toList] at member
    rcases member with passed | here | later
    · exact ⟨v, List.mem_append_left _ passed, .refl v⟩
    · exact ⟨u, by simp, (fits.kept v here).1⟩
    · exact ⟨v, by simp [later], .refl v⟩

/-- Starting an URB moves one slot from the free ones to it. -/
theorem init_conserves (q : BceVhciTransferQueue) (u : BceVhciUrb) (done rest : List BceVhciUrb)
    (pending : u.state = .initPending) :
    Conserves { q with urbList := done ++ u :: rest } (afterUrb done rest (u.init q)) := by
  rcases u.init_cases q with ⟨e, -, present, frame⟩ |
    ⟨v, -, present, same, started, frame, -, giveback, remaining⟩
  · refine afterUrb_conserves ⟨frame.toFrame, frame.inits, ?_, ?_⟩ done rest
    · intro v kept
      cases present.symm.trans kept
      exact ⟨.refl u, rfl, frame.remaining, frame.givebackUrbList⟩
    · intro gone
      rw [present] at gone
      cases gone
  · have idle : u.started = false := by
      simp [BceVhciUrb.started, pending]
    refine ⟨frame.endp, frame.maxActiveRequests, frame.pausedBy, frame.endpAddr, frame.wFlush,
      frame.flushGivebackList, frame.ghostInCount, frame.ghostOutCount, ?_, ?_, ?_⟩
    · simp only [afterUrb, present, Option.toList_some, List.singleton_append, startedCount_append,
        startedCount_cons, idle, started, Bool.toNat_false, Bool.toNat_true]
      omega
    · simp only [heldIds, afterUrb, present, giveback, Option.toList_some, List.singleton_append,
        List.map_append, List.map_cons, same.id]
      exact .refl _
    · intro w member
      simp only [afterUrb, present, Option.toList_some, List.mem_append, List.mem_singleton] at member
      rcases member with passed | rfl | later
      · exact ⟨w, List.mem_append_left _ passed, .refl w⟩
      · exact ⟨u, by simp, same⟩
      · exact ⟨w, by simp [later], .refl w⟩

theorem initLoop_conserves (done rest : List BceVhciUrb) (q : BceVhciTransferQueue) :
    Conserves { q with urbList := done ++ rest } (initLoop done rest q) := by
  induction rest generalizing done q with
  | nil =>
    rw [initLoop, List.append_nil]
    exact .refl _
  | cons urb rest ih =>
    rw [initLoop]
    split
    · exact .refl _
    · split
      case isTrue pending =>
        have first := init_conserves q urb done rest pending
        have second := ih (done ++ (urb.init q).urb.toList) (urb.init q).q
        rw [List.append_assoc] at second
        exact first.trans second
      case isFalse =>
        have passed := ih (done ++ [urb]) q
        rwa [List.append_assoc, List.singleton_append] at passed

theorem initPendingUrbs_conserves (q : BceVhciTransferQueue) : q.Conserves q.initPendingUrbs :=
  initLoop_conserves [] q.urbList q

/-- What `update` and the others do to the URB at the head. -/
theorem head_conserves {call : UrbCall} (linked : q.urbList = u :: rest)
    (fits : UrbCall.Fits u q call) : q.Conserves (afterUrb [] rest call) := by
  have conserved := afterUrb_conserves fits [] rest
  rwa [List.nil_append, ← linked] at conserved

theorem deliverLoop_conserves (msgs : List BceVhciMessage) (q : BceVhciTransferQueue) :
    q.Conserves (deliverLoop msgs q) := by
  induction msgs generalizing q with
  | nil =>
    rw [deliverLoop]
    exact ⟨rfl, rfl, rfl, rfl, rfl, rfl, rfl, rfl, rfl, .refl _, fun v member => ⟨v, member, .refl v⟩⟩
  | cons msg msgs ih =>
    unfold deliverLoop
    split
    · exact ⟨rfl, rfl, rfl, rfl, rfl, rfl, rfl, rfl, rfl, .refl _, fun v member => ⟨v, member, .refl v⟩⟩
    · rename_i urb rest linked
      have updated := head_conserves linked (urb.update_fits msg q)
      simp only
      split
      · exact ⟨updated.endp, updated.maxActiveRequests, updated.pausedBy, updated.endpAddr,
          updated.wFlush, updated.flushGivebackList, updated.ghostInCount, updated.ghostOutCount,
          updated.slots, updated.owners, updated.comes⟩
      · exact updated.trans (ih _)

theorem deliverPending_conserves (q : BceVhciTransferQueue) : q.Conserves q.deliverPending :=
  (deliverLoop_conserves q.evq q).trans (initPendingUrbs_conserves _)

theorem deferEvent_conserves (q : BceVhciTransferQueue) (msg : BceVhciMessage) (allocated : Bool) :
    q.Conserves (q.deferEvent msg allocated) := by
  unfold deferEvent
  split <;>
    exact ⟨rfl, rfl, rfl, rfl, rfl, rfl, rfl, rfl, rfl, .refl _, fun v member => ⟨v, member, .refl v⟩⟩

theorem eventDelivered_conserves (q : BceVhciTransferQueue) (msg : BceVhciMessage) (allocated : Bool) :
    q.Conserves (q.eventDelivered msg allocated) := by
  unfold eventDelivered
  split
  · exact q.deferEvent_conserves msg allocated
  · split
    · exact .refl q
    · rename_i urb rest linked
      have updated := head_conserves linked (urb.update_fits msg q)
      simp only
      split
      · exact updated.trans (deferEvent_conserves _ msg allocated)
      · exact updated.trans (initPendingUrbs_conserves _)

theorem event_conserves (q : BceVhciTransferQueue) (msg : BceVhciMessage) (allocated : Bool) :
    q.Conserves (q.event msg allocated) := by
  unfold event
  split
  · split
    · exact q.deferEvent_conserves msg allocated
    · exact .refl q
  · exact q.deliverPending_conserves.trans (eventDelivered_conserves _ msg allocated)

theorem resumeLoop_conserves (done rest : List BceVhciUrb) (q : BceVhciTransferQueue) :
    Conserves { q with urbList := done ++ rest } (resumeLoop done rest q) := by
  induction rest generalizing done q with
  | nil =>
    rw [resumeLoop, List.append_nil]
    exact .refl _
  | cons urb rest ih =>
    rw [resumeLoop]
    split
    case isTrue pending =>
      split
      · exact .refl _
      · have first := init_conserves q urb done rest pending
        have second := ih (done ++ (urb.init q).urb.toList) (urb.init q).q
        rw [List.append_assoc] at second
        exact first.trans second
    case isFalse =>
      have first := afterUrb_conserves (urb.resume_fits q) done rest
      have second := ih (done ++ (urb.resume q).urb.toList) (urb.resume q).q
      rw [List.append_assoc] at second
      exact first.trans second

theorem resumeSection_conserves (q : BceVhciTransferQueue) : q.Conserves q.resumeSection := by
  have activated : q.Conserves { q with active := true } := .of_frame (by constructor <;> rfl) rfl rfl
  exact activated.trans ((resumeLoop_conserves [] q.urbList { q with active := true }).trans
    (deliverPending_conserves _))

theorem cancelLoop_conserves (rest : List BceVhciUrb) (q : BceVhciTransferQueue) :
    Conserves { q with urbList := rest } (cancelLoop rest q) := by
  induction rest generalizing q with
  | nil => exact .refl _
  | cons urb rest ih =>
    have gone : UrbCall.Fits urb q ⟨none, none, urb.complete Errno.connreset.neg q⟩ :=
      BceVhciUrb.complete_fits (.refl q) rfl rfl
    exact (afterUrb_conserves gone [] rest).trans (ih _)

theorem cancelAll_conserves (q : BceVhciTransferQueue) : q.Conserves q.cancelAll := by
  have deactivated : q.Conserves { q with active := false } :=
    .of_frame (by constructor <;> rfl) rfl rfl
  exact deactivated.trans (cancelLoop_conserves q.urbList { q with active := false })

/-- The slots that are free, held by an URB, or held for a ghost. -/
def slots (q : BceVhciTransferQueue) : Nat :=
  q.remainingActiveRequests + startedCount q.urbList + q.ghostInCount + q.ghostOutCount

/-- The same when a slot may pass from a ghost to the free ones. -/
structure Balanced (q r : BceVhciTransferQueue) : Prop where
  endp : r.endp = q.endp
  maxActiveRequests : r.maxActiveRequests = q.maxActiveRequests
  endpAddr : r.endpAddr = q.endpAddr
  wFlush : r.wFlush = q.wFlush
  flushGivebackList : r.flushGivebackList = q.flushGivebackList
  slots : r.slots = q.slots
  owners : r.heldIds.Perm q.heldIds
  comes : ∀ v ∈ r.urbList, ∃ u ∈ q.urbList, u.Same v

theorem Balanced.refl (q : BceVhciTransferQueue) : q.Balanced q :=
  ⟨rfl, rfl, rfl, rfl, rfl, rfl, .refl _, fun v member => ⟨v, member, .refl v⟩⟩

theorem Balanced.trans (first : q.Balanced r) (second : r.Balanced s) : q.Balanced s where
  endp := second.endp.trans first.endp
  maxActiveRequests := second.maxActiveRequests.trans first.maxActiveRequests
  endpAddr := second.endpAddr.trans first.endpAddr
  wFlush := second.wFlush.trans first.wFlush
  flushGivebackList := second.flushGivebackList.trans first.flushGivebackList
  slots := second.slots.trans first.slots
  owners := second.owners.trans first.owners
  comes := by
    intro w member
    obtain ⟨v, member', same'⟩ := second.comes w member
    obtain ⟨u, member'', same⟩ := first.comes v member'
    exact ⟨u, member'', same.trans same'⟩

theorem Conserves.balanced (conserves : q.Conserves r) : q.Balanced r where
  endp := conserves.endp
  maxActiveRequests := conserves.maxActiveRequests
  endpAddr := conserves.endpAddr
  wFlush := conserves.wFlush
  flushGivebackList := conserves.flushGivebackList
  slots := by
    have same := conserves.slots
    simp only [BceVhciTransferQueue.slots, conserves.ghostInCount, conserves.ghostOutCount]
    omega
  owners := conserves.owners
  comes := conserves.comes

theorem absorbGhost_balanced (q : BceVhciTransferQueue) (out : Bool) (ghost : 0 < q.ghostCount out) :
    q.Balanced (q.absorbGhost out) := by
  refine ⟨by cases out <;> rfl, by cases out <;> rfl, by cases out <;> rfl, by cases out <;> rfl,
    by cases out <;> rfl, ?_, by cases out <;> exact .refl _, ?_⟩
  · cases out <;> simp only [ghostCount] at ghost <;>
      simp only [BceVhciTransferQueue.slots, absorbGhost] <;> omega
  · cases out <;> exact fun v member => ⟨v, member, .refl v⟩

/-- A completion leaves the queue as it is, is absorbed as that of a cancelled URB, or is taken for the
URB at the head. -/
theorem completionBody_cases (q : BceVhciTransferQueue) (out : Bool) (c : BceSqCompletionData) :
    q.completionBody out c = q ∨
    (c.status ≠ bceCompletionAborted ∧ 0 < q.ghostCount out ∧
      q.completionBody out c = (q.absorbGhost out).initPendingUrbs) ∨
    ∃ urb rest, c.status ≠ bceCompletionAborted ∧ q.ghostCount out = 0 ∧ q.urbList = urb :: rest ∧
      urb.state ≠ .initPending ∧ q.completionBody out c = afterUrb [] rest (urb.transferCompletion c q) := by
  unfold completionBody
  split
  case isTrue => exact .inl rfl
  case isFalse answered =>
    split
    case isTrue ghost => exact .inr (.inl ⟨answered, ghost, rfl⟩)
    case isFalse real =>
      split
      · exact .inl rfl
      · rename_i urb rest linked
        split
        case isTrue => exact .inl rfl
        case isFalse started =>
          exact .inr (.inr ⟨urb, rest, answered, Nat.eq_zero_of_not_pos real, linked, started, rfl⟩)

theorem completionBody_balanced (q : BceVhciTransferQueue) (out : Bool) (c : BceSqCompletionData) :
    q.Balanced (q.completionBody out c) := by
  rcases q.completionBody_cases out c with same | ⟨-, ghost, absorbs⟩ | ⟨urb, rest, -, -, linked, -, taken⟩
  · rw [same]
    exact .refl q
  · rw [absorbs]
    exact (q.absorbGhost_balanced out ghost).trans (initPendingUrbs_conserves _).balanced
  · rw [taken]
    exact (head_conserves linked (urb.transferCompletion_fits c q)).balanced

/-- The account of an output touches what is counted of the outputs and nothing else. -/
theorem outputDone_eq (q : BceVhciTransferQueue) (out : Bool) :
    ∃ pending wakeups, q.outputDone out = { q with sqOutPending := pending, wakeups } := by
  unfold outputDone
  split <;> exact ⟨_, _, rfl⟩

/-- There is a submission to be accounted for. -/
theorem outputDone_of_pending {q : BceVhciTransferQueue} (pending : 0 < q.sqOutPending) :
    q.outputDone true = { q with
      sqOutPending := q.sqOutPending - 1
      wakeups := if q.sqOutPending = 1 then q.wakeups + 1 else q.wakeups } :=
  if_pos ⟨rfl, pending⟩

/-- The notification touches the submission queues and nothing else. -/
theorem notifySubmissionComplete_eq (q : BceVhciTransferQueue) (out : Bool) :
    ∃ sqIn sqOut, q.notifySubmissionComplete out = { q with sqIn, sqOut } := by
  unfold notifySubmissionComplete
  split
  · exact ⟨_, _, rfl⟩
  · cases out <;> exact ⟨_, _, rfl⟩

/-- What comes behind the body of a round concerns the outputs and the submission queues alone. -/
theorem completion_eq (q : BceVhciTransferQueue) (out : Bool) (c : BceSqCompletionData) :
    ∃ sqIn sqOut pending wakeups, q.completion out c =
      { q.completionBody out c with sqIn, sqOut, sqOutPending := pending, wakeups } := by
  obtain ⟨pending, wakeups, accounted⟩ := (q.completionBody out c).outputDone_eq out
  obtain ⟨sqIn, sqOut, notified⟩ := ((q.completionBody out c).outputDone out).notifySubmissionComplete_eq out
  rw [accounted] at notified
  rw [completion, accounted]
  exact ⟨sqIn, sqOut, pending, wakeups, notified⟩

theorem outputDone_conserves (q : BceVhciTransferQueue) (out : Bool) : q.Conserves (q.outputDone out) := by
  obtain ⟨pending, wakeups, accounted⟩ := q.outputDone_eq out
  rw [accounted]
  exact ⟨rfl, rfl, rfl, rfl, rfl, rfl, rfl, rfl, rfl, .refl _, fun v member => ⟨v, member, .refl v⟩⟩

theorem notify_conserves (q : BceVhciTransferQueue) (out : Bool) :
    q.Conserves (q.notifySubmissionComplete out) := by
  unfold notifySubmissionComplete
  split
  · exact .refl q
  · rename_i fifo _
    have frame := q.setSq_frame fifo.pop out
    exact .of_frame frame.toFrame frame.remaining frame.givebackUrbList

theorem completion_balanced (q : BceVhciTransferQueue) (out : Bool) (c : BceSqCompletionData) :
    q.Balanced (q.completion out c) :=
  (q.completionBody_balanced out c).trans
    ((outputDone_conserves _ out).trans (notify_conserves _ out)).balanced

/-- The work that is queued is that of two of the workers. -/
theorem requestReactivation_eq (q : BceVhciTransferQueue) :
    ∃ wReset wResume, q.requestReactivation = { q with wReset, wResume } := by
  unfold requestReactivation
  split
  · exact ⟨_, _, rfl⟩
  · split <;> exact ⟨_, _, rfl⟩

/-- `bce_vhci_urb_create` fails before it does anything, or with the URB it cannot start; or it starts the
URB behind the others, or leaves it pending there. -/
theorem urbCreate_outcomes (q : BceVhciTransferQueue) (urb : Urb) (allocated : Bool) (link : Option Errno) :
    (∃ e, q.urbCreate urb allocated link = (some e, q)) ∨
    (∃ e, q.active ∧ q.canInitUrb ∧ ((q.newUrb urb).init q).ret = some e ∧
      q.urbCreate urb allocated link = (some e, ((q.newUrb urb).init q).q)) ∨
    (q.active ∧ q.canInitUrb ∧ ((q.newUrb urb).init q).ret = none ∧
      q.urbCreate urb allocated link =
        (none, (afterUrb q.urbList [] ((q.newUrb urb).init q)).deliverPending)) ∨
    (allocated ∧ link = none ∧ (q.active → ¬q.canInitUrb) ∧ ∃ wReset wResume, q.urbCreate urb allocated link =
      (none, deliverPending { q with urbList := q.urbList ++ [q.newUrb urb], wReset, wResume })) := by
  unfold urbCreate
  split
  case isTrue => exact .inl ⟨_, rfl⟩
  case isFalse granted =>
    have granted : allocated = true := not_not.mp granted
    cases link with
    | some e => exact .inl ⟨e, rfl⟩
    | none =>
      simp only
      split
      case isTrue active =>
        split
        case isTrue slots =>
          cases begun : ((q.newUrb urb).init q).ret with
          | some e => exact .inr (.inl ⟨e, active, slots, rfl, rfl⟩)
          | none => exact .inr (.inr (.inl ⟨active, slots, rfl, rfl⟩))
        case isFalse full => exact .inr (.inr (.inr ⟨granted, trivial, fun _ => full, q.wReset, q.wResume, rfl⟩))
      case isFalse inactive =>
        obtain ⟨wReset, wResume, requested⟩ := q.requestReactivation_eq
        rw [requested]
        exact .inr (.inr (.inr ⟨granted, trivial, fun active => absurd active inactive, wReset, wResume, rfl⟩))

/-- `bce_vhci_urb_create` that returns 0 has linked the URB, and an error leaves no trace of it. -/
theorem urbCreate_cases (q : BceVhciTransferQueue) (urb : Urb) (allocated : Bool)
    (link : Option Errno) :
    (∃ e, (q.urbCreate urb allocated link).1 = some e ∧ q.Conserves (q.urbCreate urb allocated link).2) ∨
    ((q.urbCreate urb allocated link).1 = none ∧
      Conserves { q with urbList := q.urbList ++ [q.newUrb urb] } (q.urbCreate urb allocated link).2) := by
  rcases q.urbCreate_outcomes urb allocated link with
    ⟨e, ran⟩ | ⟨e, -, -, failed, ran⟩ | ⟨-, -, -, ran⟩ | ⟨-, -, -, wReset, wResume, ran⟩
  · rw [ran]
    exact .inl ⟨e, rfl, .refl q⟩
  · rw [ran]
    have frame := BceVhciUrb.init_failed failed
    exact .inl ⟨e, rfl, .of_frame frame.toFrame frame.remaining frame.givebackUrbList⟩
  · rw [ran]
    have begun := init_conserves q (q.newUrb urb) q.urbList [] rfl
    exact .inr ⟨rfl, begun.trans (deliverPending_conserves _)⟩
  · rw [ran]
    have requested : Conserves { q with urbList := q.urbList ++ [q.newUrb urb] }
        { q with urbList := q.urbList ++ [q.newUrb urb], wReset, wResume } :=
      ⟨rfl, rfl, rfl, rfl, rfl, rfl, rfl, rfl, rfl, .refl _, fun v member => ⟨v, member, .refl v⟩⟩
    exact .inr ⟨rfl, requested.trans (deliverPending_conserves _)⟩

/-- What is left when an URB is unlinked by a cancel. -/
def unlinked (q : BceVhciTransferQueue) (vurb : BceVhciUrb) (urbs : List BceVhciUrb) :
    BceVhciTransferQueue :=
  { q.cancelSlot vurb with urbList := urbs }

/-- A cancel counts a ghost, or a slot that is free again. -/
theorem cancelSlot_eq (q : BceVhciTransferQueue) (vurb : BceVhciUrb) :
    ∃ ghostInCount ghostOutCount remainingActiveRequests, q.cancelSlot vurb =
      { q with ghostInCount, ghostOutCount, remainingActiveRequests } := by
  unfold cancelSlot
  repeat' split
  all_goals exact ⟨_, _, _, rfl⟩

theorem cancelSlot_frame (q : BceVhciTransferQueue) (vurb : BceVhciUrb) :
    (q.cancelSlot vurb).flushGivebackList = q.flushGivebackList ∧
      (q.cancelSlot vurb).givebackUrbList = q.givebackUrbList ∧
      (q.cancelSlot vurb).endp = q.endp ∧
      (q.cancelSlot vurb).maxActiveRequests = q.maxActiveRequests ∧
      (q.cancelSlot vurb).wFlush = q.wFlush := by
  obtain ⟨_, _, _, cancelled⟩ := q.cancelSlot_eq vurb
  rw [cancelled]
  exact ⟨rfl, rfl, rfl, rfl, rfl⟩

/-- A cancel does nothing, or takes an URB out of the list and gives it back or leaves it to the
flush worker. -/
theorem urbRequestCancel_cases (q : BceVhciTransferQueue) (id : Nat) (status : Int) :
    (∃ e, q.urbRequestCancel id status = (.refused e, q)) ∨
    q.urbRequestCancel id status = (.already, q) ∨
    ∃ before vurb after, q.urbList = before ++ vurb :: after ∧ vurb.id = id ∧
      ((q.urbRequestCancel id status =
          (.givenBack { vurb.urb with status }, q.unlinked vurb (before ++ after)) ∧
          (vurb.isControl → vurb.state = .initPending)) ∨
        q.urbRequestCancel id status =
          (.deferred (vurb.started && vurb.isControl),
            { q.unlinked vurb (before ++ after) with
              flushGivebackList := q.flushGivebackList ++ [{ vurb.urb with status }] })) := by
  unfold urbRequestCancel
  split
  · exact .inl ⟨_, rfl⟩
  · rename_i vurb found
    obtain ⟨here, before, after, linked, first⟩ := List.find?_eq_some_iff_append.mp found
    have erased : q.urbList.eraseP (fun vurb => vurb.id = id) = before ++ after := by
      rw [linked, List.eraseP_append_right _ (by simpa using first),
        List.eraseP_cons_of_pos (by simpa using here)]
    split
    · exact .inr (.inl rfl)
    · refine .inr (.inr ⟨before, vurb, after, linked, by simpa using here, ?_⟩)
      simp only [erased]
      have control : decide (vurb.state ≠ .initPending ∧ vurb.isControl = true) =
          (vurb.started && vurb.isControl) := by
        rw [Bool.decide_and, Bool.decide_eq_true, BceVhciUrb.started]
        cases vurb.state <;> rfl
      split
      · right
        rw [control, (q.cancelSlot_frame vurb).1]
        rfl
      · rename_i kept
        refine .inl ⟨rfl, fun isControl => ?_⟩
        by_contra begun
        exact kept (.inl (by simp [begun, isControl]))

end BceVhciTransferQueue

end AppleBce

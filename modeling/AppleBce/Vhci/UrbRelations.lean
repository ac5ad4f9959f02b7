import AppleBce.Vhci.TransferOps

namespace AppleBce

open Basis

/-- A relation between a queue and what it becomes that all work on its URBs keeps. The steps of that
work are transfers that begin, completed URBs, stalls and the accounts of the queue. -/
structure UrbRelation (R : BceVhciTransferQueue → BceVhciTransferQueue → Prop) : Prop where
  refl : ∀ q, R q q
  trans : ∀ {q r s}, R q r → R r s → R q s
  receive : ∀ (u : BceVhciUrb) q, R q (u.dataTransferIn q).q
  send : ∀ (u : BceVhciUrb) addr size q, R q (u.sendOutData addr size q).2
  complete : ∀ (u : BceVhciUrb) status q, R q (u.complete status q)
  stop : ∀ q, R q { q with active := false, stalled := true }
  stall : ∀ q, R q { q with stalled := true }
  account : ∀ {q : BceVhciTransferQueue} {remainingActiveRequests evq urbList flushGivebackList ghostInCount
    ghostOutCount inits wReset wResume}, R q { q with
      remainingActiveRequests, evq, urbList, flushGivebackList, ghostInCount, ghostOutCount, inits, wReset,
      wResume }

namespace UrbRelation

open BceVhciTransferQueue

variable {R : BceVhciTransferQueue → BceVhciTransferQueue → Prop} {q : BceVhciTransferQueue}

section Urbs

/-- Two calls in a row. -/
theorem andThen (rel : UrbRelation R) {call : UrbCall} {next : BceVhciUrb → BceVhciTransferQueue → UrbCall}
    (first : R q call.q) (second : ∀ v r, R r (next v r).q) : R q (call.andThen next).q := by
  unfold UrbCall.andThen
  split
  · exact rel.trans first (second _ _)
  · exact first

theorem dataStart (rel : UrbRelation R) (u : BceVhciUrb) (q : BceVhciTransferQueue) : R q (u.dataStart q).q := by
  unfold BceVhciUrb.dataStart
  split
  · split
    · exact rel.refl q
    · exact rel.refl q
  · exact rel.receive u q

/-- A request of the T2 for data sends a part of the buffer. -/
theorem dataUpdate (rel : UrbRelation R) (u : BceVhciUrb) (msg : BceVhciMessage) (q : BceVhciTransferQueue) :
    R q (u.dataUpdate msg q).q := by
  unfold BceVhciUrb.dataUpdate
  split
  · simp only
    generalize (if u.urb.transferBufferLength - u.sendOffset ≤ BitVec.setWidth 32 msg.param2 then
      u.urb.transferBufferLength - u.sendOffset else BitVec.setWidth 32 msg.param2) = trLen
    have sent := rel.send u (u.urb.transferDma + u.sendOffset.setWidth 64) (trLen.setWidth 64) q
    split
    · rename_i run
      rwa [run] at sent
    · rename_i run
      rwa [run] at sent
  · exact rel.refl q

/-- A control transfer that fails stalls the queue. -/
theorem controlCheckStatus (rel : UrbRelation R) (u : BceVhciUrb) (q : BceVhciTransferQueue) :
    R q (u.controlCheckStatus q).q := by
  unfold BceVhciUrb.controlCheckStatus
  split
  · exact rel.refl q
  · split
    · simp only
      split
      · have completed := rel.trans (rel.stop q)
          (rel.complete { u with state := .controlComplete } Errno.pipe.neg _)
        exact rel.trans completed rel.account
      · exact rel.complete _ 0 q
    · exact rel.refl q

/-- A control URB is taken through its phases, and stalls when one fails. -/
theorem controlUpdate (rel : UrbRelation R) (u : BceVhciUrb) (msg : BceVhciMessage) (q : BceVhciTransferQueue) :
    R q (u.controlUpdate msg q).q := by
  unfold BceVhciUrb.controlUpdate
  split
  · exact rel.controlCheckStatus _ q
  · split
    · have sent := rel.send u u.urb.setupDma BceVhciUrb.usbCtrlrequestSize q
      split
      · rename_i run
        rwa [run] at sent
      · rename_i run
        rwa [run] at sent
    · split
      · exact rel.andThen (rel.dataUpdate u msg q) rel.controlCheckStatus
      · exact rel.refl q

theorem update (rel : UrbRelation R) (u : BceVhciUrb) (msg : BceVhciMessage) (q : BceVhciTransferQueue) :
    R q (u.update msg q).q := by
  unfold BceVhciUrb.update
  split
  · exact rel.refl q
  · split
    · exact rel.controlUpdate u msg q
    · exact rel.dataUpdate u msg q

theorem dataTransferCompletion (rel : UrbRelation R) (u : BceVhciUrb) (c : BceSqCompletionData)
    (q : BceVhciTransferQueue) : R q (u.dataTransferCompletion c q).q := by
  unfold BceVhciUrb.dataTransferCompletion
  split
  · simp only
    split
    · split
      · split
        · exact rel.complete _ 0 q
        · exact rel.complete _ 0 q
      · exact rel.refl q
    · exact rel.refl q
  · exact rel.refl q

/-- A completion is handled by the kind of the URB. -/
theorem transferCompletion (rel : UrbRelation R) (u : BceVhciUrb) (c : BceSqCompletionData)
    (q : BceVhciTransferQueue) : R q (u.transferCompletion c q).q := by
  unfold BceVhciUrb.transferCompletion
  split
  · unfold BceVhciUrb.controlTransferCompletion
    have started := rel.dataStart u q
    split
    · simp only
      split
      · exact rel.trans started (rel.complete _ _ _)
      · exact rel.andThen started rel.controlCheckStatus
    · split
      · exact rel.andThen (rel.dataTransferCompletion u c q) rel.controlCheckStatus
      · exact rel.refl q
  · exact rel.dataTransferCompletion u c q

theorem resume (rel : UrbRelation R) (u : BceVhciUrb) (q : BceVhciTransferQueue) : R q (u.resume q).q := by
  unfold BceVhciUrb.resume
  have started := rel.receive u q
  split
  · simp only
    split
    · exact rel.trans started (rel.complete _ _ _)
    · exact started
  · exact rel.refl q

theorem init (rel : UrbRelation R) (u : BceVhciUrb) (q : BceVhciTransferQueue) : R q (u.init q).q := by
  have started : R q
      (if u.isControl then ⟨none, some { u with state := .controlWaitingForSetupRequest }, q⟩
        else u.dataStart q : UrbCall).q := by
    split
    · exact rel.refl q
    · exact rel.dataStart u q
  unfold BceVhciUrb.init
  split
  · exact rel.refl q
  · simp only
    generalize (if u.isControl then _ else u.dataStart q : UrbCall) = call at started
    split
    · exact rel.trans started rel.account
    · exact started

end Urbs

section Loops

theorem afterUrb (rel : UrbRelation R) {call : UrbCall} (called : R q call.q) (done rest : List BceVhciUrb) :
    R q (afterUrb done rest call) :=
  rel.trans called rel.account

/-- The pending URBs are started one by one while there are slots. -/
theorem initLoop (rel : UrbRelation R) (done rest : List BceVhciUrb) (q : BceVhciTransferQueue) :
    R q (initLoop done rest q) := by
  induction rest generalizing done q with
  | nil => exact rel.account
  | cons urb rest ih =>
    rw [BceVhciTransferQueue.initLoop]
    split
    · exact rel.account
    · split
      · exact rel.trans (rel.init urb q) (ih _ _)
      · exact ih _ _

theorem initPendingUrbs (rel : UrbRelation R) (q : BceVhciTransferQueue) : R q q.initPendingUrbs :=
  rel.initLoop [] q.urbList q

theorem deliverLoop (rel : UrbRelation R) (msgs : List BceVhciMessage) (q : BceVhciTransferQueue) :
    R q (deliverLoop msgs q) := by
  induction msgs generalizing q with
  | nil => exact rel.account
  | cons msg msgs ih =>
    unfold BceVhciTransferQueue.deliverLoop
    split
    · exact rel.account
    · rename_i urb rest _
      have updated := rel.afterUrb (rel.update urb msg q) [] rest
      simp only
      split
      · exact rel.trans updated rel.account
      · exact rel.trans updated (ih _)

theorem deliverPending (rel : UrbRelation R) (q : BceVhciTransferQueue) : R q q.deliverPending :=
  rel.trans (rel.deliverLoop q.evq q) (rel.initPendingUrbs _)

theorem deferEvent (rel : UrbRelation R) (q : BceVhciTransferQueue) (msg : BceVhciMessage) (allocated : Bool) :
    R q (q.deferEvent msg allocated) := by
  unfold BceVhciTransferQueue.deferEvent
  split
  · exact rel.trans (rel.stall q) rel.account
  · exact rel.account

/-- A message goes to the URB at the head, or is deferred. -/
theorem event (rel : UrbRelation R) (q : BceVhciTransferQueue) (msg : BceVhciMessage) (allocated : Bool) :
    R q (q.event msg allocated) := by
  unfold BceVhciTransferQueue.event
  split
  · split
    · exact rel.deferEvent q msg allocated
    · exact rel.refl q
  · refine rel.trans (rel.deliverPending q) ?_
    generalize q.deliverPending = q
    unfold eventDelivered
    split
    · exact rel.deferEvent q msg allocated
    · split
      · exact rel.refl q
      · rename_i urb rest _
        have updated := rel.afterUrb (rel.update urb msg q) [] rest
        simp only
        split
        · exact rel.trans updated (rel.deferEvent _ msg allocated)
        · exact rel.trans updated (rel.initPendingUrbs _)

/-- A round of the completion handler up to the accounting at its end. -/
theorem completionBody (rel : UrbRelation R) (q : BceVhciTransferQueue) (out : Bool) (c : BceSqCompletionData) :
    R q (q.completionBody out c) := by
  rcases q.completionBody_cases out c with same | ⟨-, -, absorbs⟩ | ⟨urb, rest, -, -, -, -, taken⟩
  · rw [same]
    exact rel.refl q
  · rw [absorbs]
    refine rel.trans ?_ (rel.initPendingUrbs _)
    cases out with
    | false => exact rel.account
    | true => exact rel.account
  · rw [taken]
    exact rel.afterUrb (rel.transferCompletion urb c q) [] rest

/-- A linked URB is started when it is pending, and submitted again when it waits. -/
theorem resumeLoop (rel : UrbRelation R) (done rest : List BceVhciUrb) (q : BceVhciTransferQueue) :
    R q (resumeLoop done rest q) := by
  induction rest generalizing done q with
  | nil => exact rel.account
  | cons urb rest ih =>
    rw [BceVhciTransferQueue.resumeLoop]
    split
    · split
      · exact rel.account
      · exact rel.trans (rel.init urb q) (ih _ _)
    · exact rel.trans (rel.resume urb q) (ih _ _)

theorem resumeSection (rel : UrbRelation R) (q : BceVhciTransferQueue) :
    R { q with active := true } q.resumeSection :=
  rel.trans (rel.resumeLoop [] q.urbList _) (rel.deliverPending _)

theorem cancelLoop (rel : UrbRelation R) (rest : List BceVhciUrb) (q : BceVhciTransferQueue) :
    R q (cancelLoop rest q) := by
  induction rest generalizing q with
  | nil => exact rel.account
  | cons urb rest ih => exact rel.trans (rel.complete urb Errno.connreset.neg q) (ih _)

theorem urbCreate (rel : UrbRelation R) (q : BceVhciTransferQueue) (urb : Urb) (allocated : Bool)
    (link : Option Errno) : R q (q.urbCreate urb allocated link).2 := by
  rcases q.urbCreate_outcomes urb allocated link with
    ⟨e, ran⟩ | ⟨e, -, -, -, ran⟩ | ⟨-, -, -, ran⟩ | ⟨-, -, -, wReset, wResume, ran⟩
  · rw [ran]
    exact rel.refl q
  · rw [ran]
    exact rel.init (q.newUrb urb) q
  · rw [ran]
    exact rel.trans (rel.afterUrb (rel.init (q.newUrb urb) q) _ _) (rel.deliverPending _)
  · rw [ran]
    exact rel.trans rel.account (rel.deliverPending _)

theorem cancelSlot (rel : UrbRelation R) (q : BceVhciTransferQueue) (vurb : BceVhciUrb) :
    R q (q.cancelSlot vurb) := by
  obtain ⟨_, _, _, cancelled⟩ := q.cancelSlot_eq vurb
  rw [cancelled]
  exact rel.account

/-- A cancelled URB has no slot, gives it back or keeps it for its ghost. -/
theorem urbRequestCancel (rel : UrbRelation R) (q : BceVhciTransferQueue) (id : Nat) (status : Int) :
    R q (q.urbRequestCancel id status).2 := by
  rcases q.urbRequestCancel_cases id status with ⟨e, run⟩ | run | ⟨_, vurb, _, -, -, ⟨run, -⟩ | run⟩
  · rw [run]
    exact rel.refl q
  · rw [run]
    exact rel.refl q
  · rw [run]
    exact rel.trans (rel.cancelSlot q vurb) rel.account
  · rw [run]
    exact rel.trans (rel.cancelSlot q vurb) rel.account

end Loops

end UrbRelation

end AppleBce

import AppleBce.Vhci.TransferOps

namespace AppleBce

open Basis

namespace BceVhciTransferQueue

variable {I : BceVhciTransferQueue → Prop}

/-- What an invariant has to survive for the loops of the driver to keep it: starting an URB that
is pending, a message for the URB at the head, and changes of the deferred messages. -/
structure LoopSafe (I : BceVhciTransferQueue → Prop) : Prop where
  start : ∀ done (u : BceVhciUrb) rest q, u.state = .initPending → I { q with urbList := done ++ u :: rest } →
    I (afterUrb done rest (u.init q))
  update : ∀ u rest msg (q : BceVhciTransferQueue),
    q.urbList = u :: rest → I q → I (afterUrb [] rest (u.update msg q))
  defer : ∀ (q : BceVhciTransferQueue) evq, I q → I { q with evq }

/-- The invariant rule of the loop of `bce_vhci_transfer_queue_init_pending_urbs`. -/
theorem initLoop_invariant
    (start : ∀ done (u : BceVhciUrb) rest q, u.state = .initPending → I { q with urbList := done ++ u :: rest } →
      I (afterUrb done rest (u.init q)))
    (done rest : List BceVhciUrb) (q : BceVhciTransferQueue)
    (held : I { q with urbList := done ++ rest }) : I (initLoop done rest q) := by
  induction rest generalizing done q with
  | nil => rwa [List.append_nil] at held
  | cons urb rest ih =>
    rw [BceVhciTransferQueue.initLoop]
    split
    · exact held
    · split
      case isTrue pending =>
        have next := start done urb rest q pending held
        rw [afterUrb, ← List.append_assoc] at next
        exact ih _ _ next
      case isFalse =>
        refine ih _ _ ?_
        rwa [List.append_assoc, List.singleton_append]

theorem LoopSafe.initLoop (safe : LoopSafe I) (done rest : List BceVhciUrb) (q : BceVhciTransferQueue)
    (held : I { q with urbList := done ++ rest }) : I (initLoop done rest q) :=
  initLoop_invariant safe.start done rest q held

theorem LoopSafe.initPendingUrbs (safe : LoopSafe I) {q : BceVhciTransferQueue} (held : I q) :
    I q.initPendingUrbs :=
  safe.initLoop [] q.urbList q held

/-- The invariant rule of the loop over the deferred messages. -/
theorem deliverLoop_invariant
    (update : ∀ u rest msg (q : BceVhciTransferQueue), q.urbList = u :: rest → I q →
      I (afterUrb [] rest (u.update msg q)))
    (defer : ∀ (q : BceVhciTransferQueue) evq, I q → I { q with evq }) (msgs : List BceVhciMessage)
    {q : BceVhciTransferQueue} (held : I q) : I (deliverLoop msgs q) := by
  induction msgs generalizing q with
  | nil => exact defer q [] held
  | cons msg msgs ih =>
    unfold BceVhciTransferQueue.deliverLoop
    split
    · exact defer q _ held
    · rename_i urb rest linked
      have updated := update urb rest msg q linked held
      simp only
      split
      · exact defer _ _ updated
      · exact ih updated

theorem LoopSafe.deliverLoop (safe : LoopSafe I) (msgs : List BceVhciMessage)
    {q : BceVhciTransferQueue} (held : I q) : I (deliverLoop msgs q) :=
  deliverLoop_invariant safe.update safe.defer msgs held

/-- A data URB that waits for a completion refuses every message. -/
theorem update_waiting {u : BceVhciUrb} (data : u.isControl = false) (waiting : u.state = .waitingForCompletion)
    (msg : BceVhciMessage) (q : BceVhciTransferQueue) : u.update msg q = ⟨some .again, some u, q⟩ := by
  simp [BceVhciUrb.update, BceVhciUrb.dataUpdate, data, waiting]

/-- Nothing is delivered to an URB at the head that refuses every message. -/
theorem deliverLoop_refused {q : BceVhciTransferQueue} {u : BceVhciUrb} {rest : List BceVhciUrb}
    (msgs : List BceVhciMessage) (linked : q.urbList = u :: rest)
    (refuses : ∀ msg, u.update msg q = ⟨some .again, some u, q⟩) :
    BceVhciTransferQueue.deliverLoop msgs q = { q with evq := msgs } := by
  cases msgs with
  | nil => rfl
  | cons msg msgs =>
    rw [BceVhciTransferQueue.deliverLoop, linked]
    simp only [refuses, ↓reduceIte]
    rfl

theorem LoopSafe.deliverPending (safe : LoopSafe I) {q : BceVhciTransferQueue} (held : I q) :
    I q.deliverPending :=
  safe.initPendingUrbs (safe.deliverLoop q.evq held)

theorem LoopSafe.eventDelivered (safe : LoopSafe I)
    (reset : ∀ q : BceVhciTransferQueue, I q → I { q with stalled := true }.requestReset) {q : BceVhciTransferQueue}
    (held : I q) (msg : BceVhciMessage) (allocated : Bool) : I (q.eventDelivered msg allocated) := by
  have defers : ∀ {r : BceVhciTransferQueue}, I r → I (r.deferEvent msg allocated) := by
    intro r held
    unfold deferEvent
    split
    · exact reset r held
    · exact safe.defer r _ held
  unfold BceVhciTransferQueue.eventDelivered
  split
  · exact defers held
  · split
    · exact held
    · rename_i urb rest linked
      have updated := safe.update urb rest msg q linked held
      simp only
      split
      · exact defers updated
      · exact safe.initPendingUrbs updated

/-- The invariant rule of `bce_vhci_transfer_queue_event`. -/
theorem LoopSafe.event (safe : LoopSafe I)
    (reset : ∀ q : BceVhciTransferQueue, I q → I { q with stalled := true }.requestReset) {q : BceVhciTransferQueue}
    (held : I q) (msg : BceVhciMessage) (allocated : Bool) : I (q.event msg allocated) := by
  unfold BceVhciTransferQueue.event
  split
  · split
    · unfold deferEvent
      split
      · exact reset q held
      · exact safe.defer q _ held
    · exact held
  · exact safe.eventDelivered reset (safe.deliverPending held) msg allocated

/-- The invariant rule of the loop of `bce_vhci_transfer_queue_do_resume`. -/
theorem resumeLoop_invariant
    (start : ∀ done (u : BceVhciUrb) rest q, u.state = .initPending → I { q with urbList := done ++ u :: rest } →
      I (afterUrb done rest (u.init q)))
    (resume : ∀ done (u : BceVhciUrb) rest q, u.state ≠ .initPending → I { q with urbList := done ++ u :: rest } →
      I (afterUrb done rest (u.resume q)))
    (done rest : List BceVhciUrb) (q : BceVhciTransferQueue)
    (held : I { q with urbList := done ++ rest }) : I (resumeLoop done rest q) := by
  induction rest generalizing done q with
  | nil => rwa [List.append_nil] at held
  | cons urb rest ih =>
    rw [BceVhciTransferQueue.resumeLoop]
    split
    case isTrue pending =>
      split
      · exact held
      · have next := start done urb rest q pending held
        rw [afterUrb, ← List.append_assoc] at next
        exact ih _ _ next
    case isFalse started =>
      have next := resume done urb rest q started held
      rw [afterUrb, ← List.append_assoc] at next
      exact ih _ _ next

end BceVhciTransferQueue

end AppleBce

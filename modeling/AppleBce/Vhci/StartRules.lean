import AppleBce.Vhci.UrbCalls

namespace AppleBce

open Basis

namespace BceVhciTransferQueue

variable {C : CalledUrb → Prop} {I : BceVhciTransferQueue → Prop} {q : BceVhciTransferQueue}

/-- What an invariant has to survive for the driver to keep it as long as all its calls meet `C`: the loop that
starts the pending URBs, a message for the URB at the head, and changes of the deferred messages and flags. -/
structure StartSafe (C : CalledUrb → Prop) (I : BceVhciTransferQueue → Prop) : Prop where
  starts : ∀ q : BceVhciTransferQueue, I q → (∀ call ∈ q.initPendingCalls, C call) → I q.initPendingUrbs
  update : ∀ u rest msg (q : BceVhciTransferQueue),
    q.urbList = u :: rest → I q → I (afterUrb [] rest (u.update msg q))
  defer : ∀ (q : BceVhciTransferQueue) evq, I q → I { q with evq }
  reset : ∀ q : BceVhciTransferQueue, I q → I { q with stalled := true }.requestReset

/-- The rule of the loop of `bce_vhci_transfer_queue_init_pending_urbs` when its calls meet `C`, for what holds
of the queue and of the URBs that the loop has passed. -/
theorem initLoop_passes {J : List BceVhciUrb → BceVhciTransferQueue → Prop}
    (start : ∀ done (u : BceVhciUrb) rest q, u.state = .initPending → q.canInitUrb → C ⟨.init, u, q⟩ →
      J done { q with urbList := done ++ u :: rest } →
      J (done ++ (u.init q).urb.toList) (afterUrb done rest (u.init q)))
    (skip : ∀ done (u : BceVhciUrb) q, u.state ≠ .initPending → J done q → J (done ++ [u]) q)
    (done rest : List BceVhciUrb) (q : BceVhciTransferQueue) (held : J done { q with urbList := done ++ rest })
    (granted : ∀ call ∈ initCalls rest q, C call) : ∃ passed, J passed (initLoop done rest q) := by
  induction rest generalizing done q with
  | nil =>
    rw [List.append_nil] at held
    exact ⟨done, held⟩
  | cons urb rest ih =>
    rw [BceVhciTransferQueue.initLoop]
    by_cases slots : q.canInitUrb
    · rw [initCalls, if_neg (not_not.mpr slots)] at granted
      rw [if_neg (not_not.mpr slots)]
      by_cases pending : urb.state = .initPending
      · rw [if_pos pending] at granted ⊢
        have next := start done urb rest q pending slots (granted _ (List.mem_cons_self ..)) held
        rw [afterUrb, ← List.append_assoc] at next
        exact ih _ _ next fun call member => granted call (List.mem_cons_of_mem _ member)
      · rw [if_neg pending] at granted ⊢
        refine ih _ _ ?_ granted
        rw [List.append_assoc, List.singleton_append]
        exact skip done urb _ pending held
    · rw [if_pos slots]
      exact ⟨done, held⟩

/-- The same for an invariant of the queue alone. -/
theorem initLoop_kept
    (start : ∀ done (u : BceVhciUrb) rest q, u.state = .initPending → C ⟨.init, u, q⟩ →
      I { q with urbList := done ++ u :: rest } → I (afterUrb done rest (u.init q)))
    (done rest : List BceVhciUrb) (q : BceVhciTransferQueue) (held : I { q with urbList := done ++ rest })
    (granted : ∀ call ∈ initCalls rest q, C call) : I (initLoop done rest q) := by
  obtain ⟨-, kept⟩ := initLoop_passes (J := fun _ => I)
    (fun done u rest q pending _ => start done u rest q pending) (fun _ _ _ _ held => held) done rest q held granted
  exact kept

theorem StartSafe.deliverPending (safe : StartSafe C I) (held : I q)
    (granted : ∀ call ∈ q.deliverPendingCalls, C call) : I q.deliverPending :=
  safe.starts _ (deliverLoop_invariant safe.update safe.defer q.evq held) fun call member =>
    granted call (List.mem_append_right _ member)

theorem StartSafe.deferEvent (safe : StartSafe C I) (held : I q) (msg : BceVhciMessage) (allocated : Bool) :
    I (q.deferEvent msg allocated) := by
  unfold BceVhciTransferQueue.deferEvent
  split
  · exact safe.reset q held
  · exact safe.defer q _ held

theorem StartSafe.eventDelivered (safe : StartSafe C I) (held : I q) (msg : BceVhciMessage) (allocated : Bool)
    (granted : ∀ call ∈ q.eventDeliveredCalls msg, C call) : I (q.eventDelivered msg allocated) := by
  unfold eventDeliveredCalls at granted
  unfold BceVhciTransferQueue.eventDelivered
  split
  case isTrue => exact safe.deferEvent held msg allocated
  case isFalse first =>
    rw [if_neg first] at granted
    cases linked : q.urbList with
    | nil => exact held
    | cons urb rest =>
      simp only [linked] at granted ⊢
      have updated := safe.update urb rest msg q linked held
      split
      case isTrue => exact safe.deferEvent updated msg allocated
      case isFalse taken =>
        rw [if_neg taken] at granted
        exact safe.starts _ updated fun call member => granted call (List.mem_cons_of_mem _ member)

/-- The invariant rule of `bce_vhci_transfer_queue_event` when its calls meet `C`. -/
theorem StartSafe.event (safe : StartSafe C I) (held : I q) (msg : BceVhciMessage) (allocated : Bool)
    (granted : ∀ call ∈ q.eventCalls msg, C call) : I (q.event msg allocated) := by
  unfold eventCalls at granted
  unfold BceVhciTransferQueue.event
  by_cases active : q.active
  · rw [if_neg (not_not.mpr active)] at granted ⊢
    have delivered := safe.deliverPending held fun call member => granted call (List.mem_append_left _ member)
    exact safe.eventDelivered delivered msg allocated fun call member =>
      granted call (List.mem_append_right _ member)
  · rw [if_pos active]
    split
    · exact safe.deferEvent held msg allocated
    · exact held

/-- The invariant rule of `bce_vhci_urb_create` when its calls meet `C`: the URB is not accepted, it is
started at once, or it is linked behind the others. -/
theorem StartSafe.urbCreate (safe : StartSafe C I) (urb : Urb) (allocated : Bool) (link : Option Errno) (held : I q)
    (fails : C ⟨.init, q.newUrb urb, q⟩ → ∀ e, ((q.newUrb urb).init q).ret = some e → I ((q.newUrb urb).init q).q)
    (begins : C ⟨.init, q.newUrb urb, q⟩ → q.active → q.canInitUrb → ((q.newUrb urb).init q).ret = none →
      I (afterUrb q.urbList [] ((q.newUrb urb).init q)))
    (links : ∀ wReset wResume, I { q with urbList := q.urbList ++ [q.newUrb urb], wReset, wResume })
    (granted : ∀ call ∈ q.createCalls urb allocated link, C call) : I (q.urbCreate urb allocated link).2 := by
  cases allocated with
  | false => exact held
  | true =>
    cases link with
    | some e => exact held
    | none =>
      unfold createCalls at granted
      unfold BceVhciTransferQueue.urbCreate
      simp only [not_true, ne_eq, or_self, ↓reduceIte] at granted ⊢
      split
      case isTrue active =>
        rw [if_pos active] at granted
        split
        case isTrue slots =>
          rw [if_pos slots] at granted
          have first := granted _ (List.mem_cons_self ..)
          cases taken : ((q.newUrb urb).init q).ret with
          | some e => exact fails first e taken
          | none =>
            simp only [taken] at granted ⊢
            exact safe.deliverPending (begins first active slots taken) fun call member =>
              granted call (List.mem_cons_of_mem _ member)
        case isFalse full =>
          rw [if_neg full] at granted
          exact safe.deliverPending (links q.wReset q.wResume) granted
      case isFalse inactive =>
        rw [if_neg inactive] at granted
        obtain ⟨wReset, wResume, requested⟩ := q.requestReactivation_eq
        rw [requested] at granted ⊢
        exact safe.deliverPending (links wReset wResume) granted

end BceVhciTransferQueue

end AppleBce

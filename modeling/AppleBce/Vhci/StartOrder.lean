import AppleBce.Vhci.Linked
import AppleBce.Vhci.UrbCalls

namespace AppleBce

open Basis

namespace BceVhciUrb

variable {u v : BceVhciUrb} {q : BceVhciTransferQueue} {msg : BceVhciMessage}

/-- With a slot and what it reserves an URB is started. -/
theorem init_received (slots : q.canInitUrb) (received : CalledUrb.Received ⟨.init, u, q⟩) :
    (u.init q).ret = none ∧ ∃ v, (u.init q).urb = some v ∧ v.started := by
  have taken : (u.init q).ret = none := by
    have remaining : q.remainingActiveRequests ≠ 0 := by
      simp only [BceVhciTransferQueue.canInitUrb, decide_eq_true_eq] at slots
      omega
    have begun : u.isControl = false → (u.dataStart q).ret = none := by
      intro data
      by_cases outgoing : u.dir = .toDevice
      · rcases u.dataStart_uses q with ⟨-, -, begun, -⟩ | ⟨incoming, -⟩
        · exact begun
        · exact absurd outgoing incoming
      · have same : u.dataStart q = u.dataTransferIn q := if_neg outgoing
        rw [same]
        exact received ⟨data, outgoing, slots⟩
    unfold init
    rw [if_neg remaining]
    cases control : u.isControl with
    | true => rfl
    | false => simp [begun control]
  refine ⟨taken, ?_⟩
  rcases u.init_cases q with ⟨e, failed, -⟩ | ⟨v, -, present, -, started, -⟩
  · rw [taken] at failed
    cases failed
  · exact ⟨v, present, started⟩

/-- An URB that refuses a message is left as it is. -/
theorem update_again (again : (u.update msg q).ret = some .again) : u.update msg q = ⟨some .again, some u, q⟩ := by
  have data : (u.dataUpdate msg q).ret = some .again → u.dataUpdate msg q = ⟨some .again, some u, q⟩ := by
    intro again
    rcases u.dataUpdate_uses msg q with ⟨-, eq⟩ | ⟨-, -, -, failed, -⟩ | ⟨-, -, taken, -⟩
    · exact eq
    · rw [failed] at again
      cases again
    · rw [taken] at again
      cases again
  have checked : ∀ (v : BceVhciUrb) (r : BceVhciTransferQueue), (v.controlCheckStatus r).ret ≠ some .again := by
    intro v r
    rcases (v.controlCheckStatus_uses r).2 with eq | ⟨gone, -⟩
    · rw [eq]
      nofun
    · rw [gone]
      nofun
  unfold update at again ⊢
  split
  case isTrue => rfl
  case isFalse begun =>
    rw [if_neg begun] at again
    split
    case isFalse plain =>
      rw [if_neg plain] at again
      exact data again
    case isTrue control =>
      rw [if_pos control] at again
      unfold controlUpdate at again ⊢
      split
      case isTrue status =>
        rw [if_pos status] at again
        exact absurd again (checked _ q)
      case isFalse other =>
        rw [if_neg other] at again
        split
        case isTrue setup =>
          rw [if_pos setup] at again
          split at again <;> cases again
        case isFalse later =>
          rw [if_neg later] at again
          split
          case isFalse => rfl
          case isTrue waits =>
            rw [if_pos waits] at again
            unfold UrbCall.andThen at again ⊢
            split
            case h_1 v taken present =>
              simp only [taken, present] at again
              exact absurd again (checked v _)
            case h_2 kept =>
              refine data ?_
              split at again
              · rename_i v taken present
                exact (kept v taken present).elim
              · exact again

end BceVhciUrb

namespace BceVhciTransferQueue

variable {q r : BceVhciTransferQueue} {u v : BceVhciUrb} {done rest urbs more : List BceVhciUrb}

/-- No URB is started ahead of an earlier one: those that are started come first. -/
def StartedFirst (urbs : List BceVhciUrb) : Prop :=
  urbs.Pairwise fun u v => v.started → u.started

/-- The URBs are started in order, and one is pending only when no slot is free. -/
structure InOrder (q : BceVhciTransferQueue) : Prop where
  order : StartedFirst q.urbList
  busy : ∀ u ∈ q.urbList, u.started = false → q.remainingActiveRequests = 0

theorem startedFirst_append (begun : ∀ u ∈ urbs, u.started) (order : StartedFirst more) :
    StartedFirst (urbs ++ more) := by
  refine List.pairwise_append.mpr ⟨?_, order, fun u member _ _ _ => begun u member⟩
  exact List.Pairwise.imp_of_mem (fun member _ _ _ => begun _ member) (List.pairwise_of_forall fun _ _ => trivial)

theorem startedFirst_of_started (begun : ∀ u ∈ urbs, u.started) : StartedFirst urbs := by
  have all := startedFirst_append begun List.Pairwise.nil
  rwa [List.append_nil] at all

/-- Started URBs alone leave none that is pending. -/
theorem inOrder_of_started (begun : ∀ u ∈ q.urbList, u.started) : q.InOrder where
  order := startedFirst_of_started begun
  busy := by
    intro u member pending
    rw [begun u member] at pending
    cases pending

/-- A call on the URB at the head leaves the order of the others. -/
theorem head_order {call : UrbCall} (fits : UrbCall.Fits u q call) (order : StartedFirst (u :: rest)) :
    StartedFirst (call.urb.toList ++ rest) := by
  obtain ⟨first, later⟩ := List.pairwise_cons.mp order
  cases kept : call.urb with
  | none => exact later
  | some v =>
    refine List.pairwise_cons.mpr ⟨fun w member started => ?_, later⟩
    rw [(fits.kept v kept).2.1]
    exact first w member started

theorem initLoop_inOrder (done rest : List BceVhciUrb) (q : BceVhciTransferQueue)
    (passed : ∀ u ∈ done, u.started) (order : StartedFirst rest)
    (received : ∀ call ∈ initCalls rest q, call.Received) : (initLoop done rest q).InOrder := by
  induction rest generalizing done q with
  | nil => exact inOrder_of_started passed
  | cons urb rest ih =>
    have later : StartedFirst rest := (List.pairwise_cons.mp order).2
    rw [initLoop]
    by_cases slots : q.canInitUrb
    · rw [initCalls, if_neg (not_not.mpr slots)] at received
      rw [if_neg (not_not.mpr slots)]
      by_cases pending : urb.state = .initPending
      · rw [if_pos pending] at received ⊢
        obtain ⟨-, v, present, started⟩ := BceVhciUrb.init_received slots (received _ (List.mem_cons_self ..))
        refine ih _ _ ?_ later fun call member => received call (List.mem_cons_of_mem _ member)
        intro u member
        rw [present] at member
        rcases List.mem_append.mp member with old | new
        · exact passed u old
        · cases List.mem_singleton.mp new
          exact started
      · rw [if_neg pending] at received ⊢
        refine ih _ _ ?_ later received
        intro u member
        rcases List.mem_append.mp member with old | new
        · exact passed u old
        · cases List.mem_singleton.mp new
          exact BceVhciUrb.started_of_ne pending
    · rw [if_pos slots]
      refine ⟨startedFirst_append passed order, fun _ _ _ => ?_⟩
      simpa [canInitUrb] using slots

theorem initPendingUrbs_inOrder (order : StartedFirst q.urbList)
    (received : ∀ call ∈ q.initPendingCalls, call.Received) : q.initPendingUrbs.InOrder :=
  initLoop_inOrder [] q.urbList q (List.forall_mem_nil _) order received

theorem deliverLoop_order (msgs : List BceVhciMessage) (order : StartedFirst q.urbList) :
    StartedFirst (deliverLoop msgs q).urbList := by
  refine deliverLoop_invariant (I := fun r => StartedFirst r.urbList) ?_ (fun _ _ order => order) msgs order
  intro u rest msg r linked order
  rw [linked] at order
  exact head_order (u.update_fits msg r) order

theorem deliverPending_inOrder (order : StartedFirst q.urbList)
    (received : ∀ call ∈ q.deliverPendingCalls, call.Received) : q.deliverPending.InOrder :=
  initPendingUrbs_inOrder (deliverLoop_order q.evq order)
    fun call member => received call (List.mem_append_right _ member)

theorem deferEvent_inOrder (order : q.InOrder) (msg : BceVhciMessage) (allocated : Bool) :
    (q.deferEvent msg allocated).InOrder := by
  unfold deferEvent
  split <;> exact ⟨order.order, order.busy⟩

theorem eventDelivered_inOrder (order : q.InOrder) (msg : BceVhciMessage) (allocated : Bool)
    (received : ∀ call ∈ q.eventDeliveredCalls msg, call.Received) : (q.eventDelivered msg allocated).InOrder := by
  unfold eventDeliveredCalls at received
  unfold eventDelivered
  split
  case isTrue => exact deferEvent_inOrder order msg allocated
  case isFalse first =>
    rw [if_neg first] at received
    cases linked : q.urbList with
    | nil => exact order
    | cons urb rest =>
      simp only [linked] at received ⊢
      split
      case isTrue again =>
        have same : afterUrb [] rest (urb.update msg q) = q := by
          rw [BceVhciUrb.update_again again]
          show { q with urbList := urb :: rest } = q
          rw [← linked]
        rw [same]
        exact deferEvent_inOrder order msg allocated
      case isFalse taken =>
        rw [if_neg taken] at received
        have urbs := order.order
        rw [linked] at urbs
        exact initPendingUrbs_inOrder (head_order (urb.update_fits msg q) urbs)
          fun call member => received call (List.mem_cons_of_mem _ member)

theorem event_order (order : StartedFirst q.urbList) (msg : BceVhciMessage) (allocated : Bool)
    (received : ∀ call ∈ q.eventCalls msg, call.Received) :
    StartedFirst (q.event msg allocated).urbList ∧
      ((q.event msg allocated).active → (q.event msg allocated).InOrder) := by
  unfold eventCalls at received
  unfold event
  by_cases active : q.active
  · rw [if_neg (not_not.mpr active)] at received ⊢
    have delivered := deliverPending_inOrder order fun call member => received call (List.mem_append_left _ member)
    have all := eventDelivered_inOrder delivered msg allocated
      fun call member => received call (List.mem_append_right _ member)
    exact ⟨all.order, fun _ => all⟩
  · rw [if_pos active]
    split
    · unfold deferEvent
      split <;> exact ⟨order, fun now => absurd now active⟩
    · exact ⟨order, fun now => absurd now active⟩

theorem completion_order (order : StartedFirst q.urbList) (out : Bool) (c : BceSqCompletionData)
    (received : ∀ call ∈ q.completionCalls out c, call.Received) : StartedFirst (q.completion out c).urbList := by
  have body : StartedFirst (q.completionBody out c).urbList := by
    unfold completionCalls at received
    unfold completionBody
    split
    case isTrue => exact order
    case isFalse taken =>
      rw [if_neg taken] at received
      split
      case isTrue ghost =>
        rw [if_pos ghost] at received
        have same : (q.absorbGhost out).urbList = q.urbList := by cases out <;> rfl
        exact (initPendingUrbs_inOrder (by rw [same]; exact order) received).order
      case isFalse =>
        cases linked : q.urbList with
        | nil => exact order
        | cons urb rest =>
          simp only
          split
          · exact order
          · rw [linked] at order
            exact head_order (urb.transferCompletion_fits c q) order
  obtain ⟨_, _, _, _, ended⟩ := q.completion_eq out c
  rw [ended]
  exact body

theorem resumeLoop_order (done rest : List BceVhciUrb) (q : BceVhciTransferQueue)
    (passed : ∀ u ∈ done, u.started) (order : StartedFirst rest)
    (received : ∀ call ∈ resumeLoopCalls rest q, call.Received) :
    StartedFirst (resumeLoop done rest q).urbList := by
  induction rest generalizing done q with
  | nil => exact startedFirst_of_started passed
  | cons urb rest ih =>
    have later : StartedFirst rest := (List.pairwise_cons.mp order).2
    rw [resumeLoopCalls] at received
    rw [resumeLoop]
    by_cases pending : urb.state = .initPending
    · rw [if_pos pending] at received ⊢
      by_cases slots : q.canInitUrb
      · rw [if_neg (not_not.mpr slots)] at received ⊢
        obtain ⟨-, v, present, started⟩ := BceVhciUrb.init_received slots (received _ (List.mem_cons_self ..))
        refine ih _ _ ?_ later fun call member => received call (List.mem_cons_of_mem _ member)
        intro u member
        rw [present] at member
        rcases List.mem_append.mp member with old | new
        · exact passed u old
        · cases List.mem_singleton.mp new
          exact started
      · rw [if_pos slots]
        exact startedFirst_append passed order
    · rw [if_neg pending] at received ⊢
      refine ih _ _ ?_ later fun call member => received call (List.mem_cons_of_mem _ member)
      intro u member
      rcases List.mem_append.mp member with old | new
      · exact passed u old
      · rw [((urb.resume_fits q).kept u (Option.mem_toList.mp new)).2.1]
        exact BceVhciUrb.started_of_ne pending

theorem resumeSection_inOrder (order : StartedFirst q.urbList)
    (received : ∀ call ∈ q.resumeSectionCalls, call.Received) : q.resumeSection.InOrder := by
  have resumed := resumeLoop_order [] q.urbList { q with active := true } (List.forall_mem_nil _) order
    fun call member => received call (List.mem_append_left _ member)
  exact deliverPending_inOrder resumed fun call member => received call (List.mem_append_right _ member)

theorem startedFirst_pending (order : StartedFirst urbs) (pending : u.started = false) :
    StartedFirst (urbs ++ [u]) := by
  refine List.pairwise_append.mpr ⟨order, List.pairwise_singleton _ _, ?_⟩
  intro v _ w last started
  cases List.mem_singleton.mp last
  rw [pending] at started
  cases started

/-- A new URB is started at once only when none is pending. -/
theorem urbCreate_order (order : StartedFirst q.urbList) (busy : q.active → q.InOrder) (urb : Urb)
    (allocated : Bool) (link : Option Errno) (received : ∀ call ∈ q.createCalls urb allocated link, call.Received) :
    StartedFirst (q.urbCreate urb allocated link).2.urbList ∧
      ((q.urbCreate urb allocated link).2.active → (q.urbCreate urb allocated link).2.InOrder) := by
  have waits : ∀ r : BceVhciTransferQueue, r.urbList = q.urbList ++ [q.newUrb urb] →
      (∀ call ∈ r.deliverPendingCalls, call.Received) → r.deliverPending.InOrder := by
    intro r linked received
    refine deliverPending_inOrder ?_ received
    rw [linked]
    exact startedFirst_pending order rfl
  cases allocated with
  | false => exact ⟨order, busy⟩
  | true =>
    cases link with
    | some e => exact ⟨order, busy⟩
    | none =>
      unfold createCalls at received
      unfold urbCreate
      simp only [not_true, ne_eq, or_self, ↓reduceIte] at received ⊢
      split
      case isTrue active =>
        rw [if_pos active] at received
        split
        case isTrue slots =>
          rw [if_pos slots] at received
          obtain ⟨taken, v, present, started⟩ := BceVhciUrb.init_received slots (received _ (List.mem_cons_self ..))
          simp only [taken] at received ⊢
          have begun : ∀ u ∈ q.urbList, u.started := by
            intro u member
            by_contra pending
            have full := (busy active).busy u member (by simpa using pending)
            simp [canInitUrb, full] at slots
          have all : InOrder (deliverPending (afterUrb q.urbList [] ((q.newUrb urb).init q))) := by
            refine deliverPending_inOrder ?_ fun call member => received call (List.mem_cons_of_mem _ member)
            rw [afterUrb, present]
            refine startedFirst_append begun ?_
            exact startedFirst_of_started (by simpa using started)
          exact ⟨all.order, fun _ => all⟩
        case isFalse full =>
          rw [if_neg full] at received
          have all := waits _ rfl received
          exact ⟨all.order, fun _ => all⟩
      case isFalse inactive =>
        rw [if_neg inactive] at received
        have all := waits _ rfl received
        exact ⟨all.order, fun _ => all⟩

/-- Cancelling the URB gives its slot back at once. -/
def FreesSlot (u : BceVhciUrb) : Prop :=
  u.started ∧ u.isControl = false ∧ u.state ≠ .waitingForCompletion ∧ u.state ≠ .cancelled

instance (u : BceVhciUrb) : Decidable (FreesSlot u) :=
  inferInstanceAs (Decidable (_ ∧ _ ∧ _ ∧ _))

theorem cancelSlot_remaining (u : BceVhciUrb) (q : BceVhciTransferQueue) (live : u.state ≠ .cancelled) :
    (q.cancelSlot u).remainingActiveRequests =
      if FreesSlot u then q.remainingActiveRequests + 1 else q.remainingActiveRequests := by
  unfold cancelSlot
  split
  case isTrue pending => simp [FreesSlot, BceVhciUrb.started, pending]
  case isFalse begun =>
    split
    case isTrue control => simp [FreesSlot, control]
    case isFalse data =>
      split
      case isTrue waiting => split <;> simp [FreesSlot, waiting]
      case isFalse other => simp [FreesSlot, BceVhciUrb.started, begun, data, other, live]

/-- What a cancel leaves is linked in the same order, and a slot is free again if the URB gives it back. -/
theorem urbRequestCancel_slots (q : BceVhciTransferQueue) (id : Nat) (status : Int) :
    (((q.urbRequestCancel id status).2 = q ∧ ∀ u ∈ q.urbList.find? (fun u => u.id = id), ¬FreesSlot u) ∨
      ∃ before u after, q.urbList = before ++ u :: after ∧ q.urbList.find? (fun u => u.id = id) = some u ∧
        (q.urbRequestCancel id status).2.urbList = before ++ after ∧
        (q.urbRequestCancel id status).2.remainingActiveRequests =
          if FreesSlot u then q.remainingActiveRequests + 1 else q.remainingActiveRequests) := by
  unfold urbRequestCancel
  cases found : q.urbList.find? fun u => u.id = id with
  | none => exact .inl ⟨rfl, fun _ absent => absurd absent (Option.not_mem_none _)⟩
  | some u =>
    simp only
    split
    case isTrue cancelled =>
      refine .inl ⟨rfl, fun v head => ?_⟩
      cases Option.some.inj head
      exact fun frees => frees.2.2.2 cancelled
    case isFalse live =>
      obtain ⟨here, before, after, linked, first⟩ := List.find?_eq_some_iff_append.mp found
      have erased : q.urbList.eraseP (fun u => u.id = id) = before ++ after := by
        rw [linked, List.eraseP_append_right _ (by simpa using first),
          List.eraseP_cons_of_pos (by simpa using here)]
      have remaining := cancelSlot_remaining u q live
      refine .inr ⟨before, u, after, linked, rfl, ?_⟩
      split <;> exact ⟨erased, remaining⟩

theorem urbRequestCancel_active (q : BceVhciTransferQueue) (id : Nat) (status : Int) :
    (q.urbRequestCancel id status).2.active = q.active := by
  have slot : ∀ u, (q.cancelSlot u).active = q.active := by
    intro u
    obtain ⟨_, _, _, cancelled⟩ := q.cancelSlot_eq u
    rw [cancelled]
  rcases q.urbRequestCancel_cases id status with ⟨e, eq⟩ | eq | ⟨before, u, after, -, -, ⟨eq, -⟩ | eq⟩
  · rw [eq]
  · rw [eq]
  · rw [eq]
    exact slot u
  · rw [eq]
    exact slot u

/-- A cancel keeps the order, and it leaves no slot idle if it frees none for an URB that is pending. -/
theorem urbRequestCancel_order (order : StartedFirst q.urbList) (id : Nat) (status : Int) :
    StartedFirst (q.urbRequestCancel id status).2.urbList ∧ (q.InOrder →
      ((q.urbRequestCancel id status).2.InOrder ↔
        ((∃ u ∈ q.urbList.find? fun u => u.id = id, FreesSlot u) → ∀ u ∈ q.urbList, u.started))) := by
  rcases q.urbRequestCancel_slots id status with ⟨same, none⟩ | ⟨before, u, after, linked, found, left, remaining⟩
  · rw [same]
    exact ⟨order, fun all => iff_of_true all fun ⟨u, found, frees⟩ => absurd frees (none u found)⟩
  · have kept : (before ++ after).Sublist q.urbList := by
      rw [linked]
      exact (List.sublist_cons_self u after).append_left before
    have order' : StartedFirst (q.urbRequestCancel id status).2.urbList := by
      rw [left]
      exact List.Pairwise.sublist kept order
    refine ⟨order', fun all => ?_⟩
    constructor
    · rintro ⟨-, busy⟩ ⟨v, found', frees⟩ w member
      cases Option.some.inj (found.symm.trans found')
      by_contra pending
      have apart : w ≠ u := fun same => pending (same ▸ frees.1)
      have member' : w ∈ before ++ after := by
        rw [linked] at member
        simpa [apart] using member
      have full := busy w (left ▸ member') (by simpa using pending)
      rw [remaining, if_pos frees] at full
      cases full
    · intro frees
      refine ⟨order', fun w member pending => ?_⟩
      rw [left] at member
      have member' : w ∈ q.urbList := kept.subset member
      have keeps : ¬FreesSlot u := fun gives => by
        rw [frees ⟨u, found, gives⟩ w member'] at pending
        cases pending
      rw [remaining, if_neg keeps]
      exact all.busy w member' pending

end BceVhciTransferQueue

namespace TransferRun

open BceVhciTransferQueue

variable {s t : TransferRun} {a : TransferStep}

/-- The step gives slots back and starts no URB that is pending: the cancel of an URB that gives its slot
back at once, and the section of the flush worker, which declares all slots free. -/
def FreesSlots (s : TransferRun) : TransferStep → Prop
  | .op (.cancel id _) => ∃ u ∈ s.q.urbList.find? fun u => u.id = id, FreesSlot u
  | .work => s.worker.head? = some .flushSection ∧ 0 < s.q.maxActiveRequests
  | _ => False

/-- No slot is given back in a way that passes over URBs that are pending on an active queue. -/
def StartsNext (s : TransferRun) (a : TransferStep) (_ : TransferRun) : Prop :=
  s.q.active → s.FreesSlots a → ∀ u ∈ s.q.urbList, u.started

/-- What is claimed of an active queue after a step: its URBs are started in order, and no slot idles. -/
def KeepsOrder (_ : TransferRun) (_ : TransferStep) (t : TransferRun) : Prop :=
  t.q.active → t.unlocked → t.q.InOrder

/-- What holds of every queue. -/
structure Orderly (s : TransferRun) : Prop where
  order : StartedFirst s.q.urbList
  inOrder : s.q.active → s.unlocked → s.q.InOrder

/-- The queue when all it reserves in order to receive is granted. -/
def granting : Machine TransferRun TransferStep :=
  machine.guard fun s a => ∀ call ∈ s.calls a, call.Received

/-- A step that changes no URB and frees no slot. -/
theorem quiet_orderly (orderly : s.Orderly) (same : s.q.Quiet t.q) (logs : s.SameLogs t) :
    StartedFirst t.q.urbList ∧ s.KeepsOrder a t := by
  refine ⟨by rw [same.urbList]; exact orderly.order, fun active free => ?_⟩
  have before := orderly.inOrder (same.active active) (logs.handling.symm.trans free)
  refine ⟨by rw [same.urbList]; exact before.order, fun u member pending => ?_⟩
  rw [same.urbList] at member
  rw [same.remaining]
  exact before.busy u member pending

theorem opStep_orderly {op : TransferOp} (orderly : s.Orderly) (received : ∀ call ∈ s.calls (.op op), call.Received)
    (run : s.opStep op = some t) :
    StartedFirst t.q.urbList ∧ (s.KeepsOrder (.op op) t ↔ s.StartsNext (.op op) t) := by
  cases op with
  | create urb allocated link =>
    obtain ⟨⟨free, -⟩, after⟩ := Option.ite_none_right_eq_some.mp run
    cases after
    obtain ⟨order, all⟩ := urbCreate_order orderly.order (fun active => orderly.inOrder active free) urb allocated
      link received
    rw [KeepsOrder, created_q]
    exact ⟨order, iff_of_true (fun active _ => all active) fun _ frees => frees.elim⟩
  | cancel id status =>
    obtain ⟨free, after⟩ := Option.ite_none_right_eq_some.mp run
    cases after
    obtain ⟨order, iff⟩ := urbRequestCancel_order orderly.order id status
    have active := urbRequestCancel_active s.q id status
    have free' : (s.afterCancel id (s.q.urbRequestCancel id status)).unlocked := by
      unfold afterCancel
      split <;> exact free
    rw [KeepsOrder, afterCancel_q]
    refine ⟨order, ?_⟩
    rw [active]
    refine forall_congr' fun live => ?_
    exact (forall_prop_of_true free').trans (iff (orderly.inOrder live free))
  | event msg allocated =>
    obtain ⟨-, after⟩ := Option.ite_none_right_eq_some.mp run
    cases after
    obtain ⟨order, all⟩ := event_order orderly.order msg allocated received
    exact ⟨order, iff_of_true (fun active _ => all active) fun _ frees => frees.elim⟩
  | completion out c =>
    obtain ⟨-, after⟩ := Option.ite_none_right_eq_some.mp run
    cases after
    refine ⟨completion_order orderly.order out c received, iff_of_true (fun _ free => ?_) fun _ frees => frees.elim⟩
    cases free
  | completionEnd =>
    cases Option.some.inj run
    have all := deliverPending_inOrder orderly.order received
    exact ⟨all.order, iff_of_true (fun _ _ => all) fun _ frees => frees.elim⟩

/-- The section of the flush worker. -/
theorem flushed_orderly (orderly : s.Orderly) (rest : List WorkCall) (free : s.unlocked)
    (ahead : s.worker = .flushSection :: rest) (after : t = { s with q := s.q.flushSection, worker := rest }) :
    StartedFirst t.q.urbList ∧ (s.KeepsOrder .work t ↔ s.StartsNext .work t) := by
  cases after
  refine ⟨orderly.order, ?_⟩
  constructor
  · rintro all active ⟨-, positive⟩ u member
    by_contra pending
    have full : s.q.maxActiveRequests = 0 := (all active free).busy u member (by simpa using pending)
    omega
  · intro next active _
    refine ⟨orderly.order, fun u member pending => ?_⟩
    show s.q.maxActiveRequests = 0
    by_contra positive
    have begun := next active ⟨by simp [ahead], Nat.pos_of_ne_zero positive⟩ u member
    rw [begun] at pending
    cases pending

theorem effect_orderly (orderly : s.Orderly) (received : ∀ call ∈ s.calls a, call.Received) (effect : Effect s a t)
    (noOp : ∀ op, a ≠ .op op) (noWork : a ≠ .work) : StartedFirst t.q.urbList ∧ s.KeepsOrder a t := by
  cases effect with
  | op op label _ => exact absurd label (noOp op)
  | giveback urb rest label first free after =>
    subst after
    exact ⟨orderly.order, fun active free => ⟨orderly.order, (orderly.inOrder active free).busy⟩⟩
  | resumed env onWorker src label held free after =>
    subst label after
    have calls : s.calls (.advance env) = s.q.resumeSectionCalls := by simp [calls, held]
    have all := resumeSection_inOrder orderly.order (by rw [← calls]; exact received)
    exact ⟨all.order, fun _ _ => all⟩
  | flushed rest label ahead free after => exact absurd label noWork
  | cancelledAll label free after =>
    subst after
    have none : (cancelAll s.q).urbList = [] := (cancelLoop_same s.q.urbList { s.q with active := false }).1
    have all : (cancelAll s.q).InOrder := inOrder_of_started (by rw [none]; exact List.forall_mem_nil _)
    exact ⟨all.order, fun _ _ => all⟩
  | spliced label stage free after =>
    subst after
    exact ⟨orderly.order, fun active free => ⟨orderly.order, (orderly.inOrder active free).busy⟩⟩
  | quiet same logs => exact quiet_orderly orderly same logs

theorem step_orderly (orderly : s.Orderly) (received : ∀ call ∈ s.calls a, call.Received)
    (run : s.step a = some t) :
    StartedFirst t.q.urbList ∧ (s.KeepsOrder a t ↔ s.StartsNext a t) := by
  have effect := step_effect run
  have run := (Option.ite_none_left_eq_some.mp run).2
  have idle : ¬s.FreesSlots a → StartedFirst t.q.urbList ∧ s.KeepsOrder a t →
      StartedFirst t.q.urbList ∧ (s.KeepsOrder a t ↔ s.StartsNext a t) := by
    intro none held
    exact ⟨held.1, iff_of_true held.2 fun _ frees => absurd frees none⟩
  cases a with
  | op op => exact opStep_orderly orderly received run
  | work =>
    have run : s.workStep = some t := run
    by_cases ahead : s.worker.head? = some .flushSection
    · obtain ⟨rest, worker⟩ := List.head?_eq_some_iff.mp ahead
      unfold workStep at run
      rw [worker] at run
      obtain ⟨free, after⟩ := Option.ite_none_right_eq_some.mp run
      exact flushed_orderly orderly rest free worker (Option.some.inj after).symm
    · rcases workStep_cases run with ⟨rest, worker, -⟩ | ⟨same, logs⟩
      · exact absurd (by rw [worker]; rfl) ahead
      · exact idle (fun frees => ahead frees.1) (quiet_orderly orderly same logs)
  | _ => exact idle id (effect_orderly orderly received effect nofun nofun)

/-- In every run of a queue that is granted what it reserves to receive, its URBs are started in order and
no slot idles while one is pending, if and only if no step on the way passes slots over pending URBs. -/
theorem keepsOrder_iff (begins : granting.init s) (steps : List TransferStep) :
    granting.Along KeepsOrder s steps ↔ granting.Along StartsNext s steps := by
  have held : s.Orderly := by
    obtain ⟨endp, devAddr, memory, reservations, q, create, rfl⟩ := begins
    have none : q.urbList = [] := (createTransferQueue_unused create).urbList
    have all : q.InOrder := inOrder_of_started (by rw [none]; exact List.forall_mem_nil _)
    exact ⟨all.order, fun _ _ => all⟩
  refine Machine.along_iff (I := Orderly) ?_ ?_ held steps
  · intro s a t orderly keeps run
    obtain ⟨received, run⟩ := Option.ite_none_right_eq_some.mp run
    exact ⟨(step_orderly orderly received run).1, keeps⟩
  · intro s a t orderly run
    obtain ⟨received, run⟩ := Option.ite_none_right_eq_some.mp run
    exact (step_orderly orderly received run).2

def intOut : UsbEndpoint := ⟨0x02, .int, 8⟩

def intOutFresh : TransferRun :=
  fresh ((bceVhciCreateTransferQueue intOut 1 .toDevice ⟨true, true, true⟩ []).get rfl)

theorem intOutFresh_init : granting.init intOutFresh :=
  ⟨intOut, 1, ⟨true, true, true⟩, [], _, rfl, rfl⟩

/-- Two URBs for one slot, of which the first is cancelled. -/
def cancelSteps : List TransferStep :=
  [.op (.create (sampleUrb 1 false) true none), .op (.create (sampleUrb 2 false) true none),
    .op (.cancel 1 Errno.connreset.neg)]

theorem keepsOrder_iff_int : (∃ t, granting.run intOutFresh cancelSteps = some t) ∧
    (granting.Along KeepsOrder intOutFresh cancelSteps ↔ granting.Along StartsNext intOutFresh cancelSteps) :=
  ⟨Option.isSome_iff_exists.mp (by decide), keepsOrder_iff intOutFresh_init cancelSteps⟩

/-- The cancel gives the only slot back and does not start the URB that is pending. -/
theorem cancel_leaves_slot_idle : ¬∀ s steps, granting.init s → granting.Along KeepsOrder s steps := by
  intro all
  have ran : (granting.run intOutFresh cancelSteps).map (fun t => decide (t.q.active ∧ t.unlocked ∧
      ∃ u ∈ t.q.urbList, u.started = false ∧ t.q.remainingActiveRequests ≠ 0)) = some true := by decide
  obtain ⟨t, ran, seen⟩ := Option.map_eq_some_iff.mp ran
  obtain ⟨active, free, u, member, pending, idle⟩ := of_decide_eq_true seen
  obtain ⟨_, keeps⟩ := Machine.Along.last [_, _] (all intOutFresh cancelSteps intOutFresh_init) ran
  exact idle ((keeps active free).busy u member pending)

end TransferRun

end AppleBce

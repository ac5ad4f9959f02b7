import AppleBce.Vhci.Linked
import AppleBce.Vhci.LoopRules
import AppleBce.Vhci.UrbCalls

namespace AppleBce

open Basis

/-- The `TRANSFER_REQUEST`s among messages. -/
def requests (msgs : List BceVhciMessage) : List BceVhciMessage :=
  msgs.filter fun msg => msg.cmd = BceVhciCommand.transferRequest.code

@[simp] theorem requests_nil : requests [] = [] := rfl

@[simp] theorem requests_append (msgs more : List BceVhciMessage) :
    requests (msgs ++ more) = requests msgs ++ requests more :=
  List.filter_append ..

theorem requests_cons (msg : BceVhciMessage) (msgs : List BceVhciMessage) :
    requests (msg :: msgs) = requests [msg] ++ requests msgs :=
  requests_append [msg] msgs

theorem requests_request {msg : BceVhciMessage} (request : msg.cmd = BceVhciCommand.transferRequest.code) :
    requests [msg] = [msg] := by
  simp [requests, request]

theorem requests_other {msg : BceVhciMessage} (other : msg.cmd ≠ BceVhciCommand.transferRequest.code) :
    requests [msg] = [] := by
  simp [requests, other]

namespace BceVhciUrb

open BceVhciTransferQueue

variable {u : BceVhciUrb} {q r : BceVhciTransferQueue} {msg : BceVhciMessage}

/-- With room on `sq_out` nothing that is sent fails. -/
theorem sendOutData_room {fifo : BoundedFifo UrbSubmission} (present : q.sqOut = some fifo)
    (room : fifo.items.length + fifo.reserved < fifo.capacity) (addr size : BitVec 64) :
    (u.sendOutData addr size q).1 = none := by
  rcases u.sendOutData_cases addr size q with ⟨missing, -⟩ | ⟨other, present', full, -⟩ | ⟨_, _, -, -, eq⟩
  · rw [present] at missing
    cases missing
  · cases present.symm.trans present'
    have none := BoundedFifo.available_of_submit_none full
    simp only [BoundedFifo.available] at none
    omega
  · rw [eq]

theorem dataUpdate_room {fifo : BoundedFifo UrbSubmission} (present : q.sqOut = some fifo)
    (room : fifo.items.length + fifo.reserved < fifo.capacity) : (u.dataUpdate msg q).ret ≠ some .pipe := by
  unfold dataUpdate
  split
  case isFalse => nofun
  case isTrue =>
    simp only
    generalize (if u.urb.transferBufferLength - u.sendOffset ≤ BitVec.setWidth 32 msg.param2 then
      u.urb.transferBufferLength - u.sendOffset else BitVec.setWidth 32 msg.param2) = trLen
    have sent := sendOutData_room (u := u) present room (u.urb.transferDma + u.sendOffset.setWidth 64)
      (trLen.setWidth 64)
    split
    · rename_i run
      rw [run] at sent
      cases sent
    · nofun

/-- A request that is answered on `sq_out` is taken, and one that is not is refused. -/
theorem update_sent (sent : CalledUrb.Sent ⟨.update msg, u, q⟩) :
    (q.SqKept (u.update msg q).q ∧
      (msg.cmd = BceVhciCommand.transferRequest.code → (u.update msg q).ret = some .again)) ∨
    (msg.cmd = BceVhciCommand.transferRequest.code ∧ (u.update msg q).ret ≠ some .again ∧
      ∃ x, Submits true x q (u.update msg q).q) := by
  have data : (q.SqKept (u.dataUpdate msg q).q ∧ (u.dataUpdate msg q).ret = some .again) ∨
      (msg.cmd = BceVhciCommand.transferRequest.code ∧ (u.dataUpdate msg q).ret = none ∧
        ∃ x, Submits true x q (u.dataUpdate msg q).q) := by
    rcases u.dataUpdate_uses msg q with ⟨-, eq⟩ | ⟨waits, request, -, failed, -⟩ |
      ⟨-, request, taken, x, -, -, submits, -⟩
    · rw [eq]
      exact .inl ⟨.refl q, rfl⟩
    · obtain ⟨fifo, present, room⟩ := sent ⟨request, .inl waits⟩
      exact absurd failed (dataUpdate_room present room)
    · exact .inr ⟨request, taken, x, submits⟩
  unfold update
  split
  · exact .inl ⟨.refl q, fun _ => rfl⟩
  · split
    case isFalse =>
      refine data.imp (fun same => ⟨same.1, fun _ => same.2⟩) ?_
      rintro ⟨request, taken, submits⟩
      exact ⟨request, by rw [taken]; nofun, submits⟩
    case isTrue control =>
      unfold controlUpdate
      split
      case isTrue status =>
        refine .inl ⟨(controlCheckStatus_uses _ q).1, fun request => ?_⟩
        rw [status] at request
        exact absurd request (by decide)
      case isFalse =>
        split
        case isTrue setup =>
          obtain ⟨fifo, present, room⟩ := sent ⟨setup.2, .inr ⟨control, setup.1⟩⟩
          have done := sendOutData_room (u := u) present room u.urb.setupDma usbCtrlrequestSize
          rcases u.sendOutData_uses u.urb.setupDma usbCtrlrequestSize q with ⟨-, failed⟩ | ⟨submits, -⟩
          · rw [done] at failed
            cases failed
          · split
            · rename_i run
              rw [run] at done
              cases done
            · rename_i run
              rw [run] at submits
              exact .inr ⟨setup.2, nofun, _, submits⟩
        case isFalse =>
          split
          case isFalse => exact .inl ⟨.refl q, fun _ => rfl⟩
          case isTrue =>
            unfold UrbCall.andThen
            rcases data with ⟨kept, again⟩ | ⟨request, taken, x, submits⟩
            · rw [again]
              exact .inl ⟨kept, fun _ => again⟩
            · split
              case h_1 v _ _ =>
                obtain ⟨kept, checked⟩ := v.controlCheckStatus_uses (u.dataUpdate msg q).q
                refine .inr ⟨request, ?_, x, submits.kept kept⟩
                rcases checked with eq | ⟨gone, -⟩
                · rw [eq]
                  nofun
                · rw [gone]
                  nofun
              case h_2 => exact .inr ⟨request, by rw [taken]; nofun, x, submits⟩

end BceVhciUrb

namespace BceVhciTransferQueue

/-- The messages that calls answer, with the submissions they lead to. -/
def answers (calls : List CalledUrb) : List (BceVhciMessage × UrbSubmission) :=
  calls.flatMap CalledUrb.answers

/-- Going from `q` with the messages `msgs` to `r` with `left`, the requests that are not left were
answered in order, and the answers are what was submitted on `sq_out`. -/
structure Answers (calls : List CalledUrb) (msgs left : List BceVhciMessage) (q r : BceVhciTransferQueue) :
    Prop where
  consumed : (answers calls).map Prod.fst ++ requests left = requests msgs
  submitted : r.outstanding true = q.outstanding true ++ (answers calls).map Prod.snd

variable {q r s : BceVhciTransferQueue} {u : BceVhciUrb} {rest : List BceVhciUrb} {msg : BceVhciMessage}
  {msgs left more : List BceVhciMessage} {calls later : List CalledUrb}

theorem Answers.nothing (same : r.outstanding true = q.outstanding true) (silent : answers calls = []) :
    Answers calls msgs msgs q r :=
  ⟨by simp [silent], by simp [silent, same]⟩

theorem Answers.trans (first : Answers calls msgs left q r) (second : Answers later left more r s) :
    Answers (calls ++ later) msgs more q s where
  consumed := by
    rw [answers, List.flatMap_append, List.map_append, List.append_assoc]
    exact (congrArg _ second.consumed).trans first.consumed
  submitted := by
    rw [answers, List.flatMap_append, List.map_append, ← List.append_assoc, second.submitted, first.submitted]
    rfl

theorem Answers.behind (all : Answers calls msgs left q r) (more : List BceVhciMessage) :
    Answers calls (msgs ++ more) (left ++ more) q r where
  consumed := by
    rw [requests_append, requests_append, ← List.append_assoc, all.consumed]
  submitted := all.submitted

theorem answers_update_kept (kept : q.SqKept (u.update msg q).q) :
    answers [⟨.update msg, u, q⟩] = [] := by
  simp [answers, CalledUrb.answers, CalledUrb.submissions, CalledUrb.result, kept.outstanding true]

theorem answers_update_submits {x : UrbSubmission} (submits : Submits true x q (u.update msg q).q) :
    answers [⟨.update msg, u, q⟩] = [(msg, x)] := by
  simp [answers, CalledUrb.answers, CalledUrb.submissions, CalledUrb.result, submits.outstanding]

/-- One message for the URB at the head: it is left if the URB refuses it. -/
theorem update_answers (sent : CalledUrb.Sent ⟨.update msg, u, q⟩) (rest : List BceVhciUrb)
    (msgs : List BceVhciMessage) :
    Answers [⟨.update msg, u, q⟩] (msg :: msgs)
      (if (u.update msg q).ret = some .again then msg :: msgs else msgs) q (afterUrb [] rest (u.update msg q)) := by
  rcases u.update_sent sent with ⟨kept, refused⟩ | ⟨request, taken, x, submits⟩
  · have silent := answers_update_kept kept
    have same : (afterUrb [] rest (u.update msg q)).outstanding true = q.outstanding true := kept.outstanding true
    split
    · exact .nothing same silent
    · rename_i taken
      have other : msg.cmd ≠ BceVhciCommand.transferRequest.code := fun request => taken (refused request)
      refine ⟨?_, by rw [same, silent]; simp⟩
      rw [silent, requests_cons msg msgs, requests_other other]
      rfl
  · rw [if_neg taken]
    refine ⟨?_, ?_⟩
    · rw [answers_update_submits submits, requests_cons msg msgs, requests_request request]
      rfl
    · rw [answers_update_submits submits]
      exact submits.outstanding

theorem answers_initCalls (rest : List BceVhciUrb) (q : BceVhciTransferQueue) :
    answers (initCalls rest q) = [] := by
  induction rest generalizing q with
  | nil => rfl
  | cons urb rest ih =>
    rw [initCalls]
    split
    · rfl
    · split
      · exact ih _
      · exact ih _

theorem initPendingUrbs_answers (msgs : List BceVhciMessage) (q : BceVhciTransferQueue) :
    Answers q.initPendingCalls msgs msgs q q.initPendingUrbs ∧ q.initPendingUrbs.evq = q.evq := by
  have same : q.initPendingUrbs.outstanding true = q.outstanding true ∧ q.initPendingUrbs.evq = q.evq := by
    refine initLoop_invariant (I := fun r => r.outstanding true = q.outstanding true ∧ r.evq = q.evq) ?_
      [] q.urbList q ⟨rfl, rfl⟩
    intro done u rest r _ held
    have sqOut : (afterUrb done rest (u.init r)).outstanding true = r.outstanding true :=
      outstanding_of_sq (u.init_sqOut r)
    exact ⟨sqOut.trans held.1, (u.init_frame r).1.evq.trans held.2⟩
  exact ⟨.nothing same.1 (answers_initCalls q.urbList q), same.2⟩

theorem deliverLoop_answers (msgs : List BceVhciMessage) (q : BceVhciTransferQueue)
    (sent : ∀ call ∈ deliverCalls msgs q, call.Sent) :
    Answers (deliverCalls msgs q) msgs (deliverLoop msgs q).evq q (deliverLoop msgs q) := by
  induction msgs generalizing q with
  | nil => exact ⟨by simp [deliverCalls, answers, deliverLoop], by simp [deliverCalls, answers]; rfl⟩
  | cons msg msgs ih =>
    cases linked : q.urbList with
    | nil =>
      simp only [deliverCalls, deliverLoop, linked]
      exact .nothing rfl rfl
    | cons urb rest =>
      simp only [deliverCalls, deliverLoop, linked] at sent ⊢
      have first := update_answers (sent _ (List.mem_cons_self ..)) rest msgs
      split
      case isTrue refused =>
        rw [if_pos refused] at first
        exact ⟨first.consumed, first.submitted⟩
      case isFalse taken =>
        rw [if_neg taken] at first sent
        exact first.trans (ih _ fun call later => sent call (List.mem_cons_of_mem _ later))

theorem deliverPending_answers (sent : ∀ call ∈ q.deliverPendingCalls, call.Sent) :
    Answers q.deliverPendingCalls q.evq q.deliverPending.evq q q.deliverPending := by
  have delivered := deliverLoop_answers q.evq q fun call member => sent call (List.mem_append_left _ member)
  obtain ⟨started, evq⟩ := initPendingUrbs_answers (deliverLoop q.evq q).evq (deliverLoop q.evq q)
  have all := delivered.trans started
  rwa [← evq] at all

/-- A message is answered, or deferred behind the others. -/
theorem eventDelivered_answers (msg : BceVhciMessage) (sent : ∀ call ∈ q.eventDeliveredCalls msg, call.Sent) :
    Answers (q.eventDeliveredCalls msg) (q.evq ++ [msg]) (q.eventDelivered msg true).evq q
      (q.eventDelivered msg true) := by
  unfold eventDeliveredCalls at sent ⊢
  unfold eventDelivered
  split
  case isTrue => exact .nothing rfl rfl
  case isFalse first =>
    rw [if_neg first] at sent
    cases linked : q.urbList with
    | nil =>
      have other : msg.cmd ≠ BceVhciCommand.transferRequest.code := fun request => first ⟨request, .inr linked⟩
      simp only
      exact ⟨by simp [answers, requests_other other], by simp [answers]⟩
    | cons urb rest =>
      simp only [linked] at sent ⊢
      have here := update_answers (sent _ (List.mem_cons_self ..)) rest []
      -- A request is offered only with nothing deferred, and of any other message nothing is answered.
      have behind : ∀ left, (answers [⟨.update msg, urb, q⟩]).map Prod.fst ++ requests left = requests [msg] →
          (answers [⟨.update msg, urb, q⟩]).map Prod.fst ++ requests (q.evq ++ left) =
            requests (q.evq ++ [msg]) := by
        intro left all
        by_cases request : msg.cmd = BceVhciCommand.transferRequest.code
        · have empty : q.evq = [] := by
            by_contra nonempty
            exact first ⟨request, .inl nonempty⟩
          rw [empty]
          exact all
        · rw [requests_other request, List.append_eq_nil_iff] at all
          rw [all.1, requests_append, requests_append, all.2, requests_other request]
          rfl
      split
      case isTrue refused =>
        rw [if_pos refused] at here
        have evq : (urb.update msg q).q.evq = q.evq := (urb.update_fits msg q).frame.evq
        refine ⟨?_, here.submitted⟩
        have deferred : ((afterUrb [] rest (urb.update msg q)).deferEvent msg true).evq = q.evq ++ [msg] := by
          rw [← evq]
          rfl
        rw [deferred]
        exact behind [msg] here.consumed
      case isFalse taken =>
        rw [if_neg taken] at here sent
        have evq : (afterUrb [] rest (urb.update msg q)).evq = q.evq := (urb.update_fits msg q).frame.evq
        obtain ⟨started, same⟩ := initPendingUrbs_answers q.evq (afterUrb [] rest (urb.update msg q))
        rw [same, evq]
        have consumed := behind [] here.consumed
        rw [List.append_nil] at consumed
        have taken : Answers [⟨.update msg, urb, q⟩] (q.evq ++ [msg]) q.evq q
            (afterUrb [] rest (urb.update msg q)) := ⟨consumed, here.submitted⟩
        exact taken.trans started

/-- What an event of the T2 leaves to be answered: a request that is not dropped. -/
def arrival (q : BceVhciTransferQueue) (msg : BceVhciMessage) : List BceVhciMessage :=
  if msg.cmd = BceVhciCommand.transferRequest.code ∧ (q.active ∨ q.endpAddr = 0 ∧ q.pausedInternally) then [msg]
  else []

theorem event_answers (msg : BceVhciMessage) (sent : ∀ call ∈ q.eventCalls msg, call.Sent) :
    Answers (q.eventCalls msg) (q.evq ++ q.arrival msg) (q.event msg true).evq q (q.event msg true) := by
  unfold eventCalls at sent ⊢
  unfold event
  by_cases active : q.active
  · rw [if_neg (not_not.mpr active)] at sent ⊢
    rw [if_neg (not_not.mpr active)]
    have delivered := deliverPending_answers fun call member => sent call (List.mem_append_left _ member)
    have taken := eventDelivered_answers msg fun call member => sent call (List.mem_append_right _ member)
    have all := (delivered.behind [msg]).trans taken
    have same : requests (q.arrival msg) = requests [msg] := by
      by_cases request : msg.cmd = BceVhciCommand.transferRequest.code
      · rw [arrival, if_pos ⟨request, .inl active⟩]
      · rw [arrival, if_neg fun arrives => request arrives.1, requests_other request, requests_nil]
    refine ⟨?_, all.submitted⟩
    rw [requests_append, same, ← requests_append]
    exact all.consumed
  · rw [if_pos active, if_pos active]
    have same : q.arrival msg =
        if msg.cmd = BceVhciCommand.transferRequest.code ∧ q.endpAddr = 0 ∧ q.pausedInternally then [msg]
        else [] := by
      simp [arrival, active]
    rw [same]
    split
    · exact .nothing rfl rfl
    · rw [List.append_nil]
      exact .nothing rfl rfl

theorem resumeLoop_answers (msgs : List BceVhciMessage) (done rest : List BceVhciUrb) (q : BceVhciTransferQueue) :
    Answers (resumeLoopCalls rest q) msgs msgs q (resumeLoop done rest q) ∧
      (resumeLoop done rest q).evq = q.evq := by
  induction rest generalizing done q with
  | nil => exact ⟨.nothing rfl rfl, rfl⟩
  | cons urb rest ih =>
    unfold resumeLoopCalls resumeLoop
    split
    · split
      · exact ⟨.nothing rfl rfl, rfl⟩
      · obtain ⟨all, evq⟩ := ih (done ++ (urb.init q).urb.toList) (urb.init q).q
        have first : Answers [⟨.init, urb, q⟩] msgs msgs q (urb.init q).q :=
          .nothing (outstanding_of_sq (urb.init_sqOut q)) rfl
        exact ⟨first.trans all, evq.trans (urb.init_frame q).1.evq⟩
    · obtain ⟨all, evq⟩ := ih (done ++ (urb.resume q).urb.toList) (urb.resume q).q
      have same : (urb.resume q).q.sqOut = q.sqOut := by
        rcases urb.resume_uses q with ⟨-, eq⟩ | ⟨-, refuses, -⟩ | ⟨-, submits, -⟩
        · rw [eq]
        · exact refuses.sqOut
        · exact submits.other
      have first : Answers [⟨.resume, urb, q⟩] msgs msgs q (urb.resume q).q :=
        .nothing (outstanding_of_sq same) rfl
      exact ⟨first.trans all, evq.trans (urb.resume_fits q).frame.evq⟩

theorem resumeSection_answers (sent : ∀ call ∈ q.resumeSectionCalls, call.Sent) :
    Answers q.resumeSectionCalls q.evq q.resumeSection.evq q q.resumeSection := by
  obtain ⟨resumed, evq⟩ := resumeLoop_answers q.evq [] q.urbList { q with active := true }
  have delivered := deliverPending_answers (q := resumeLoop [] q.urbList { q with active := true })
    fun call member => sent call (List.mem_append_right _ member)
  rw [evq] at delivered
  exact Answers.trans (q := q) ⟨resumed.consumed, resumed.submitted⟩ delivered

theorem create_answers (urb : Urb) (allocated : Bool) (link : Option Errno)
    (sent : ∀ call ∈ q.createCalls urb allocated link, call.Sent) :
    Answers (q.createCalls urb allocated link) q.evq (q.urbCreate urb allocated link).2.evq q
      (q.urbCreate urb allocated link).2 := by
  have linked : ∀ r : BceVhciTransferQueue, r.evq = q.evq → r.outstanding true = q.outstanding true →
      (∀ call ∈ r.deliverPendingCalls, call.Sent) →
        Answers r.deliverPendingCalls q.evq r.deliverPending.evq q r.deliverPending := by
    intro r evq same sent
    have delivered := deliverPending_answers sent
    rw [evq] at delivered
    exact ⟨delivered.consumed, by rw [delivered.submitted, same]⟩
  cases allocated with
  | false => exact .nothing rfl rfl
  | true =>
    cases link with
    | some e => exact .nothing rfl rfl
    | none =>
      unfold createCalls at sent ⊢
      unfold urbCreate
      simp only [not_true, ne_eq, or_self, ↓reduceIte] at sent ⊢
      split
      case isTrue active =>
        rw [if_pos active] at sent
        split
        case isTrue slots =>
          rw [if_pos slots] at sent
          have evq : ((q.newUrb urb).init q).q.evq = q.evq := ((q.newUrb urb).init_frame q).1.evq
          have same : ((q.newUrb urb).init q).q.outstanding true = q.outstanding true :=
            outstanding_of_sq ((q.newUrb urb).init_sqOut q)
          cases begun : ((q.newUrb urb).init q).ret with
          | some e =>
            simp only [evq]
            exact .nothing same rfl
          | none =>
            simp only [begun] at sent ⊢
            have first : Answers [⟨.init, q.newUrb urb, q⟩] q.evq q.evq q q := .nothing rfl rfl
            exact first.trans (linked _ evq same fun call member => sent call (List.mem_cons_of_mem _ member))
        case isFalse full =>
          rw [if_neg full] at sent
          exact linked _ rfl rfl sent
      case isFalse inactive =>
        rw [if_neg inactive] at sent
        obtain ⟨wReset, wResume, requested⟩ := q.requestReactivation_eq
        rw [requested] at sent ⊢
        exact linked _ rfl rfl sent

/-- What a round of the completion handler leaves on `sq_out`. -/
def outLeft (q : BceVhciTransferQueue) : TransferOp → List UrbSubmission
  | .completion true _ => (q.outstanding true).tail
  | _ => q.outstanding true

/-- No message is delivered in a round. -/
theorem completion_answers (out : Bool) (c : BceSqCompletionData) :
    answers (q.completionCalls out c) = [] ∧ (q.completion out c).evq = q.evq ∧
      (q.completion out c).outstanding true = q.outLeft (.completion out c) := by
  have body : answers (q.completionCalls out c) = [] ∧ (q.completionBody out c).evq = q.evq ∧
      (q.completionBody out c).sqOut = q.sqOut := by
    unfold completionCalls completionBody
    split
    · exact ⟨rfl, rfl, rfl⟩
    · split
      · refine ⟨answers_initCalls _ _, ?_⟩
        refine initLoop_invariant (I := fun r => r.evq = q.evq ∧ r.sqOut = q.sqOut) ?_ [] _ _
          (by cases out <;> exact ⟨rfl, rfl⟩)
        intro done u rest r _ held
        exact ⟨(u.init_frame r).1.evq.trans held.1, (u.init_sqOut r).trans held.2⟩
      · cases linked : q.urbList with
        | nil => exact ⟨rfl, rfl, rfl⟩
        | cons urb rest =>
          simp only
          split
          · exact ⟨rfl, rfl, rfl⟩
          · refine ⟨rfl, (urb.transferCompletion_fits c q).frame.evq, ?_⟩
            exact urb.transferCompletion_sqOut c q
  have accounted : ((q.completionBody out c).outputDone out).evq = q.evq ∧
      ((q.completionBody out c).outputDone out).sqOut = q.sqOut := by
    obtain ⟨pending, wakeups, counted⟩ := (q.completionBody out c).outputDone_eq out
    rw [counted]
    exact body.2
  refine ⟨body.1, ?_, ?_⟩
  · obtain ⟨_, _, _, _, ended⟩ := q.completion_eq out c
    rw [ended]
    exact body.2.1
  · unfold completion notifySubmissionComplete
    cases out with
    | true =>
      simp only [sq, accounted.2, outLeft, outstanding]
      cases present : q.sqOut with
      | none => simp [accounted.2, present]
      | some fifo => simp [setSq, BoundedFifo.pop]
    | false =>
      simp only [sq, outLeft, outstanding]
      cases ((q.completionBody false c).outputDone false).sqIn with
      | none => simp only [accounted.2]
      | some fifo => simp only [setSq, accounted.2]

end BceVhciTransferQueue

namespace TransferRun

open BceVhciTransferQueue

variable {s t : TransferRun} {a : TransferStep}

/-- The step is one of those that empty `evq`: `bce_vhci_transfer_queue_remove_pending` in a pause, a
reset or at the end of the teardown. -/
def Clears (s : TransferRun) : TransferStep → Prop
  | .advance _ =>
    match s.holder with
    | some (_, .removePending _) | some (_, .resetRemove) => True
    | _ => False
  | .destroy => s.teardown = .spliced
  | _ => False

instance (s : TransferRun) (a : TransferStep) : Decidable (s.Clears a) := by
  unfold Clears
  split
  · split <;> infer_instance
  · infer_instance
  · infer_instance

theorem lockStep_evq {onWorker : Bool} {call : PauseCall} (run : s.lockStep onWorker call = some t) :
    t.q.evq = s.q.evq := by
  cases call <;> simp only [lockStep] at run <;> repeat' split at run
  all_goals first | (cases Option.some.inj run; rfl) | cases run

theorem workStep_evq (run : s.workStep = some t) : t.q.evq = s.q.evq := by
  unfold workStep at run
  split at run
  case h_2 => exact lockStep_evq (Option.ite_none_right_eq_some.mp run).2
  all_goals repeat' split at run
  all_goals first | (cases Option.some.inj run; rfl) | cases run

theorem startWork_evq {item : WorkItem} (run : s.startWork item = some t) : t.q.evq = s.q.evq := by
  unfold startWork at run
  simp only at run
  repeat' split at run
  all_goals first | (cases Option.some.inj run; rfl) | cases run

theorem setStateAnswered_evq (q : BceVhciTransferQueue) (env : PauseEnv) :
    (q.setStateAnswered env).evq = q.evq := by
  unfold setStateAnswered
  split <;> rfl

/-- The request a step brings, if the queue does not drop it. -/
def arrivals (s : TransferRun) : TransferStep → List BceVhciMessage
  | .op (.event msg _) => s.q.arrival msg
  | _ => []

/-- Of the other steps only a resume delivers messages. -/
theorem step_evq (kept : ¬s.Clears a) (run : s.step a = some t) :
    (t.q.evq = s.q.evq ∧ s.calls a = [] ∧ ∀ op, a ≠ .op op) ∨ (∃ op, a = .op op) ∨
      ∃ env onWorker src, a = .advance env ∧ s.holder = some (onWorker, .resumeSection src) := by
  by_cases operation : ∃ op, a = .op op
  · exact .inr (.inl operation)
  have other : ∀ op, a ≠ .op op := fun op same => operation ⟨op, same⟩
  unfold step at run
  obtain ⟨-, run⟩ := Option.ite_none_left_eq_some.mp run
  cases a with
  | op op => exact absurd rfl (other op)
  | giveback =>
    simp only at run
    split at run
    · cases run
    · obtain ⟨-, after⟩ := Option.ite_none_right_eq_some.mp run
      cases after
      exact .inl ⟨rfl, rfl, other⟩
  | queueFlush =>
    obtain ⟨-, after⟩ := Option.ite_none_right_eq_some.mp run
    cases after
    exact .inl ⟨rfl, rfl, other⟩
  | endpointReset =>
    cases Option.some.inj run
    exact .inl ⟨rfl, rfl, other⟩
  | cancelAll =>
    obtain ⟨-, after⟩ := Option.ite_none_right_eq_some.mp run
    cases after
    refine .inl ⟨?_, rfl, other⟩
    have same : ∀ (urbs : List BceVhciUrb) (q : BceVhciTransferQueue), (cancelLoop urbs q).evq = q.evq := by
      intro urbs
      induction urbs with
      | nil => exact fun _ => rfl
      | cons urb urbs ih => exact fun q => ih (urb.complete Errno.connreset.neg q)
    exact same s.q.urbList { s.q with active := false }
  | startWork item => exact .inl ⟨startWork_evq run, rfl, other⟩
  | work => exact .inl ⟨workStep_evq run, rfl, other⟩
  | lock call => exact .inl ⟨lockStep_evq (Option.ite_none_right_eq_some.mp run).2, rfl, other⟩
  | destroy =>
    refine .inl ⟨?_, rfl, other⟩
    have run : s.destroyStep = some t := run
    unfold destroyStep at run
    split at run
    case h_5 spliced => exact absurd spliced kept
    all_goals repeat' split at run
    all_goals first | (cases Option.some.inj run; rfl) | cases run
  | advance env =>
    simp only at run
    split at run
    · cases run
    · rename_i onWorker stage held
      cases stage with
      | resumeSection src => exact .inr (.inr ⟨env, onWorker, src, rfl, held⟩)
      | removePending src | resetRemove => exact absurd (by simp [Clears, held]) kept
      | _ =>
        refine .inl ⟨?_, by simp [calls, held], other⟩
        simp only [advanceStep] at run
        repeat' split at run
        all_goals first
          | (cases Option.some.inj run; rfl)
          | (cases Option.some.inj run; exact setStateAnswered_evq s.q env)
          | cases run

/-- The requests a step answers, with the submissions on `sq_out` they lead to. -/
def answered (s : TransferRun) (a : TransferStep) : List (BceVhciMessage × UrbSubmission) :=
  answers (s.calls a)

/-- An event that has to be deferred is. -/
def allocates : TransferStep → Bool
  | .op (.event _ allocated) => allocated
  | _ => true

/-- The step allocates what it defers, gets what it reserves on `sq_out`, and does not empty `evq`. -/
def KeepsRequests (s : TransferRun) (a : TransferStep) : Prop :=
  ¬s.Clears a ∧ allocates a ∧ ∀ call ∈ s.calls a, call.Sent

instance (s : TransferRun) (a : TransferStep) : Decidable (s.KeepsRequests a) :=
  inferInstanceAs (Decidable (_ ∧ _ ∧ _))

theorem requests_arrival (q : BceVhciTransferQueue) (msg : BceVhciMessage) :
    requests (q.arrival msg) = q.arrival msg := by
  unfold arrival
  split
  case isTrue arrives => exact requests_request arrives.1
  case isFalse => rfl

/-- What a step leaves on `sq_out` of what was there. -/
def outLeft (s : TransferRun) : TransferStep → List UrbSubmission
  | .op op => s.q.outLeft op
  | _ => s.q.outstanding true

theorem opStep_answers {op : TransferOp} (keeps : s.KeepsRequests (.op op)) (run : s.opStep op = some t) :
    (s.answered (.op op)).map Prod.fst ++ requests t.q.evq = requests s.q.evq ++ s.arrivals (.op op) ∧
      t.q.outstanding true = s.outLeft (.op op) ++ (s.answered (.op op)).map Prod.snd := by
  obtain ⟨-, allocated, sent⟩ := keeps
  have silent : ∀ xs : List BceVhciMessage, xs ++ [] = xs := List.append_nil
  cases op with
  | create urb ok link =>
    obtain ⟨-, after⟩ := Option.ite_none_right_eq_some.mp run
    cases after
    have all := create_answers urb ok link sent
    rw [created_q]
    exact ⟨all.consumed.trans (silent _).symm, all.submitted⟩
  | cancel id status =>
    obtain ⟨-, after⟩ := Option.ite_none_right_eq_some.mp run
    cases after
    rw [afterCancel_q]
    have same : (s.q.urbRequestCancel id status).2.evq = s.q.evq ∧
        (s.q.urbRequestCancel id status).2.sqOut = s.q.sqOut := by
      rcases s.q.urbRequestCancel_cases id status with ⟨e, eq⟩ | eq | ⟨before, vurb, after, -, -, eq⟩
      · rw [eq]
        exact ⟨rfl, rfl⟩
      · rw [eq]
        exact ⟨rfl, rfl⟩
      · have slot : (s.q.cancelSlot vurb).evq = s.q.evq ∧ (s.q.cancelSlot vurb).sqOut = s.q.sqOut := by
          obtain ⟨_, _, _, cancelled⟩ := s.q.cancelSlot_eq vurb
          rw [cancelled]
          exact ⟨rfl, rfl⟩
        rcases eq with ⟨eq, -⟩ | eq <;> rw [eq] <;> exact slot
    refine ⟨?_, ?_⟩
    · rw [same.1]
      exact (silent _).symm
    · rw [outstanding_of_sq (show (s.q.urbRequestCancel id status).2.sq true = s.q.sq true from same.2)]
      exact (List.append_nil _).symm
  | event msg ok =>
    obtain ⟨-, after⟩ := Option.ite_none_right_eq_some.mp run
    cases after
    have allocated : ok = true := allocated
    cases allocated
    have all := event_answers msg sent
    refine ⟨all.consumed.trans ?_, all.submitted⟩
    rw [requests_append, requests_arrival]
    rfl
  | completion out c =>
    obtain ⟨-, after⟩ := Option.ite_none_right_eq_some.mp run
    cases after
    obtain ⟨none, evq, left⟩ := s.q.completion_answers out c
    have none : s.answered (.op (.completion out c)) = [] := none
    rw [none]
    refine ⟨?_, left.trans (List.append_nil _).symm⟩
    rw [evq]
    exact (silent _).symm
  | completionEnd =>
    cases Option.some.inj run
    have all := deliverPending_answers sent
    exact ⟨all.consumed.trans (silent _).symm, all.submitted⟩

theorem resumed_answers {env : PauseEnv} {onWorker : Bool} {src : BceVhciPauseSource}
    (keeps : s.KeepsRequests (.advance env)) (held : s.holder = some (onWorker, .resumeSection src))
    (run : s.step (.advance env) = some t) :
    (s.answered (.advance env)).map Prod.fst ++ requests t.q.evq = requests s.q.evq ∧
      t.q.outstanding true = s.q.outstanding true ++ (s.answered (.advance env)).map Prod.snd := by
  have calls : s.calls (.advance env) = s.q.resumeSectionCalls := by simp [calls, held]
  have run := (Option.ite_none_left_eq_some.mp run).2
  simp only [held] at run
  obtain ⟨-, after⟩ := Option.ite_none_right_eq_some.mp run
  cases after
  have all := resumeSection_answers (q := s.q) (by rw [← calls]; exact keeps.2.2)
  rw [answered, calls]
  exact ⟨all.consumed, all.submitted⟩

/-- What a step answers and what it leaves deferred are what was deferred and what it brings. -/
theorem step_answers (keeps : s.KeepsRequests a) (run : s.step a = some t) :
    (s.answered a).map Prod.fst ++ requests t.q.evq = requests s.q.evq ++ s.arrivals a := by
  rcases step_evq keeps.1 run with ⟨evq, silent, other⟩ | ⟨op, rfl⟩ | ⟨env, onWorker, src, rfl, held⟩
  · have nothing : s.arrivals a = [] := by
      cases a with
      | op op => exact absurd rfl (other op)
      | _ => rfl
    rw [answered, silent, evq, nothing, List.append_nil]
    rfl
  · exact (opStep_answers keeps (Option.ite_none_left_eq_some.mp run).2).1
  · exact (resumed_answers keeps held run).1.trans (List.append_nil _).symm

/-- The submissions on `sq_out` are those that answer a request. -/
theorem step_submits (keeps : s.KeepsRequests a) (run : s.step a = some t) :
    t.q.outstanding true = s.outLeft a ++ (s.answered a).map Prod.snd := by
  rcases step_evq keeps.1 run with ⟨-, silent, other⟩ | ⟨op, rfl⟩ | ⟨env, onWorker, src, rfl, held⟩
  · have left : s.outLeft a = s.q.outstanding true := by
      cases a with
      | op op => exact absurd rfl (other op)
      | _ => rfl
    have same : t.q.sqOut = s.q.sqOut → t.q.outstanding true = s.outLeft a ++ (s.answered a).map Prod.snd := by
      intro same
      rw [answered, silent, left]
      exact (outstanding_of_sq (show t.q.sq true = s.q.sq true from same)).trans (List.append_nil _).symm
    cases step_effect run with
    | op op label _ => exact absurd label (other op)
    | giveback urb rest label first free after =>
      rw [after] at same ⊢
      exact same rfl
    | resumed env onWorker src label held free after =>
      subst label
      rw [left]
      exact (resumed_answers keeps held run).2
    | flushed rest label ahead free after =>
      rw [after] at same ⊢
      exact same rfl
    | cancelledAll label free after =>
      rw [after] at same ⊢
      exact same (cancelLoop_same s.q.urbList { s.q with active := false }).2.1.sqOut
    | spliced label stage free after =>
      rw [after] at same ⊢
      exact same rfl
    | quiet kept logs => exact same kept.sqOut
  · exact (opStep_answers keeps (Option.ite_none_left_eq_some.mp run).2).2
  · exact (resumed_answers keeps held run).2

/-- Between two steps that empty `evq` every request is answered in the order of arrival, or still
deferred behind those that were. The answers are the submissions on `sq_out`. -/
theorem requests_in_order (steps : List TransferStep) (ran : machine.run s steps = some t)
    (keeps : machine.Along (fun s a _ => s.KeepsRequests a) s steps) :
    (machine.trace answered s steps).map Prod.fst ++ requests t.q.evq =
        requests s.q.evq ++ machine.trace arrivals s steps ∧
      machine.Along (fun s a t => t.q.outstanding true = s.outLeft a ++ (s.answered a).map Prod.snd) s steps := by
  induction steps generalizing s with
  | nil =>
    cases Option.some.inj ran
    exact ⟨(List.append_nil _).symm, trivial⟩
  | cons a steps ih =>
    obtain ⟨r, run, ran⟩ := Option.bind_eq_some_iff.mp ran
    obtain ⟨here, later⟩ := keeps r run
    have first := step_answers here run
    obtain ⟨rest, submits⟩ := ih ran later
    constructor
    · simp only [Machine.trace, run, List.map_append, List.append_assoc]
      rw [rest, ← List.append_assoc, first, List.append_assoc]
    · intro r' run'
      cases run.symm.trans run'
      exact ⟨step_submits here run, submits⟩

/-- A request waits for an URB, and another one for the end of its transfer. -/
def requestSteps : List TransferStep :=
  [.op (.event (bytesRequest 512) true), .op (.create (sampleUrb 1 false) true none),
    .op (.event (bytesRequest 256) true)]

theorem requests_in_order_bulk : ∃ t, machine.run bulkOutFresh requestSteps = some t ∧
    (machine.trace answered bulkOutFresh requestSteps).map Prod.fst ++ requests t.q.evq =
      requests bulkOutFresh.q.evq ++ machine.trace arrivals bulkOutFresh requestSteps := by
  have ran : ((machine.guard KeepsRequests).run bulkOutFresh requestSteps).isSome := by decide
  obtain ⟨t, ran⟩ := Option.isSome_iff_exists.mp ran
  obtain ⟨ran, keeps⟩ := Machine.along_of_guard requestSteps ran
  exact ⟨t, ran, (requests_in_order requestSteps ran keeps).1⟩

end TransferRun

end AppleBce

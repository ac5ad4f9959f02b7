import AppleBce.Vhci.SingleSubmission

namespace AppleBce

open Basis

namespace BceVhciUrb

open BceVhciTransferQueue

variable {u v : BceVhciUrb} {q r : BceVhciTransferQueue}

/-- A started URB is completed by a message only when that is a control status. -/
theorem update_linked (msg : BceVhciMessage) (q : BceVhciTransferQueue) (settled : u.Settled) (begun : u.started)
    (other : u.isControl → msg.cmd ≠ BceVhciCommand.controlTransferStatus.code) :
    ∃ v, (u.update msg q).urb = some v := by
  have begun : u.state ≠ .initPending := by simpa [started] using begun
  unfold update
  rw [if_neg begun]
  cases control : u.isControl with
  | false =>
    simp only [Bool.false_eq_true, ↓reduceIte]
    rcases u.dataUpdate_uses msg q with ⟨-, eq⟩ | ⟨-, -, -, -, kept⟩ | ⟨-, -, -, _, v, -, -, kept, -⟩
    · exact ⟨u, by rw [eq]⟩
    · exact ⟨u, kept⟩
    · exact ⟨v, kept⟩
  | true =>
    simp only [↓reduceIte]
    unfold controlUpdate
    rw [if_neg (other control)]
    split
    · split
      · exact ⟨_, rfl⟩
      · exact ⟨_, rfl⟩
    · split
      · rcases u.dataUpdate_uses msg q with ⟨-, eq⟩ | ⟨-, -, -, failed, kept⟩ |
          ⟨waits, -, sent, _, v, -, -, kept, -, state, status⟩
        · exact ⟨u, by rw [eq]; rfl⟩
        · refine ⟨u, ?_⟩
          simp only [UrbCall.andThen, failed]
          exact kept
        · refine ⟨v, ?_⟩
          simp only [UrbCall.andThen, sent, kept]
          unfold controlCheckStatus
          rcases settled control waits with none | success
          · rw [if_pos (status.trans none)]
          · rw [if_neg (by rw [status, success]; decide), if_neg]
            rw [status, success, state]
            simp
      · exact ⟨_, rfl⟩

theorem sendOutData_reservations (u : BceVhciUrb) (addr size : BitVec 64) (q : BceVhciTransferQueue) :
    (u.sendOutData addr size q).2.reservations = q.reservations := by
  rcases u.sendOutData_cases addr size q with ⟨-, eq⟩ | ⟨_, -, -, eq⟩ | ⟨_, _, -, -, eq⟩ <;> rw [eq]

theorem dataUpdate_reservations (u : BceVhciUrb) (msg : BceVhciMessage) (q : BceVhciTransferQueue) :
    (u.dataUpdate msg q).q.reservations = q.reservations := by
  unfold dataUpdate
  split
  case isFalse => rfl
  case isTrue =>
    simp only
    generalize (if u.urb.transferBufferLength - u.sendOffset ≤ BitVec.setWidth 32 msg.param2 then
      u.urb.transferBufferLength - u.sendOffset else BitVec.setWidth 32 msg.param2) = trLen
    have sent := u.sendOutData_reservations (u.urb.transferDma + u.sendOffset.setWidth 64)
      (trLen.setWidth 64) q
    split
    · rename_i run
      rwa [run] at sent
    · rename_i run
      rwa [run] at sent

theorem controlCheckStatus_reservations (u : BceVhciUrb) (q : BceVhciTransferQueue) :
    (u.controlCheckStatus q).q.reservations = q.reservations := by
  unfold controlCheckStatus
  split
  · rfl
  · split
    · simp only
      split <;> rfl
    · rfl

/-- A message for an URB asks for no place on the message queue to the T2. -/
theorem update_reservations (u : BceVhciUrb) (msg : BceVhciMessage) (q : BceVhciTransferQueue) :
    (u.update msg q).q.reservations = q.reservations := by
  unfold update
  split
  · rfl
  · split
    · unfold controlUpdate
      split
      · exact controlCheckStatus_reservations _ q
      · split
        · have sent := u.sendOutData_reservations u.urb.setupDma usbCtrlrequestSize q
          split
          · rename_i run
            rwa [run] at sent
          · rename_i run
            rwa [run] at sent
        · split
          · have sent := u.dataUpdate_reservations msg q
            unfold UrbCall.andThen
            split
            · exact (controlCheckStatus_reservations _ _).trans sent
            · exact sent
          · rfl
    · exact u.dataUpdate_reservations msg q

theorem init_reservations (u : BceVhciUrb) (q : BceVhciTransferQueue) :
    (u.init q).q.reservations <:+ q.reservations := by
  by_cases slots : q.remainingActiveRequests = 0
  · have same : u.init q = ⟨some .inval, some u, q⟩ := if_pos slots
    exact ⟨[], by rw [same, List.nil_append]⟩
  · by_cases plain : u.isControl ∨ u.dir = .toDevice
    · exact ⟨[], (u.init_room_plain q slots plain).2.1⟩
    · rw [(u.init_room_in q slots plain).1]
      exact List.tail_suffix _

/-- Starting an URB for which there is a slot fails only for want of a message or of room. -/
theorem init_begins (u : BceVhciUrb) (q : BceVhciTransferQueue) (slots : q.remainingActiveRequests ≠ 0)
    (sqs : q.Equipped) (belongs : u.Belongs q.endp) :
    (∀ v, (u.init q).urb = some v → v.started) ∨ q.reservations.headD true = false ∨
      q.room = some 0 ∧ q.SqKept (u.init q).q := by
  rcases u.init_cases q with ⟨e, -, -, frame⟩ | ⟨w, -, began, -, begun, -⟩
  · have remaining := frame.remaining
    right
    by_cases plain : u.isControl ∨ u.dir = .toDevice
    · have taken := (u.init_room_plain q slots plain).2.2.1
      omega
    · rcases (u.init_room_in q slots plain).2 with ⟨refused | full, kept, -⟩ | ⟨-, missing⟩ | ⟨-, -, -, taken, -⟩
      · exact .inl refused
      · exact .inr ⟨full, kept⟩
      · rw [not_or] at plain
        exact absurd missing (receives_room sqs belongs plain.2)
      · omega
  · left
    intro v present
    cases began.symm.trans present
    exact begun

theorem resume_reservations (u : BceVhciUrb) (q : BceVhciTransferQueue) :
    (u.resume q).q.reservations <:+ q.reservations := by
  by_cases waiting : u.state = .waitingForCompletion
  · rw [(u.resume_room q waiting).1]
    exact List.tail_suffix _
  · have same := BceVhciUrb.resume_idle (q := q) waiting
    exact ⟨[], by rw [same, List.nil_append]⟩

end BceVhciUrb

namespace BceVhciTransferQueue

variable {q r s : BceVhciTransferQueue} {u v : BceVhciUrb} {done rest : List BceVhciUrb}

/-- Going from `q` to `r` no URB is started, no message written and nothing submitted on `sq_in`. -/
structure StartsNone (q r : BceVhciTransferQueue) : Prop where
  inits : r.inits = q.inits
  messages : r.messages = q.messages
  sqIn : r.sqIn = q.sqIn
  urbs : ∀ v ∈ r.urbList, ∃ u ∈ q.urbList, u.id = v.id ∧ u.started = v.started

theorem StartsNone.refl (q : BceVhciTransferQueue) : q.StartsNone q :=
  ⟨rfl, rfl, rfl, fun v member => ⟨v, member, rfl, rfl⟩⟩

theorem StartsNone.trans (first : q.StartsNone r) (second : r.StartsNone s) : q.StartsNone s where
  inits := second.inits.trans first.inits
  messages := second.messages.trans first.messages
  sqIn := second.sqIn.trans first.sqIn
  urbs := by
    intro w member
    obtain ⟨v, member', id', started'⟩ := second.urbs w member
    obtain ⟨u, member'', id, started⟩ := first.urbs v member'
    exact ⟨u, member'', id.trans id', started.trans started'⟩

theorem StartsNone.outstanding (starts : q.StartsNone r) : r.outstanding false = q.outstanding false :=
  outstanding_of_sq (show r.sq false = q.sq false from starts.sqIn)

theorem startsNone_of_same (inits : r.inits = q.inits) (messages : r.messages = q.messages)
    (sqIn : r.sqIn = q.sqIn) (urbs : ∀ v ∈ r.urbList, v ∈ q.urbList) : q.StartsNone r :=
  ⟨inits, messages, sqIn, fun v member => ⟨v, urbs v member, rfl, rfl⟩⟩

/-- A call on the URB at the head that keeps the account of it. -/
theorem head_startsNone {call : UrbCall} (linked : q.urbList = u :: rest) (fits : UrbCall.Fits u q call)
    (messages : call.q.messages = q.messages) (sqIn : call.q.sqIn = q.sqIn) :
    q.StartsNone (afterUrb [] rest call) where
  inits := fits.inits
  messages := messages
  sqIn := sqIn
  urbs := by
    intro v member
    simp only [afterUrb, List.nil_append, List.mem_append, Option.mem_toList] at member
    rcases member with kept | later
    · obtain ⟨same, started, -⟩ := fits.kept v kept
      exact ⟨u, by simp [linked], same.id.symm, started.symm⟩
    · exact ⟨v, by simp [linked, later], rfl, rfl⟩

theorem update_startsNone (linked : q.urbList = u :: rest) (msg : BceVhciMessage) :
    q.StartsNone (afterUrb [] rest (u.update msg q)) := by
  have fits := u.update_fits msg q
  rcases u.update_uses msg q with ⟨kept, -⟩ | ⟨refuses, -⟩ | ⟨x, -, submits, -⟩
  · exact head_startsNone linked fits kept.messages kept.sqIn
  · exact head_startsNone linked fits refuses.messages refuses.sqIn
  · exact head_startsNone linked fits (submits.messages rfl) submits.other

theorem deliverLoop_startsNone (msgs : List BceVhciMessage) (q : BceVhciTransferQueue) :
    q.StartsNone (deliverLoop msgs q) := by
  induction msgs generalizing q with
  | nil => exact startsNone_of_same rfl rfl rfl fun _ member => member
  | cons msg msgs ih =>
    unfold deliverLoop
    split
    · exact startsNone_of_same rfl rfl rfl fun _ member => member
    · rename_i urb rest linked
      have updated := update_startsNone linked msg
      simp only
      split
      · exact updated.trans (startsNone_of_same rfl rfl rfl fun _ member => member)
      · exact updated.trans (ih _)

theorem initLoop_full (done rest : List BceVhciUrb) (full : q.remainingActiveRequests = 0) :
    initLoop done rest q = { q with urbList := done ++ rest } := by
  cases rest with
  | nil => rw [initLoop, List.append_nil]
  | cons urb rest =>
    rw [initLoop, if_pos]
    simp [canInitUrb, full]

theorem initLoop_started (done rest : List BceVhciUrb) (begun : ∀ u ∈ rest, u.started) :
    initLoop done rest q = { q with urbList := done ++ rest } := by
  induction rest generalizing done with
  | nil => rw [initLoop, List.append_nil]
  | cons urb rest ih =>
    have here : urb.state ≠ .initPending := by simpa [BceVhciUrb.started] using begun urb (by simp)
    rw [initLoop]
    split
    · rfl
    · rw [ih _ fun u later => begun u (List.mem_cons_of_mem _ later), List.append_assoc,
        List.singleton_append]

/-- Without a slot or an URB that is pending nothing is started. -/
theorem initPendingUrbs_idle
    (idle : q.remainingActiveRequests = 0 ∨ ∀ u ∈ q.urbList, u.started) : q.initPendingUrbs = q := by
  rcases idle with full | begun
  · exact initLoop_full [] q.urbList full
  · exact initLoop_started [] q.urbList begun

/-- No slot is free, and what is deferred completes no URB that has one. -/
def Full (q : BceVhciTransferQueue) : Prop :=
  q.remainingActiveRequests = 0 ∧ ∀ u ∈ q.urbList.head?, u.isControl → u.started →
    ∀ msg ∈ q.evq, msg.cmd ≠ BceVhciCommand.controlTransferStatus.code

instance (q : BceVhciTransferQueue) : Decidable q.Full :=
  inferInstanceAs (Decidable (_ ∧ ∀ u ∈ q.urbList.head?, _ → _ → ∀ msg ∈ q.evq, _))

theorem update_pending {msg : BceVhciMessage} (pending : u.started = false) :
    u.update msg q = ⟨some .again, some u, q⟩ := by
  unfold BceVhciUrb.update
  rw [if_pos (by simpa [BceVhciUrb.started] using pending)]

/-- Delivering frees no slot of a full queue. -/
theorem deliverLoop_full (msgs : List BceVhciMessage) (full : q.remainingActiveRequests = 0)
    (settled : ∀ u ∈ q.urbList.head?, u.Settled)
    (other : ∀ u ∈ q.urbList.head?, u.isControl → u.started →
      ∀ msg ∈ msgs, msg.cmd ≠ BceVhciCommand.controlTransferStatus.code) :
    (deliverLoop msgs q).remainingActiveRequests = 0 := by
  induction msgs generalizing q with
  | nil => exact full
  | cons msg msgs ih =>
    unfold deliverLoop
    split
    · exact full
    · rename_i urb rest linked
      have here : urb ∈ q.urbList.head? := by simp [linked]
      cases begun : urb.started with
      | false =>
        simp only [update_pending begun, ↓reduceIte]
        exact full
      | true =>
        obtain ⟨v, kept⟩ := BceVhciUrb.update_linked msg q (settled urb here) begun
          fun control => other urb here control begun msg (by simp)
        obtain ⟨same, started, remaining, -⟩ := (urb.update_fits msg q).kept v kept
        have head : ∀ w ∈ (afterUrb [] rest (urb.update msg q)).urbList.head?, w = v := by
          intro w member
          rw [afterUrb, kept] at member
          exact (Option.some.inj member).symm
        have full' : (afterUrb [] rest (urb.update msg q)).remainingActiveRequests = 0 := remaining.trans full
        simp only
        split
        · exact full'
        · refine ih full' ?_ ?_
          · intro w member
            rw [head w member]
            exact BceVhciUrb.update_settled (settled urb here) kept
          · intro w member control _ m later
            rw [head w member, same.isControl] at control
            exact other urb here control begun m (List.mem_cons_of_mem _ later)

/-- An URB that is pending stays linked when messages are delivered. -/
theorem deliverLoop_pending (msgs : List BceVhciMessage) (member : u ∈ q.urbList)
    (pending : u.started = false) : u ∈ (deliverLoop msgs q).urbList := by
  induction msgs generalizing q with
  | nil => exact member
  | cons msg msgs ih =>
    unfold deliverLoop
    split
    · exact member
    · rename_i urb rest linked
      have after : u ∈ (afterUrb [] rest (urb.update msg q)).urbList := by
        rw [linked] at member
        rcases List.mem_cons.mp member with rfl | later
        · rw [update_pending pending]
          simp [afterUrb]
        · simp [afterUrb, later]
      simp only
      split
      · exact after
      · exact ih after

/-- Nothing is started by delivering to a full queue, or to one without an URB that is pending. -/
theorem deliverPending_idle (settled : ∀ u ∈ q.urbList, u.Settled)
    (idle : q.Full ∨ ∀ u ∈ q.urbList, u.started) : q.deliverPending = deliverLoop q.evq q := by
  refine initPendingUrbs_idle ?_
  rcases idle with ⟨full, other⟩ | begun
  · refine .inl (deliverLoop_full q.evq full ?_ other)
    exact fun u head => settled u (List.mem_of_mem_head? head)
  · right
    intro v member
    obtain ⟨u, member', -, started⟩ := (deliverLoop_startsNone q.evq q).urbs v member
    rw [← started]
    exact begun u member'

/-- What an operation on an inactive queue does not meet: a slot and an URB that is pending when it
starts pending URBs, and the completion of the setup packet of an URB that receives. -/
def Waits (q : BceVhciTransferQueue) : TransferOp → Prop
  | .create _ allocated link => allocated → link = none → q.Full
  | .completion out c => c.status ≠ bceCompletionAborted →
      (0 < q.ghostCount out → ∀ u ∈ q.urbList, u.started) ∧
      (q.ghostCount out = 0 → ∀ u ∈ q.urbList.head?, u.state = .controlWaitingForSetupCompletion →
        u.dir = .toDevice)
  | .completionEnd => q.Full ∨ ∀ u ∈ q.urbList, u.started
  | _ => True

instance (q : BceVhciTransferQueue) : (op : TransferOp) → Decidable (q.Waits op)
  | .create _ allocated link => inferInstanceAs (Decidable (allocated → link = none → q.Full))
  | .completion .. => inferInstanceAs (Decidable (_ → (_ → ∀ u ∈ q.urbList, _) ∧
      (_ → ∀ u ∈ q.urbList.head?, _ → _)))
  | .completionEnd => inferInstanceAs (Decidable (q.Full ∨ ∀ u ∈ q.urbList, _))
  | .cancel .. | .event .. => .isTrue trivial

theorem event_startsNone (inactive : q.active = false) (msg : BceVhciMessage) (allocated : Bool) :
    q.StartsNone (q.event msg allocated) := by
  unfold event
  rw [if_pos (by rw [inactive]; nofun)]
  split
  · unfold deferEvent
    split <;> exact startsNone_of_same rfl rfl rfl fun _ member => member
  · exact .refl q

theorem urbRequestCancel_startsNone (q : BceVhciTransferQueue) (id : Nat) (status : Int) :
    q.StartsNone (q.urbRequestCancel id status).2 := by
  rcases q.urbRequestCancel_cases id status with ⟨e, run⟩ | run | ⟨before, vurb, after, linked, -, cases⟩
  · rw [run]
    exact .refl q
  · rw [run]
    exact .refl q
  · obtain ⟨kept, inits⟩ := q.cancelSlot_same vurb
    have old : ∀ v ∈ before ++ after, v ∈ q.urbList := by
      intro v member
      rw [linked]
      simp only [List.mem_append, List.mem_cons] at member ⊢
      exact member.imp_right .inr
    rcases cases with ⟨run, -⟩ | run
    · rw [run]
      exact startsNone_of_same inits kept.messages kept.sqIn old
    · rw [run]
      exact startsNone_of_same inits kept.messages kept.sqIn old

theorem completionBody_startsNone {out : Bool} {c : BceSqCompletionData} (waits : q.Waits (.completion out c)) :
    q.StartsNone (q.completionBody out c) := by
  rcases q.completionBody_cases out c with
    same | ⟨answered, ghost, absorbed⟩ | ⟨urb, rest, answered, none, linked, -, taken⟩
  · rw [same]
    exact .refl q
  · obtain ⟨absorbs, -⟩ := waits answered
    rw [absorbed, initPendingUrbs_idle]
    · cases out <;> exact startsNone_of_same rfl rfl rfl fun _ member => member
    · right
      cases out <;> exact absorbs ghost
  · obtain ⟨-, takes⟩ := waits answered
    have outgoing := takes none urb (by simp [linked])
    have fits := urb.transferCompletion_fits c q
    rw [taken]
    rcases urb.transferCompletion_uses c q with ⟨kept, -⟩ | ⟨-, state, incoming, -⟩ |
      ⟨-, state, incoming, -⟩
    · exact head_startsNone linked fits kept.messages kept.sqIn
    · exact absurd (outgoing state) incoming
    · exact absurd (outgoing state) incoming

/-- A completion takes a submission of its queue away and no other. -/
theorem completion_startsNone {out : Bool} {c : BceSqCompletionData} (waits : q.Waits (.completion out c)) :
    (q.completion out c).inits = q.inits ∧ (q.completion out c).messages = q.messages ∧
      (q.completion out c).outstanding false =
        (if out then q.outstanding false else (q.outstanding false).tail) ∧
      ∀ v ∈ (q.completion out c).urbList, ∃ u ∈ q.urbList, u.id = v.id ∧ u.started = v.started := by
  have body : q.StartsNone ((q.completionBody out c).outputDone out) := by
    refine (completionBody_startsNone waits).trans ?_
    obtain ⟨pending, wakeups, accounted⟩ := (q.completionBody out c).outputDone_eq out
    rw [accounted]
    exact startsNone_of_same rfl rfl rfl fun _ member => member
  have same : ((q.completionBody out c).outputDone out).outstanding false = q.outstanding false :=
    body.outstanding
  unfold completion notifySubmissionComplete
  split
  · rename_i missing
    refine ⟨body.inits, body.messages, ?_, body.urbs⟩
    cases out with
    | true => exact same
    | false =>
      have none : q.outstanding false = [] := by
        rw [← same, outstanding, missing]
      simp only [Bool.false_eq_true, ↓reduceIte]
      rw [same, none, List.tail_nil]
  · rename_i fifo present
    cases out with
    | true => exact ⟨body.inits, body.messages, same, body.urbs⟩
    | false =>
      refine ⟨body.inits, body.messages, ?_, body.urbs⟩
      have held : q.outstanding false = fifo.items := by
        rw [← same, outstanding, present]
      simp only [Bool.false_eq_true, ↓reduceIte]
      rw [outstanding, setSq_sq_same, held]
      rfl

/-- What `bce_vhci_urb_create` makes of an inactive queue: it fails and changes nothing, or links the
URB and delivers what is deferred. -/
theorem urbCreate_inactive (inactive : q.active = false) (urb : Urb) (allocated : Bool)
    (link : Option Errno) :
    (∃ e, q.urbCreate urb allocated link = (some e, q)) ∨
    (allocated ∧ link = none ∧ ∃ wReset wResume, q.urbCreate urb allocated link =
      (none, deliverPending { q with urbList := q.urbList ++ [q.newUrb urb], wReset, wResume })) := by
  have asleep : ¬q.active = true := by simp [inactive]
  rcases q.urbCreate_outcomes urb allocated link with
    failed | ⟨e, active, -⟩ | ⟨active, -⟩ | ⟨granted, linked, -, links⟩
  · exact .inl failed
  · exact absurd active asleep
  · exact absurd active asleep
  · exact .inr ⟨granted, linked, links⟩

/-- The queue with a new URB is as full as without it. -/
theorem linked_full {urb : Urb} {wReset wResume : Bool} (full : q.Full) :
    Full { q with urbList := q.urbList ++ [q.newUrb urb], wReset, wResume } := by
  refine ⟨full.1, ?_⟩
  intro u head
  have head : u ∈ (q.urbList ++ [q.newUrb urb]).head? := head
  cases linked : q.urbList with
  | nil =>
    rw [linked, List.nil_append] at head
    cases Option.some.inj head
    intro _ begun
    cases begun
  | cons w rest =>
    rw [linked, List.cons_append] at head
    have same : w = u := Option.some.inj head
    exact full.2 u (by simp [linked, same])

/-- An URB that is created on a full, inactive queue is linked and stays pending. -/
theorem urbCreate_startsNone {urb : Urb} {allocated : Bool} {link : Option Errno}
    (inactive : q.active = false) (settled : ∀ u ∈ q.urbList, u.Settled)
    (waits : q.Waits (.create urb allocated link)) :
    (q.urbCreate urb allocated link).2 = q ∧ (q.urbCreate urb allocated link).1 ≠ none ∨
    (q.urbCreate urb allocated link).1 = none ∧
      StartsNone { q with urbList := q.urbList ++ [q.newUrb urb] } (q.urbCreate urb allocated link).2 ∧
      q.newUrb urb ∈ (q.urbCreate urb allocated link).2.urbList := by
  rcases urbCreate_inactive inactive urb allocated link with ⟨e, run⟩ |
    ⟨granted, linked, wReset, wResume, run⟩
  · rw [run]
    exact .inl ⟨rfl, nofun⟩
  · have all : ∀ u ∈ q.urbList ++ [q.newUrb urb], u.Settled := by
      intro u member
      rcases List.mem_append.mp member with old | new
      · exact settled u old
      · rw [List.mem_singleton.mp new]
        exact BceVhciUrb.settled_of_state nofun
    have delivered : deliverPending { q with urbList := q.urbList ++ [q.newUrb urb], wReset, wResume } = _ :=
      deliverPending_idle all (.inl (linked_full (waits granted linked)))
    rw [run, delivered]
    refine .inr ⟨rfl, ?_, deliverLoop_pending _ (by simp) rfl⟩
    have begun : StartsNone { q with urbList := q.urbList ++ [q.newUrb urb] }
        { q with urbList := q.urbList ++ [q.newUrb urb], wReset, wResume } :=
      startsNone_of_same rfl rfl rfl fun _ member => member
    exact begun.trans (deliverLoop_startsNone _ _)

/-- The ways a pending URB is not started when pending URBs are started: no slot is left, the
message queue refused a message, or `sq_in` is full. -/
def Blocked (answers : List Bool) (q : BceVhciTransferQueue) : Prop :=
  q.remainingActiveRequests = 0 ∨ false ∈ answers ∨ q.room = some 0

theorem initLoop_room (done rest : List BceVhciUrb) (q : BceVhciTransferQueue)
    (wf : WellFormed { q with urbList := done ++ rest }) (full : q.room = some 0) :
    (initLoop done rest q).room = some 0 := by
  induction rest generalizing done q with
  | nil => exact full
  | cons urb rest ih =>
    rw [initLoop]
    split
    · exact full
    · rename_i slots
      split
      · have next := init_wellFormed wf
        rw [afterUrb, ← List.append_assoc] at next
        refine ih _ _ next ?_
        have slots : q.remainingActiveRequests ≠ 0 := by simpa [canInitUrb, Nat.pos_iff_ne_zero] using slots
        by_cases plain : urb.isControl ∨ urb.dir = .toDevice
        · exact (urb.init_room_plain q slots plain).1.room.trans full
        · rcases (urb.init_room_in q slots plain).2 with ⟨-, kept, -⟩ | ⟨open_, -⟩ | ⟨open_, -⟩
          · exact kept.room.trans full
          · exact absurd (.inr full) open_
          · exact absurd (.inr full) open_
      · refine ih _ _ ?_ full
        rwa [List.append_assoc, List.singleton_append]

theorem mem_of_headD {answers : List Bool} (refused : answers.headD true = false) : false ∈ answers := by
  cases answers with
  | nil => cases refused
  | cons answer answers =>
    cases refused
    exact List.mem_cons_self

/-- The loop starts what it passes unless it is blocked. -/
theorem initLoop_starts (done rest : List BceVhciUrb) (q : BceVhciTransferQueue)
    (wf : WellFormed { q with urbList := done ++ rest }) :
    ∀ v ∈ (initLoop done rest q).urbList, v ∈ done ∨ v.started ∨ Blocked q.reservations (initLoop done rest q) := by
  induction rest generalizing done q with
  | nil => exact fun v member => .inl member
  | cons urb rest ih =>
    rw [initLoop]
    split
    · rename_i full
      intro v _
      right
      right
      left
      simpa [canInitUrb] using full
    · rename_i slots
      have slots : q.remainingActiveRequests ≠ 0 := by simpa [canInitUrb, Nat.pos_iff_ne_zero] using slots
      split
      case isFalse begun =>
        intro v member
        rcases ih (done ++ [urb]) q (by rwa [List.append_assoc, List.singleton_append]) v member with
          passed | later
        · rcases List.mem_append.mp passed with old | here
          · exact .inl old
          · rw [List.mem_singleton.mp here]
            exact .inr (.inl (BceVhciUrb.started_of_ne begun))
        · exact .inr later
      case isTrue pending =>
        have next := init_wellFormed wf
        rw [afterUrb, ← List.append_assoc] at next
        intro v member
        have answers := (urb.init_reservations q).subset
        rcases ih _ _ next v member with passed | begun | slots' | refused | full
        · rcases List.mem_append.mp passed with old | here
          · exact .inl old
          · right
            have belongs : urb.Belongs q.endp := wf.urbs urb (by simp)
            rcases urb.init_begins q slots wf.present belongs with begun | refused | ⟨full, kept⟩
            · exact .inl (begun v (Option.mem_toList.mp here))
            · exact .inr (.inr (.inl (mem_of_headD refused)))
            · exact .inr (.inr (.inr (initLoop_room _ _ _ next (kept.room.trans full))))
        · exact .inr (.inl begun)
        · exact .inr (.inr (.inl slots'))
        · exact .inr (.inr (.inr (.inl (answers refused))))
        · exact .inr (.inr (.inr (.inr full)))

/-- The answers of the message queue are taken from the front. -/
theorem answers_loopSafe (answers : List Bool) : LoopSafe fun q => q.reservations <:+ answers where
  start := fun _ u _ q _ held => (u.init_reservations q).trans held
  update := by
    intro u rest msg q _ held
    show (u.update msg q).q.reservations <:+ answers
    rw [u.update_reservations]
    exact held
  defer := fun _ _ held => held

theorem resumeLoop_reservations (done rest : List BceVhciUrb) (q : BceVhciTransferQueue) :
    (resumeLoop done rest q).reservations <:+ q.reservations := by
  refine resumeLoop_invariant (I := fun r => r.reservations <:+ q.reservations) ?_ ?_ done rest q
    (List.suffix_refl _)
  · intro _ u _ r _ suffix
    exact (u.init_reservations r).trans suffix
  · intro _ u _ r _ suffix
    exact (u.resume_reservations r).trans suffix

/-- The locked section of `do_resume` leaves no URB pending unless it is blocked. -/
theorem resumeSection_starts (wf : q.WellFormed) :
    ∀ v ∈ q.resumeSection.urbList, v.started ∨ Blocked q.reservations q.resumeSection := by
  have resumed : WellFormed (resumeLoop [] q.urbList { q with active := true }) :=
    resumeLoop_wellFormed [] q.urbList _ ⟨wf.urbs, wf.present, wf.distinct⟩
  have answers := (answers_loopSafe q.reservations).deliverLoop
    (resumeLoop [] q.urbList { q with active := true }).evq
    (resumeLoop_reservations [] q.urbList { q with active := true })
  intro v member
  rcases initLoop_starts [] _ _ (deliverLoop_wellFormed _ resumed) v member with none | begun | blocked
  · cases none
  · exact .inl begun
  · exact .inr (blocked.imp_right (Or.imp_left fun refused => answers.subset refused))

end BceVhciTransferQueue

/-- What an operation leaves outstanding on `sq_in` when it submits nothing there. -/
def TransferOp.sqInLeft : TransferOp → List UrbSubmission → List UrbSubmission
  | .completion false _, items => items.tail
  | _, items => items

namespace TransferRun

variable {s t : TransferRun} {a : TransferStep}

/-- An operation starts nothing: the URBs that are pending stay so, no message is written and
nothing submitted on `sq_in`, and an URB that was created is pending. -/
structure StartsNothing (s : TransferRun) (op : TransferOp) (t : TransferRun) : Prop where
  pending : ∀ u ∈ s.q.urbList, u.state = .initPending →
    ∀ v ∈ t.q.urbList, v.id = u.id → v.state = .initPending
  inits : t.q.inits = s.q.inits
  messages : t.q.messages = s.q.messages
  sqIn : t.q.outstanding false = op.sqInLeft (s.q.outstanding false)
  created : ∀ urb allocated link, op = .create urb allocated link → urb.id ∈ t.accepted →
    ∃ v ∈ t.q.urbList, v.id = urb.id ∧ v.state = .initPending

/-- An operation on an inactive queue does not start pending URBs while one of them could be
started, the data stage of no URB begins there, and no URB comes to a second submission. -/
def HoldsBack (s : TransferRun) (a : TransferStep) : Prop :=
  s.KeepsOne a ∧ match a with
    | .op op => s.q.active = false → s.q.Waits op
    | _ => True

instance (s : TransferRun) : (a : TransferStep) → Decidable (s.HoldsBack a)
  | .op op => inferInstanceAs (Decidable (_ ∧ (_ → s.q.Waits op)))
  | .giveback | .queueFlush | .endpointReset | .cancelAll | .startWork _ | .work | .lock _ | .advance _
  | .destroy => inferInstanceAs (Decidable (_ ∧ True))

/-- Pending URBs stay pending when no URB of their number is started. -/
theorem pending_kept {q r : BceVhciTransferQueue} {u v : BceVhciUrb} (wf : q.WellFormed)
    (urbs : ∀ v ∈ r.urbList, ∃ u ∈ q.urbList, u.id = v.id ∧ u.started = v.started)
    (linked : u ∈ q.urbList) (pending : u.state = .initPending) (member : v ∈ r.urbList)
    (same : v.id = u.id) : v.state = .initPending := by
  obtain ⟨w, member', id, started⟩ := urbs v member
  have one : w = u := List.inj_on_of_nodup_map wf.distinct member' linked (id.trans same)
  rw [one] at started
  by_contra begun
  rw [BceVhciUrb.started_of_ne begun] at started
  simp [BceVhciUrb.started, pending] at started

/-- An operation other than a create or a completion on a queue where it starts none. -/
theorem startsNothing_of_none {op : TransferOp} (wf : s.q.WellFormed) (starts : s.q.StartsNone t.q)
    (left : op.sqInLeft (s.q.outstanding false) = s.q.outstanding false)
    (other : ∀ urb allocated link, op ≠ .create urb allocated link) : s.StartsNothing op t where
  pending := fun _ linked pending _ member same => pending_kept wf starts.urbs linked pending member same
  inits := starts.inits
  messages := starts.messages
  sqIn := by
    rw [left]
    exact starts.outstanding
  created := fun urb allocated link create => absurd create (other urb allocated link)

theorem create_startsNothing {urb : Urb} {allocated : Bool} {link : Option Errno}
    (tracked : s.q.Tracked s.accepted none) (inactive : s.q.active = false)
    (waits : s.q.Waits (.create urb allocated link)) (run : s.opStep (.create urb allocated link) = some t) :
    s.StartsNothing (.create urb allocated link) t := by
  obtain ⟨⟨-, fresh, -, takes⟩, after⟩ := Option.ite_none_right_eq_some.mp run
  cases after
  rcases BceVhciTransferQueue.urbCreate_startsNone inactive tracked.settled waits with
    ⟨same, failed⟩ | ⟨succeeded, starts, here⟩
  · obtain ⟨e, failed⟩ := Option.ne_none_iff_exists'.mp failed
    have result : s.created urb.id (s.q.urbCreate urb allocated link) =
        { s with rejected := s.rejected ++ [urb.id] } := by
      rw [created, failed, same]
    rw [result]
    refine ⟨?_, rfl, rfl, rfl, ?_⟩
    · exact fun u linked pending v member id => pending_kept tracked.wf
        (BceVhciTransferQueue.StartsNone.refl s.q).urbs linked pending member id
    · intro urb' allocated' link' create accepted
      cases create
      exact absurd accepted fresh
  · have result : s.created urb.id (s.q.urbCreate urb allocated link) =
        { s with q := (s.q.urbCreate urb allocated link).2, accepted := s.accepted ++ [urb.id] } := by
      rw [created, succeeded]
    have apart : ∀ u ∈ s.q.urbList, u.id ≠ urb.id :=
      fun u member same => fresh (same ▸ tracked.created u member)
    have wf := BceVhciTransferQueue.linked_wellFormed tracked.wf urb (fun data => takes.resolve_left data) apart
    rw [result]
    refine ⟨?_, starts.inits, starts.messages, starts.outstanding, ?_⟩
    · intro u linked pending v member id
      exact pending_kept wf starts.urbs (List.mem_append_left _ linked) pending member id
    · intro urb' allocated' link' create _
      cases create
      exact ⟨s.q.newUrb urb, here, rfl, rfl⟩

/-- An operation that meets the condition on an inactive queue starts nothing. -/
theorem opStep_startsNothing {op : TransferOp} (tracked : s.q.Tracked s.accepted none)
    (inactive : s.q.active = false) (waits : s.q.Waits op) (run : s.opStep op = some t) :
    s.StartsNothing op t := by
  cases op with
  | create urb allocated link => exact create_startsNothing tracked inactive waits run
  | cancel id status =>
    obtain ⟨-, after⟩ := Option.ite_none_right_eq_some.mp run
    cases after
    refine startsNothing_of_none tracked.wf ?_ rfl nofun
    rw [afterCancel_q]
    exact s.q.urbRequestCancel_startsNone id status
  | event msg allocated =>
    obtain ⟨-, after⟩ := Option.ite_none_right_eq_some.mp run
    cases after
    exact startsNothing_of_none tracked.wf
      (BceVhciTransferQueue.event_startsNone inactive msg allocated) rfl nofun
  | completion out c =>
    obtain ⟨-, after⟩ := Option.ite_none_right_eq_some.mp run
    cases after
    obtain ⟨inits, messages, sqIn, urbs⟩ := BceVhciTransferQueue.completion_startsNone waits
    refine ⟨?_, inits, messages, ?_, nofun⟩
    · exact fun u linked pending v member same => pending_kept tracked.wf urbs linked pending member same
    · cases out <;> exact sqIn
  | completionEnd =>
    cases Option.some.inj run
    refine startsNothing_of_none tracked.wf ?_ rfl nofun
    show s.q.StartsNone s.q.deliverPending
    rw [BceVhciTransferQueue.deliverPending_idle tracked.settled waits]
    exact BceVhciTransferQueue.deliverLoop_startsNone s.q.evq s.q

/-- In a run that meets the condition every operation on an inactive queue starts nothing, the
locked section of `do_resume` leaves every linked URB started exactly once unless it is blocked,
and no URB is started twice or has two submissions outstanding. -/
theorem inactive_starts_nothing (reach : machine.ReachableUnder HoldsBack s) :
    (∀ op t, s.q.active = false → s.HoldsBack (.op op) → s.step (.op op) = some t →
      s.StartsNothing op t) ∧
    (∀ env onWorker src t, s.holder = some (onWorker, .resumeSection src) → s.HoldsBack (.advance env) →
      s.step (.advance env) = some t → ∀ v ∈ t.q.urbList,
        v.started ∧ t.q.inits.count v.id = 1 ∨ t.q.Blocked s.q.reservations) ∧
    ∀ id, s.q.inits.count id ≤ 1 ∧ s.q.loads id ≤ 1 := by
  have tracked := tracked_of_reach (reach.mono fun _ _ holds => holds.1)
  refine ⟨?_, ?_, fun id => ⟨tracked.once id, tracked.most id⟩⟩
  · intro op t inactive holds run
    obtain ⟨-, run⟩ := Option.ite_none_left_eq_some.mp run
    exact opStep_startsNothing tracked inactive (holds.2 inactive) run
  · intro env onWorker src t held holds run v member
    have after := step_tracked tracked holds.1 run
    obtain ⟨-, run⟩ := Option.ite_none_left_eq_some.mp run
    simp only [held] at run
    obtain ⟨-, resumed⟩ := Option.ite_none_right_eq_some.mp run
    cases resumed
    rcases BceVhciTransferQueue.resumeSection_starts tracked.wf v member with begun | blocked
    · refine .inl ⟨begun, ?_⟩
      rw [after.starts v member, begun]
      rfl
    · exact .inr blocked

/-- An URB is created on a paused endpoint whose one slot is taken. -/
theorem inactive_starts_nothing_full : ∃ s t, machine.ReachableUnder HoldsBack s ∧ s.q.active = false ∧
    s.step (.op (.create (sampleUrb 2 true) true none)) = some t ∧
    s.StartsNothing (.create (sampleUrb 2 true) true none) t ∧
    (t.q.urbList.map fun u => (u.id, u.state)) = [(1, .waitingForCompletion), (2, .initPending)] := by
  have ran : (ranUnder HoldsBack intIn []
      [.op (.create (sampleUrb 1 true) true none), .lock (.pause .firmware), .advance ⟨false, 0, 1⟩,
        .advance ⟨false, 0, 1⟩, .op (.completion false ⟨2, 0, 0⟩), .op .completionEnd,
        .advance ⟨false, 0, 1⟩, .advance ⟨false, 0, 1⟩]).map
      (fun s => (s.q.active, decide (s.HoldsBack (.op (.create (sampleUrb 2 true) true none))),
        (s.step (.op (.create (sampleUrb 2 true) true none))).map
          fun t => t.q.urbList.map fun u => (u.id, u.state))) =
      some (false, true, some [(1, .waitingForCompletion), (2, .initPending)]) := by
    decide +kernel
  obtain ⟨s, reach, seen⟩ := reachableUnder_of_ran ran
  simp only [Prod.mk.injEq, decide_eq_true_eq] at seen
  obtain ⟨inactive, holds, after⟩ := seen
  obtain ⟨t, run, urbs⟩ := Option.map_eq_some_iff.mp after
  exact ⟨s, t, reach, inactive, run, (inactive_starts_nothing reach).1 _ t inactive holds run, urbs⟩

/-- An endpoint is paused and an URB created. There is a slot, so the URB is started. -/
theorem inactive_urb_started : ¬∀ s, machine.Reachable s →
    (∀ op t, s.q.active = false → s.step (.op op) = some t → s.StartsNothing op t) ∧
    ∀ id, s.q.inits.count id ≤ 1 ∧ s.q.loads id ≤ 1 := by
  intro nothing
  have ran : (ranUnder (fun _ _ => True) bulkIn [] [.lock (.pause .firmware)]).map
      (fun s => (s.q.active, s.q.messages.length, (s.step (.op (.create (sampleUrb 1 true) true none))).map
        fun t => t.q.messages.length)) = some (false, 0, some 1) := by
    decide +kernel
  obtain ⟨s, reach, seen⟩ := reachableUnder_of_ran ran
  simp only [Prod.mk.injEq] at seen
  obtain ⟨inactive, before, after⟩ := seen
  obtain ⟨t, run, written⟩ := Option.map_eq_some_iff.mp after
  have kept := ((nothing s reach).1 _ t inactive run).messages
  rw [kept, before] at written
  cases written

end TransferRun

end AppleBce

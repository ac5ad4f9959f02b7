import AppleBce.Vhci.SubmissionLine
import AppleBce.Vhci.UrbRules

namespace AppleBce

open Basis

namespace BceVhciTransferQueue

variable {S : UrbSubmission → Prop} {q r s : BceVhciTransferQueue} {out : Bool}

/-- Every submission that is outstanding has the property. -/
def AllSubmissions (S : UrbSubmission → Prop) (q : BceVhciTransferQueue) : Prop :=
  ∀ out, ∀ x ∈ q.outstanding out, S x

/-- The submissions made between `q` and `r` have the property. -/
def Makes (S : UrbSubmission → Prop) (q r : BceVhciTransferQueue) : Prop :=
  ∀ out, ∀ x ∈ r.outstanding out, x ∈ q.outstanding out ∨ S x

theorem Makes.trans (first : Makes S q r) (second : Makes S r s) : Makes S q s := by
  intro out x member
  obtain before | made := second out x member
  · exact first out x before
  · exact Or.inr made

theorem Makes.allSubmissions (makes : Makes S q r) (held : q.AllSubmissions S) : r.AllSubmissions S :=
  fun out x member => (makes out x member).elim (held out x) id

theorem SqKept.makes (kept : q.SqKept r) : Makes S q r := by
  intro out x member
  rw [kept.outstanding out] at member
  exact Or.inl member

theorem Refuses.makes (refuses : Refuses out q r) : Makes S q r := by
  intro side x member
  rw [outstanding_of_sq (refuses.sq side)] at member
  exact Or.inl member

/-- The one submission that is made is within the buffer. -/
theorem Submits.makes {x : UrbSubmission} (submits : Submits out x q r) (made : S x) : Makes S q r := by
  intro side y member
  by_cases same : side = out
  · subst same
    rw [submits.outstanding] at member
    obtain before | here := List.mem_append.mp member
    · exact Or.inl before
    · rw [List.mem_singleton.mp here]
      exact Or.inr made
  · obtain rfl := Bool.eq_not_of_ne same
    rw [outstanding_of_sq submits.other] at member
    exact Or.inl member

theorem Pops.makes (pops : Pops out q r) : Makes S q r := by
  intro side x member
  by_cases same : side = out
  · subst same
    rw [pops.popped] at member
    exact Or.inl (List.mem_of_mem_tail member)
  · obtain rfl := Bool.eq_not_of_ne same
    rw [pops.other] at member
    exact Or.inl member

end BceVhciTransferQueue

open BceVhciTransferQueue

/-- A property of single URBs that every function on an URB keeps, and one that the submissions have
which these functions make for such an URB. -/
structure SubmissionSafe (P : BceVhciUrb → Prop) (S : UrbSubmission → Prop) : Prop extends UrbSafe P where
  initMakes : ∀ u q, u.state = .initPending → P u → Makes S q (u.init q).q
  updateMakes : ∀ u msg q, P u → Makes S q (u.update msg q).q
  completionMakes : ∀ u c q, P u → Makes S q (u.transferCompletion c q).q
  resumeMakes : ∀ u q, P u → Makes S q (u.resume q).q

namespace SubmissionSafe

variable {P : BceVhciUrb → Prop} {S : UrbSubmission → Prop} {q : BceVhciTransferQueue}

/-- The linked URBs have the one property and the outstanding submissions the other. -/
def Holds (P : BceVhciUrb → Prop) (S : UrbSubmission → Prop) (q : BceVhciTransferQueue) : Prop :=
  q.AllUrbs P ∧ q.AllSubmissions S

theorem afterUrb {call : UrbCall} (done rest : List BceVhciUrb) (makes : Makes S q call.q)
    (held : q.AllSubmissions S) : (afterUrb done rest call).AllSubmissions S := by
  intro out x member
  refine makes.allSubmissions held out x ?_
  cases out <;> exact member

/-- The loops over the messages and the pending URBs keep both properties. -/
theorem loopSafe (safe : SubmissionSafe P S) : LoopSafe (Holds P S) where
  start := by
    rintro done u rest q pending ⟨urbs, submissions⟩
    have here : P u := urbs u (by simp)
    refine ⟨safe.toUrbSafe.loopSafe.start done u rest q pending urbs, ?_⟩
    exact afterUrb done rest (safe.initMakes u q pending here) submissions
  update := by
    rintro u rest msg q linked ⟨urbs, submissions⟩
    have here : P u := urbs u (by simp [linked])
    refine ⟨safe.toUrbSafe.loopSafe.update u rest msg q linked urbs, ?_⟩
    exact afterUrb [] rest (safe.updateMakes u msg q here) submissions
  defer := fun q evq held => held

theorem completion (safe : SubmissionSafe P S) (held : Holds P S q) (out : Bool) (c : BceSqCompletionData) :
    Holds P S (q.completion out c) := by
  refine ⟨safe.toUrbSafe.completion held.1 out c, ?_⟩
  refine (q.completion_pops out c).makes.allSubmissions ?_
  rcases q.completionBody_cases out c with same | ⟨-, -, absorbs⟩ | ⟨urb, rest, -, -, linked, -, taken⟩
  · rw [same]
    exact held.2
  · rw [absorbs]
    refine (safe.loopSafe.initPendingUrbs ?_).2
    cases out <;> exact held
  · rw [taken]
    have here : P urb := held.1 urb (by simp [linked])
    exact afterUrb [] rest (safe.completionMakes urb c q here) held.2

theorem resumeSection (safe : SubmissionSafe P S) (held : Holds P S q) : Holds P S q.resumeSection := by
  refine safe.loopSafe.deliverPending (resumeLoop_invariant safe.loopSafe.start ?_ [] q.urbList _ held)
  rintro done u rest q - ⟨urbs, submissions⟩
  have here : P u := urbs u (by simp)
  refine ⟨?_, afterUrb done rest (safe.resumeMakes u q here) submissions⟩
  exact UrbSafe.afterUrb (fun v member => urbs v (by simp [member])) (safe.resume u q here)
    fun v member => urbs v (by simp [member])

theorem cancelAll (held : Holds P S q) : Holds P S q.cancelAll := by
  refine ⟨UrbSafe.cancelLoop q.urbList { q with active := false }, ?_⟩
  exact (cancelLoop_same q.urbList { q with active := false }).2.1.makes.allSubmissions held.2

theorem urbCreate (safe : SubmissionSafe P S) (held : Holds P S q) {urb : Urb} (fresh : P (q.newUrb urb))
    (allocated : Bool) (link : Option Errno) : Holds P S (q.urbCreate urb allocated link).2 := by
  refine ⟨safe.toUrbSafe.urbCreate held.1 fresh allocated link, ?_⟩
  have begins : Makes S q ((q.newUrb urb).init q).q := safe.initMakes _ q rfl fresh
  rcases q.urbCreate_outcomes urb allocated link with
    ⟨e, ran⟩ | ⟨e, -, -, failed, ran⟩ | ⟨-, -, -, ran⟩ | ⟨-, -, -, wReset, wResume, ran⟩
  · rw [ran]
    exact held.2
  · rw [ran]
    exact begins.allSubmissions held.2
  · rw [ran]
    refine (safe.loopSafe.deliverPending ⟨?_, afterUrb q.urbList [] begins held.2⟩).2
    exact UrbSafe.afterUrb held.1 (safe.init _ q rfl fresh) (List.forall_mem_nil _)
  · rw [ran]
    have linked : Holds P S { q with urbList := q.urbList ++ [q.newUrb urb], wReset, wResume } := ⟨?_, held.2⟩
    · exact (safe.loopSafe.deliverPending linked).2
    intro v member
    obtain before | here := List.mem_append.mp member
    · exact held.1 v before
    · rw [List.mem_singleton.mp here]
      exact fresh

theorem urbRequestCancel (held : Holds P S q) (id : Nat) (status : Int) :
    Holds P S (q.urbRequestCancel id status).2 := by
  refine ⟨UrbSafe.urbRequestCancel held.1 id status, ?_⟩
  rcases q.urbRequestCancel_cases id status with ⟨e, run⟩ | run | ⟨_, vurb, _, -, -, ⟨run, -⟩ | run⟩
  · rw [run]
    exact held.2
  · rw [run]
    exact held.2
  · rw [run]
    exact (q.cancelSlot_same vurb).1.makes.allSubmissions held.2
  · rw [run]
    exact (q.cancelSlot_same vurb).1.makes.allSubmissions held.2

end SubmissionSafe

namespace TransferRun

open SubmissionSafe

variable {P : BceVhciUrb → Prop} {S : UrbSubmission → Prop} {s t : TransferRun} {a : TransferStep}

/-- Every step of the queue makes submissions of the kind only, if its URBs begin so. -/
theorem step_holds (safe : SubmissionSafe P S) (held : Holds P S s.q) (begins : s.BeginsWith P a)
    (run : s.step a = some t) : Holds P S t.q := by
  cases step_effect run with
  | op op label ran =>
    subst label
    cases op with
    | create urb allocated link =>
      obtain ⟨-, after⟩ := Option.ite_none_right_eq_some.mp ran
      cases after
      rw [created_q]
      exact safe.urbCreate held begins allocated link
    | cancel id status =>
      obtain ⟨-, after⟩ := Option.ite_none_right_eq_some.mp ran
      cases after
      rw [afterCancel_q]
      exact SubmissionSafe.urbRequestCancel held id status
    | event msg allocated =>
      obtain ⟨-, after⟩ := Option.ite_none_right_eq_some.mp ran
      cases after
      exact safe.loopSafe.event (fun _ held => held) held msg allocated
    | completion out c =>
      obtain ⟨-, after⟩ := Option.ite_none_right_eq_some.mp ran
      cases after
      exact safe.completion held out c
    | completionEnd =>
      cases Option.some.inj ran
      exact safe.loopSafe.deliverPending held
  | giveback urb rest _ _ _ after =>
    subst after
    exact held
  | resumed _ onWorker src _ _ _ after =>
    subst after
    exact safe.resumeSection held
  | flushed rest _ _ _ after =>
    subst after
    exact held
  | cancelledAll _ _ after =>
    subst after
    exact SubmissionSafe.cancelAll held
  | spliced _ _ _ after =>
    subst after
    exact held
  | quiet same _ =>
    obtain ⟨urbs, submissions⟩ := held
    refine ⟨fun v member => urbs v (same.urbList ▸ member), fun out x member => submissions out x ?_⟩
    have same : t.q.sq out = s.q.sq out := by
      cases out
      · exact same.sqIn
      · exact same.sqOut
    rwa [outstanding_of_sq same] at member

/-- The run rule for submissions: with a property of single URBs that every function on an URB keeps, and
that those begin with which are created, one that these functions give to the submissions they make is
one of all that are outstanding. -/
theorem run_holds {as : List TransferStep} (safe : SubmissionSafe P S)
    (begins : ∀ urb allocated link, .op (.create urb allocated link) ∈ as →
      ∀ q : BceVhciTransferQueue, P (q.newUrb urb))
    (held : Holds P S s.q) (ran : machine.run s as = some t) : Holds P S t.q := by
  induction as generalizing s with
  | nil =>
    cases Option.some.inj ran
    exact held
  | cons a as ih =>
    obtain ⟨r, first, ran⟩ := Option.bind_eq_some_iff.mp ran
    refine ih (fun urb allocated link member => begins urb allocated link (List.mem_cons_of_mem a member)) ?_ ran
    refine step_holds safe held (beginsWith_of_create fun urb allocated link label => ?_) first
    exact begins urb allocated link (label ▸ List.mem_cons_self ..) s.q

/-- A fresh queue has no submission. -/
theorem holds_init (initial : machine.init s) : Holds P S s.q := by
  obtain ⟨endp, devAddr, memory, reservations, q, create, rfl⟩ := initial
  have unused := createTransferQueue_unused create
  constructor
  · intro u member
    rw [fresh, unused.urbList] at member
    cases member
  · intro out x member
    rw [fresh, outstanding_of_unused unused] at member
    cases member

end TransferRun

/-- The submission is the setup packet of the URB, or a part of its buffer. -/
def UrbSubmission.InBuffer (x : UrbSubmission) (urb : Urb) : Prop :=
  x.urb = urb.id ∧
    (x.addr = urb.setupDma ∧ x.length = BceVhciUrb.usbCtrlrequestSize ∨
      ∃ offset : BitVec 32, x.addr = urb.transferDma + offset.setWidth 64 ∧
        offset.toNat + x.length.toNat ≤ urb.transferBufferLength.toNat)

/-- What the driver holds of an URB that was submitted to it: the buffers are the same, and it is in
their bounds, apart from what it has received when it has all. -/
structure BceVhciUrb.InBounds (urb : Urb) (u : BceVhciUrb) : Prop where
  id : u.urb.id = urb.id
  transferDma : u.urb.transferDma = urb.transferDma
  setupDma : u.urb.setupDma = urb.setupDma
  transferBufferLength : u.urb.transferBufferLength = urb.transferBufferLength
  sent : u.sendOffset ≤ urb.transferBufferLength
  received : u.state = .dataTransferComplete ∨ u.receiveOffset ≤ urb.transferBufferLength

/-- A call on an URB that stays in the bounds of its buffers. -/
structure UrbCall.Bounded (urb : Urb) (q : BceVhciTransferQueue) (call : UrbCall) : Prop where
  kept : ∀ v, call.urb = some v → v.InBounds urb
  makes : Makes (fun x => x.InBuffer urb) q call.q

namespace BceVhciUrb

variable {urb : Urb} {u v : BceVhciUrb} {q r : BceVhciTransferQueue}

theorem bounded_of_kept {ret : Option Errno} (bounds : v.InBounds urb) (kept : q.SqKept r) :
    UrbCall.Bounded urb q ⟨ret, some v, r⟩ where
  kept _ present := Option.some.inj present ▸ bounds
  makes := kept.makes

theorem bounded_of_gone {call : UrbCall} (gone : call.urb = none)
    (makes : Makes (fun x => x.InBuffer urb) q call.q) :
    UrbCall.Bounded urb q call where
  kept v present := by
    rw [gone] at present
    cases present
  makes := makes

/-- The second call finds the bounds that the first leaves. -/
theorem bounded_andThen {call : UrbCall} {next : BceVhciUrb → BceVhciTransferQueue → UrbCall}
    (first : UrbCall.Bounded urb q call)
    (second : ∀ v, v.InBounds urb → UrbCall.Bounded urb call.q (next v call.q)) :
    UrbCall.Bounded urb q (call.andThen next) := by
  unfold UrbCall.andThen
  split
  next v _ present =>
    have goes := second v (first.kept v present)
    exact ⟨goes.kept, first.makes.trans goes.makes⟩
  next => exact first

/-- What is still to be received fits behind what has been. -/
theorem inSubmission_inBuffer (bounds : u.InBounds urb) (left : u.receiveOffset ≤ urb.transferBufferLength) :
    u.inSubmission.InBuffer urb := by
  refine ⟨bounds.id, Or.inr ⟨u.receiveOffset, ?_, ?_⟩⟩
  · rw [inSubmission, bounds.transferDma]
  · rw [inSubmission, bounds.transferBufferLength, BitVec.toNat_setWidth, BitVec.toNat_sub_of_le left]
    have := urb.transferBufferLength.isLt
    rw [BitVec.le_def] at left
    omega

theorem dataTransferIn_bounded (bounds : u.InBounds urb) (left : u.receiveOffset ≤ urb.transferBufferLength) :
    UrbCall.Bounded urb q (u.dataTransferIn q) := by
  rcases u.dataTransferIn_uses q with ⟨refuses, -, present⟩ | ⟨submits, -, present⟩
  · exact ⟨fun v kept => Option.some.inj (present.symm.trans kept) ▸ bounds, refuses.makes⟩
  · refine ⟨fun v kept => ?_, submits.makes (inSubmission_inBuffer bounds left)⟩
    cases present.symm.trans kept
    exact { bounds with sent := left, received := Or.inr left }

theorem dataStart_bounded (bounds : u.InBounds urb) (left : u.receiveOffset ≤ urb.transferBufferLength) :
    UrbCall.Bounded urb q (u.dataStart q) := by
  unfold dataStart
  split
  · split
    · exact bounded_of_kept { bounds with received := Or.inr left } (.refl q)
    · exact bounded_of_kept { bounds with received := Or.inl rfl } (.refl q)
  · exact dataTransferIn_bounded bounds left

/-- What the T2 asks for is cut to what is left of the buffer. -/
theorem dataUpdate_bounded (bounds : u.InBounds urb) (msg : BceVhciMessage) :
    UrbCall.Bounded urb q (u.dataUpdate msg q) := by
  unfold dataUpdate
  split
  case isFalse => exact bounded_of_kept bounds (.refl q)
  case isTrue asked =>
    have left : u.receiveOffset ≤ urb.transferBufferLength := bounds.received.resolve_left (by simp [asked.1])
    rw [bounds.transferBufferLength]
    simp only
    generalize length : (if urb.transferBufferLength - u.sendOffset ≤ BitVec.setWidth 32 msg.param2 then
      urb.transferBufferLength - u.sendOffset else BitVec.setWidth 32 msg.param2) = trLen
    have room : u.sendOffset.toNat + trLen.toNat ≤ urb.transferBufferLength.toNat := by
      have fits := BitVec.toNat_sub_of_le bounds.sent
      have sent := BitVec.le_def.mp bounds.sent
      have cut : trLen ≤ urb.transferBufferLength - u.sendOffset := by
        rw [← length]
        split
        · exact BitVec.le_refl _
        · exact BitVec.le_of_lt (BitVec.not_le.mp ‹_›)
      rw [BitVec.le_def, fits] at cut
      omega
    have made : UrbSubmission.InBuffer
        ⟨u.id, u.urb.transferDma + u.sendOffset.setWidth 64, trLen.setWidth 64⟩ urb := by
      refine ⟨bounds.id, Or.inr ⟨u.sendOffset, by rw [bounds.transferDma], ?_⟩⟩
      rw [BitVec.toNat_setWidth]
      have := urb.transferBufferLength.isLt
      omega
    rcases u.sendOutData_uses (u.urb.transferDma + u.sendOffset.setWidth 64) (trLen.setWidth 64) q with
      ⟨refuses, failed⟩ | ⟨submits, sent⟩
    · split
      next run =>
        rw [run] at refuses
        exact ⟨fun v kept => Option.some.inj kept ▸ bounds, refuses.makes⟩
      next run =>
        rw [run] at failed
        cases failed
    · split
      next run =>
        rw [run] at sent
        cases sent
      next run =>
        rw [run] at submits
        refine ⟨fun v kept => ?_, submits.makes made⟩
        cases Option.some.inj kept
        refine { bounds with sent := ?_, received := Or.inr left }
        rw [BitVec.le_def, BitVec.toNat_add]
        have := urb.transferBufferLength.isLt
        omega

/-- A completion counts what was transferred; when that is beyond the buffer the URB is complete. -/
theorem dataTransferCompletion_bounded (bounds : u.InBounds urb) (c : BceSqCompletionData) :
    UrbCall.Bounded urb q (u.dataTransferCompletion c q) := by
  have kept := (u.dataTransferCompletion_uses c q).1
  unfold dataTransferCompletion at kept ⊢
  split at kept
  case isFalse waits =>
    rw [if_neg waits]
    exact bounded_of_kept bounds kept
  case isTrue waits =>
    rw [if_pos waits]
    simp only at kept ⊢
    split at kept
    case isTrue finished =>
      rw [if_pos finished]
      split at kept
      case isTrue data =>
        rw [if_pos data]
        exact bounded_of_gone rfl kept.makes
      case isFalse control =>
        rw [if_neg control]
        exact bounded_of_kept { bounds with received := Or.inl rfl } kept
    case isFalse left =>
      rw [if_neg left]
      rw [not_or, bounds.transferBufferLength] at left
      refine bounded_of_kept { bounds with received := Or.inr ?_ } kept
      exact BitVec.le_of_lt (BitVec.not_le.mp left.2)

theorem controlCheckStatus_bounded (bounds : u.InBounds urb) :
    UrbCall.Bounded urb q (u.controlCheckStatus q) := by
  obtain ⟨kept, same | ⟨-, gone⟩⟩ := u.controlCheckStatus_uses q
  · rw [same]
    exact bounded_of_kept bounds (.refl q)
  · exact bounded_of_gone gone kept.makes

/-- A control URB submits its setup packet or a part of its buffer. -/
theorem controlUpdate_bounded (bounds : u.InBounds urb) (msg : BceVhciMessage) :
    UrbCall.Bounded urb q (u.controlUpdate msg q) := by
  unfold controlUpdate
  split
  case isTrue => exact controlCheckStatus_bounded { bounds with }
  case isFalse =>
    split
    case isTrue asked =>
      have left : u.receiveOffset ≤ urb.transferBufferLength := bounds.received.resolve_left (by simp [asked.1])
      rcases u.sendOutData_uses u.urb.setupDma usbCtrlrequestSize q with ⟨refuses, failed⟩ | ⟨submits, sent⟩
      · split
        next run =>
          rw [run] at refuses
          exact ⟨fun v kept => Option.some.inj kept ▸ bounds, refuses.makes⟩
        next run =>
          rw [run] at failed
          cases failed
      · split
        next run =>
          rw [run] at sent
          cases sent
        next run =>
          rw [run] at submits
          refine ⟨fun v kept => Option.some.inj kept ▸ { bounds with received := Or.inr left }, submits.makes ?_⟩
          exact ⟨bounds.id, Or.inl ⟨bounds.setupDma, rfl⟩⟩
    case isFalse =>
      split
      · exact bounded_andThen (dataUpdate_bounded bounds msg) fun _ held => controlCheckStatus_bounded held
      · exact bounded_of_kept bounds (.refl q)

theorem controlTransferCompletion_bounded (bounds : u.InBounds urb) (c : BceSqCompletionData) :
    UrbCall.Bounded urb q (u.controlTransferCompletion c q) := by
  unfold controlTransferCompletion
  split
  case isTrue waits =>
    have left : u.receiveOffset ≤ urb.transferBufferLength := bounds.received.resolve_left (by simp [waits])
    have begins := dataStart_bounded (q := q) bounds left
    simp only
    split
    · exact bounded_of_gone rfl (begins.makes.trans (complete_sqKept _ _ _).makes)
    · exact bounded_andThen begins fun _ held => controlCheckStatus_bounded held
  case isFalse =>
    split
    · exact bounded_andThen (dataTransferCompletion_bounded bounds c) fun _ held => controlCheckStatus_bounded held
    · exact bounded_of_kept bounds (.refl q)

theorem update_bounded (bounds : u.InBounds urb) (msg : BceVhciMessage) :
    UrbCall.Bounded urb q (u.update msg q) := by
  unfold update
  split
  · exact bounded_of_kept bounds (.refl q)
  · split
    · exact controlUpdate_bounded bounds msg
    · exact dataUpdate_bounded bounds msg

theorem transferCompletion_bounded (bounds : u.InBounds urb) (c : BceSqCompletionData) :
    UrbCall.Bounded urb q (u.transferCompletion c q) := by
  unfold transferCompletion
  split
  · exact controlTransferCompletion_bounded bounds c
  · exact dataTransferCompletion_bounded bounds c

theorem resume_bounded (bounds : u.InBounds urb) : UrbCall.Bounded urb q (u.resume q) := by
  unfold resume
  split
  case isFalse => exact bounded_of_kept bounds (.refl q)
  case isTrue waits =>
    have left : u.receiveOffset ≤ urb.transferBufferLength := bounds.received.resolve_left (by simp [waits])
    have begins := dataTransferIn_bounded (q := q) bounds left
    simp only
    split
    · exact bounded_of_gone rfl (begins.makes.trans (complete_sqKept _ _ _).makes)
    · exact begins

theorem init_bounded (bounds : u.InBounds urb) (pending : u.state = .initPending) :
    UrbCall.Bounded urb q (u.init q) := by
  have left : u.receiveOffset ≤ urb.transferBufferLength := bounds.received.resolve_left (by simp [pending])
  have begins : UrbCall.Bounded urb q
      (if u.isControl then ⟨none, some { u with state := .controlWaitingForSetupRequest }, q⟩
        else u.dataStart q) := by
    split
    · exact bounded_of_kept { bounds with received := Or.inr left } (.refl q)
    · exact dataStart_bounded bounds left
  unfold init
  split
  · exact bounded_of_kept bounds (.refl q)
  · simp only
    generalize (if u.isControl then _ else u.dataStart q : UrbCall) = call at begins
    split
    · exact ⟨begins.kept, begins.makes.trans (SqKept.makes ⟨rfl, rfl, rfl, rfl⟩)⟩
    · exact begins

theorem bounded_makes {K : List Urb} {call : UrbCall} (known : urb ∈ K) (bounded : UrbCall.Bounded urb q call) :
    Makes (fun x => ∃ urb ∈ K, x.InBuffer urb) q call.q :=
  fun out x member => (bounded.makes out x member).imp_right fun made => ⟨urb, known, made⟩

/-- The URBs that the driver holds are in the bounds of some of those that were submitted to it, and
what it submits lies in their buffers. -/
theorem submissionSafe_inBounds (K : List Urb) :
    SubmissionSafe (fun u => ∃ urb ∈ K, u.InBounds urb) (fun x => ∃ urb ∈ K, x.InBuffer urb) where
  init := by
    rintro u q pending ⟨urb, known, bounds⟩ v kept
    exact ⟨urb, known, (init_bounded bounds pending).kept v kept⟩
  update := by
    rintro u msg q ⟨urb, known, bounds⟩ v kept
    exact ⟨urb, known, (update_bounded bounds msg).kept v kept⟩
  transferCompletion := by
    rintro u c q ⟨urb, known, bounds⟩ v kept
    exact ⟨urb, known, (transferCompletion_bounded bounds c).kept v kept⟩
  resume := by
    rintro u q ⟨urb, known, bounds⟩ v kept
    exact ⟨urb, known, (resume_bounded bounds).kept v kept⟩
  initMakes := by
    rintro u q pending ⟨urb, known, bounds⟩
    exact bounded_makes known (init_bounded bounds pending)
  updateMakes := by
    rintro u msg q ⟨urb, known, bounds⟩
    exact bounded_makes known (update_bounded bounds msg)
  completionMakes := by
    rintro u c q ⟨urb, known, bounds⟩
    exact bounded_makes known (transferCompletion_bounded bounds c)
  resumeMakes := by
    rintro u q ⟨urb, known, bounds⟩
    exact bounded_makes known (resume_bounded bounds)

end BceVhciUrb

namespace TransferRun

variable {s t : TransferRun}

/-- The URBs for which `bce_vhci_urb_create` is called. -/
def createdUrbs (as : List TransferStep) : List Urb :=
  as.filterMap fun a =>
    match a with
    | .op (.create urb _ _) => some urb
    | _ => none

/-- An URB begins with both offsets at 0. -/
theorem newUrb_inBounds (q : BceVhciTransferQueue) (urb : Urb) : (q.newUrb urb).InBounds urb where
  id := rfl
  transferDma := rfl
  setupDma := rfl
  transferBufferLength := rfl
  sent := by simp [BceVhciTransferQueue.newUrb, BitVec.le_def]
  received := Or.inr (by simp [BceVhciTransferQueue.newUrb, BitVec.le_def])

/-- In every run of a transfer queue, whatever sizes the T2 asks for and reports, what it may access for
the driver at any time is the setup packets and parts of the buffers of the URBs submitted to the queue. -/
theorem submissions_in_buffers (initial : machine.init s) (as : List TransferStep) (ran : machine.run s as = some t)
    (out : Bool) : ∀ x ∈ t.q.outstanding out, ∃ urb ∈ createdUrbs as, x.InBuffer urb := by
  have begins : ∀ urb allocated link, .op (.create urb allocated link) ∈ as →
      ∀ q : BceVhciTransferQueue, ∃ known ∈ createdUrbs as, (q.newUrb urb).InBounds known := by
    intro urb allocated link member q
    exact ⟨urb, List.mem_filterMap.mpr ⟨_, member, rfl⟩, newUrb_inBounds q urb⟩
  have safe := BceVhciUrb.submissionSafe_inBounds (createdUrbs as)
  exact (run_holds safe begins (holds_init initial) ran).2 out

/-- The T2 asks for more than there is, and reports more than was submitted. -/
theorem submissions_in_buffers_greedy : ∃ t, machine.run bulkOutFresh
      [.op (.create (sampleUrb 1 false) true none), .op (.event (bytesRequest 0xfffff) true),
        .op (.completion true ⟨bceCompletionSuccess, 0xfffff, 0⟩), .op .completionEnd,
        .op (.create (sampleUrb 2 false) true none), .op (.event (bytesRequest 0xfffff) true)] = some t ∧
    t.q.outstanding true = [⟨2, 0x10000, 512⟩] ∧
    ∀ x ∈ t.q.outstanding true, ∃ urb ∈ createdUrbs
      [.op (.create (sampleUrb 1 false) true none), .op (.event (bytesRequest 0xfffff) true),
        .op (.completion true ⟨bceCompletionSuccess, 0xfffff, 0⟩), .op .completionEnd,
        .op (.create (sampleUrb 2 false) true none), .op (.event (bytesRequest 0xfffff) true)],
      x.InBuffer urb := by
  obtain ⟨t, ran, left⟩ : ∃ t, machine.run bulkOutFresh
      [.op (.create (sampleUrb 1 false) true none), .op (.event (bytesRequest 0xfffff) true),
        .op (.completion true ⟨bceCompletionSuccess, 0xfffff, 0⟩), .op .completionEnd,
        .op (.create (sampleUrb 2 false) true none), .op (.event (bytesRequest 0xfffff) true)] = some t ∧
      t.q.outstanding true = [⟨2, 0x10000, 512⟩] :=
    ⟨_, rfl, rfl⟩
  exact ⟨t, ran, left, submissions_in_buffers bulkOutFresh_init _ ran true⟩

end TransferRun

end AppleBce

import AppleBce.Vhci.TransferOps

namespace AppleBce

open Basis

namespace BceVhciTransferQueue

variable {q r s : BceVhciTransferQueue}

@[simp] theorem setSq_sq_same (q : BceVhciTransferQueue) (fifo : BoundedFifo UrbSubmission) (out : Bool) :
    (q.setSq fifo out).sq out = some fifo := by
  cases out <;> rfl

@[simp] theorem setSq_sq_other (q : BceVhciTransferQueue) (fifo : BoundedFifo UrbSubmission) (out : Bool) :
    (q.setSq fifo out).sq (!out) = q.sq (!out) := by
  cases out <;> rfl

theorem outstanding_of_sq {out : Bool} (same : r.sq out = q.sq out) :
    r.outstanding out = q.outstanding out := by
  rw [outstanding, outstanding, same]

theorem outstanding_of_unused {endp : UsbEndpoint} {dir : DmaDataDirection} (unused : q.Unused endp dir)
    (out : Bool) : q.outstanding out = [] := by
  cases out with
  | true =>
    by_cases wants : dir = .toDevice ∨ dir = .bidirectional <;>
      simp [outstanding, sq, unused.sqOut, wants, BoundedFifo.empty]
  | false =>
    by_cases wants : dir = .fromDevice ∨ dir = .bidirectional <;>
      simp [outstanding, sq, unused.sqIn, wants, BoundedFifo.empty]

/-- Going from `q` to `r` the submission queues and the messages to the T2 are left alone. -/
structure SqKept (q r : BceVhciTransferQueue) : Prop where
  sqIn : r.sqIn = q.sqIn
  sqOut : r.sqOut = q.sqOut
  messages : r.messages = q.messages
  nullSq : r.nullSq = q.nullSq

/-- Going from `q` to `r` the submission `x` is appended to one of the queues. A message goes
with one on `sq_in`. -/
structure Submits (out : Bool) (x : UrbSubmission) (q r : BceVhciTransferQueue) : Prop where
  outstanding : r.outstanding out = q.outstanding out ++ [x]
  other : r.sq (!out) = q.sq (!out)
  present : (r.sq out).isSome
  before : (q.sq out).isSome
  messages : out → r.messages = q.messages
  nullSq : r.nullSq = q.nullSq

/-- Going from `q` to `r` a submission is attempted on a queue and fails. -/
structure Refuses (out : Bool) (q r : BceVhciTransferQueue) : Prop where
  sqIn : r.sqIn = q.sqIn
  sqOut : r.sqOut = q.sqOut
  messages : r.messages = q.messages
  nullSq : (q.sq out).isSome → r.nullSq = q.nullSq
  faults : q.nullSq → r.nullSq

theorem SqKept.refl (q : BceVhciTransferQueue) : q.SqKept q :=
  ⟨rfl, rfl, rfl, rfl⟩

theorem SqKept.trans (first : q.SqKept r) (second : r.SqKept s) : q.SqKept s :=
  ⟨second.sqIn.trans first.sqIn, second.sqOut.trans first.sqOut,
    second.messages.trans first.messages, second.nullSq.trans first.nullSq⟩

theorem SqKept.sq (kept : q.SqKept r) (out : Bool) : r.sq out = q.sq out := by
  cases out
  · exact kept.sqIn
  · exact kept.sqOut

theorem SqKept.outstanding (kept : q.SqKept r) (out : Bool) : r.outstanding out = q.outstanding out :=
  outstanding_of_sq (kept.sq out)

theorem Refuses.sq {out : Bool} (refuses : Refuses out q r) (side : Bool) : r.sq side = q.sq side := by
  cases side
  · exact refuses.sqIn
  · exact refuses.sqOut

/-- Keeping the queues before and behind a submission. -/
theorem Submits.kept {out : Bool} {x : UrbSubmission} (submits : Submits out x q r)
    (kept : r.SqKept s) : Submits out x q s where
  outstanding := (kept.outstanding out).trans submits.outstanding
  other := (kept.sq (!out)).trans submits.other
  present := by
    rw [kept.sq out]
    exact submits.present
  before := submits.before
  messages := fun here => kept.messages.trans (submits.messages here)
  nullSq := kept.nullSq.trans submits.nullSq

theorem Refuses.kept {out : Bool} (refuses : Refuses out q r) (kept : r.SqKept s) :
    Refuses out q s where
  sqIn := kept.sqIn.trans refuses.sqIn
  sqOut := kept.sqOut.trans refuses.sqOut
  messages := kept.messages.trans refuses.messages
  nullSq := fun here => kept.nullSq.trans (refuses.nullSq here)
  faults := fun fault => kept.nullSq.trans (refuses.faults fault)

end BceVhciTransferQueue

namespace BceVhciUrb

open BceVhciTransferQueue

variable {u v : BceVhciUrb} {q r : BceVhciTransferQueue}

theorem complete_sqKept (u : BceVhciUrb) (status : Int) (q : BceVhciTransferQueue) :
    q.SqKept (u.complete status q) :=
  ⟨rfl, rfl, rfl, rfl⟩

/-- Receiving begins with a submission on `sq_in`, or fails and leaves the URB as it is. -/
theorem dataTransferIn_uses (u : BceVhciUrb) (q : BceVhciTransferQueue) :
    (Refuses false q (u.dataTransferIn q).q ∧ (u.dataTransferIn q).ret = some .nomem ∧
      (u.dataTransferIn q).urb = some u) ∨
    (Submits false u.inSubmission q (u.dataTransferIn q).q ∧ (u.dataTransferIn q).ret = none ∧
      (u.dataTransferIn q).urb =
        some { u with sendOffset := u.receiveOffset, state := .waitingForCompletion }) := by
  rcases u.dataTransferIn_cases q with
    ⟨-, eq⟩ | ⟨-, missing, eq⟩ | ⟨fifo, -, present, -, eq⟩ | ⟨fifo, next, -, present, room, eq⟩
  · rw [eq]
    exact .inl ⟨⟨rfl, rfl, rfl, fun _ => rfl, fun fault => fault⟩, rfl, rfl⟩
  · rw [eq]
    refine .inl ⟨⟨rfl, rfl, rfl, ?_, fun _ => rfl⟩, rfl, rfl⟩
    intro present
    rw [BceVhciTransferQueue.sq, missing] at present
    cases present
  · rw [eq]
    exact .inl ⟨⟨rfl, rfl, rfl, fun _ => rfl, fun fault => fault⟩, rfl, rfl⟩
  · rw [eq]
    obtain ⟨-, items, -, -⟩ := BoundedFifo.submit_some room
    refine .inr ⟨⟨?_, rfl, rfl, ?_, nofun, rfl⟩, rfl, rfl⟩
    · show next.items = _
      simp only [outstanding, BceVhciTransferQueue.sq, present, items]
    · simp only [BceVhciTransferQueue.sq, present, Option.isSome_some]

/-- Sending makes a submission on `sq_out`, or fails. -/
theorem sendOutData_uses (u : BceVhciUrb) (addr size : BitVec 64) (q : BceVhciTransferQueue) :
    (Refuses true q (u.sendOutData addr size q).2 ∧ (u.sendOutData addr size q).1 = some .pipe) ∨
    (Submits true ⟨u.id, addr, size⟩ q (u.sendOutData addr size q).2 ∧
      (u.sendOutData addr size q).1 = none) := by
  rcases u.sendOutData_cases addr size q with
    ⟨missing, eq⟩ | ⟨fifo, present, -, eq⟩ | ⟨fifo, next, present, room, eq⟩
  · rw [eq]
    refine .inl ⟨⟨rfl, rfl, rfl, ?_, fun _ => rfl⟩, rfl⟩
    intro present
    rw [BceVhciTransferQueue.sq, missing] at present
    cases present
  · rw [eq]
    exact .inl ⟨⟨rfl, rfl, rfl, fun _ => rfl, fun fault => fault⟩, rfl⟩
  · rw [eq]
    obtain ⟨-, items, -, -⟩ := BoundedFifo.submit_some room
    refine .inr ⟨⟨?_, rfl, rfl, ?_, fun _ => rfl, rfl⟩, rfl⟩
    · show next.items = _
      simp only [outstanding, BceVhciTransferQueue.sq, present, items]
    · simp only [BceVhciTransferQueue.sq, present, Option.isSome_some]

/-- A message leaves a data URB as it is, or is the `TRANSFER_REQUEST` it waits for. -/
theorem dataUpdate_uses (u : BceVhciUrb) (msg : BceVhciMessage) (q : BceVhciTransferQueue) :
    (¬(u.state = .waitingForTransferRequest ∧ msg.cmd = BceVhciCommand.transferRequest.code) ∧
      u.dataUpdate msg q = ⟨some .again, some u, q⟩) ∨
    (u.state = .waitingForTransferRequest ∧ msg.cmd = BceVhciCommand.transferRequest.code ∧
      Refuses true q (u.dataUpdate msg q).q ∧ (u.dataUpdate msg q).ret = some .pipe ∧
      (u.dataUpdate msg q).urb = some u) ∨
    (u.state = .waitingForTransferRequest ∧ msg.cmd = BceVhciCommand.transferRequest.code ∧
      (u.dataUpdate msg q).ret = none ∧
      ∃ x v, x.urb = u.id ∧ Submits true x q (u.dataUpdate msg q).q ∧
        (u.dataUpdate msg q).urb = some v ∧ u.Same v ∧ v.state = .waitingForCompletion ∧
        v.receivedStatus = u.receivedStatus) := by
  unfold dataUpdate
  split
  case isFalse other => exact .inl ⟨other, rfl⟩
  case isTrue asked =>
    simp only
    generalize (if u.urb.transferBufferLength - u.sendOffset ≤ BitVec.setWidth 32 msg.param2 then
      u.urb.transferBufferLength - u.sendOffset else BitVec.setWidth 32 msg.param2) = trLen
    rcases u.sendOutData_uses (u.urb.transferDma + u.sendOffset.setWidth 64) (trLen.setWidth 64) q with
      ⟨refuses, failed⟩ | ⟨submits, sent⟩
    · refine .inr (.inl ⟨asked.1, asked.2, ?_⟩)
      split
      · rename_i run
        rw [run] at refuses failed
        cases failed
        exact ⟨refuses, rfl, rfl⟩
      · rename_i run
        rw [run] at failed
        cases failed
    · refine .inr (.inr ⟨asked.1, asked.2, ?_⟩)
      split
      · rename_i run
        rw [run] at sent
        cases sent
      · rename_i run
        rw [run] at submits
        exact ⟨rfl, _, _, rfl, submits, rfl, ⟨rfl, rfl, rfl, rfl⟩, rfl, rfl⟩

/-- A completion finishes a data URB, brings a control URB to the end of its data stage, or is
one of several. -/
theorem dataTransferCompletion_uses (u : BceVhciUrb) (c : BceSqCompletionData)
    (q : BceVhciTransferQueue) : q.SqKept (u.dataTransferCompletion c q).q ∧
      ((u.state ≠ .waitingForCompletion ∧ u.dataTransferCompletion c q = ⟨none, some u, q⟩) ∨
      (u.state = .waitingForCompletion ∧ u.isControl = false ∧
        (u.dataTransferCompletion c q).ret = some .noent ∧ (u.dataTransferCompletion c q).urb = none) ∨
      (u.state = .waitingForCompletion ∧ u.isControl = true ∧ (u.dataTransferCompletion c q).q = q ∧
        (u.dataTransferCompletion c q).ret = none ∧
        ∃ v, (u.dataTransferCompletion c q).urb = some v ∧ u.Same v ∧ v.state = .dataTransferComplete ∧
          v.receivedStatus = u.receivedStatus) ∨
      (u.state = .waitingForCompletion ∧ u.dir ≠ .fromDevice ∧ (u.dataTransferCompletion c q).q = q ∧
        (u.dataTransferCompletion c q).ret = none ∧
        ∃ v, (u.dataTransferCompletion c q).urb = some v ∧ u.Same v ∧ v.state = .waitingForCompletion ∧
          v.receivedStatus = u.receivedStatus)) := by
  unfold dataTransferCompletion
  split
  case isFalse other => exact ⟨.refl q, .inl ⟨other, rfl⟩⟩
  case isTrue waiting =>
    simp only
    split
    case isTrue finished =>
      split
      case isTrue data =>
        refine ⟨?_, .inr (.inl ⟨waiting, by simpa using data, rfl, rfl⟩)⟩
        split
        · exact complete_sqKept _ 0 q
        · exact complete_sqKept _ 0 q
      case isFalse control =>
        refine ⟨.refl q, .inr (.inr (.inl ⟨waiting, by simpa using control, rfl, rfl, ?_⟩))⟩
        exact ⟨_, rfl, ⟨rfl, rfl, rfl, rfl⟩, rfl, rfl⟩
    case isFalse left =>
      rw [not_or] at left
      refine ⟨.refl q, .inr (.inr (.inr ⟨waiting, left.1, rfl, rfl, ?_⟩))⟩
      exact ⟨_, rfl, ⟨rfl, rfl, rfl, rfl⟩, waiting, rfl⟩

/-- Looking at the received status leaves a control URB as it is, or completes it. -/
theorem controlCheckStatus_uses (u : BceVhciUrb) (q : BceVhciTransferQueue) :
    q.SqKept (u.controlCheckStatus q).q ∧
      (u.controlCheckStatus q = ⟨none, some u, q⟩ ∨
        ((u.controlCheckStatus q).ret = some .noent ∧ (u.controlCheckStatus q).urb = none)) := by
  unfold controlCheckStatus
  split
  · exact ⟨.refl q, .inl rfl⟩
  · split
    · simp only
      split
      · exact ⟨⟨rfl, rfl, rfl, rfl⟩, .inr ⟨rfl, rfl⟩⟩
      · exact ⟨⟨rfl, rfl, rfl, rfl⟩, .inr ⟨rfl, rfl⟩⟩
    · exact ⟨.refl q, .inl rfl⟩

/-- What a message does to the URB it reaches and to the submission queues: nothing to the
queues, or it is a `TRANSFER_REQUEST` that is answered on `sq_out`, or cannot be. -/
theorem update_uses (u : BceVhciUrb) (msg : BceVhciMessage) (q : BceVhciTransferQueue) :
    (q.SqKept (u.update msg q).q ∧ ∀ v, (u.update msg q).urb = some v → v.state = u.state) ∨
    (Refuses true q (u.update msg q).q ∧ msg.cmd = BceVhciCommand.transferRequest.code ∧
      (u.state = .waitingForTransferRequest ∨ u.isControl ∧ u.state = .controlWaitingForSetupRequest) ∧
      ∀ v, (u.update msg q).urb = some v → v.state = u.state) ∨
    (∃ x, x.urb = u.id ∧ Submits true x q (u.update msg q).q ∧
      msg.cmd = BceVhciCommand.transferRequest.code ∧
      ((u.state = .waitingForTransferRequest ∧
        ∀ v, (u.update msg q).urb = some v → v.state = .waitingForCompletion) ∨
      (u.isControl ∧ u.state = .controlWaitingForSetupRequest ∧
        ∀ v, (u.update msg q).urb = some v → v.state = .controlWaitingForSetupCompletion))) := by
  unfold update
  split
  · refine .inl ⟨.refl q, ?_⟩
    intro v kept
    cases kept
    rfl
  · split
    case isFalse =>
      rcases u.dataUpdate_uses msg q with ⟨-, eq⟩ | ⟨waits, asked, refuses, -, kept⟩ |
        ⟨waits, asked, -, x, v, own, submits, present, -, state, -⟩
      · rw [eq]
        refine .inl ⟨.refl q, ?_⟩
        intro v kept
        cases kept
        rfl
      · refine .inr (.inl ⟨refuses, asked, .inl waits, ?_⟩)
        intro v present
        cases kept.symm.trans present
        rfl
      · refine .inr (.inr ⟨x, own, submits, asked, .inl ⟨waits, ?_⟩⟩)
        intro w present'
        cases present.symm.trans present'
        exact state
    case isTrue control =>
      unfold controlUpdate
      split
      · obtain ⟨keeps, done⟩ := { u with receivedStatus := msg.status }.controlCheckStatus_uses q
        refine .inl ⟨keeps, ?_⟩
        intro v kept
        rcases done with eq | ⟨-, gone⟩
        · rw [eq] at kept
          cases kept
          rfl
        · rw [gone] at kept
          cases kept
      · split
        case isTrue asked =>
          rcases u.sendOutData_uses u.urb.setupDma usbCtrlrequestSize q with
            ⟨refuses, failed⟩ | ⟨submits, sent⟩
          · refine .inr (.inl ?_)
            split
            · rename_i run
              rw [run] at refuses
              refine ⟨refuses, asked.2, .inr ⟨control, asked.1⟩, ?_⟩
              intro v kept
              cases kept
              rfl
            · rename_i run
              rw [run] at failed
              cases failed
          · refine .inr (.inr ⟨⟨u.id, u.urb.setupDma, usbCtrlrequestSize⟩, rfl, ?_⟩)
            split
            · rename_i run
              rw [run] at sent
              cases sent
            · rename_i run
              rw [run] at submits
              refine ⟨submits, asked.2, .inr ⟨control, asked.1, ?_⟩⟩
              intro v kept
              cases kept
              rfl
        case isFalse =>
          split
          case isFalse =>
            refine .inl ⟨.refl q, ?_⟩
            intro v kept
            cases kept
            rfl
          case isTrue =>
            rcases u.dataUpdate_uses msg q with ⟨-, eq⟩ | ⟨waits, asked, refuses, failed, kept⟩ |
              ⟨waits, asked, sent, x, v, own, submits, present, -, state, -⟩
            · rw [eq]
              refine .inl ⟨.refl q, ?_⟩
              intro v kept
              cases kept
              rfl
            · refine .inr (.inl ?_)
              simp only [UrbCall.andThen, failed]
              refine ⟨refuses, asked, .inl waits, ?_⟩
              intro v present
              cases kept.symm.trans present
              rfl
            · refine .inr (.inr ⟨x, own, ?_⟩)
              simp only [UrbCall.andThen, sent, present]
              obtain ⟨keeps, done⟩ := v.controlCheckStatus_uses (u.dataUpdate msg q).q
              refine ⟨submits.kept keeps, asked, .inl ⟨waits, ?_⟩⟩
              intro w kept
              rcases done with eq | ⟨-, gone⟩
              · rw [eq] at kept
                cases kept
                exact state
              · rw [gone] at kept
                cases kept

theorem refuses_of_kept {out : Bool} (kept : q.SqKept r) : Refuses out q r where
  sqIn := kept.sqIn
  sqOut := kept.sqOut
  messages := kept.messages
  nullSq := fun _ => kept.nullSq
  faults := fun fault => kept.nullSq.trans fault

/-- The data stage begins by waiting for the T2, by having nothing to send, or by receiving. -/
theorem dataStart_uses (u : BceVhciUrb) (q : BceVhciTransferQueue) :
    (u.dir = .toDevice ∧ (u.dataStart q).q = q ∧ (u.dataStart q).ret = none ∧
      ∃ v, (u.dataStart q).urb = some v ∧ u.Same v ∧ v.receivedStatus = u.receivedStatus ∧
        (v.state = .waitingForTransferRequest ∨ v.state = .dataTransferComplete)) ∨
    (u.dir ≠ .toDevice ∧ u.dataStart q = u.dataTransferIn q) := by
  unfold dataStart
  split
  case isTrue outgoing =>
    split
    · exact .inl ⟨outgoing, rfl, rfl, _, rfl, ⟨rfl, rfl, rfl, rfl⟩, rfl, .inl rfl⟩
    · exact .inl ⟨outgoing, rfl, rfl, _, rfl, ⟨rfl, rfl, rfl, rfl⟩, rfl, .inr rfl⟩
  case isFalse incoming => exact .inr ⟨incoming, rfl⟩

/-- Starting an URB fails and leaves it as it is, needs no submission, or begins to receive. -/
theorem init_uses (u : BceVhciUrb) (q : BceVhciTransferQueue) :
    (Refuses false q (u.init q).q ∧ (u.init q).ret ≠ none ∧ (u.init q).urb = some u) ∨
    (q.SqKept (u.init q).q ∧ (u.init q).ret = none ∧ (u.isControl ∨ u.dir = .toDevice) ∧
      ∃ v, (u.init q).urb = some v ∧ u.Same v ∧ v.receivedStatus = u.receivedStatus ∧
        (u.isControl ∧ v.state = .controlWaitingForSetupRequest ∨
          u.isControl = false ∧
            (v.state = .waitingForTransferRequest ∨ v.state = .dataTransferComplete))) ∨
    (Submits false u.inSubmission q (u.init q).q ∧ (u.init q).ret = none ∧ u.isControl = false ∧
      u.dir ≠ .toDevice ∧
      ∃ v, (u.init q).urb = some v ∧ u.Same v ∧ v.receivedStatus = u.receivedStatus ∧
        v.state = .waitingForCompletion) := by
  unfold init
  split
  · exact .inl ⟨refuses_of_kept (.refl q), nofun, rfl⟩
  · cases control : u.isControl with
    | true =>
      simp only [↓reduceIte]
      exact .inr (.inl ⟨⟨rfl, rfl, rfl, rfl⟩, trivial, .inl trivial, _, rfl,
        ⟨rfl, rfl, rfl, control.symm⟩, rfl, .inl ⟨trivial, rfl⟩⟩)
    | false =>
      simp only [Bool.false_eq_true, ↓reduceIte, false_or, false_and, true_and]
      rcases u.dataStart_uses q with ⟨outgoing, same, began, v, present, sameUrb, status, state⟩ |
        ⟨incoming, eq⟩
      · simp only [began, ↓reduceIte, same]
        exact .inr (.inl ⟨⟨rfl, rfl, rfl, rfl⟩, trivial, outgoing, v, present, sameUrb, status, state⟩)
      · rw [eq]
        rcases u.dataTransferIn_uses q with ⟨refuses, failed, present⟩ | ⟨submits, began, present⟩
        · simp only [failed, reduceCtorEq, ↓reduceIte]
          exact .inl ⟨refuses, nofun, present⟩
        · simp only [began, ↓reduceIte]
          exact .inr (.inr ⟨submits.kept ⟨rfl, rfl, rfl, rfl⟩, trivial, incoming, _, present,
            ⟨rfl, rfl, rfl, rfl⟩, rfl, rfl⟩)

/-- No URB is started with a submission on `sq_out`. -/
theorem init_sqOut (u : BceVhciUrb) (q : BceVhciTransferQueue) : (u.init q).q.sqOut = q.sqOut := by
  rcases u.init_uses q with ⟨refuses, -⟩ | ⟨kept, -⟩ | ⟨submits, -⟩
  · exact refuses.sqOut
  · exact kept.sqOut
  · exact submits.other

/-- An URB that cannot be started was refused a submission to receive with. -/
theorem init_refuses {u : BceVhciUrb} {q : BceVhciTransferQueue} {e : Errno} (failed : (u.init q).ret = some e) :
    Refuses false q (u.init q).q := by
  rcases u.init_uses q with ⟨refuses, -⟩ | ⟨-, succeeded, -⟩ | ⟨-, succeeded, -⟩
  · exact refuses
  · rw [succeeded] at failed
    cases failed
  · rw [succeeded] at failed
    cases failed

theorem resume_idle {u : BceVhciUrb} {q : BceVhciTransferQueue} (idle : u.state ≠ .waitingForCompletion) :
    u.resume q = ⟨none, some u, q⟩ :=
  if_neg idle

/-- Resuming an URB leaves it alone unless it waits for a completion. That one receives again,
or is completed when it cannot. -/
theorem resume_uses (u : BceVhciUrb) (q : BceVhciTransferQueue) :
    (u.state ≠ .waitingForCompletion ∧ u.resume q = ⟨none, some u, q⟩) ∨
    (u.state = .waitingForCompletion ∧ Refuses false q (u.resume q).q ∧ (u.resume q).urb = none) ∨
    (u.state = .waitingForCompletion ∧ Submits false u.inSubmission q (u.resume q).q ∧
      (u.resume q).urb =
        some { u with sendOffset := u.receiveOffset, state := .waitingForCompletion }) := by
  unfold resume
  split
  case isFalse other => exact .inl ⟨other, rfl⟩
  case isTrue waiting =>
    rcases u.dataTransferIn_uses q with ⟨refuses, failed, present⟩ | ⟨submits, began, present⟩
    · simp only [failed, present]
      exact .inr (.inl ⟨waiting, refuses.kept (complete_sqKept u _ _), trivial⟩)
    · simp only [began, present]
      exact .inr (.inr ⟨waiting, submits, trivial⟩)

/-- What the completion of the setup packet makes of a control URB: it begins the data stage, it
is completed when that fails, or it goes on to wait for the T2. -/
theorem setupCompletion_uses (u : BceVhciUrb) (c : BceSqCompletionData) (q : BceVhciTransferQueue)
    (waiting : u.state = .controlWaitingForSetupCompletion) :
    (u.dir = .toDevice ∧ q.SqKept (u.controlTransferCompletion c q).q ∧
      ∀ v, (u.controlTransferCompletion c q).urb = some v →
        v.state = .waitingForTransferRequest ∨ v.state = .dataTransferComplete) ∨
    (u.dir ≠ .toDevice ∧ Refuses false q (u.controlTransferCompletion c q).q ∧
      (u.controlTransferCompletion c q).urb = none) ∨
    (u.dir ≠ .toDevice ∧ Submits false u.inSubmission q (u.controlTransferCompletion c q).q ∧
      ∀ v, (u.controlTransferCompletion c q).urb = some v → v.state = .waitingForCompletion) := by
  unfold controlTransferCompletion
  simp only [waiting, ↓reduceIte]
  rcases u.dataStart_uses q with ⟨outgoing, same, began, v, present, -, -, state⟩ | ⟨incoming, eq⟩
  · left
    simp only [began, present, UrbCall.andThen, same]
    obtain ⟨keeps, done⟩ := v.controlCheckStatus_uses q
    refine ⟨outgoing, keeps, ?_⟩
    intro w kept
    rcases done with eq | ⟨-, gone⟩
    · rw [eq] at kept
      cases kept
      exact state
    · rw [gone] at kept
      cases kept
  · rw [eq]
    rcases u.dataTransferIn_uses q with ⟨refuses, failed, present⟩ | ⟨submits, began, present⟩
    · simp only [failed, present]
      exact .inr (.inl ⟨incoming, refuses.kept (complete_sqKept u _ _), trivial⟩)
    · right
      right
      simp only [began, present, UrbCall.andThen]
      obtain ⟨keeps, done⟩ := { u with sendOffset := u.receiveOffset, state := .waitingForCompletion
        : BceVhciUrb }.controlCheckStatus_uses (u.dataTransferIn q).q
      refine ⟨incoming, submits.kept keeps, ?_⟩
      intro w kept
      rcases done with eq | ⟨-, gone⟩
      · rw [eq] at kept
        cases kept
        rfl
      · rw [gone] at kept
        cases kept

/-- What a completion makes of the URB it is taken for. Only the completion of a setup packet
begins another transfer. -/
theorem transferCompletion_uses (u : BceVhciUrb) (c : BceSqCompletionData) (q : BceVhciTransferQueue) :
    (q.SqKept (u.transferCompletion c q).q ∧ ∀ v, (u.transferCompletion c q).urb = some v →
      v.state = u.state ∨ u.isControl ∧ v.state = .dataTransferComplete ∨
        u.isControl ∧ u.state = .controlWaitingForSetupCompletion ∧ u.dir = .toDevice ∧
          v.state = .waitingForTransferRequest) ∨
    (u.isControl ∧ u.state = .controlWaitingForSetupCompletion ∧ u.dir ≠ .toDevice ∧
      Refuses false q (u.transferCompletion c q).q ∧ (u.transferCompletion c q).urb = none) ∨
    (u.isControl ∧ u.state = .controlWaitingForSetupCompletion ∧ u.dir ≠ .toDevice ∧
      Submits false u.inSubmission q (u.transferCompletion c q).q ∧
      ∀ v, (u.transferCompletion c q).urb = some v → v.state = .waitingForCompletion) := by
  unfold transferCompletion
  split
  case isFalse data =>
    obtain ⟨keeps, done⟩ := u.dataTransferCompletion_uses c q
    refine .inl ⟨keeps, ?_⟩
    intro v kept
    rcases done with ⟨-, eq⟩ | ⟨-, -, -, gone⟩ | ⟨-, control, -⟩ | ⟨waiting, -, -, -, w, present, -, state, -⟩
    · rw [eq] at kept
      cases kept
      exact .inl rfl
    · rw [gone] at kept
      cases kept
    · exact absurd control data
    · cases present.symm.trans kept
      exact .inl (state.trans waiting.symm)
  case isTrue control =>
    by_cases waiting : u.state = .controlWaitingForSetupCompletion
    · rcases u.setupCompletion_uses c q waiting with ⟨outgoing, keeps, states⟩ |
        ⟨incoming, refuses, gone⟩ | ⟨incoming, submits, states⟩
      · refine .inl ⟨keeps, ?_⟩
        intro v kept
        rcases states v kept with state | state
        · exact .inr (.inr ⟨control, waiting, outgoing, state⟩)
        · exact .inr (.inl ⟨control, state⟩)
      · exact .inr (.inl ⟨control, waiting, incoming, refuses, gone⟩)
      · exact .inr (.inr ⟨control, waiting, incoming, submits, states⟩)
    · left
      unfold controlTransferCompletion
      rw [if_neg waiting]
      split
      case isFalse =>
        refine ⟨.refl q, ?_⟩
        intro v kept
        cases kept
        exact .inl rfl
      case isTrue =>
        obtain ⟨keeps, done⟩ := u.dataTransferCompletion_uses c q
        have after : ∀ v, (u.dataTransferCompletion c q).urb = some v →
            v.state = u.state ∨ v.state = .dataTransferComplete := by
          intro v kept
          rcases done with ⟨-, eq⟩ | ⟨-, -, -, gone⟩ | ⟨-, -, -, -, w, present, -, state, -⟩ |
            ⟨waiting, -, -, -, w, present, -, state, -⟩
          · rw [eq] at kept
            cases kept
            exact .inl rfl
          · rw [gone] at kept
            cases kept
          · cases present.symm.trans kept
            exact .inr state
          · cases present.symm.trans kept
            exact .inl (state.trans waiting.symm)
        unfold UrbCall.andThen
        split
        case h_2 =>
          refine ⟨keeps, ?_⟩
          intro v kept
          exact (after v kept).imp_right fun state => .inl ⟨control, state⟩
        case h_1 w _ present =>
          obtain ⟨keeps', done'⟩ := w.controlCheckStatus_uses (u.dataTransferCompletion c q).q
          refine ⟨keeps.trans keeps', ?_⟩
          intro v kept
          rcases done' with eq | ⟨-, gone⟩
          · rw [eq] at kept
            cases kept
            exact (after w present).imp_right fun state => .inl ⟨control, state⟩
          · rw [gone] at kept
            cases kept

/-- Nothing is sent for a completion. -/
theorem transferCompletion_sqOut (u : BceVhciUrb) (c : BceSqCompletionData) (q : BceVhciTransferQueue) :
    (u.transferCompletion c q).q.sqOut = q.sqOut := by
  rcases u.transferCompletion_uses c q with ⟨kept, -⟩ | ⟨-, -, -, refuses, -⟩ | ⟨-, -, -, submits, -⟩
  · exact kept.sqOut
  · exact refuses.sqOut
  · exact submits.other

end BceVhciUrb

end AppleBce

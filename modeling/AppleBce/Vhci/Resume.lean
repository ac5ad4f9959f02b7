import AppleBce.Vhci.Loads
import AppleBce.Vhci.TransferRun

namespace AppleBce

open Basis

namespace BceVhciTransferQueue

variable {q r s : BceVhciTransferQueue} {u v : BceVhciUrb} {done rest : List BceVhciUrb}

/-- `bce_vhci_transfer_queue_do_resume`, when the T2 answers the command. -/
def doResume (q : BceVhciTransferQueue) (env : PauseEnv) : Int × BceVhciTransferQueue :=
  let answered := q.setStateAnswered env
  if env.status ≠ 0 then (env.status, answered)
  else if ¬answered.IsInState .active then (Errno.inval.neg, answered)
  else (0, answered.resumeSection)

/-- `bce_vhci_transfer_queue_resume`, when nothing else happens to the queue meanwhile. -/
def transferQueueResume (q : BceVhciTransferQueue) (src : BceVhciPauseSource) (env : PauseEnv) :
    Int × BceVhciTransferQueue :=
  if ¬q.pausedFor src then (0, q)
  else if q.pausedBy &&& ~~~src.bit ≠ 0 then (0, q.clearPaused src)
  else
    match q.doResume env with
    | (0, q) => (0, q.clearPaused src)
    | (status, q) => (status, q)

/-- An URB that waits for a DMA completion has exactly one submission outstanding, on the queue
its transfer needs. -/
def Served (q : BceVhciTransferQueue) (u : BceVhciUrb) : Prop :=
  u.awaitsDma → q.load u.out u.id = 1 ∧ q.load (!u.out) u.id = 0

/-- Every linked URB is served, and no queue was used that the endpoint does not have. -/
def Reissued (q : BceVhciTransferQueue) : Prop :=
  q.nullSq = false ∧ ∀ u ∈ q.urbList, q.Served u

/-- The free places of `sq_in`. -/
def room (q : BceVhciTransferQueue) : Option Nat :=
  q.sqIn.map BoundedFifo.available

/-- The linked URBs are such that `do_resume` re-issues the right ones, given the room on `sq_in`,
the free slots and the answers of the message queue. None waits for the completion of its setup
packet, none that waits to have sent its data gets a place on `sq_in`, and where an URB that is
still pending finds no slot, none behind it waits. -/
def ResumesRight : Option Nat → Nat → List Bool → List BceVhciUrb → Prop
  | _, _, _, [] => True
  | room, slots, answers, u :: rest =>
    match u.state with
    | .initPending =>
      if slots = 0 then ∀ v ∈ rest, v.awaitsDma = false
      else if u.isControl ∨ u.dir = .toDevice then ResumesRight room (slots - 1) answers rest
      else if answers.headD true = false ∨ room = some 0 then
        ResumesRight room slots answers.tail rest
      else ResumesRight (room.map (· - 1)) (slots - 1) answers.tail rest
    | .waitingForCompletion =>
      if answers.headD true = false ∨ room = some 0 then
        ResumesRight room (slots + 1) answers.tail rest
      else u.dir ≠ .toDevice ∧ ResumesRight (room.map (· - 1)) slots answers.tail rest
    | .controlWaitingForSetupCompletion => False
    | _ => ResumesRight room slots answers rest

/-- The state of a paused queue from which a resume re-issues the right URBs. -/
def Resumable (q : BceVhciTransferQueue) : Prop :=
  ResumesRight q.room q.remainingActiveRequests q.reservations q.urbList

/-- The submissions of an URB are those its state calls for. -/
def Loaded (q : BceVhciTransferQueue) (u : BceVhciUrb) : Prop :=
  q.load u.out u.id = u.awaitsDma.toNat ∧ q.load (!u.out) u.id = 0

theorem served_of_loaded (loaded : q.Loaded u) : q.Served u := by
  intro awaits
  rw [Loaded, awaits] at loaded
  exact loaded

theorem loaded_of_empty (empty : ∀ out, q.load out u.id = 0) (idle : u.awaitsDma = false) :
    q.Loaded u := by
  rw [Loaded, idle]
  exact ⟨empty _, empty _⟩

theorem loaded_of_touches {id : Nat} (loaded : q.Loaded u) (touches : Touches id q r)
    (apart : u.id ≠ id) : r.Loaded u := by
  rw [Loaded, touches.loads _ _ apart, touches.loads _ _ apart]
  exact loaded

theorem SqKept.room (kept : q.SqKept r) : r.room = q.room := by
  rw [BceVhciTransferQueue.room, kept.sqIn]
  rfl

end BceVhciTransferQueue

namespace BceVhciUrb

open BceVhciTransferQueue

variable {u v : BceVhciUrb} {q r : BceVhciTransferQueue}

/-- Receiving takes an answer of the message queue and, when it begins, a place on `sq_in`. -/
theorem dataTransferIn_room (u : BceVhciUrb) (q : BceVhciTransferQueue) :
    (u.dataTransferIn q).q.reservations = q.reservations.tail ∧
      (((q.reservations.headD true = false ∨ q.room = some 0) ∧
          q.SqKept (u.dataTransferIn q).q ∧ (u.dataTransferIn q).ret = some .nomem ∧
          (u.dataTransferIn q).urb = some u) ∨
        (¬(q.reservations.headD true = false ∨ q.room = some 0) ∧ q.room = none ∧
          (u.dataTransferIn q).q.nullSq ∧ (u.dataTransferIn q).ret = some .nomem ∧
          (u.dataTransferIn q).urb = some u) ∨
        (¬(q.reservations.headD true = false ∨ q.room = some 0) ∧
          Submits false u.inSubmission q (u.dataTransferIn q).q ∧
          (u.dataTransferIn q).q.room = q.room.map (· - 1) ∧ (u.dataTransferIn q).ret = none ∧
          (u.dataTransferIn q).urb =
            some { u with sendOffset := u.receiveOffset, state := .waitingForCompletion })) := by
  have uses := u.dataTransferIn_uses q
  rcases u.dataTransferIn_cases q with
    ⟨refused, eq⟩ | ⟨granted, missing, eq⟩ | ⟨fifo, granted, present, full, eq⟩ |
    ⟨fifo, next, granted, present, room, eq⟩
  · rw [eq]
    exact ⟨rfl, .inl ⟨.inl refused, ⟨rfl, rfl, rfl, rfl⟩, rfl, rfl⟩⟩
  · have none : q.room = none := by
      rw [BceVhciTransferQueue.room, missing]
      rfl
    have open_ : ¬(q.reservations.headD true = false ∨ q.room = some 0) := by
      rw [none, show q.reservations.headD true = true from granted]
      simp
    rw [eq]
    exact ⟨rfl, .inr (.inl ⟨open_, none, rfl, rfl, rfl⟩)⟩
  · have empty : q.room = some 0 := by
      rw [BceVhciTransferQueue.room, present, Option.map_some, BoundedFifo.available_of_submit_none full]
    rw [eq]
    exact ⟨rfl, .inl ⟨.inr empty, ⟨rfl, rfl, rfl, rfl⟩, rfl, rfl⟩⟩
  · obtain ⟨free, items, reserved, capacity⟩ := BoundedFifo.submit_some room
    have open_ : ¬(q.reservations.headD true = false ∨ q.room = some 0) := by
      rw [BceVhciTransferQueue.room, present, Option.map_some, BoundedFifo.available,
        show q.reservations.headD true = true from granted]
      simp
      omega
    have after : (u.dataTransferIn q).q.room = q.room.map (· - 1) := by
      rw [eq]
      show some next.available = _
      rw [BceVhciTransferQueue.room, present, Option.map_some, Option.map_some, BoundedFifo.available,
        BoundedFifo.available, items, reserved, capacity, List.length_append, List.length_singleton]
      congr 1
      omega
    rcases uses with ⟨-, failed, -⟩ | ⟨submits, began, started⟩
    · rw [eq] at failed
      cases failed
    · refine ⟨?_, .inr (.inr ⟨open_, submits, after, began, started⟩)⟩
      rw [eq]
      rfl

/-- Resuming an URB that waits for a completion. -/
theorem resume_room (u : BceVhciUrb) (q : BceVhciTransferQueue)
    (waiting : u.state = .waitingForCompletion) :
    (u.resume q).q.reservations = q.reservations.tail ∧
      (((q.reservations.headD true = false ∨ q.room = some 0) ∧ q.SqKept (u.resume q).q ∧
          (u.resume q).urb = none ∧
          (u.resume q).q.remainingActiveRequests = q.remainingActiveRequests + 1) ∨
        (¬(q.reservations.headD true = false ∨ q.room = some 0) ∧ q.room = none ∧
          (u.resume q).q.nullSq) ∨
        (¬(q.reservations.headD true = false ∨ q.room = some 0) ∧
          Submits false u.inSubmission q (u.resume q).q ∧
          (u.resume q).q.room = q.room.map (· - 1) ∧
          (u.resume q).q.remainingActiveRequests = q.remainingActiveRequests ∧
          (u.resume q).urb =
            some { u with sendOffset := u.receiveOffset, state := .waitingForCompletion })) := by
  obtain ⟨answers, cases⟩ := u.dataTransferIn_room q
  have remaining := (u.dataTransferIn_starts q).frame.remaining
  unfold resume
  rw [if_pos waiting]
  rcases cases with ⟨refused, kept, failed, present⟩ | ⟨open_, missing, fault, failed, present⟩ |
    ⟨open_, submits, room, began, present⟩
  · simp only [failed, present]
    refine ⟨answers, .inl ⟨refused, kept.trans (complete_sqKept u _ _), trivial, ?_⟩⟩
    rw [u.complete_remaining, remaining, started, waiting]
    rfl
  · simp only [failed, present]
    exact ⟨answers, .inr (.inl ⟨open_, missing, fault⟩)⟩
  · simp only [began, present]
    exact ⟨answers, .inr (.inr ⟨open_, submits, room, remaining, trivial⟩)⟩

/-- Starting an URB that needs no submission. -/
theorem init_room_plain (u : BceVhciUrb) (q : BceVhciTransferQueue)
    (slots : q.remainingActiveRequests ≠ 0) (plain : u.isControl ∨ u.dir = .toDevice) :
    q.SqKept (u.init q).q ∧ (u.init q).q.reservations = q.reservations ∧
      (u.init q).q.remainingActiveRequests = q.remainingActiveRequests - 1 ∧
      ∃ v, (u.init q).urb = some v ∧ u.Same v ∧ v.awaitsDma = false := by
  unfold init
  rw [if_neg slots]
  cases control : u.isControl with
  | true =>
    simp only [↓reduceIte]
    exact ⟨⟨rfl, rfl, rfl, rfl⟩, trivial, trivial, _, rfl, ⟨rfl, rfl, rfl, control.symm⟩, rfl⟩
  | false =>
    have outgoing : u.dir = .toDevice := plain.resolve_left (by rw [control]; nofun)
    simp only [Bool.false_eq_true, ↓reduceIte]
    rcases u.dataStart_uses q with ⟨-, same, began, v, present, sameUrb, -, state⟩ | ⟨incoming, -⟩
    · simp only [began, ↓reduceIte, same]
      refine ⟨⟨rfl, rfl, rfl, rfl⟩, trivial, trivial, v, present, sameUrb, ?_⟩
      rcases state with state | state <;> rw [awaitsDma, state] <;> rfl
    · exact absurd outgoing incoming

/-- Starting an URB that receives. -/
theorem init_room_in (u : BceVhciUrb) (q : BceVhciTransferQueue)
    (slots : q.remainingActiveRequests ≠ 0) (incoming : ¬(u.isControl ∨ u.dir = .toDevice)) :
    (u.init q).q.reservations = q.reservations.tail ∧
      (((q.reservations.headD true = false ∨ q.room = some 0) ∧ q.SqKept (u.init q).q ∧
          (u.init q).urb = some u ∧
          (u.init q).q.remainingActiveRequests = q.remainingActiveRequests) ∨
        (¬(q.reservations.headD true = false ∨ q.room = some 0) ∧ q.room = none) ∨
        (¬(q.reservations.headD true = false ∨ q.room = some 0) ∧
          Submits false u.inSubmission q (u.init q).q ∧ (u.init q).q.room = q.room.map (· - 1) ∧
          (u.init q).q.remainingActiveRequests = q.remainingActiveRequests - 1 ∧
          (u.init q).urb =
            some { u with sendOffset := u.receiveOffset, state := .waitingForCompletion })) := by
  obtain ⟨answers, cases⟩ := u.dataTransferIn_room q
  have remaining := (u.dataTransferIn_starts q).frame.remaining
  rw [not_or] at incoming
  have data : u.isControl = false := by simpa using incoming.1
  unfold init dataStart
  rw [if_neg slots]
  simp only [data, incoming.2, Bool.false_eq_true, ↓reduceIte]
  rcases cases with ⟨refused, kept, failed, present⟩ | ⟨open_, missing, -, failed, -⟩ |
    ⟨open_, submits, room, began, present⟩
  · simp only [failed, reduceCtorEq, ↓reduceIte]
    exact ⟨answers, .inl ⟨refused, kept, present, remaining⟩⟩
  · simp only [failed, reduceCtorEq, ↓reduceIte]
    exact ⟨answers, .inr (.inl ⟨open_, missing⟩)⟩
  · simp only [began, ↓reduceIte]
    refine ⟨answers, .inr (.inr ⟨open_, submits.kept ⟨rfl, rfl, rfl, rfl⟩, room, ?_, ?_⟩)⟩
    · rw [remaining]
    · rw [present, data]

/-- An URB that receives has a queue to receive on. -/
theorem receives_room (sqs : q.Equipped)
    (belongs : u.Belongs q.endp) (incoming : u.dir ≠ .toDevice) : q.room ≠ none := by
  have present : (q.sq false).isSome := by
    rw [sqs false]
    by_cases control : q.endp.num = 0
    · exact .inl control
    · right
      have dir := belongs.dir
      rw [belongs.way control] at dir
      cases dirIn : q.endp.dirIn with
      | true => rfl
      | false =>
        rw [dirIn] at dir
        exact absurd dir incoming
  obtain ⟨fifo, some⟩ := Option.isSome_iff_exists.mp present
  rw [room, show q.sqIn = _ from some]
  simp

end BceVhciUrb

namespace BceVhciTransferQueue

variable {q r s : BceVhciTransferQueue} {u v : BceVhciUrb} {done rest : List BceVhciUrb}

/-- No URB of a list occurs in another place of the linked URBs. -/
theorem apart_of_distinct (wf : WellFormed { q with urbList := done ++ u :: rest }) :
    ∀ w ∈ done ++ rest, w.id ≠ u.id := by
  have distinct := wf.distinct
  simp only [List.map_append, List.map_cons] at distinct
  rw [List.nodup_middle, List.nodup_cons] at distinct
  intro w member same
  rw [← same] at distinct
  exact distinct.1 (by rw [← List.map_append]; exact List.mem_map_of_mem member)

/-- What the loop of `do_resume` needs between two URBs: those it has passed are served, and
those still to come have nothing outstanding. -/
structure Resuming (done rest : List BceVhciUrb) (q : BceVhciTransferQueue) : Prop where
  wf : WellFormed { q with urbList := done ++ rest }
  empty : ∀ u ∈ rest, ∀ out, q.load out u.id = 0

/-- The loop goes on behind an URB. -/
theorem resuming_next {call : UrbCall} (resuming : Resuming done (u :: rest) q)
    (frame : q.Frame call.q) (touches : Touches u.id q call.q)
    (kept : ∀ v, call.urb = some v → v.Belongs q.endp ∧ v.id = u.id) :
    Resuming (done ++ call.urb.toList) rest call.q where
  wf := by
    have next := afterUrb_wellFormed resuming.wf frame touches kept
    rwa [afterUrb, ← List.append_assoc] at next
  empty := by
    intro w later out
    rw [touches.loads out w.id (apart_of_distinct resuming.wf w (by simp [later]))]
    exact resuming.empty w (List.mem_cons_of_mem _ later) out

theorem resuming_init (resuming : Resuming done (u :: rest) q) :
    Resuming (done ++ (u.init q).urb.toList) rest (u.init q).q := by
  have belongs : u.Belongs q.endp := resuming.wf.urbs u (by simp)
  refine resuming_next resuming (u.init_frame q).1 (u.init_touches q) ?_
  intro v present
  exact ⟨BceVhciUrb.init_belongs belongs present, BceVhciUrb.init_id present⟩

theorem resuming_resume (resuming : Resuming done (u :: rest) q) :
    Resuming (done ++ (u.resume q).urb.toList) rest (u.resume q).q := by
  have belongs : u.Belongs q.endp := resuming.wf.urbs u (by simp)
  have fits := u.resume_fits q
  exact resuming_next resuming fits.frame (u.resume_touches q) fun v present =>
    ⟨BceVhciUrb.resume_belongs belongs present, (fits.kept v present).1.id⟩

/-- The URBs passed stay served when the next one is put behind them. -/
theorem passed_loaded {call : UrbCall} (resuming : Resuming done (u :: rest) q)
    (touches : Touches u.id q call.q) (loaded : ∀ w ∈ done, q.Loaded w)
    (next : ∀ v, call.urb = some v → call.q.Loaded v) :
    ∀ w ∈ done ++ call.urb.toList, call.q.Loaded w := by
  intro w member
  rcases List.mem_append.mp member with passed | here
  · exact loaded_of_touches (loaded w passed) touches
      (apart_of_distinct resuming.wf w (by simp [passed]))
  · exact next w (Option.mem_toList.mp here)

/-- A submission on `sq_in` serves the URB it is made for. -/
theorem received_loaded (empty : ∀ out, q.load out u.id = 0) (incoming : u.dir ≠ .toDevice)
    (submits : Submits false u.inSubmission q r) :
    r.Loaded { u with sendOffset := u.receiveOffset, state := .waitingForCompletion } := by
  have side : BceVhciUrb.out
      { u with sendOffset := u.receiveOffset, state := .waitingForCompletion } = false := by
    simp [BceVhciUrb.out, incoming]
  refine ⟨?_, ?_⟩
  · rw [side, submits.load_same, empty false]
    simp [BceVhciUrb.inSubmission, BceVhciUrb.awaitsDma]
  · rw [side]
    exact (submits.load_other u.id).trans (empty true)

/-- Starting an URB with nothing outstanding makes the submission its new state calls for. -/
theorem init_loaded (sqs : q.Equipped)
    (belongs : u.Belongs q.endp) (idle : u.awaitsDma = false) (slots : q.remainingActiveRequests ≠ 0)
    (empty : ∀ out, q.load out u.id = 0) :
    (u.init q).q.nullSq = q.nullSq ∧ ∀ v, (u.init q).urb = some v → (u.init q).q.Loaded v := by
  by_cases plain : u.isControl ∨ u.dir = .toDevice
  · obtain ⟨kept, -, -, v, present, same, idle'⟩ := u.init_room_plain q slots plain
    refine ⟨kept.nullSq, ?_⟩
    intro w here
    cases present.symm.trans here
    refine loaded_of_empty ?_ idle'
    intro out
    rw [kept.load, show v.id = u.id from same.id]
    exact empty out
  · obtain ⟨-, cases⟩ := u.init_room_in q slots plain
    have incoming : u.dir ≠ .toDevice := fun outgoing => plain (.inr outgoing)
    rcases cases with ⟨-, kept, present, -⟩ | ⟨-, missing⟩ | ⟨-, submits, -, -, present⟩
    · refine ⟨kept.nullSq, ?_⟩
      intro w here
      cases present.symm.trans here
      refine loaded_of_empty ?_ idle
      intro out
      rw [kept.load]
      exact empty out
    · exact absurd missing (BceVhciUrb.receives_room sqs belongs incoming)
    · refine ⟨submits.nullSq, ?_⟩
      intro w here
      cases present.symm.trans here
      exact received_loaded empty incoming submits

theorem idle_of_pending (pending : u.state = .initPending) : u.awaitsDma = false := by
  rw [BceVhciUrb.awaitsDma, pending]
  rfl

theorem empty_of_loaded (loaded : q.Loaded u) (idle : u.awaitsDma = false) (out : Bool) :
    q.load out u.id = 0 := by
  rw [Loaded, idle] at loaded
  rcases Bool.eq_or_eq_not out u.out with rfl | rfl
  · exact loaded.1
  · exact loaded.2

theorem resumeLoop_right (resuming : Resuming done rest q) (sound : q.nullSq = false)
    (loaded : ∀ u ∈ done, q.Loaded u)
    (right : ResumesRight q.room q.remainingActiveRequests q.reservations rest) :
    (resumeLoop done rest q).nullSq = false ∧
      ∀ u ∈ (resumeLoop done rest q).urbList, (resumeLoop done rest q).Loaded u := by
  induction rest generalizing done q with
  | nil => exact ⟨sound, loaded⟩
  | cons u rest ih =>
    have belongs : u.Belongs q.endp := resuming.wf.urbs u (by simp)
    have sqs : q.Equipped := resuming.wf.present
    have empty := resuming.empty u (List.mem_cons_self ..)
    rw [resumeLoop]
    cases state : u.state with
    | initPending =>
      have idle := idle_of_pending state
      simp only [ResumesRight, state] at right
      by_cases slots : q.remainingActiveRequests = 0
      · rw [if_pos slots] at right
        simp only [canInitUrb, slots, Nat.lt_irrefl, decide_false, Bool.false_eq_true, not_false_eq_true,
          ↓reduceIte]
        refine ⟨sound, ?_⟩
        intro w member
        rcases List.mem_append.mp member with passed | later
        · exact loaded w passed
        · refine loaded_of_empty (resuming.empty w later) ?_
          rcases List.mem_cons.mp later with rfl | behind
          · exact idle
          · exact right w behind
      · rw [if_neg slots] at right
        have can : q.canInitUrb = true := by
          simp only [canInitUrb, decide_eq_true_eq]
          omega
        simp only [can, not_true_eq_false, ↓reduceIte]
        have next := resuming_init resuming
        obtain ⟨faultless, started⟩ := init_loaded sqs belongs idle slots empty
        refine ih next (faultless.trans sound)
          (passed_loaded resuming (u.init_touches q) loaded started) ?_
        by_cases plain : u.isControl ∨ u.dir = .toDevice
        · rw [if_pos plain] at right
          obtain ⟨kept, answers, remaining, -⟩ := u.init_room_plain q slots plain
          rw [answers, remaining, kept.room]
          exact right
        · rw [if_neg plain] at right
          obtain ⟨answers, cases⟩ := u.init_room_in q slots plain
          rcases cases with ⟨refused, kept, -, remaining⟩ | ⟨-, missing⟩ | ⟨open_, -, room, remaining, -⟩
          · rw [if_pos refused] at right
            rw [answers, remaining, kept.room]
            exact right
          · have incoming : u.dir ≠ .toDevice := fun outgoing => plain (.inr outgoing)
            exact absurd missing (BceVhciUrb.receives_room sqs belongs incoming)
          · rw [if_neg open_] at right
            rw [answers, remaining, room]
            exact right
    | waitingForCompletion =>
      simp only [ResumesRight, state] at right
      rw [if_neg (by decide)]
      have next := resuming_resume resuming
      have touches := u.resume_touches q
      obtain ⟨answers, cases⟩ := u.resume_room q state
      rcases cases with ⟨refused, kept, gone, remaining⟩ | ⟨open_, missing, -⟩ |
        ⟨open_, submits, room, remaining, present⟩
      · rw [if_pos refused] at right
        refine ih next (kept.nullSq.trans sound) (passed_loaded resuming touches loaded ?_) ?_
        · intro w here
          rw [gone] at here
          cases here
        · rw [answers, remaining, kept.room]
          exact right
      · rw [if_neg open_] at right
        exact absurd missing (BceVhciUrb.receives_room sqs belongs right.1)
      · rw [if_neg open_] at right
        refine ih next (submits.nullSq.trans sound) (passed_loaded resuming touches loaded ?_) ?_
        · intro w here
          cases present.symm.trans here
          exact received_loaded empty right.1 submits
        · rw [answers, remaining, room]
          exact right.2
    | controlWaitingForSetupCompletion =>
      simp only [ResumesRight, state] at right
    | _ =>
      simp only [ResumesRight, state] at right
      rw [if_neg (by decide)]
      have other := BceVhciUrb.resume_idle (u := u) (q := q) (by simp [state])
      have next := resuming_resume resuming
      rw [other] at next
      simp only [other]
      refine ih next sound ?_ right
      intro w member
      rcases List.mem_append.mp member with passed | here
      · exact loaded w passed
      · cases Option.mem_toList.mp here
        exact loaded_of_empty empty (by rw [BceVhciUrb.awaitsDma, state]; rfl)

/-- A queue whose linked URBs have the submissions their states call for. -/
structure AllLoaded (q : BceVhciTransferQueue) : Prop where
  wf : q.WellFormed
  sound : q.nullSq = false
  loaded : ∀ u ∈ q.urbList, q.Loaded u

theorem loaded_of_state (loaded : q.Loaded u) (same : u.Same v) (state : v.state = u.state)
    (loads : ∀ out id, r.load out id = q.load out id) : r.Loaded v := by
  have out : v.out = u.out := by
    rw [BceVhciUrb.out, BceVhciUrb.out, state, same.dir]
  have awaits : v.awaitsDma = u.awaitsDma := by
    rw [BceVhciUrb.awaitsDma, BceVhciUrb.awaitsDma, state]
  rw [Loaded, out, awaits, show v.id = u.id from same.id, loads, loads]
  exact loaded

/-- An URB that sends has a queue to send on. -/
theorem sends_present (sqs : q.Equipped)
    (belongs : u.Belongs q.endp)
    (sends : u.state = .waitingForTransferRequest ∨ u.isControl ∧ u.state = .controlWaitingForSetupRequest) :
    (q.sq true).isSome := by
  rw [sqs true]
  by_cases control : q.endp.num = 0
  · exact .inl control
  · right
    rcases sends with waits | ⟨isControl, -⟩
    · have dir := belongs.dir
      rw [belongs.sends waits, belongs.way control] at dir
      cases dirIn : q.endp.dirIn with
      | false => rfl
      | true =>
        rw [dirIn] at dir
        cases dir
    · rw [belongs.isControl] at isControl
      exact absurd (of_decide_eq_true isControl) control

/-- A message makes the submission the new state of the URB calls for. -/
theorem update_loaded (sqs : q.Equipped)
    (belongs : u.Belongs q.endp) (loaded : q.Loaded u) (msg : BceVhciMessage) :
    (u.update msg q).q.nullSq = q.nullSq ∧
      ∀ v, (u.update msg q).urb = some v → (u.update msg q).q.Loaded v := by
  have fits := u.update_fits msg q
  rcases u.update_uses msg q with ⟨kept, states⟩ | ⟨refuses, -, sends, states⟩ |
    ⟨x, own, submits, -, sent⟩
  · refine ⟨kept.nullSq, ?_⟩
    intro v present
    exact loaded_of_state loaded (fits.kept v present).1 (states v present) kept.load
  · refine ⟨refuses.nullSq (sends_present sqs belongs sends), ?_⟩
    intro v present
    exact loaded_of_state loaded (fits.kept v present).1 (states v present) refuses.load
  · refine ⟨submits.nullSq, ?_⟩
    intro v present
    have same := (fits.kept v present).1
    have idle : u.awaitsDma = false := by
      rcases sent with ⟨waits, -⟩ | ⟨-, waits, -⟩ <;> rw [BceVhciUrb.awaitsDma, waits] <;> rfl
    have empty := empty_of_loaded loaded idle
    have after : v.out = true ∧ v.awaitsDma = true := by
      rcases sent with ⟨waits, states⟩ | ⟨-, -, states⟩
      · simp [BceVhciUrb.out, BceVhciUrb.awaitsDma, states v present, same.dir, belongs.sends waits]
      · simp [BceVhciUrb.out, BceVhciUrb.awaitsDma, states v present]
    rw [Loaded, after.1, after.2, show v.id = u.id from same.id, submits.load_same, if_pos own,
      empty true]
    exact ⟨rfl, (submits.load_other u.id).trans (empty false)⟩

/-- Putting the URB back after a call that leaves it loaded. -/
theorem afterUrb_allLoaded {call : UrbCall} (all : AllLoaded { q with urbList := done ++ u :: rest })
    (wf : WellFormed (afterUrb done rest call)) (touches : Touches u.id q call.q)
    (sound : call.q.nullSq = q.nullSq) (loaded : ∀ v, call.urb = some v → call.q.Loaded v) :
    AllLoaded (afterUrb done rest call) where
  wf := wf
  sound := sound.trans all.sound
  loaded := by
    have apart := apart_of_distinct all.wf
    have before : ∀ w ∈ done ++ u :: rest, q.Loaded w := all.loaded
    intro w member
    show call.q.Loaded w
    simp only [afterUrb, List.mem_append, Option.mem_toList] at member
    rcases member with passed | here | later
    · exact loaded_of_touches (before w (by simp [passed])) touches (apart w (by simp [passed]))
    · exact loaded w here
    · exact loaded_of_touches (before w (by simp [later])) touches (apart w (by simp [later]))

theorem initLoop_allLoaded (done rest : List BceVhciUrb) (q : BceVhciTransferQueue)
    (all : AllLoaded { q with urbList := done ++ rest }) : AllLoaded (initLoop done rest q) := by
  induction rest generalizing done q with
  | nil =>
    rw [List.append_nil] at all
    exact all
  | cons urb rest ih =>
    rw [initLoop]
    split
    · exact all
    · rename_i can
      split
      case isTrue pending =>
        have idle := idle_of_pending pending
        have loaded : q.Loaded urb := all.loaded urb (by simp)
        have slots : q.remainingActiveRequests ≠ 0 := by
          intro none
          simp [canInitUrb, none] at can
        have sqs : q.Equipped := all.wf.present
        obtain ⟨sound, started⟩ := init_loaded sqs (all.wf.urbs urb (by simp)) idle slots
          (empty_of_loaded loaded idle)
        have next := afterUrb_allLoaded all (init_wellFormed all.wf) (urb.init_touches q) sound started
        rw [afterUrb, ← List.append_assoc] at next
        exact ih _ _ next
      case isFalse =>
        refine ih _ _ ?_
        rwa [List.append_assoc, List.singleton_append]

theorem update_allLoaded (all : q.AllLoaded) (linked : q.urbList = u :: rest) (msg : BceVhciMessage) :
    AllLoaded (afterUrb [] rest (u.update msg q)) := by
  have member : u ∈ q.urbList := by
    simp [linked]
  obtain ⟨sound, loaded⟩ := update_loaded all.wf.present (all.wf.urbs u member) (all.loaded u member) msg
  have here : AllLoaded { q with urbList := [] ++ u :: rest } := by
    rw [List.nil_append, ← linked]
    exact all
  exact afterUrb_allLoaded here (update_wellFormed all.wf linked msg) (u.update_touches msg q) sound loaded

theorem deliverLoop_allLoaded (msgs : List BceVhciMessage) (all : q.AllLoaded) :
    AllLoaded (deliverLoop msgs q) := by
  induction msgs generalizing q with
  | nil => exact ⟨⟨all.wf.urbs, all.wf.present, all.wf.distinct⟩, all.sound, all.loaded⟩
  | cons msg msgs ih =>
    unfold deliverLoop
    split
    · exact ⟨⟨all.wf.urbs, all.wf.present, all.wf.distinct⟩, all.sound, all.loaded⟩
    · rename_i urb rest linked
      have updated := update_allLoaded all linked msg
      simp only
      split
      · exact ⟨⟨updated.wf.urbs, updated.wf.present, updated.wf.distinct⟩, updated.sound, updated.loaded⟩
      · exact ih updated

theorem deliverPending_allLoaded (all : q.AllLoaded) : q.deliverPending.AllLoaded :=
  initLoop_allLoaded [] _ _ (deliverLoop_allLoaded q.evq all)

theorem not_reissued_of_urb (linked : u ∈ q.urbList) (unserved : ¬q.Served u) : ¬q.Reissued :=
  fun reissued => unserved (reissued.2 u linked)

theorem not_reissued_of_fault (fault : q.nullSq) : ¬q.Reissued := by
  intro reissued
  rw [reissued.1] at fault
  cases fault

/-- What goes wrong is a fault, or an URB that waits without its submission. -/
theorem not_reissued_cases (wrong : ¬q.Reissued) : q.nullSq ∨ ∃ u ∈ q.urbList, ¬q.Served u := by
  by_contra fine
  rw [not_or] at fine
  refine wrong ⟨by simpa using fine.1, ?_⟩
  intro u linked
  by_contra unserved
  exact fine.2 ⟨u, linked, unserved⟩

theorem unserved_of_touches {id : Nat} (unserved : ¬q.Served u) (touches : Touches id q r)
    (apart : u.id ≠ id) : ¬r.Served u := by
  rw [Served, touches.loads _ _ apart, touches.loads _ _ apart]
  exact unserved

theorem unserved_of_empty (empty : ∀ out, q.load out u.id = 0) (awaits : u.awaitsDma) :
    ¬q.Served u := by
  intro served
  have loaded := (served awaits).1
  rw [empty] at loaded
  cases loaded

/-- The loop leaves the URBs it has passed alone, and a fault stays. -/
theorem resumeLoop_keeps (resuming : Resuming done rest q) :
    (q.nullSq → (resumeLoop done rest q).nullSq) ∧
      ∀ u ∈ done, u ∈ (resumeLoop done rest q).urbList ∧
        ∀ out, (resumeLoop done rest q).load out u.id = q.load out u.id := by
  induction rest generalizing done q with
  | nil => exact ⟨id, fun u passed => ⟨passed, fun _ => rfl⟩⟩
  | cons urb rest ih =>
    have along : ∀ call : UrbCall, Touches urb.id q call.q → Resuming (done ++ call.urb.toList) rest call.q →
        (q.nullSq → (resumeLoop (done ++ call.urb.toList) rest call.q).nullSq) ∧
          ∀ u ∈ done, u ∈ (resumeLoop (done ++ call.urb.toList) rest call.q).urbList ∧
            ∀ out, (resumeLoop (done ++ call.urb.toList) rest call.q).load out u.id =
              q.load out u.id := by
      intro call touches next
      obtain ⟨fault, kept⟩ := ih next
      refine ⟨fun before => fault (touches.faults before), ?_⟩
      intro u passed
      obtain ⟨linked, loads⟩ := kept u (List.mem_append_left _ passed)
      refine ⟨linked, fun out => (loads out).trans ?_⟩
      exact touches.loads out u.id (apart_of_distinct resuming.wf u (List.mem_append_left _ passed))
    rw [resumeLoop]
    split
    · split
      · exact ⟨id, fun u passed => ⟨List.mem_append_left _ passed, fun _ => rfl⟩⟩
      · exact along _ (urb.init_touches q) (resuming_init resuming)
    · exact along _ (urb.resume_touches q) (resuming_resume resuming)

/-- An URB that the loop leaves without its submission stays so. -/
theorem resumeLoop_unserved (resuming : Resuming done rest q) (passed : u ∈ done)
    (unserved : ¬q.Served u) : ¬(resumeLoop done rest q).Reissued := by
  obtain ⟨linked, loads⟩ := (resumeLoop_keeps resuming).2 u passed
  refine not_reissued_of_urb linked ?_
  rw [Served, loads, loads]
  exact unserved

theorem resumeLoop_wrong (resuming : Resuming done rest q)
    (wrong : ¬ResumesRight q.room q.remainingActiveRequests q.reservations rest) :
    ¬(resumeLoop done rest q).Reissued := by
  induction rest generalizing done q with
  | nil => exact absurd trivial wrong
  | cons u rest ih =>
    have belongs : u.Belongs q.endp := resuming.wf.urbs u (by simp)
    have sqs : q.Equipped := resuming.wf.present
    have empty := resuming.empty u (List.mem_cons_self ..)
    rw [resumeLoop]
    cases state : u.state with
    | initPending =>
      simp only [ResumesRight, state] at wrong
      by_cases slots : q.remainingActiveRequests = 0
      · rw [if_pos slots] at wrong
        simp only [canInitUrb, slots, Nat.lt_irrefl, decide_false, Bool.false_eq_true, not_false_eq_true,
          ↓reduceIte]
        rw [Classical.not_forall] at wrong
        obtain ⟨v, wrong⟩ := wrong
        rw [Classical.not_imp] at wrong
        refine not_reissued_of_urb (u := v) (by simp [wrong.1]) ?_
        exact unserved_of_empty (resuming.empty v (List.mem_cons_of_mem _ wrong.1)) (by simpa using wrong.2)
      · rw [if_neg slots] at wrong
        have can : q.canInitUrb = true := by
          simp only [canInitUrb, decide_eq_true_eq]
          omega
        simp only [can, not_true_eq_false, ↓reduceIte]
        refine ih (resuming_init resuming) ?_
        by_cases plain : u.isControl ∨ u.dir = .toDevice
        · rw [if_pos plain] at wrong
          obtain ⟨kept, answers, remaining, -⟩ := u.init_room_plain q slots plain
          rw [answers, remaining, kept.room]
          exact wrong
        · rw [if_neg plain] at wrong
          obtain ⟨answers, cases⟩ := u.init_room_in q slots plain
          rcases cases with ⟨refused, kept, -, remaining⟩ | ⟨-, missing⟩ | ⟨open_, -, room, remaining, -⟩
          · rw [if_pos refused] at wrong
            rw [answers, remaining, kept.room]
            exact wrong
          · have incoming : u.dir ≠ .toDevice := fun outgoing => plain (.inr outgoing)
            exact absurd missing (BceVhciUrb.receives_room sqs belongs incoming)
          · rw [if_neg open_] at wrong
            rw [answers, remaining, room]
            exact wrong
    | waitingForCompletion =>
      simp only [ResumesRight, state] at wrong
      rw [if_neg (by decide)]
      have next := resuming_resume resuming
      obtain ⟨answers, cases⟩ := u.resume_room q state
      rcases cases with ⟨refused, kept, -, remaining⟩ | ⟨open_, missing, fault⟩ |
        ⟨open_, submits, room, remaining, present⟩
      · rw [if_pos refused] at wrong
        refine ih next ?_
        rw [answers, remaining, kept.room]
        exact wrong
      · exact not_reissued_of_fault ((resumeLoop_keeps next).1 fault)
      · rw [if_neg open_, Classical.not_and_iff_not_or_not, Classical.not_not] at wrong
        rcases wrong with outgoing | wrong
        · refine resumeLoop_unserved next (List.mem_append_right _ (Option.mem_toList.mpr present)) ?_
          intro served
          have side : BceVhciUrb.out
              { u with sendOffset := u.receiveOffset, state := .waitingForCompletion } = true := by
            simp [BceVhciUrb.out, outgoing]
          have loaded := (served rfl).1
          rw [side] at loaded
          have none_ : (u.resume q).q.load true u.id = 0 := (submits.load_other u.id).trans (empty true)
          rw [show BceVhciUrb.id
            { u with sendOffset := u.receiveOffset, state := .waitingForCompletion } = u.id from rfl,
            none_] at loaded
          cases loaded
        · refine ih next ?_
          rw [answers, remaining, room]
          exact wrong
    | controlWaitingForSetupCompletion =>
      rw [if_neg (by decide)]
      have next := resuming_resume resuming
      have other := BceVhciUrb.resume_idle (u := u) (q := q) (by simp [state])
      rw [other] at next
      simp only [other]
      refine resumeLoop_unserved next (List.mem_append_right _ (by simp)) (unserved_of_empty empty ?_)
      rw [BceVhciUrb.awaitsDma, state]
      rfl
    | _ =>
      simp only [ResumesRight, state] at wrong
      rw [if_neg (by decide)]
      have next := resuming_resume resuming
      have other := BceVhciUrb.resume_idle (u := u) (q := q) (by simp [state])
      rw [other] at next
      simp only [other]
      exact ih next wrong

/-- Putting an URB back does not serve one that waits without its submission. -/
theorem afterUrb_unserved {call : UrbCall} (wf : WellFormed { q with urbList := done ++ u :: rest })
    (wrong : ¬Reissued { q with urbList := done ++ u :: rest }) (touches : Touches u.id q call.q)
    (own : ¬q.Served u → ∃ v, call.urb = some v ∧ ¬call.q.Served v) :
    ¬Reissued (afterUrb done rest call) := by
  have apart := apart_of_distinct wf
  rcases not_reissued_cases wrong with fault | ⟨w, linked, unserved⟩
  · exact not_reissued_of_fault (touches.faults fault)
  · have unserved : ¬q.Served w := unserved
    have linked : w ∈ done ++ u :: rest := linked
    by_cases here : w ∈ done ++ rest
    · refine not_reissued_of_urb (u := w) ?_ ?_
      · simp only [afterUrb, List.mem_append] at here ⊢
        exact here.imp_right .inr
      · have after : ¬call.q.Served w := unserved_of_touches unserved touches (apart w here)
        exact after
    · have same : w = u := by
        simp only [List.mem_append, List.mem_cons] at linked here
        tauto
      rw [same] at unserved
      obtain ⟨v, present, unserved'⟩ := own unserved
      exact not_reissued_of_urb (u := v) (by simp [afterUrb, present]) unserved'

theorem initLoop_unserved (done rest : List BceVhciUrb) (q : BceVhciTransferQueue)
    (wf : WellFormed { q with urbList := done ++ rest })
    (wrong : ¬Reissued { q with urbList := done ++ rest }) : ¬(initLoop done rest q).Reissued := by
  induction rest generalizing done q with
  | nil =>
    rw [List.append_nil] at wrong
    exact wrong
  | cons urb rest ih =>
    rw [initLoop]
    split
    · exact wrong
    · split
      case isTrue pending =>
        have next := init_wellFormed wf
        have after := afterUrb_unserved wf wrong (urb.init_touches q) fun unserved =>
          absurd (fun awaits => by rw [idle_of_pending pending] at awaits; cases awaits) unserved
        rw [afterUrb, ← List.append_assoc] at next after
        exact ih _ _ next after
      case isFalse =>
        rw [← List.singleton_append, ← List.append_assoc] at wf wrong
        exact ih _ _ wf wrong

/-- An URB that waits for a DMA completion takes no `TRANSFER_REQUEST`. -/
theorem update_of_awaits {msg : BceVhciMessage} (awaits : u.awaitsDma)
    (request : msg.cmd = BceVhciCommand.transferRequest.code) :
    u.update msg q = ⟨some .again, some u, q⟩ := by
  have notStatus : msg.cmd ≠ BceVhciCommand.controlTransferStatus.code := by
    rw [request]
    decide
  unfold BceVhciUrb.awaitsDma at awaits
  rcases Bool.or_eq_true_iff.mp awaits with state | state <;> rw [beq_iff_eq] at state <;>
    simp [BceVhciUrb.update, BceVhciUrb.controlUpdate, BceVhciUrb.dataUpdate, UrbCall.andThen, state,
      notStatus]

theorem deliverLoop_unserved (msgs : List BceVhciMessage) (wf : q.WellFormed) (wrong : ¬q.Reissued)
    (requests : ∀ msg ∈ msgs, msg.cmd = BceVhciCommand.transferRequest.code) :
    ¬(deliverLoop msgs q).Reissued := by
  induction msgs generalizing q with
  | nil => exact wrong
  | cons msg msgs ih =>
    unfold deliverLoop
    split
    · exact wrong
    · rename_i urb rest linked
      have updated := update_wellFormed wf linked msg
      have after : ¬Reissued (afterUrb [] rest (urb.update msg q)) := by
        have wf' : WellFormed { q with urbList := [] ++ urb :: rest } := by
          rw [List.nil_append, ← linked]
          exact wf
        have wrong' : ¬Reissued { q with urbList := [] ++ urb :: rest } := by
          rw [List.nil_append, ← linked]
          exact wrong
        refine afterUrb_unserved wf' wrong' (urb.update_touches msg q) ?_
        intro unserved
        have awaits : urb.awaitsDma := by
          by_contra idle
          exact unserved fun awaits => absurd awaits idle
        rw [update_of_awaits awaits (requests msg (List.mem_cons_self ..))]
        exact ⟨urb, rfl, unserved⟩
      simp only
      split
      · exact after
      · exact ih updated after fun m member => requests m (List.mem_cons_of_mem _ member)

end BceVhciTransferQueue

end AppleBce

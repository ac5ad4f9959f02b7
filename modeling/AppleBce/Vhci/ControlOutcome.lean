import AppleBce.Vhci.UrbCalls

namespace AppleBce

open Basis

namespace CalledUrb

/-- The submissions the call makes on `sq_in`. -/
def receptions (call : CalledUrb) : List UrbSubmission :=
  (call.result.q.outstanding false).drop (call.q.outstanding false).length

end CalledUrb

/-- The submission of the setup packet. -/
def BceVhciUrb.setupSubmission (urb : BceVhciUrb) : UrbSubmission where
  urb := urb.id
  addr := urb.urb.setupDma
  length := usbCtrlrequestSize

/-- A completion of data is the last one: any when data is received, and the one that brings the last byte
when it is sent. -/
def BceVhciUrb.EndsData (urb : BceVhciUrb) (c : BceSqCompletionData) : Prop :=
  urb.dir = .fromDevice ∨ urb.urb.transferBufferLength ≤ urb.receiveOffset + BitVec.ofNat 32 c.dataSize

/-- The URB behind its last completion of data. -/
def BceVhciUrb.dataEnded (urb : BceVhciUrb) (c : BceSqCompletionData) : BceVhciUrb :=
  let receiveOffset := urb.receiveOffset + BitVec.ofNat 32 c.dataSize
  { urb with
    receiveOffset
    urb := { urb.urb with actualLength := receiveOffset }
    state := .dataTransferComplete }

/-- What happened to a control URB, as its calls show it: whether its setup packet was submitted and
completed, whether data was submitted, the bytes the completions of data report, whether they end the
data stage, and the statuses the T2 sent, oldest first. -/
structure ControlRecord where
  setupSent : Bool := false
  setupCompleted : Bool := false
  dataSent : Bool := false
  received : BitVec 32 := 0
  dataCompleted : Bool := false
  statuses : List (BitVec 16) := []

namespace ControlRecord

/-- The latest status, 0 when there is none. -/
def status (r : ControlRecord) : BitVec 16 :=
  r.statuses.getLastD 0

/-- The data stage ends with the first completion when data is received, and with the last byte when it
is sent. -/
def noteData (r : ControlRecord) (urb : BceVhciUrb) (c : BceSqCompletionData) : ControlRecord :=
  let received := r.received + BitVec.ofNat 32 c.dataSize
  { r with
    received
    dataCompleted := r.dataCompleted || urb.dir = .fromDevice || urb.urb.transferBufferLength ≤ received }

/-- The first completion after the submission of the setup packet is that of the packet. The later ones
are of data, once data is submitted. -/
def note (r : ControlRecord) (call : CalledUrb) : ControlRecord :=
  match call.action with
  | .update msg =>
    { r with
      setupSent := r.setupSent || call.urb.setupSubmission ∈ call.submissions
      dataSent := r.dataSent || r.setupCompleted && call.submissions ≠ []
      statuses :=
        if msg.cmd = BceVhciCommand.controlTransferStatus.code then r.statuses ++ [msg.status]
        else r.statuses }
  | .transferCompletion c =>
    if ¬r.setupSent then r
    else if ¬r.setupCompleted then
      { r with
        setupCompleted := true
        dataSent := call.receptions ≠ []
        dataCompleted := call.urb.dir = .toDevice && call.urb.urb.transferBufferLength = 0 }
    else if r.dataSent then r.noteData call.urb c
    else r
  | _ => r

end ControlRecord

/-- A control URB with its queue, what it was completed with and what happened to it. -/
structure ControlRun where
  urb : Option BceVhciUrb
  q : BceVhciTransferQueue
  completed : List Urb
  record : ControlRecord

/-- What reaches the URB, and what the rest of the driver does to its queue in between. -/
inductive ControlEvent
  | message (msg : BceVhciMessage)
  | completion (c : BceSqCompletionData)
  | others (q : BceVhciTransferQueue)

namespace ControlRun

def called (s : ControlRun) (call : CalledUrb) : ControlRun where
  urb := call.result.urb
  q := call.result.q
  completed := s.completed ++ call.result.q.givebackUrbList.drop call.q.givebackUrbList.length
  record := s.record.note call

/-- Nothing reaches an URB that was completed. -/
def step (s : ControlRun) (event : ControlEvent) : ControlRun :=
  match s.urb with
  | none => s
  | some urb =>
    match event with
    | .message msg => s.called ⟨.update msg, urb, s.q⟩
    | .completion c => s.called ⟨.transferCompletion c, urb, s.q⟩
    | .others q => { s with q }

/-- An URB of a control endpoint that was just started. -/
def Begins (s : ControlRun) : Prop :=
  ∃ (q : BceVhciTransferQueue) (urb : Urb), q.endp.num = 0 ∧ ((q.newUrb urb).init q).ret = none ∧
    s = ⟨((q.newUrb urb).init q).urb, ((q.newUrb urb).init q).q, [], {}⟩

def machine : Machine ControlRun ControlEvent where
  init := Begins
  step := fun s event => some (s.step event)

end ControlRun

/-- What an URB is completed with fits what happened to it. -/
structure ControlRecord.Explains (r : ControlRecord) (urb : Urb) (q : BceVhciTransferQueue) : Prop where
  done : urb.status = 0 → r.setupSent ∧ r.setupCompleted ∧ r.dataCompleted ∧
    BceVhciMessageStatus.success.code ∈ r.statuses
  failed : urb.status = Errno.pipe.neg →
    (∃ status ∈ r.statuses, status ≠ 0 ∧ status ≠ BceVhciMessageStatus.success.code) ∧
      q.active = false ∧ q.stalled ∧ q.wReset

/-- The record shows the URB where it is. -/
structure ControlRecord.Stage (r : ControlRecord) (u : BceVhciUrb) : Prop where
  control : u.isControl
  started : u.state ≠ .initPending
  live : u.state ≠ .controlComplete ∧ u.state ≠ .cancelled
  setupSent : r.setupSent ↔ u.state ≠ .controlWaitingForSetupRequest
  setupCompleted : r.setupCompleted ↔
    u.state ≠ .controlWaitingForSetupRequest ∧ u.state ≠ .controlWaitingForSetupCompletion
  dataSent : u.state ≠ .dataTransferComplete → (r.dataSent ↔ u.state = .waitingForCompletion)
  received : u.state ≠ .dataTransferComplete → r.received = u.receiveOffset
  dataCompleted : r.dataCompleted ↔ u.state = .dataTransferComplete
  status : r.status = u.receivedStatus

/-- The status that is held does not complete the URB where it is. -/
def BceVhciUrb.Unsettled (u : BceVhciUrb) : Prop :=
  ∀ q, u.controlCheckStatus q = ⟨none, some u, q⟩

/-- A call leaves an URB that goes on waiting, or completes it as its record explains. -/
def ControlRecord.Follows (r : ControlRecord) (q : BceVhciTransferQueue) (call : UrbCall) : Prop :=
  match call.urb with
  | some u => r.Stage u ∧ u.Unsettled ∧ call.q.givebackUrbList = q.givebackUrbList
  | none => ∃ urb, r.Explains urb call.q ∧ call.q.givebackUrbList = q.givebackUrbList ++ [urb]

namespace CalledUrb

variable {call : CalledUrb} {x : UrbSubmission}

theorem submissions_none (same : call.result.q.outstanding true = call.q.outstanding true) :
    call.submissions = [] := by
  simp [submissions, same]

theorem submissions_one (appended : call.result.q.outstanding true = call.q.outstanding true ++ [x]) :
    call.submissions = [x] := by
  simp [submissions, appended]

theorem receptions_none (same : call.result.q.outstanding false = call.q.outstanding false) :
    call.receptions = [] := by
  simp [receptions, same]

theorem receptions_one (appended : call.result.q.outstanding false = call.q.outstanding false ++ [x]) :
    call.receptions = [x] := by
  simp [receptions, appended]

end CalledUrb

/-- The status is taken down, wherever the URB is. -/
theorem BceVhciUrb.update_status {u : BceVhciUrb} (control : u.isControl) (started : u.state ≠ .initPending)
    {msg : BceVhciMessage} (status : msg.cmd = BceVhciCommand.controlTransferStatus.code)
    (q : BceVhciTransferQueue) :
    u.update msg q = { u with receivedStatus := msg.status }.controlCheckStatus q := by
  unfold update controlUpdate
  rw [if_neg started, if_pos control, if_pos status]

/-- The chunk a request is answered with changes nothing of the URB but how far it sent. -/
theorem BceVhciUrb.dataUpdate_sent {u v : BceVhciUrb} {msg : BceVhciMessage} {q : BceVhciTransferQueue}
    (taken : (u.dataUpdate msg q).ret = none) (present : (u.dataUpdate msg q).urb = some v) :
    ∃ sendOffset, v = { u with sendOffset, state := .waitingForCompletion } := by
  unfold dataUpdate at taken present
  split at taken
  case isFalse => cases taken
  case isTrue asked =>
    rw [if_pos asked] at present
    simp only at taken present
    split at taken
    · cases taken
    · rename_i sent
      rw [sent] at present
      cases present
      exact ⟨_, rfl⟩

/-- The completion of the setup packet begins the data stage, ends it when there is none, or completes the
URB when it cannot begin. -/
theorem BceVhciUrb.setupCompletion_cases {u : BceVhciUrb} (c : BceSqCompletionData) (q : BceVhciTransferQueue)
    (control : u.isControl) (waits : u.state = .controlWaitingForSetupCompletion) :
    (u.dir = .toDevice ∧ u.urb.transferBufferLength ≠ 0 ∧
      u.transferCompletion c q = { u with state := .waitingForTransferRequest }.controlCheckStatus q) ∨
    (u.dir = .toDevice ∧ u.urb.transferBufferLength = 0 ∧
      u.transferCompletion c q = { u with state := .dataTransferComplete }.controlCheckStatus q) ∨
    (u.dir ≠ .toDevice ∧
      u.transferCompletion c q = ⟨some .noent, none, u.complete Errno.nomem.neg (u.dataTransferIn q).q⟩) ∨
    (u.dir ≠ .toDevice ∧ BceVhciTransferQueue.Submits false u.inSubmission q (u.dataTransferIn q).q ∧
      u.transferCompletion c q =
        { u with sendOffset := u.receiveOffset, state := .waitingForCompletion }.controlCheckStatus
          (u.dataTransferIn q).q) := by
  unfold transferCompletion controlTransferCompletion
  rw [if_pos control, if_pos waits]
  by_cases outgoing : u.dir = .toDevice
  · unfold dataStart
    rw [if_pos outgoing]
    by_cases empty : u.urb.transferBufferLength = 0
    · rw [if_neg (by simp [empty])]
      exact .inr (.inl ⟨outgoing, empty, rfl⟩)
    · rw [if_pos (by bv_omega)]
      exact .inl ⟨outgoing, empty, rfl⟩
  · have start : u.dataStart q = u.dataTransferIn q := if_neg outgoing
    rw [start]
    rcases u.dataTransferIn_uses q with ⟨-, failed, kept⟩ | ⟨submits, began, present⟩
    · simp only [failed, kept]
      exact .inr (.inr (.inl ⟨outgoing, trivial⟩))
    · simp only [began, present, UrbCall.andThen]
      exact .inr (.inr (.inr ⟨outgoing, submits, trivial⟩))

/-- A completion of data, when one is waited for. -/
theorem BceVhciUrb.lastCompletion_eq {u : BceVhciUrb} {c : BceSqCompletionData} (q : BceVhciTransferQueue)
    (control : u.isControl) (waits : u.state = .waitingForCompletion) (last : u.EndsData c) :
    u.transferCompletion c q = (u.dataEnded c).controlCheckStatus q := by
  unfold transferCompletion controlTransferCompletion dataTransferCompletion
  rw [if_pos control, if_neg (by simp [waits]), if_pos (.inr waits), if_pos waits]
  simp only
  rw [if_pos (by exact last), if_neg (not_not.mpr control)]
  rfl

theorem BceVhciUrb.earlierCompletion_eq {u : BceVhciUrb} {c : BceSqCompletionData} (q : BceVhciTransferQueue)
    (control : u.isControl) (waits : u.state = .waitingForCompletion) (more : ¬u.EndsData c) :
    u.transferCompletion c q =
      { u with receiveOffset := u.receiveOffset + BitVec.ofNat 32 c.dataSize }.controlCheckStatus q := by
  unfold transferCompletion controlTransferCompletion dataTransferCompletion
  rw [if_pos control, if_neg (by simp [waits]), if_pos (.inr waits), if_pos waits]
  simp only
  rw [if_neg (by exact more)]
  rfl

/-- A completion that is not waited for. -/
theorem BceVhciUrb.completion_ignored {u : BceVhciUrb} (c : BceSqCompletionData) (q : BceVhciTransferQueue)
    (control : u.isControl) (unsettled : u.Unsettled) (setup : u.state ≠ .controlWaitingForSetupCompletion)
    (data : u.state ≠ .waitingForCompletion) : u.transferCompletion c q = ⟨none, some u, q⟩ := by
  unfold transferCompletion controlTransferCompletion dataTransferCompletion
  rw [if_pos control, if_neg setup, if_neg data]
  split
  · exact unsettled q
  · rfl

namespace ControlRecord

open BceVhciTransferQueue

variable {r : ControlRecord} {u : BceVhciUrb} {q p : BceVhciTransferQueue} {msg : BceVhciMessage}
  {c : BceSqCompletionData}

theorem status_mem (some : r.status ≠ 0) : r.status ∈ r.statuses := by
  unfold status at some ⊢
  cases last : r.statuses.getLast? with
  | none => simp [List.getLastD_eq_getLast?, last] at some
  | some status =>
    simp only [List.getLastD_eq_getLast?, last, Option.getD_some]
    exact List.mem_of_getLast? last

/-- What the queue did before the call does not matter for it. -/
theorem Follows.of_giveback {call : UrbCall} (follows : r.Follows p call)
    (same : p.givebackUrbList = q.givebackUrbList) : r.Follows q call := by
  unfold Follows at follows ⊢
  rw [← same]
  exact follows

/-- Looking at the held status completes the URB where its record explains that. -/
theorem check_follows (stage : r.Stage u) (q : BceVhciTransferQueue) : r.Follows q (u.controlCheckStatus q) := by
  have held : u.receivedStatus ≠ 0 → u.receivedStatus ∈ r.statuses := by
    rw [← stage.status]
    exact status_mem
  unfold BceVhciUrb.controlCheckStatus
  split
  case isTrue none =>
    refine ⟨stage, ?_, rfl⟩
    intro p
    unfold BceVhciUrb.controlCheckStatus
    rw [if_pos none]
  case isFalse some =>
    split
    case isFalse early =>
      refine ⟨stage, ?_, rfl⟩
      intro p
      unfold BceVhciUrb.controlCheckStatus
      rw [if_neg some, if_neg early]
    case isTrue settles =>
      simp only
      split
      case isTrue error =>
        refine ⟨{ u.urb with status := Errno.pipe.neg }, ⟨?_, ?_⟩, rfl⟩
        · intro success
          exact absurd success (show Errno.pipe.neg ≠ 0 by decide)
        · intro _
          exact ⟨⟨u.receivedStatus, held some, some, error⟩, rfl, rfl, rfl⟩
      case isFalse success =>
        have success : u.receivedStatus = BceVhciMessageStatus.success.code := not_not.mp success
        have finished : u.state = .dataTransferComplete := by
          rcases settles with finished | ⟨error, -⟩
          · exact finished
          · exact absurd success error
        refine ⟨{ u.urb with status := 0 }, ⟨?_, ?_⟩, rfl⟩
        · intro _
          refine ⟨stage.setupSent.mpr ?_, stage.setupCompleted.mpr ?_, stage.dataCompleted.mpr finished, ?_⟩
          · rw [finished]
            decide
          · rw [finished]
            decide
          · rw [← success]
            exact held some
        · intro failed
          exact absurd failed (show 0 ≠ Errno.pipe.neg by decide)

theorem note_update_none (none : CalledUrb.submissions ⟨.update msg, u, q⟩ = []) :
    r.note ⟨.update msg, u, q⟩ = { r with statuses :=
      if msg.cmd = BceVhciCommand.controlTransferStatus.code then r.statuses ++ [msg.status] else r.statuses } := by
  simp [note, none]

/-- A message that the URB refuses or cannot answer changes neither it nor its record. -/
theorem unanswered_follows (stage : r.Stage u) (unsettled : u.Unsettled)
    (other : msg.cmd ≠ BceVhciCommand.controlTransferStatus.code) (kept : (u.update msg q).urb = some u)
    (same : (u.update msg q).q.outstanding true = q.outstanding true) :
    (r.note ⟨.update msg, u, q⟩).Follows q (u.update msg q) := by
  rw [note_update_none (CalledUrb.submissions_none same), if_neg other]
  unfold Follows
  rw [kept]
  exact ⟨stage, unsettled, ((u.update_fits msg q).kept u kept).2.2.2⟩

/-- A status, wherever the URB is. -/
theorem status_follows (stage : r.Stage u) (q : BceVhciTransferQueue)
    (status : msg.cmd = BceVhciCommand.controlTransferStatus.code) :
    (r.note ⟨.update msg, u, q⟩).Follows q (u.update msg q) := by
  have eq := u.update_status stage.control stage.started status q
  have none : CalledUrb.submissions ⟨.update msg, u, q⟩ = [] := by
    refine CalledUrb.submissions_none ?_
    show (u.update msg q).q.outstanding true = _
    rw [eq]
    exact (BceVhciUrb.controlCheckStatus_uses _ q).1.outstanding true
  rw [note_update_none none, if_pos status, eq]
  refine check_follows ?_ q
  exact { stage with status := by simp [ControlRecord.status] }

/-- The T2 asks for the setup packet, which is submitted if there is room. -/
theorem setup_follows (stage : r.Stage u) (unsettled : u.Unsettled) (q : BceVhciTransferQueue)
    (waits : u.state = .controlWaitingForSetupRequest) (asked : msg.cmd = BceVhciCommand.transferRequest.code) :
    (r.note ⟨.update msg, u, q⟩).Follows q (u.update msg q) := by
  have other : msg.cmd ≠ BceVhciCommand.controlTransferStatus.code := by
    rw [asked]
    decide
  have uses := u.sendOutData_uses u.urb.setupDma BceVhciUrb.usbCtrlrequestSize q
  rcases run : u.sendOutData u.urb.setupDma BceVhciUrb.usbCtrlrequestSize q with ⟨ret, p⟩
  rw [run] at uses
  rcases uses with ⟨refuses, failed⟩ | ⟨submits, sent⟩
  · cases failed
    have eq : u.update msg q = ⟨none, some u, p⟩ := by
      unfold BceVhciUrb.update BceVhciUrb.controlUpdate
      rw [if_neg stage.started, if_pos stage.control, if_neg other, if_pos ⟨waits, asked⟩]
      simp only [run]
    refine unanswered_follows stage unsettled other (by rw [eq]) ?_
    rw [eq]
    exact outstanding_of_sq (refuses.sq true)
  · cases sent
    have eq : u.update msg q = ⟨none, some { u with state := .controlWaitingForSetupCompletion }, p⟩ := by
      unfold BceVhciUrb.update BceVhciUrb.controlUpdate
      rw [if_neg stage.started, if_pos stage.control, if_neg other, if_pos ⟨waits, asked⟩]
      simp only [run]
    have one : CalledUrb.submissions ⟨.update msg, u, q⟩ = [u.setupSubmission] := by
      refine CalledUrb.submissions_one ?_
      show (u.update msg q).q.outstanding true = _
      rw [eq]
      exact submits.outstanding
    have completed : r.setupCompleted = false := by
      have before := stage.setupCompleted
      simpa [waits] using before
    have noted : r.note ⟨.update msg, u, q⟩ = { r with setupSent := true } := by
      simp [note, one, completed, other]
    have giveback := ((u.update_fits msg q).kept _ (by rw [eq])).2.2.2
    rw [noted]
    unfold Follows
    rw [eq] at giveback ⊢
    refine ⟨⟨stage.control, nofun, ⟨nofun, nofun⟩, ?_, ?_, ?_, ?_, ?_, stage.status⟩, ?_, giveback⟩
    · simp
    · simp [completed]
    · have before := stage.dataSent
      simpa [waits] using before
    · have before := stage.received
      simpa [waits] using before
    · have before := stage.dataCompleted
      simpa [waits] using before
    · intro p
      simp [BceVhciUrb.controlCheckStatus]

/-- The T2 asks for data, of which a chunk is submitted if there is room. -/
theorem data_follows (stage : r.Stage u) (unsettled : u.Unsettled) (q : BceVhciTransferQueue)
    (waits : u.state = .waitingForTransferRequest ∨ u.state = .waitingForCompletion)
    (other : msg.cmd ≠ BceVhciCommand.controlTransferStatus.code) :
    (r.note ⟨.update msg, u, q⟩).Follows q (u.update msg q) := by
  have eq : u.update msg q = (u.dataUpdate msg q).andThen BceVhciUrb.controlCheckStatus := by
    have begun : ¬(u.state = .controlWaitingForSetupRequest ∧ msg.cmd = BceVhciCommand.transferRequest.code) := by
      rcases waits with state | state <;> simp [state]
    unfold BceVhciUrb.update BceVhciUrb.controlUpdate
    rw [if_neg stage.started, if_pos stage.control, if_neg other, if_neg begun, if_pos waits]
  rcases u.dataUpdate_uses msg q with ⟨-, again⟩ | ⟨-, -, refuses, failed, kept⟩ |
    ⟨waits, asked, taken, x, v, -, submits, present, -⟩
  · rw [again] at eq
    refine unanswered_follows stage unsettled other (by rw [eq]; rfl) ?_
    rw [eq]
    rfl
  · rw [UrbCall.andThen, failed] at eq
    refine unanswered_follows stage unsettled other (by rw [eq]; exact kept) ?_
    rw [eq]
    exact outstanding_of_sq (refuses.sq true)
  · obtain ⟨sendOffset, rfl⟩ := BceVhciUrb.dataUpdate_sent taken present
    have giveback := ((u.dataUpdate_fits msg q).kept _ present).2.2.2
    rw [UrbCall.andThen, taken, present] at eq
    have checked := BceVhciUrb.controlCheckStatus_uses
      { u with sendOffset, state := .waitingForCompletion } (u.dataUpdate msg q).q
    have one : CalledUrb.submissions ⟨.update msg, u, q⟩ = [x] := by
      refine CalledUrb.submissions_one ?_
      show (u.update msg q).q.outstanding true = _
      rw [eq]
      exact (submits.kept checked.1).outstanding
    have before := stage.setupCompleted
    have sent := stage.setupSent
    have completed := stage.dataCompleted
    have received := stage.received
    simp only [waits, ne_eq, reduceCtorEq, not_false_eq_true, and_self, iff_true, iff_false, forall_const]
      at before sent completed received
    have noted : r.note ⟨.update msg, u, q⟩ = { r with dataSent := true } := by
      simp [note, one, before, sent, other]
    rw [noted, eq]
    refine (check_follows ?_ _).of_giveback giveback
    refine ⟨stage.control, by simp, ⟨by simp, by simp⟩, ?_, ?_, ?_, ?_, ?_, stage.status⟩
    · simp [sent]
    · simp [before]
    · simp
    · intro _
      exact received
    · simp [completed]

/-- A message of the T2. -/
theorem update_follows (stage : r.Stage u) (unsettled : u.Unsettled) (msg : BceVhciMessage)
    (q : BceVhciTransferQueue) : (r.note ⟨.update msg, u, q⟩).Follows q (u.update msg q) := by
  by_cases status : msg.cmd = BceVhciCommand.controlTransferStatus.code
  · exact status_follows stage q status
  · by_cases setup : u.state = .controlWaitingForSetupRequest ∧ msg.cmd = BceVhciCommand.transferRequest.code
    · exact setup_follows stage unsettled q setup.1 setup.2
    · by_cases waits : u.state = .waitingForTransferRequest ∨ u.state = .waitingForCompletion
      · exact data_follows stage unsettled q waits status
      · have again : u.update msg q = ⟨some .again, some u, q⟩ := by
          unfold BceVhciUrb.update BceVhciUrb.controlUpdate
          rw [if_neg stage.started, if_pos stage.control, if_neg status, if_neg setup, if_neg waits]
        exact unanswered_follows stage unsettled status (by rw [again]) (by rw [again])

/-- The setup packet is completed, and the data stage begins or fails to. -/
theorem setupCompletion_follows (stage : r.Stage u) (c : BceSqCompletionData) (q : BceVhciTransferQueue)
    (waits : u.state = .controlWaitingForSetupCompletion) :
    (r.note ⟨.transferCompletion c, u, q⟩).Follows q (u.transferCompletion c q) := by
  have sent := stage.setupSent
  have before := stage.setupCompleted
  have received := stage.received
  simp only [waits, ne_eq, reduceCtorEq, not_false_eq_true, not_true_eq_false, and_false, iff_true, iff_false,
    forall_const, Bool.not_eq_true] at sent before received
  have noted : r.note ⟨.transferCompletion c, u, q⟩ = { r with
      setupCompleted := true
      dataSent := CalledUrb.receptions ⟨.transferCompletion c, u, q⟩ ≠ []
      dataCompleted := u.dir = .toDevice && u.urb.transferBufferLength = 0 } := by
    simp [note, sent, before]
  rw [noted]
  rcases BceVhciUrb.setupCompletion_cases c q stage.control waits with ⟨outgoing, data, eq⟩ |
    ⟨outgoing, empty, eq⟩ | ⟨incoming, eq⟩ | ⟨incoming, submits, eq⟩
  · have none : CalledUrb.receptions ⟨.transferCompletion c, u, q⟩ = [] := by
      refine CalledUrb.receptions_none ?_
      show (u.transferCompletion c q).q.outstanding false = _
      rw [eq]
      exact (BceVhciUrb.controlCheckStatus_uses _ q).1.outstanding false
    rw [none, eq]
    refine check_follows ?_ q
    refine ⟨stage.control, ?_, ⟨?_, ?_⟩, ?_, ?_, ?_, ?_, ?_, stage.status⟩
    · nofun
    · nofun
    · nofun
    · simp [sent]
    · simp
    · simp
    · intro _
      exact received
    · simpa using fun _ => data
  · rw [eq]
    refine check_follows ?_ q
    refine ⟨stage.control, ?_, ⟨?_, ?_⟩, ?_, ?_, ?_, ?_, ?_, stage.status⟩
    · nofun
    · nofun
    · nofun
    · simp [sent]
    · simp
    · simp
    · simp
    · simp [outgoing, empty]
  · rw [eq]
    refine ⟨{ u.urb with status := Errno.nomem.neg }, ⟨?_, ?_⟩, ?_⟩
    · intro success
      exact absurd success (show Errno.nomem.neg ≠ 0 by decide)
    · intro failed
      exact absurd failed (show Errno.nomem.neg ≠ Errno.pipe.neg by decide)
    · show (u.dataTransferIn q).q.givebackUrbList ++ _ = _
      rw [(u.dataTransferIn_starts q).frame.givebackUrbList]
  · have one : CalledUrb.receptions ⟨.transferCompletion c, u, q⟩ = [u.inSubmission] := by
      refine CalledUrb.receptions_one ?_
      show (u.transferCompletion c q).q.outstanding false = _
      rw [eq]
      exact (submits.kept (BceVhciUrb.controlCheckStatus_uses _ _).1).outstanding
    have giveback := (u.dataTransferIn_starts q).frame.givebackUrbList
    rw [one, eq]
    refine (check_follows ?_ _).of_giveback giveback
    refine ⟨stage.control, ?_, ⟨?_, ?_⟩, ?_, ?_, ?_, ?_, ?_, stage.status⟩
    · nofun
    · nofun
    · nofun
    · simp [sent]
    · simp
    · simp
    · intro _
      exact received
    · simp [incoming]

/-- A completion of data brings the URB to the end of the data stage, or is one of several. -/
theorem dataCompletion_follows (stage : r.Stage u) (c : BceSqCompletionData) (q : BceVhciTransferQueue)
    (waits : u.state = .waitingForCompletion) :
    (r.note ⟨.transferCompletion c, u, q⟩).Follows q (u.transferCompletion c q) := by
  have sent := stage.setupSent
  have begun := stage.setupCompleted
  have data := stage.dataSent
  have received := stage.received
  have completed := stage.dataCompleted
  simp only [waits, ne_eq, reduceCtorEq, not_false_eq_true, and_self, iff_true, iff_false, forall_const,
    Bool.not_eq_true] at sent begun data received completed
  have noted : r.note ⟨.transferCompletion c, u, q⟩ = r.noteData u c := by
    simp [note, sent, begun, data]
  have ended : (r.noteData u c).dataCompleted ↔ u.EndsData c := by
    simp [noteData, BceVhciUrb.EndsData, completed, received]
  rw [noted]
  by_cases last : u.EndsData c
  · rw [BceVhciUrb.lastCompletion_eq q stage.control waits last]
    refine check_follows ?_ q
    refine ⟨stage.control, ?_, ⟨?_, ?_⟩, ?_, ?_, ?_, ?_, ?_, stage.status⟩
    · nofun
    · nofun
    · nofun
    · simp [noteData, sent, BceVhciUrb.dataEnded]
    · simp [noteData, begun, BceVhciUrb.dataEnded]
    · simp [BceVhciUrb.dataEnded]
    · simp [BceVhciUrb.dataEnded]
    · simp [BceVhciUrb.dataEnded, ended, last]
  · rw [BceVhciUrb.earlierCompletion_eq q stage.control waits last]
    refine check_follows ?_ q
    refine ⟨stage.control, ?_, ⟨?_, ?_⟩, ?_, ?_, ?_, ?_, ?_, stage.status⟩
    · simp [waits]
    · simp [waits]
    · simp [waits]
    · simp [noteData, sent, waits]
    · simp [noteData, begun, waits]
    · simp [noteData, data, waits]
    · simp [noteData, received]
    · simp [ended, last, waits]

/-- A completion that the URB ignores is not of the setup packet, and does not end the data stage. -/
theorem ignored_stage (stage : r.Stage u) (c : BceSqCompletionData) (q : BceVhciTransferQueue)
    (setup : u.state ≠ .controlWaitingForSetupCompletion) (data : u.state ≠ .waitingForCompletion) :
    (r.note ⟨.transferCompletion c, u, q⟩).Stage u := by
  by_cases first : r.setupSent
  · have begun : r.setupCompleted := stage.setupCompleted.mpr ⟨stage.setupSent.mp first, setup⟩
    by_cases sent : r.dataSent
    · have finished : u.state = .dataTransferComplete := by
        by_contra earlier
        exact data ((stage.dataSent earlier).mp sent)
      have noted : r.note ⟨.transferCompletion c, u, q⟩ = r.noteData u c := by
        simp [note, first, begun, sent]
      rw [noted]
      refine { stage with dataSent := ?_, received := ?_, dataCompleted := ?_ }
      · intro earlier
        exact absurd finished earlier
      · intro earlier
        exact absurd finished earlier
      · have completed := stage.dataCompleted.mpr finished
        simp [noteData, completed, finished]
    · have noted : r.note ⟨.transferCompletion c, u, q⟩ = r := by
        simp [note, first, begun, sent]
      rw [noted]
      exact stage
  · have noted : r.note ⟨.transferCompletion c, u, q⟩ = r := by
      simp [note, first]
    rw [noted]
    exact stage

/-- A completion. -/
theorem completion_follows (stage : r.Stage u) (unsettled : u.Unsettled) (c : BceSqCompletionData)
    (q : BceVhciTransferQueue) :
    (r.note ⟨.transferCompletion c, u, q⟩).Follows q (u.transferCompletion c q) := by
  by_cases setup : u.state = .controlWaitingForSetupCompletion
  · exact setupCompletion_follows stage c q setup
  · by_cases data : u.state = .waitingForCompletion
    · exact dataCompletion_follows stage c q data
    · rw [BceVhciUrb.completion_ignored c q stage.control unsettled setup data]
      exact ⟨ignored_stage stage c q setup data, unsettled, rfl⟩

/-- An URB begins with nothing on its record. -/
theorem begin_follows (q : BceVhciTransferQueue) (urb : Urb) (control : q.endp.num = 0)
    (started : ((q.newUrb urb).init q).ret = none) :
    ∃ u, ((q.newUrb urb).init q).urb = some u ∧ ControlRecord.Stage {} u ∧ u.Unsettled := by
  have kind : (q.newUrb urb).isControl = true := decide_eq_true control
  unfold BceVhciUrb.init at started ⊢
  split at started
  case isTrue => cases started
  case isFalse slots =>
    rw [if_neg slots]
    simp only [kind, ↓reduceIte]
    refine ⟨_, rfl, ⟨rfl, nofun, ⟨nofun, nofun⟩, ?_, ?_, ?_, ?_, ?_, rfl⟩, ?_⟩
    · simp
    · simp
    · simp
    · intro _
      rfl
    · simp
    · intro p
      rfl

end ControlRecord

namespace ControlRun

variable {s t : ControlRun} {u : BceVhciUrb}

/-- The URB goes on waiting where its record shows it, or it was completed once, as the record explains. -/
def Explained (s : ControlRun) : Prop :=
  match s.urb with
  | some u => s.record.Stage u ∧ u.Unsettled ∧ s.completed = []
  | none => ∃ urb, s.completed = [urb] ∧ s.record.Explains urb s.q

theorem called_explained {call : CalledUrb} (here : call.q = s.q) (none : s.completed = [])
    (follows : (s.record.note call).Follows s.q call.result) : (s.called call).Explained := by
  unfold Explained called
  unfold ControlRecord.Follows at follows
  split at follows
  · rename_i u present
    obtain ⟨stage, unsettled, giveback⟩ := follows
    simp only [present]
    refine ⟨stage, unsettled, ?_⟩
    rw [none, giveback, here, List.drop_length]
    rfl
  · rename_i gone
    obtain ⟨urb, explains, giveback⟩ := follows
    simp only [gone]
    refine ⟨urb, ?_, explains⟩
    rw [none, giveback, here, List.drop_left]
    rfl

theorem step_explained (held : s.Explained) (event : ControlEvent) : (s.step event).Explained := by
  unfold step
  cases present : s.urb with
  | none => exact held
  | some u =>
    have live := held
    unfold Explained at live
    simp only [present] at live
    obtain ⟨stage, unsettled, none⟩ := live
    cases event with
    | message msg => exact called_explained rfl none (ControlRecord.update_follows stage unsettled msg s.q)
    | completion c => exact called_explained rfl none (ControlRecord.completion_follows stage unsettled c s.q)
    | others q => exact ⟨stage, unsettled, none⟩

theorem explained (reach : machine.Reachable s) : s.Explained := by
  refine Machine.Reachable.invariant ?_ ?_ reach
  · rintro s ⟨q, urb, control, started, rfl⟩
    obtain ⟨u, present, stage, unsettled⟩ := ControlRecord.begin_follows q urb control started
    unfold Explained
    simp only [present]
    exact ⟨stage, unsettled, trivial⟩
  · intro s event t held run
    cases Option.some.inj run
    exact step_explained held event

/-- The URB is completed at most once, as its record explains. -/
structure Outcome (s : ControlRun) : Prop where
  once : s.completed.length ≤ 1
  last : s.completed ≠ [] → s.urb = none
  explains : ∀ urb ∈ s.completed, s.record.Explains urb s.q

/-- The URB waits for the completion that ends its data stage. -/
def AwaitsLast (s : ControlRun) (c : BceSqCompletionData) : Prop :=
  ∃ u, s.urb = some u ∧ u.state = .waitingForCompletion ∧ u.EndsData c

def Completes (s : ControlRun) (events : List ControlEvent) (urb : Urb) : Prop :=
  ∃ t, machine.run s events = some t ∧ t.completed = [urb]

/-- What the last completion of data and a status come to in either order. An error that follows a
`BCE_VHCI_SUCCESS` comes too late behind the completion. -/
structure Commutes (s : ControlRun) (c : BceSqCompletionData) (msg : BceVhciMessage) : Prop where
  success : msg.status = BceVhciMessageStatus.success.code → ∃ urb, urb.status = 0 ∧
    s.Completes [.completion c, .message msg] urb ∧ s.Completes [.message msg, .completion c] urb
  error : msg.status ≠ 0 → msg.status ≠ BceVhciMessageStatus.success.code →
    s.record.status ≠ BceVhciMessageStatus.success.code → ∃ urb other,
      urb.status = Errno.pipe.neg ∧ other.status = Errno.pipe.neg ∧
        s.Completes [.completion c, .message msg] urb ∧ s.Completes [.message msg, .completion c] other
  late : msg.status ≠ 0 → msg.status ≠ BceVhciMessageStatus.success.code →
    s.record.status = BceVhciMessageStatus.success.code → ∃ urb other,
      urb.status = 0 ∧ other.status = Errno.pipe.neg ∧
        s.Completes [.completion c, .message msg] urb ∧ s.Completes [.message msg, .completion c] other

theorem step_message (present : s.urb = some u) (msg : BceVhciMessage) :
    s.step (.message msg) = s.called ⟨.update msg, u, s.q⟩ := by
  unfold step
  rw [present]

theorem step_completion (present : s.urb = some u) (c : BceSqCompletionData) :
    s.step (.completion c) = s.called ⟨.transferCompletion c, u, s.q⟩ := by
  unfold step
  rw [present]

theorem step_gone (gone : s.urb = none) (event : ControlEvent) : s.step event = s := by
  unfold step
  rw [gone]

/-- The first of two events completes the URB. -/
theorem completes_first {call : CalledUrb} {e f : ControlEvent} {urb : Urb} (first : s.step e = s.called call)
    (here : call.q = s.q) (fresh : s.completed = []) (gone : call.result.urb = none)
    (giveback : call.result.q.givebackUrbList = s.q.givebackUrbList ++ [urb]) : s.Completes [e, f] urb := by
  refine ⟨(s.step e).step f, rfl, ?_⟩
  have ended : (s.called call).urb = none := gone
  rw [first, step_gone ended]
  show s.completed ++ _ = _
  rw [fresh, giveback, here, List.drop_left]
  rfl

/-- The first of two events leaves the URB waiting, and the second completes it. -/
theorem completes_second {call : CalledUrb} {e f : ControlEvent} {v : BceVhciUrb} {ret : Option Errno}
    {urb : Urb} (first : s.step e = s.called call) (here : call.q = s.q) (fresh : s.completed = [])
    (kept : call.result = ⟨ret, some v, s.q⟩)
    (second : ∀ t : ControlRun, t.urb = some v → t.q = s.q → ∃ call, t.step f = t.called call ∧
      call.q = t.q ∧ call.result.q.givebackUrbList = s.q.givebackUrbList ++ [urb]) :
    s.Completes [e, f] urb := by
  refine ⟨(s.step e).step f, rfl, ?_⟩
  have live : (s.called call).urb = some v := by
    show call.result.urb = _
    rw [kept]
  have same : (s.called call).q = s.q := by
    show call.result.q = _
    rw [kept]
  have still : (s.called call).completed = [] := by
    show s.completed ++ _ = _
    rw [fresh, kept, here, List.drop_length]
    rfl
  obtain ⟨call', stepped, here', giveback⟩ := second _ live same
  rw [first, stepped]
  show (s.called call).completed ++ _ = _
  rw [still, giveback, here', same, List.drop_left]
  rfl

/-- What the held status makes of an URB behind the setup stage. -/
theorem check_done (q : BceVhciTransferQueue) (finished : u.state = .dataTransferComplete)
    (success : u.receivedStatus = BceVhciMessageStatus.success.code) :
    u.controlCheckStatus q = ⟨some .noent, none, { u with state := .controlComplete }.complete 0 q⟩ := by
  have held : u.receivedStatus ≠ 0 := by
    rw [success]
    decide
  unfold BceVhciUrb.controlCheckStatus
  rw [if_neg held, if_pos (.inl finished)]
  simp only
  rw [if_neg (not_not.mpr success)]

theorem check_failed (q : BceVhciTransferQueue) (state : u.state ≠ .controlWaitingForSetupRequest)
    (state' : u.state ≠ .controlWaitingForSetupCompletion) (held : u.receivedStatus ≠ 0)
    (error : u.receivedStatus ≠ BceVhciMessageStatus.success.code) :
    u.controlCheckStatus q = ⟨some .noent, none, ({ u with state := .controlComplete }.complete
      Errno.pipe.neg { q with active := false, stalled := true }).requestReset⟩ := by
  unfold BceVhciUrb.controlCheckStatus
  rw [if_neg held, if_pos (.inr ⟨error, state, state'⟩)]
  simp only
  rw [if_pos error]

theorem check_waits (q : BceVhciTransferQueue) (state : u.state ≠ .dataTransferComplete)
    (success : u.receivedStatus = BceVhciMessageStatus.success.code) :
    u.controlCheckStatus q = ⟨none, some u, q⟩ := by
  unfold BceVhciUrb.controlCheckStatus
  split
  · rfl
  · rw [if_neg]
    rintro (finished | ⟨error, -⟩)
    · exact state finished
    · exact error success

/-- Before its data stage ends an URB holds no status but `BCE_VHCI_SUCCESS`. -/
theorem held_status (q : BceVhciTransferQueue) (unsettled : u.Unsettled) (waits : u.state = .waitingForCompletion) :
    u.receivedStatus = 0 ∨ u.receivedStatus = BceVhciMessageStatus.success.code := by
  by_contra other
  rw [not_or] at other
  have failed := check_failed q (by rw [waits]; decide) (by rw [waits]; decide) other.1 other.2
  rw [unsettled] at failed
  cases failed

/-- The URB waits for the completion that ends its data stage and was not completed. -/
structure AtEnd (s : ControlRun) (u : BceVhciUrb) (c : BceSqCompletionData) : Prop where
  present : s.urb = some u
  control : u.isControl
  fresh : s.completed = []
  waits : u.state = .waitingForCompletion
  last : u.EndsData c

variable {c : BceSqCompletionData} {msg : BceVhciMessage}

theorem AtEnd.completed (ends : s.AtEnd u c) (q : BceVhciTransferQueue) :
    u.transferCompletion c q = (u.dataEnded c).controlCheckStatus q :=
  u.lastCompletion_eq q ends.control ends.waits ends.last

theorem AtEnd.updated (ends : s.AtEnd u c) (status : msg.cmd = BceVhciCommand.controlTransferStatus.code)
    (q : BceVhciTransferQueue) :
    u.update msg q = { u with receivedStatus := msg.status }.controlCheckStatus q :=
  u.update_status ends.control (by rw [ends.waits]; decide) status q

/-- With a `BCE_VHCI_SUCCESS` held the completion completes the URB. -/
theorem AtEnd.completion_first (ends : s.AtEnd u c)
    (held : u.receivedStatus = BceVhciMessageStatus.success.code) (event : ControlEvent) :
    s.Completes [.completion c, event] { (u.dataEnded c).urb with status := 0 } := by
  have done : u.transferCompletion c s.q = _ :=
    (ends.completed s.q).trans (check_done (u := u.dataEnded c) s.q rfl held)
  refine completes_first (step_completion ends.present c) rfl ends.fresh ?_ ?_
  · show (u.transferCompletion c s.q).urb = none
    rw [done]
  · show (u.transferCompletion c s.q).q.givebackUrbList = _
    rw [done]
    rfl

/-- With no status held the URB is completed by the one that follows the completion. -/
theorem AtEnd.status_second (ends : s.AtEnd u c) (held : u.receivedStatus = 0)
    (status : msg.cmd = BceVhciCommand.controlTransferStatus.code) {next : UrbCall} {urb : Urb}
    (settles : { u.dataEnded c with receivedStatus := msg.status }.controlCheckStatus s.q = next)
    (giveback : next.q.givebackUrbList = s.q.givebackUrbList ++ [urb]) :
    s.Completes [.completion c, .message msg] urb := by
  have kept : u.transferCompletion c s.q = ⟨none, some (u.dataEnded c), s.q⟩ := by
    rw [ends.completed s.q]
    unfold BceVhciUrb.controlCheckStatus
    rw [if_pos (show (u.dataEnded c).receivedStatus = 0 from held)]
  refine completes_second (step_completion ends.present c) rfl ends.fresh kept ?_
  intro t live same
  refine ⟨_, step_message live msg, rfl, ?_⟩
  have updated := (u.dataEnded c).update_status ends.control nofun status t.q
  show ((u.dataEnded c).update msg t.q).q.givebackUrbList = _
  rw [updated, same, settles, giveback]

/-- A `BCE_VHCI_SUCCESS` waits for the completion. -/
theorem AtEnd.completion_second (ends : s.AtEnd u c)
    (status : msg.cmd = BceVhciCommand.controlTransferStatus.code)
    (success : msg.status = BceVhciMessageStatus.success.code) :
    s.Completes [.message msg, .completion c] { (u.dataEnded c).urb with status := 0 } := by
  have kept : u.update msg s.q = ⟨none, some { u with receivedStatus := msg.status }, s.q⟩ := by
    rw [ends.updated status s.q]
    exact check_waits s.q (by rw [ends.waits]; decide) success
  refine completes_second (step_message ends.present msg) rfl ends.fresh kept ?_
  intro t live same
  refine ⟨_, step_completion live c, rfl, ?_⟩
  have completed := BceVhciUrb.lastCompletion_eq (u := { u with receivedStatus := msg.status }) t.q
    ends.control ends.waits ends.last
  have done := check_done (u := { u with receivedStatus := msg.status }.dataEnded c) s.q rfl success
  show ({ u with receivedStatus := msg.status }.transferCompletion c t.q).q.givebackUrbList = _
  rw [completed, same, done]
  rfl

/-- An error does not. -/
theorem AtEnd.error_first (ends : s.AtEnd u c) (status : msg.cmd = BceVhciCommand.controlTransferStatus.code)
    (held : msg.status ≠ 0) (error : msg.status ≠ BceVhciMessageStatus.success.code) (event : ControlEvent) :
    s.Completes [.message msg, event] { u.urb with status := Errno.pipe.neg } := by
  have failed : u.update msg s.q = _ := (ends.updated status s.q).trans
    (check_failed (u := { u with receivedStatus := msg.status }) s.q (by rw [ends.waits]; decide)
      (by rw [ends.waits]; decide) held error)
  refine completes_first (step_message ends.present msg) rfl ends.fresh ?_ ?_
  · show (u.update msg s.q).urb = none
    rw [failed]
  · show (u.update msg s.q).q.givebackUrbList = _
    rw [failed]
    rfl

theorem outcome (reach : machine.Reachable s) : s.Outcome := by
  have held := explained reach
  unfold Explained at held
  split at held
  · obtain ⟨-, -, none⟩ := held
    refine ⟨by simp [none], fun completed => absurd none completed, ?_⟩
    rw [none]
    nofun
  · rename_i gone
    obtain ⟨urb, one, explains⟩ := held
    refine ⟨by simp [one], fun _ => gone, ?_⟩
    intro other member
    rw [one] at member
    cases List.mem_singleton.mp member
    exact explains

/-- In every run a control URB is completed at most once: with 0 only behind its setup packet, its data stage
and a `BCE_VHCI_SUCCESS`, and with `-EPIPE` only behind an error, which stalls the queue. Its last
completion of data and a status commute, unless an error follows a `BCE_VHCI_SUCCESS`. -/
theorem control_outcome (reach : machine.Reachable s) : s.Outcome ∧ ∀ c msg, s.AwaitsLast c →
    msg.cmd = BceVhciCommand.controlTransferStatus.code → s.Commutes c msg := by
  refine ⟨outcome reach, ?_⟩
  intro c msg awaits status
  obtain ⟨u, present, waits, last⟩ := awaits
  have held := explained reach
  unfold Explained at held
  simp only [present] at held
  obtain ⟨stage, unsettled, fresh⟩ := held
  have ends : s.AtEnd u c := ⟨present, stage.control, fresh, waits, last⟩
  have before := held_status s.q unsettled waits
  rw [← stage.status] at before
  refine ⟨?_, ?_, ?_⟩
  · intro success
    refine ⟨{ (u.dataEnded c).urb with status := 0 }, rfl, ?_, ends.completion_second status success⟩
    rcases before with none | early
    · exact ends.status_second (stage.status.symm.trans none) status (check_done s.q rfl success) rfl
    · exact ends.completion_first (stage.status.symm.trans early) _
  · intro some error early
    refine ⟨{ (u.dataEnded c).urb with status := Errno.pipe.neg }, { u.urb with status := Errno.pipe.neg },
      rfl, rfl, ?_, ends.error_first status some error _⟩
    rcases before with none | held
    · exact ends.status_second (stage.status.symm.trans none) status
        (check_failed s.q nofun nofun some error) rfl
    · exact absurd held early
  · intro some error early
    exact ⟨_, _, rfl, rfl, ends.completion_first (stage.status.symm.trans early) _,
      ends.error_first status some error _⟩

/-- The queue of a control endpoint with an URB that was just started. -/
def controlStarted (urb : Urb) : ControlRun :=
  let q := (bceVhciCreateTransferQueue controlEndpoint 1 .bidirectional ⟨true, true, true⟩ []).get rfl
  ⟨((q.newUrb urb).init q).urb, ((q.newUrb urb).init q).q, [], {}⟩

theorem controlStarted_begins (urb : Urb) : machine.init (controlStarted urb) :=
  ⟨_, urb, rfl, rfl, rfl⟩

def statusMessage (status : BitVec 16) : BceVhciMessage :=
  ⟨BceVhciCommand.controlTransferStatus.code, status, 0x100, 0⟩

/-- The setup packet is asked for and completed. -/
def setupEvents : List ControlEvent :=
  [.message (bytesRequest 8), .completion ⟨bceCompletionSuccess, 8, 0⟩]

def controlBegun : ControlRun :=
  setupEvents.foldl step (controlStarted (sampleUrb 1 true))

theorem controlBegun_reachable : machine.Reachable controlBegun :=
  .of_run (.start (controlStarted_begins _)) setupEvents rfl

def lastBytes : BceSqCompletionData :=
  ⟨bceCompletionSuccess, 64, 0⟩

theorem controlBegun_awaits : controlBegun.AwaitsLast lastBytes :=
  ⟨_, rfl, by decide, .inl (by decide)⟩

theorem control_outcome_begun : controlBegun.Outcome ∧
    controlBegun.Commutes lastBytes (statusMessage BceVhciMessageStatus.success.code) ∧
    controlBegun.Commutes lastBytes (statusMessage BceVhciMessageStatus.error.code) := by
  obtain ⟨outcome, commutes⟩ := control_outcome controlBegun_reachable
  refine ⟨outcome, ?_, ?_⟩
  · exact commutes lastBytes _ controlBegun_awaits rfl
  · exact commutes lastBytes _ controlBegun_awaits rfl

/-- Between a `BCE_VHCI_SUCCESS` and an error the completion of the data completes the URB with 0. -/
theorem error_behind_success : ¬∀ s c msg, machine.Reachable s → s.AwaitsLast c →
    msg.cmd = BceVhciCommand.controlTransferStatus.code → msg.status ≠ BceVhciMessageStatus.success.code →
      ∃ urb other, urb.status = Errno.pipe.neg ∧ other.status = Errno.pipe.neg ∧
        s.Completes [.completion c, .message msg] urb ∧ s.Completes [.message msg, .completion c] other := by
  intro all
  let early := controlBegun.step (.message (statusMessage BceVhciMessageStatus.success.code))
  let late := statusMessage BceVhciMessageStatus.error.code
  have reach : machine.Reachable early := controlBegun_reachable.next rfl
  have awaits : early.AwaitsLast lastBytes := ⟨_, rfl, by decide, .inl (by decide)⟩
  obtain ⟨urb, -, failed, -, ⟨t, ran, completed⟩, -⟩ := all early lastBytes late reach awaits rfl (by decide)
  have seen : (machine.run early [.completion lastBytes, .message late]).map
      (fun t => t.completed.map (·.status)) = some [0] := by decide
  rw [ran, Option.map_some, completed] at seen
  cases (List.cons.inj (Option.some.inj seen)).1.symm.trans failed

end ControlRun

end AppleBce

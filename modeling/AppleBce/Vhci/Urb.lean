import AppleBce.Vhci.TransferQueue

namespace AppleBce

open Basis

/-- What a function on an URB returns: its result, where `none` is 0, the URB afterwards,
where `none` is one that was completed and freed, and its queue. -/
structure UrbCall where
  ret : Option Errno
  urb : Option BceVhciUrb
  q : BceVhciTransferQueue

/-- Going on with the URB unless the result is an error. -/
def UrbCall.andThen (call : UrbCall) (next : BceVhciUrb → BceVhciTransferQueue → UrbCall) : UrbCall :=
  match call.ret, call.urb with
  | none, some urb => next urb call.q
  | _, _ => call

namespace BceVhciUrb

/-- `bce_vhci_urb_complete`. The caller no longer has the URB in the list. -/
def complete (urb : BceVhciUrb) (status : Int) (q : BceVhciTransferQueue) : BceVhciTransferQueue :=
  { q with
    remainingActiveRequests :=
      if urb.state ≠ .initPending then q.remainingActiveRequests + 1 else q.remainingActiveRequests
    givebackUrbList := q.givebackUrbList ++ [{ urb.urb with status }] }

/-- The submission of what is still to be received. -/
def inSubmission (urb : BceVhciUrb) : UrbSubmission where
  urb := urb.id
  addr := urb.urb.transferDma + urb.receiveOffset.setWidth 64
  length := (urb.urb.transferBufferLength - urb.receiveOffset).setWidth 64

/-- `bce_vhci_urb_data_transfer_in`. A message reserved before the submission fails is
released again. -/
def dataTransferIn (urb : BceVhciUrb) (q : BceVhciTransferQueue) : UrbCall :=
  match q.reserveMessage with
  | (false, q) => ⟨some .nomem, some urb, q⟩
  | (true, q) =>
    match q.submit false urb.inSubmission with
    | (false, q) => ⟨some .nomem, some urb, q⟩
    | (true, q) =>
      ⟨none, some { urb with sendOffset := urb.receiveOffset, state := .waitingForCompletion },
        q.messageQueueWrite (q.transferRequest (urb.urb.transferBufferLength - urb.receiveOffset))⟩

/-- `bce_vhci_urb_data_start`. -/
def dataStart (urb : BceVhciUrb) (q : BceVhciTransferQueue) : UrbCall :=
  if urb.dir = .toDevice then
    if 0 < urb.urb.transferBufferLength then
      ⟨none, some { urb with state := .waitingForTransferRequest }, q⟩
    else ⟨none, some { urb with state := .dataTransferComplete }, q⟩
  else urb.dataTransferIn q

/-- `bce_vhci_urb_send_out_data`. -/
def sendOutData (urb : BceVhciUrb) (addr size : BitVec 64) (q : BceVhciTransferQueue) :
    Option Errno × BceVhciTransferQueue :=
  match q.submit true ⟨urb.id, addr, size⟩ with
  | (false, q) => (some .pipe, q)
  | (true, q) => (none, { q with sqOutPending := q.sqOutPending + 1 })

/-- `bce_vhci_urb_data_update`. -/
def dataUpdate (urb : BceVhciUrb) (msg : BceVhciMessage) (q : BceVhciTransferQueue) : UrbCall :=
  if urb.state = .waitingForTransferRequest ∧ msg.cmd = BceVhciCommand.transferRequest.code then
    let left := urb.urb.transferBufferLength - urb.sendOffset
    let asked := msg.param2.setWidth 32
    let trLen := if left ≤ asked then left else asked
    match urb.sendOutData (urb.urb.transferDma + urb.sendOffset.setWidth 64) (trLen.setWidth 64) q with
    | (some e, q) => ⟨some e, some urb, q⟩
    | (none, q) =>
      ⟨none, some { urb with sendOffset := urb.sendOffset + trLen, state := .waitingForCompletion }, q⟩
  else ⟨some .again, some urb, q⟩

/-- The packets `bce_vhci_urb_iso_complete` leaves, for the bytes that remain. -/
def isoPackets (maxp : BitVec 32) : BitVec 32 → List UsbIsoPacketDescriptor → List UsbIsoPacketDescriptor
  | _, [] => []
  | remaining, packet :: packets =>
    let pktLen := if maxp ≤ remaining then maxp else remaining
    { packet with actualLength := pktLen, status := 0 } :: isoPackets maxp (remaining - pktLen) packets

/-- `bce_vhci_urb_iso_complete`. -/
def isoComplete (urb : BceVhciUrb) (q : BceVhciTransferQueue) : BceVhciTransferQueue :=
  let isoFrameDesc := isoPackets q.endp.maxp urb.urb.actualLength urb.urb.isoFrameDesc
  { urb with urb := { urb.urb with errorCount := 0, isoFrameDesc } }.complete 0 q

/-- `bce_vhci_urb_data_transfer_completion`. -/
def dataTransferCompletion (urb : BceVhciUrb) (c : BceSqCompletionData) (q : BceVhciTransferQueue) :
    UrbCall :=
  if urb.state = .waitingForCompletion then
    let receiveOffset := urb.receiveOffset + BitVec.ofNat 32 c.dataSize
    if urb.dir = .fromDevice ∨ urb.urb.transferBufferLength ≤ receiveOffset then
      let urb := { urb with
        receiveOffset
        urb := { urb.urb with actualLength := receiveOffset }
        state := .dataTransferComplete }
      if ¬urb.isControl then
        ⟨some .noent, none,
          if urb.urb.isoFrameDesc ≠ [] then urb.isoComplete q else urb.complete 0 q⟩
      else ⟨none, some urb, q⟩
    else ⟨none, some { urb with receiveOffset }, q⟩
  else ⟨none, some urb, q⟩

/-- `bce_vhci_urb_control_check_status`. -/
def controlCheckStatus (urb : BceVhciUrb) (q : BceVhciTransferQueue) : UrbCall :=
  if urb.receivedStatus = 0 then ⟨none, some urb, q⟩
  else if urb.state = .dataTransferComplete ∨
      urb.receivedStatus ≠ BceVhciMessageStatus.success.code ∧
        urb.state ≠ .controlWaitingForSetupRequest ∧
        urb.state ≠ .controlWaitingForSetupCompletion then
    let urb := { urb with state := .controlComplete }
    if urb.receivedStatus ≠ BceVhciMessageStatus.success.code then
      ⟨some .noent, none,
        (urb.complete Errno.pipe.neg { q with active := false, stalled := true }).requestReset⟩
    else ⟨some .noent, none, urb.complete 0 q⟩
  else ⟨none, some urb, q⟩

/-- `sizeof(struct usb_ctrlrequest)`. -/
def usbCtrlrequestSize : BitVec 64 := 8

/-- `bce_vhci_urb_control_update`. -/
def controlUpdate (urb : BceVhciUrb) (msg : BceVhciMessage) (q : BceVhciTransferQueue) : UrbCall :=
  if msg.cmd = BceVhciCommand.controlTransferStatus.code then
    { urb with receivedStatus := msg.status }.controlCheckStatus q
  else if urb.state = .controlWaitingForSetupRequest ∧
      msg.cmd = BceVhciCommand.transferRequest.code then
    match urb.sendOutData urb.urb.setupDma usbCtrlrequestSize q with
    | (some _, q) => ⟨none, some urb, q⟩
    | (none, q) => ⟨none, some { urb with state := .controlWaitingForSetupCompletion }, q⟩
  else if urb.state = .waitingForTransferRequest ∨ urb.state = .waitingForCompletion then
    (urb.dataUpdate msg q).andThen controlCheckStatus
  else ⟨some .again, some urb, q⟩

/-- `bce_vhci_urb_control_transfer_completion`. -/
def controlTransferCompletion (urb : BceVhciUrb) (c : BceSqCompletionData) (q : BceVhciTransferQueue) :
    UrbCall :=
  if urb.state = .controlWaitingForSetupCompletion then
    let call := urb.dataStart q
    match call.ret, call.urb with
    | some e, some urb => ⟨some .noent, none, urb.complete e.neg call.q⟩
    | _, _ => call.andThen controlCheckStatus
  else if urb.state = .waitingForTransferRequest ∨ urb.state = .waitingForCompletion then
    (urb.dataTransferCompletion c q).andThen controlCheckStatus
  else ⟨none, some urb, q⟩

/-- `bce_vhci_urb_update`. -/
def update (urb : BceVhciUrb) (msg : BceVhciMessage) (q : BceVhciTransferQueue) : UrbCall :=
  if urb.state = .initPending then ⟨some .again, some urb, q⟩
  else if urb.isControl then urb.controlUpdate msg q
  else urb.dataUpdate msg q

/-- `bce_vhci_urb_transfer_completion`. -/
def transferCompletion (urb : BceVhciUrb) (c : BceSqCompletionData) (q : BceVhciTransferQueue) :
    UrbCall :=
  if urb.isControl then urb.controlTransferCompletion c q
  else urb.dataTransferCompletion c q

/-- `bce_vhci_urb_resume`. -/
def resume (urb : BceVhciUrb) (q : BceVhciTransferQueue) : UrbCall :=
  if urb.state = .waitingForCompletion then
    let call := urb.dataTransferIn q
    match call.ret, call.urb with
    | some e, some urb => ⟨none, none, urb.complete e.neg call.q⟩
    | _, _ => call
  else ⟨none, some urb, q⟩

/-- `bce_vhci_urb_init`. -/
def init (urb : BceVhciUrb) (q : BceVhciTransferQueue) : UrbCall :=
  if q.remainingActiveRequests = 0 then ⟨some .inval, some urb, q⟩
  else
    let call :=
      if urb.isControl then ⟨none, some { urb with state := .controlWaitingForSetupRequest }, q⟩
      else urb.dataStart q
    if call.ret = none then
      { call with
        q := { call.q with
          remainingActiveRequests := call.q.remainingActiveRequests - 1
          inits := call.q.inits ++ [urb.id] } }
    else call

end BceVhciUrb

/-- What every function on an URB leaves alone. -/
structure BceVhciTransferQueue.Frame (q r : BceVhciTransferQueue) : Prop where
  endp : r.endp = q.endp
  state : r.state = q.state
  maxActiveRequests : r.maxActiveRequests = q.maxActiveRequests
  pausedBy : r.pausedBy = q.pausedBy
  devAddr : r.devAddr = q.devAddr
  endpAddr : r.endpAddr = q.endpAddr
  evq : r.evq = q.evq
  urbList : r.urbList = q.urbList
  wResume : r.wResume = q.wResume
  wFlush : r.wFlush = q.wFlush
  flushGivebackList : r.flushGivebackList = q.flushGivebackList
  ghostInCount : r.ghostInCount = q.ghostInCount
  ghostOutCount : r.ghostOutCount = q.ghostOutCount
  wakeups : r.wakeups = q.wakeups

/-- What one that only reserves, submits and writes messages leaves alone. -/
structure BceVhciTransferQueue.DmaFrame (q r : BceVhciTransferQueue) : Prop extends q.Frame r where
  remaining : r.remainingActiveRequests = q.remainingActiveRequests
  active : r.active = q.active
  stalled : r.stalled = q.stalled
  wReset : r.wReset = q.wReset
  givebackUrbList : r.givebackUrbList = q.givebackUrbList
  inits : r.inits = q.inits

namespace BceVhciTransferQueue

variable {q r s : BceVhciTransferQueue}

theorem Frame.refl (q : BceVhciTransferQueue) : q.Frame q := by
  constructor <;> rfl

theorem Frame.trans (first : q.Frame r) (second : r.Frame s) : q.Frame s where
  endp := second.endp.trans first.endp
  state := second.state.trans first.state
  maxActiveRequests := second.maxActiveRequests.trans first.maxActiveRequests
  pausedBy := second.pausedBy.trans first.pausedBy
  devAddr := second.devAddr.trans first.devAddr
  endpAddr := second.endpAddr.trans first.endpAddr
  evq := second.evq.trans first.evq
  urbList := second.urbList.trans first.urbList
  wResume := second.wResume.trans first.wResume
  wFlush := second.wFlush.trans first.wFlush
  flushGivebackList := second.flushGivebackList.trans first.flushGivebackList
  ghostInCount := second.ghostInCount.trans first.ghostInCount
  ghostOutCount := second.ghostOutCount.trans first.ghostOutCount
  wakeups := second.wakeups.trans first.wakeups

theorem DmaFrame.refl (q : BceVhciTransferQueue) : q.DmaFrame q :=
  ⟨.refl q, rfl, rfl, rfl, rfl, rfl, rfl⟩

theorem DmaFrame.trans (first : q.DmaFrame r) (second : r.DmaFrame s) : q.DmaFrame s where
  toFrame := first.toFrame.trans second.toFrame
  remaining := second.remaining.trans first.remaining
  active := second.active.trans first.active
  stalled := second.stalled.trans first.stalled
  wReset := second.wReset.trans first.wReset
  givebackUrbList := second.givebackUrbList.trans first.givebackUrbList
  inits := second.inits.trans first.inits

/-- A submission fails without its queue or without room, or it is appended. -/
theorem submit_cases (q : BceVhciTransferQueue) (out : Bool) (submission : UrbSubmission) :
    (q.sq out = none ∧ q.submit out submission = (false, { q with nullSq := true })) ∨
    (∃ fifo, q.sq out = some fifo ∧ fifo.submit submission = none ∧
      q.submit out submission = (false, q)) ∨
    ∃ fifo next, q.sq out = some fifo ∧ fifo.submit submission = some next ∧
      q.submit out submission = (true, q.setSq next out) := by
  cases present : q.sq out with
  | none => simp [submit, present]
  | some fifo => cases room : fifo.submit submission <;> simp [submit, present, room]

theorem setSq_frame (q : BceVhciTransferQueue) (fifo : BoundedFifo UrbSubmission) (out : Bool) :
    q.DmaFrame (q.setSq fifo out) := by
  cases out <;> exact ⟨by constructor <;> rfl, rfl, rfl, rfl, rfl, rfl, rfl⟩

theorem reserveMessage_frame (q : BceVhciTransferQueue) : q.DmaFrame q.reserveMessage.2 :=
  ⟨by constructor <;> rfl, rfl, rfl, rfl, rfl, rfl, rfl⟩

theorem messageQueueWrite_frame (q : BceVhciTransferQueue) (msg : BceVhciMessage) :
    q.DmaFrame (q.messageQueueWrite msg) :=
  ⟨by constructor <;> rfl, rfl, rfl, rfl, rfl, rfl, rfl⟩

end BceVhciTransferQueue

/-- What no function on an URB changes of it. -/
structure BceVhciUrb.Same (u v : BceVhciUrb) : Prop where
  id : v.id = u.id
  dirIn : v.urb.dirIn = u.urb.dirIn
  dir : v.dir = u.dir
  isControl : v.isControl = u.isControl

/-- A call that reserves, submits or writes for an URB and does not complete it. It reports an
error exactly when it leaves the URB as it is. -/
structure UrbCall.Starts (u : BceVhciUrb) (q : BceVhciTransferQueue) (call : UrbCall) : Prop where
  frame : q.DmaFrame call.q
  failed : ∀ e, call.ret = some e → call.urb = some u
  begun : call.ret = none → ∃ v, call.urb = some v ∧ u.Same v ∧ v.started

/-- A call on an URB whose slot and give-back are accounted for: an URB it keeps holds the slot
it held, and one it completes is queued for give-back with its slot freed. -/
structure UrbCall.Fits (u : BceVhciUrb) (q : BceVhciTransferQueue) (call : UrbCall) : Prop where
  frame : q.Frame call.q
  inits : call.q.inits = q.inits
  kept : ∀ v, call.urb = some v → u.Same v ∧ v.started = u.started ∧
    call.q.remainingActiveRequests = q.remainingActiveRequests ∧
    call.q.givebackUrbList = q.givebackUrbList
  completed : call.urb = none → ∃ urb, urb.id = u.id ∧
    call.q.givebackUrbList = q.givebackUrbList ++ [urb] ∧
    call.q.remainingActiveRequests = q.remainingActiveRequests + u.started.toNat

namespace BceVhciUrb

variable {u v : BceVhciUrb} {q r : BceVhciTransferQueue} {call : UrbCall}
  {next : BceVhciUrb → BceVhciTransferQueue → UrbCall}

theorem Same.refl (u : BceVhciUrb) : u.Same u :=
  ⟨rfl, rfl, rfl, rfl⟩

theorem Same.trans {w : BceVhciUrb} (first : u.Same v) (second : v.Same w) : u.Same w :=
  ⟨second.id.trans first.id, second.dirIn.trans first.dirIn, second.dir.trans first.dir,
    second.isControl.trans first.isControl⟩

theorem complete_frame (u : BceVhciUrb) (status : Int) (q : BceVhciTransferQueue) :
    q.Frame (u.complete status q) := by
  constructor <;> rfl

theorem complete_remaining (u : BceVhciUrb) (status : Int) (q : BceVhciTransferQueue) :
    (u.complete status q).remainingActiveRequests = q.remainingActiveRequests + u.started.toNat := by
  unfold complete started
  cases u.state <;> rfl

/-- An URB that is as it was, apart from data no accounting looks at. -/
theorem kept_fits {ret : Option Errno} (frame : q.DmaFrame r) (same : u.Same v)
    (started : v.started = u.started) : UrbCall.Fits u q ⟨ret, some v, r⟩ where
  frame := frame.toFrame
  inits := frame.inits
  kept := by
    intro w present
    cases Option.some.inj present
    exact ⟨same, started, frame.remaining, frame.givebackUrbList⟩
  completed := by
    intro gone
    cases gone

theorem complete_fits {ret : Option Errno} {status : Int} (frame : q.DmaFrame r) (same : v.id = u.id)
    (started : v.started = u.started) : UrbCall.Fits u q ⟨ret, none, v.complete status r⟩ where
  frame := frame.toFrame.trans (v.complete_frame status r)
  inits := frame.inits
  kept := by
    intro w present
    cases present
  completed := by
    intro _
    refine ⟨{ v.urb with status }, same, ?_, ?_⟩
    · rw [← frame.givebackUrbList]
      rfl
    · rw [v.complete_remaining, frame.remaining, started]

/-- What is accounted for of an URB is accounted for of what it was before. -/
theorem fits_of_same (frame : q.Frame r) (inits : r.inits = q.inits) (same : u.Same v)
    (started : v.started = u.started)
    (remaining : r.remainingActiveRequests = q.remainingActiveRequests)
    (giveback : r.givebackUrbList = q.givebackUrbList) (fits : UrbCall.Fits v r call) :
    UrbCall.Fits u q call where
  frame := frame.trans fits.frame
  inits := fits.inits.trans inits
  kept := by
    intro w present
    obtain ⟨same', started', remaining', giveback'⟩ := fits.kept w present
    exact ⟨same.trans same', started'.trans started, remaining'.trans remaining,
      giveback'.trans giveback⟩
  completed := by
    intro gone
    obtain ⟨urb, id, giveback', remaining'⟩ := fits.completed gone
    refine ⟨urb, id.trans same.id, ?_, ?_⟩
    · rw [giveback', giveback]
    · rw [remaining', remaining, started]

/-- Accounts compose: the second call finds the URB as the first one left it. -/
theorem fits_andThen (first : UrbCall.Fits u q call)
    (second : ∀ v, call.urb = some v → UrbCall.Fits v call.q (next v call.q)) :
    UrbCall.Fits u q (call.andThen next) := by
  unfold UrbCall.andThen
  split
  case h_2 => exact first
  case h_1 v _ present =>
    obtain ⟨same, started, remaining, giveback⟩ := first.kept v present
    exact fits_of_same first.frame first.inits same started remaining giveback (second v present)

/-- The ways to begin receiving: the message is refused, the submission fails, or both are
made. -/
theorem dataTransferIn_cases (u : BceVhciUrb) (q : BceVhciTransferQueue) :
    (q.reserveMessage.1 = false ∧ u.dataTransferIn q = ⟨some .nomem, some u, q.reserveMessage.2⟩) ∨
    (q.reserveMessage.1 = true ∧ q.sqIn = none ∧
      u.dataTransferIn q = ⟨some .nomem, some u, { q.reserveMessage.2 with nullSq := true }⟩) ∨
    (∃ fifo, q.reserveMessage.1 = true ∧ q.sqIn = some fifo ∧ fifo.submit u.inSubmission = none ∧
      u.dataTransferIn q = ⟨some .nomem, some u, q.reserveMessage.2⟩) ∨
    ∃ fifo next, q.reserveMessage.1 = true ∧ q.sqIn = some fifo ∧
      fifo.submit u.inSubmission = some next ∧
      u.dataTransferIn q =
        ⟨none, some { u with sendOffset := u.receiveOffset, state := .waitingForCompletion },
          (q.reserveMessage.2.setSq next false).messageQueueWrite
            (q.transferRequest (u.urb.transferBufferLength - u.receiveOffset))⟩ := by
  cases granted : q.reserveMessage.1 with
  | false =>
    refine .inl ⟨rfl, ?_⟩
    unfold dataTransferIn
    rw [← Prod.eta q.reserveMessage, granted]
  | true =>
    have begun : u.dataTransferIn q =
        match q.reserveMessage.2.submit false u.inSubmission with
        | (false, q) => ⟨some .nomem, some u, q⟩
        | (true, q) =>
          ⟨none, some { u with sendOffset := u.receiveOffset, state := .waitingForCompletion },
            q.messageQueueWrite (q.transferRequest (u.urb.transferBufferLength - u.receiveOffset))⟩ := by
      unfold dataTransferIn
      rw [← Prod.eta q.reserveMessage, granted]
    rw [begun]
    rcases q.reserveMessage.2.submit_cases false u.inSubmission with
      ⟨missing, eq⟩ | ⟨fifo, present, full, eq⟩ | ⟨fifo, next, present, room, eq⟩
    · exact .inr (.inl ⟨rfl, missing, by rw [eq]⟩)
    · exact .inr (.inr (.inl ⟨fifo, rfl, present, full, by rw [eq]⟩))
    · refine .inr (.inr (.inr ⟨fifo, next, rfl, present, room, ?_⟩))
      rw [eq]
      rfl

theorem dataTransferIn_starts (u : BceVhciUrb) (q : BceVhciTransferQueue) :
    UrbCall.Starts u q (u.dataTransferIn q) := by
  have reserved := q.reserveMessage_frame
  rcases u.dataTransferIn_cases q with
    ⟨-, eq⟩ | ⟨-, -, eq⟩ | ⟨_, -, -, -, eq⟩ | ⟨_, next, -, -, -, eq⟩
  · rw [eq]
    exact ⟨reserved, fun _ _ => rfl, nofun⟩
  · rw [eq]
    exact ⟨⟨by constructor <;> rfl, rfl, rfl, rfl, rfl, rfl, rfl⟩, fun _ _ => rfl, nofun⟩
  · rw [eq]
    exact ⟨reserved, fun _ _ => rfl, nofun⟩
  · rw [eq]
    refine ⟨reserved.trans ((BceVhciTransferQueue.setSq_frame _ next false).trans
      (BceVhciTransferQueue.messageQueueWrite_frame _ _)), nofun, ?_⟩
    intro _
    exact ⟨_, rfl, ⟨rfl, rfl, rfl, rfl⟩, rfl⟩

theorem dataStart_starts (u : BceVhciUrb) (q : BceVhciTransferQueue) :
    UrbCall.Starts u q (u.dataStart q) := by
  unfold dataStart
  split
  · split
    · exact ⟨.refl q, nofun, fun _ => ⟨_, rfl, ⟨rfl, rfl, rfl, rfl⟩, rfl⟩⟩
    · exact ⟨.refl q, nofun, fun _ => ⟨_, rfl, ⟨rfl, rfl, rfl, rfl⟩, rfl⟩⟩
  · exact u.dataTransferIn_starts q

/-- Starting a transfer of an URB that is started already changes no account. -/
theorem fits_of_starts (starts : UrbCall.Starts u q call) (held : u.started) :
    UrbCall.Fits u q call := by
  obtain ⟨ret, urb, r⟩ := call
  cases ret with
  | some e =>
    cases starts.failed e rfl
    exact kept_fits starts.frame (.refl u) rfl
  | none =>
    obtain ⟨v, present, same, started⟩ := starts.begun rfl
    cases present
    exact kept_fits starts.frame same (started.trans held.symm)

/-- The ways to send: the submission fails, or it is made and counted as pending. -/
theorem sendOutData_cases (u : BceVhciUrb) (addr size : BitVec 64) (q : BceVhciTransferQueue) :
    (q.sqOut = none ∧ u.sendOutData addr size q = (some .pipe, { q with nullSq := true })) ∨
    (∃ fifo, q.sqOut = some fifo ∧ fifo.submit ⟨u.id, addr, size⟩ = none ∧
      u.sendOutData addr size q = (some .pipe, q)) ∨
    ∃ fifo next, q.sqOut = some fifo ∧ fifo.submit ⟨u.id, addr, size⟩ = some next ∧
      u.sendOutData addr size q =
        (none, { q with sqOut := some next, sqOutPending := q.sqOutPending + 1 }) := by
  unfold sendOutData
  rcases q.submit_cases true ⟨u.id, addr, size⟩ with
    ⟨missing, eq⟩ | ⟨fifo, present, full, eq⟩ | ⟨fifo, next, present, room, eq⟩
  · exact .inl ⟨missing, by rw [eq]⟩
  · exact .inr (.inl ⟨fifo, present, full, by rw [eq]⟩)
  · exact .inr (.inr ⟨fifo, next, present, room, by rw [eq]; rfl⟩)

theorem sendOutData_frame (u : BceVhciUrb) (addr size : BitVec 64) (q : BceVhciTransferQueue) :
    q.DmaFrame (u.sendOutData addr size q).2 := by
  rcases u.sendOutData_cases addr size q with ⟨-, eq⟩ | ⟨_, -, -, eq⟩ | ⟨_, _, -, -, eq⟩
  · rw [eq]
    exact ⟨by constructor <;> rfl, rfl, rfl, rfl, rfl, rfl, rfl⟩
  · rw [eq]
    exact .refl q
  · rw [eq]
    exact ⟨by constructor <;> rfl, rfl, rfl, rfl, rfl, rfl, rfl⟩

theorem dataUpdate_fits (u : BceVhciUrb) (msg : BceVhciMessage) (q : BceVhciTransferQueue) :
    UrbCall.Fits u q (u.dataUpdate msg q) := by
  unfold dataUpdate
  split
  case isFalse => exact kept_fits (.refl q) (.refl u) rfl
  case isTrue asked =>
    simp only
    generalize (if u.urb.transferBufferLength - u.sendOffset ≤ BitVec.setWidth 32 msg.param2 then
      u.urb.transferBufferLength - u.sendOffset else BitVec.setWidth 32 msg.param2) = trLen
    have frame := u.sendOutData_frame (u.urb.transferDma + u.sendOffset.setWidth 64)
      (trLen.setWidth 64) q
    split
    · rename_i e r run
      rw [run] at frame
      exact kept_fits frame (.refl u) rfl
    · rename_i r run
      rw [run] at frame
      refine kept_fits frame ⟨rfl, rfl, rfl, rfl⟩ ?_
      simp only [started, asked.1]
      rfl

theorem dataTransferCompletion_fits (u : BceVhciUrb) (c : BceSqCompletionData)
    (q : BceVhciTransferQueue) : UrbCall.Fits u q (u.dataTransferCompletion c q) := by
  unfold dataTransferCompletion
  split
  case isFalse => exact kept_fits (.refl q) (.refl u) rfl
  case isTrue waiting =>
    have held : u.started = true := by
      simp [started, waiting]
    simp only
    split
    · split
      · split
        · exact complete_fits (.refl q) rfl held.symm
        · exact complete_fits (.refl q) rfl held.symm
      · exact kept_fits (.refl q) ⟨rfl, rfl, rfl, rfl⟩ held.symm
    · exact kept_fits (.refl q) ⟨rfl, rfl, rfl, rfl⟩ rfl

theorem controlCheckStatus_fits (u : BceVhciUrb) (q : BceVhciTransferQueue) (held : u.started) :
    UrbCall.Fits u q (u.controlCheckStatus q) := by
  unfold controlCheckStatus
  split
  · exact kept_fits (.refl q) (.refl u) rfl
  · split
    · simp only
      split
      · refine ⟨by constructor <;> rfl, rfl, fun _ kept => absurd kept (Option.some_ne_none _).symm, ?_⟩
        intro _
        exact ⟨{ u.urb with status := Errno.pipe.neg }, rfl, rfl, by rw [held]; rfl⟩
      · exact complete_fits (.refl q) rfl held.symm
    · exact kept_fits (.refl q) (.refl u) rfl

theorem controlUpdate_fits (u : BceVhciUrb) (msg : BceVhciMessage) (q : BceVhciTransferQueue)
    (held : u.started) : UrbCall.Fits u q (u.controlUpdate msg q) := by
  unfold controlUpdate
  split
  · have checked := { u with receivedStatus := msg.status }.controlCheckStatus_fits q held
    have same : u.Same { u with receivedStatus := msg.status } := ⟨rfl, rfl, rfl, rfl⟩
    exact fits_of_same (.refl q) rfl same rfl rfl rfl checked
  · split
    case isTrue asked =>
      have frame := u.sendOutData_frame u.urb.setupDma usbCtrlrequestSize q
      split
      · rename_i e r run
        rw [run] at frame
        exact kept_fits frame (.refl u) rfl
      · rename_i r run
        rw [run] at frame
        exact kept_fits frame ⟨rfl, rfl, rfl, rfl⟩ held.symm
    case isFalse =>
      split
      · have sent := u.dataUpdate_fits msg q
        refine fits_andThen sent ?_
        intro v kept
        exact v.controlCheckStatus_fits _ ((sent.kept v kept).2.1.trans held)
      · exact kept_fits (.refl q) (.refl u) rfl

theorem controlTransferCompletion_fits (u : BceVhciUrb) (c : BceSqCompletionData)
    (q : BceVhciTransferQueue) : UrbCall.Fits u q (u.controlTransferCompletion c q) := by
  unfold controlTransferCompletion
  split
  case isTrue waiting =>
    have held : u.started = true := by
      simp only [started, waiting]
      rfl
    have starts := u.dataStart_starts q
    have began := fits_of_starts starts held
    simp only
    split
    · rename_i e v failed kept
      have same := (starts.failed e failed).symm.trans kept
      cases same
      exact complete_fits starts.frame rfl rfl
    · refine fits_andThen began ?_
      intro v kept
      exact v.controlCheckStatus_fits _ ((began.kept v kept).2.1.trans held)
  case isFalse =>
    split
    case isTrue waiting =>
      have held : u.started = true := by
        rcases waiting with waiting | waiting <;> simp only [started, waiting] <;> rfl
      have done := u.dataTransferCompletion_fits c q
      refine fits_andThen done ?_
      intro v kept
      exact v.controlCheckStatus_fits _ ((done.kept v kept).2.1.trans held)
    case isFalse => exact kept_fits (.refl q) (.refl u) rfl

theorem started_of_ne {u : BceVhciUrb} (begun : u.state ≠ .initPending) : u.started := by
  simpa [started] using begun

theorem update_fits (u : BceVhciUrb) (msg : BceVhciMessage) (q : BceVhciTransferQueue) :
    UrbCall.Fits u q (u.update msg q) := by
  unfold update
  split
  · exact kept_fits (.refl q) (.refl u) rfl
  · rename_i begun
    split
    · exact u.controlUpdate_fits msg q (started_of_ne begun)
    · exact u.dataUpdate_fits msg q

theorem transferCompletion_fits (u : BceVhciUrb) (c : BceSqCompletionData)
    (q : BceVhciTransferQueue) : UrbCall.Fits u q (u.transferCompletion c q) := by
  unfold transferCompletion
  split
  · exact u.controlTransferCompletion_fits c q
  · exact u.dataTransferCompletion_fits c q

theorem resume_fits (u : BceVhciUrb) (q : BceVhciTransferQueue) :
    UrbCall.Fits u q (u.resume q) := by
  unfold resume
  split
  case isFalse => exact kept_fits (.refl q) (.refl u) rfl
  case isTrue waiting =>
    have starts := u.dataTransferIn_starts q
    simp only
    split
    · rename_i e v failed kept
      have same := (starts.failed e failed).symm.trans kept
      cases same
      exact complete_fits starts.frame rfl rfl
    · exact fits_of_starts starts (started_of_ne (by rw [waiting]; decide))

/-- `bce_vhci_urb_init` on an URB that is still pending takes a slot and records the start, or
leaves the URB and the slots as they are. -/
theorem init_cases (u : BceVhciUrb) (q : BceVhciTransferQueue) :
    (∃ e, (u.init q).ret = some e ∧ (u.init q).urb = some u ∧ q.DmaFrame (u.init q).q) ∨
    ∃ v, (u.init q).ret = none ∧ (u.init q).urb = some v ∧ u.Same v ∧ v.started ∧
      q.Frame (u.init q).q ∧ (u.init q).q.inits = q.inits ++ [u.id] ∧
      (u.init q).q.givebackUrbList = q.givebackUrbList ∧
      (u.init q).q.remainingActiveRequests + 1 = q.remainingActiveRequests := by
  by_cases full : q.remainingActiveRequests = 0
  · left
    refine ⟨.inval, ?_, ?_, ?_⟩ <;> simp [init, full, BceVhciTransferQueue.DmaFrame.refl]
  · have starts : UrbCall.Starts u q
        (if u.isControl then ⟨none, some { u with state := .controlWaitingForSetupRequest }, q⟩
          else u.dataStart q) := by
      split
      · exact ⟨.refl q, nofun, fun _ => ⟨_, rfl, ⟨rfl, rfl, rfl, rfl⟩, rfl⟩⟩
      · exact u.dataStart_starts q
    unfold init
    rw [if_neg full]
    simp only
    generalize (if u.isControl then _ else u.dataStart q : UrbCall) = call at starts
    cases result : call.ret with
    | some e =>
      left
      exact ⟨e, by simp [result], by simpa using starts.failed e result, by simpa using starts.frame⟩
    | none =>
      right
      obtain ⟨v, present, same, started⟩ := starts.begun result
      refine ⟨v, by simp, by simp [present], same, started, ?_, ?_, ?_, ?_⟩
      · obtain ⟨frame, -⟩ := starts.frame
        simp only [↓reduceIte]
        exact frame.trans (by constructor <;> rfl)
      · simp [starts.frame.inits]
      · simpa using starts.frame.givebackUrbList
      · have same := starts.frame.remaining
        simp only [↓reduceIte]
        omega

theorem init_id (kept : (u.init q).urb = some v) : v.id = u.id := by
  rcases u.init_cases q with ⟨_, -, present, -⟩ | ⟨w, -, present, same, -⟩
  · cases present.symm.trans kept
    rfl
  · cases present.symm.trans kept
    exact same.id

/-- An URB that cannot be started leaves the slots and what was given back. -/
theorem init_failed {e : Errno} (failed : (u.init q).ret = some e) : q.DmaFrame (u.init q).q := by
  rcases u.init_cases q with ⟨_, -, -, frame⟩ | ⟨_, taken, -⟩
  · exact frame
  · cases taken.symm.trans failed

/-- Starting an URB or failing to changes nothing of its queue but the slots, the submission on `sq_in`
and the messages to the T2. -/
theorem init_frame (u : BceVhciUrb) (q : BceVhciTransferQueue) :
    q.Frame (u.init q).q ∧ (u.init q).q.active = q.active ∧
      (u.init q).q.givebackUrbList = q.givebackUrbList := by
  have starts : UrbCall.Starts u q
      (if u.isControl then ⟨none, some { u with state := .controlWaitingForSetupRequest }, q⟩
        else u.dataStart q) := by
    split
    · exact ⟨.refl q, nofun, fun _ => ⟨_, rfl, ⟨rfl, rfl, rfl, rfl⟩, rfl⟩⟩
    · exact u.dataStart_starts q
  unfold init
  split
  · exact ⟨.refl q, rfl, rfl⟩
  · simp only
    generalize (if u.isControl then _ else u.dataStart q : UrbCall) = call at starts
    obtain ⟨frame, -⟩ := starts
    split
    · exact ⟨frame.toFrame.trans (by constructor <;> rfl), frame.active, frame.givebackUrbList⟩
    · exact ⟨frame.toFrame, frame.active, frame.givebackUrbList⟩

end BceVhciUrb

end AppleBce

import AppleBce.Basis.BoundedFifo
import AppleBce.Queue.Sq
import AppleBce.Vhci.Message

namespace AppleBce

open Basis

/-- `enum dma_data_direction`. -/
inductive DmaDataDirection
  | bidirectional
  | toDevice
  | fromDevice
  deriving DecidableEq, Repr

/-- `usb_endpoint_type`. -/
inductive UsbEndpointXfer
  | control
  | isoc
  | bulk
  | int
  deriving DecidableEq, Repr

/-- The descriptor of a `struct usb_host_endpoint`. -/
structure UsbEndpoint where
  bEndpointAddress : BitVec 8
  xfer : UsbEndpointXfer
  maxp : BitVec 32
  deriving DecidableEq, Repr

namespace UsbEndpoint

def num (endp : UsbEndpoint) : BitVec 8 :=
  endp.bEndpointAddress &&& 0x0f

def dirIn (endp : UsbEndpoint) : Bool :=
  endp.bEndpointAddress &&& 0x80 != 0

end UsbEndpoint

/-- `struct usb_iso_packet_descriptor`. -/
structure UsbIsoPacketDescriptor where
  length : BitVec 32
  actualLength : BitVec 32
  status : Int
  deriving DecidableEq, Repr

/-- `struct urb`. The number stands for one submission of it by the USB core: a structure
that is submitted again after it was given back has a new number. -/
structure Urb where
  id : Nat
  dirIn : Bool
  transferBufferLength : BitVec 32
  transferDma : BitVec 64
  setupDma : BitVec 64
  isoFrameDesc : List UsbIsoPacketDescriptor
  actualLength : BitVec 32
  errorCount : Nat
  status : Int
  deriving DecidableEq, Repr

/-- `enum bce_vhci_urb_state`. -/
inductive BceVhciUrbState
  | initPending
  | waitingForTransferRequest
  | waitingForCompletion
  | dataTransferComplete
  | controlWaitingForSetupRequest
  | controlWaitingForSetupCompletion
  | controlComplete
  | cancelled
  deriving DecidableEq, Repr

/-- `struct bce_vhci_urb`. The zeroed allocation leaves a new one `initPending`, with no
status received. -/
structure BceVhciUrb where
  urb : Urb
  dir : DmaDataDirection
  isControl : Bool
  state : BceVhciUrbState := .initPending
  receivedStatus : BitVec 16 := 0
  sendOffset : BitVec 32 := 0
  receiveOffset : BitVec 32 := 0
  deriving DecidableEq, Repr

/-- A submission on one of the queues of an endpoint, with the URB it is made for. -/
structure UrbSubmission where
  urb : Nat
  addr : BitVec 64
  length : BitVec 64
  deriving DecidableEq, Repr

/-- The message queue to the T2 that `bce_vhci_get_msg_queue` chooses. -/
inductive HostMessageQueue
  | isochronous
  | asynchronous
  deriving DecidableEq, Repr

/-- `enum bce_vhci_pause_source`. -/
inductive BceVhciPauseSource
  | internalWq
  | firmware
  | suspend
  | shutdown
  deriving DecidableEq, Repr

def BceVhciPauseSource.bit : BceVhciPauseSource → BitVec 32
  | .internalWq => 1
  | .firmware => 2
  | .suspend => 4
  | .shutdown => 8

/-- `struct bce_vhci_transfer_queue` with the URB list of its endpoint. A work item is the
flag that it is queued, and the submission queues are the FIFOs of what the T2 has not
completed yet. The last fields are what the queue shares with the rest of the driver: the
messages written to the T2, the answers its message queues give to reservations from now on
(none left is success), the URBs that were started, the wake-ups of `sq_out_wait_queue`, and
whether a missing submission queue was used. -/
structure BceVhciTransferQueue where
  endp : UsbEndpoint
  state : BitVec 32
  maxActiveRequests : Nat
  remainingActiveRequests : Nat
  active : Bool
  stalled : Bool
  pausedBy : BitVec 32
  devAddr : BitVec 8
  endpAddr : BitVec 8
  sqIn : Option (BoundedFifo UrbSubmission)
  sqOut : Option (BoundedFifo UrbSubmission)
  evq : List BceVhciMessage
  urbList : List BceVhciUrb
  givebackUrbList : List Urb
  sqOutPending : Nat
  wReset : Bool
  wResume : Bool
  wFlush : Bool
  flushGivebackList : List Urb
  ghostInCount : Nat
  ghostOutCount : Nat
  messages : List (HostMessageQueue × BceVhciMessage)
  reservations : List Bool
  inits : List Nat
  wakeups : Nat
  nullSq : Bool

/-- `BCE_VHCI_BULK_MAX_ACTIVE_URBS`. -/
def bceVhciBulkMaxActiveUrbs : Nat := 8

/-- `BCE_VHCI_ISOC_MAX_ACTIVE_URBS`. -/
def bceVhciIsocMaxActiveUrbs : Nat := 4

/-- The requests a submission queue of a transfer queue holds, one less than its `0x100`
elements. -/
def transferSqCapacity : Nat := 255

/-- Which of its queues `bce_vhci_create_transfer_queue` can create. -/
structure TransferQueueMemory where
  cq : Bool
  sqIn : Bool
  sqOut : Bool

/-- `max_active_requests` of an endpoint. -/
def UsbEndpoint.maxActiveRequests (endp : UsbEndpoint) : Nat :=
  match endp.xfer with
  | .bulk => bceVhciBulkMaxActiveUrbs
  | .isoc => bceVhciIsocMaxActiveUrbs
  | _ => 1

/-- `bce_vhci_create_transfer_queue`; `none` is `-ENOMEM`. -/
def bceVhciCreateTransferQueue (endp : UsbEndpoint) (devAddr : BitVec 8) (dir : DmaDataDirection)
    (memory : TransferQueueMemory) (reservations : List Bool) : Option BceVhciTransferQueue :=
  let wantsIn := dir = .fromDevice ∨ dir = .bidirectional
  let wantsOut := dir = .toDevice ∨ dir = .bidirectional
  if ¬memory.cq then none
  else if wantsIn ∧ ¬memory.sqIn then none
  else if wantsOut ∧ ¬memory.sqOut then none
  else some {
    endp, devAddr, reservations
    endpAddr := endp.bEndpointAddress &&& 0x8f
    state := 0
    active := true
    pausedBy := 0
    stalled := false
    maxActiveRequests := endp.maxActiveRequests
    remainingActiveRequests := endp.maxActiveRequests
    sqIn := if wantsIn then some (.empty transferSqCapacity) else none
    sqOut := if wantsOut then some (.empty transferSqCapacity) else none
    evq := []
    urbList := []
    givebackUrbList := []
    sqOutPending := 0
    wReset := false
    wResume := false
    wFlush := false
    flushGivebackList := []
    ghostInCount := 0
    ghostOutCount := 0
    messages := []
    inits := []
    wakeups := 0
    nullSq := false }

/-- A queue that was created and not used yet. -/
structure BceVhciTransferQueue.Unused (endp : UsbEndpoint) (dir : DmaDataDirection)
    (q : BceVhciTransferQueue) : Prop where
  endp : q.endp = endp
  active : q.active = true
  stalled : q.stalled = false
  pausedBy : q.pausedBy = 0
  remaining : q.remainingActiveRequests = q.maxActiveRequests
  sqIn : q.sqIn = if dir = .fromDevice ∨ dir = .bidirectional then some (.empty transferSqCapacity) else none
  sqOut : q.sqOut = if dir = .toDevice ∨ dir = .bidirectional then some (.empty transferSqCapacity) else none
  urbList : q.urbList = []
  givebackUrbList : q.givebackUrbList = []
  flushGivebackList : q.flushGivebackList = []
  ghostInCount : q.ghostInCount = 0
  ghostOutCount : q.ghostOutCount = 0
  inits : q.inits = []

theorem createTransferQueue_unused {endp : UsbEndpoint} {devAddr : BitVec 8} {dir : DmaDataDirection}
    {memory : TransferQueueMemory} {reservations : List Bool} {q : BceVhciTransferQueue}
    (create : bceVhciCreateTransferQueue endp devAddr dir memory reservations = some q) :
    q.Unused endp dir := by
  unfold bceVhciCreateTransferQueue at create
  obtain ⟨-, create⟩ := Option.ite_none_left_eq_some.mp create
  obtain ⟨-, create⟩ := Option.ite_none_left_eq_some.mp create
  obtain ⟨-, create⟩ := Option.ite_none_left_eq_some.mp create
  cases Option.some.inj create
  constructor <;> rfl

theorem createTransferQueue_counts {endp : UsbEndpoint} {devAddr : BitVec 8} {dir : DmaDataDirection}
    {memory : TransferQueueMemory} {reservations : List Bool} {q : BceVhciTransferQueue}
    (create : bceVhciCreateTransferQueue endp devAddr dir memory reservations = some q) :
    q.maxActiveRequests = q.endp.maxActiveRequests ∧ q.sqOutPending = 0 := by
  unfold bceVhciCreateTransferQueue at create
  obtain ⟨-, create⟩ := Option.ite_none_left_eq_some.mp create
  obtain ⟨-, create⟩ := Option.ite_none_left_eq_some.mp create
  obtain ⟨-, create⟩ := Option.ite_none_left_eq_some.mp create
  cases Option.some.inj create
  exact ⟨rfl, rfl⟩

/-- The direction the driver creates the queue of an endpoint with: both for the control
endpoint, and that of the descriptor otherwise. -/
def UsbEndpoint.queueDir (endp : UsbEndpoint) : DmaDataDirection :=
  if endp.num = 0 then .bidirectional
  else if endp.dirIn then .fromDevice
  else .toDevice

namespace BceVhciUrb

/-- The URB has left `BCE_VHCI_URB_INIT_PENDING`, so it holds a slot. -/
def started (urb : BceVhciUrb) : Bool :=
  urb.state != .initPending

/-- The URB waits for a DMA completion. -/
def awaitsDma (urb : BceVhciUrb) : Bool :=
  urb.state == .waitingForCompletion || urb.state == .controlWaitingForSetupCompletion

abbrev id (urb : BceVhciUrb) : Nat :=
  urb.urb.id

end BceVhciUrb

namespace BceVhciTransferQueue

/-- `sq_out` or `sq_in`. -/
def sq (q : BceVhciTransferQueue) : Bool → Option (BoundedFifo UrbSubmission)
  | true => q.sqOut
  | false => q.sqIn

def setSq (q : BceVhciTransferQueue) (fifo : BoundedFifo UrbSubmission) : Bool → BceVhciTransferQueue
  | true => { q with sqOut := some fifo }
  | false => { q with sqIn := some fifo }

/-- The submissions the T2 has not completed yet, oldest first. -/
def outstanding (q : BceVhciTransferQueue) (out : Bool) : List UrbSubmission :=
  match q.sq out with
  | some fifo => fifo.items
  | none => []

/-- `bce_reserve_submission` and the filling of the submission it reserves. The driver does
not look whether the queue is there. -/
def submit (q : BceVhciTransferQueue) (out : Bool) (submission : UrbSubmission) :
    Bool × BceVhciTransferQueue :=
  match q.sq out with
  | none => (false, { q with nullSq := true })
  | some fifo =>
    match fifo.submit submission with
    | none => (false, q)
    | some fifo => (true, q.setSq fifo out)

/-- `bce_reserve_submission` on the message queue to the T2, without a timeout. -/
def reserveMessage (q : BceVhciTransferQueue) : Bool × BceVhciTransferQueue :=
  (q.reservations.headD true, { q with reservations := q.reservations.tail })

/-- `bce_vhci_get_msg_queue`. -/
def getMsgQueue (q : BceVhciTransferQueue) : HostMessageQueue :=
  match q.endp.xfer with
  | .isoc => .isochronous
  | _ => .asynchronous

/-- The `TRANSFER_REQUEST` for a number of bytes. -/
def transferRequest (q : BceVhciTransferQueue) (len : BitVec 32) : BceVhciMessage where
  cmd := BceVhciCommand.transferRequest.code
  status := 0
  param1 := ((q.endp.bEndpointAddress &&& 0x8f).setWidth 32 <<< 8) ||| q.devAddr.setWidth 32
  param2 := len.setWidth 64

def messageQueueWrite (q : BceVhciTransferQueue) (msg : BceVhciMessage) : BceVhciTransferQueue :=
  { q with messages := q.messages ++ [(q.getMsgQueue, msg)] }

/-- `bce_vhci_transfer_queue_request_reset`. -/
def requestReset (q : BceVhciTransferQueue) : BceVhciTransferQueue :=
  { q with wReset := true }

/-- `bce_vhci_transfer_queue_can_init_urb`. -/
def canInitUrb (q : BceVhciTransferQueue) : Bool :=
  0 < q.remainingActiveRequests

end BceVhciTransferQueue

end AppleBce

import AppleBce.Basis.Ledger
import AppleBce.Mailbox.Mailbox
import AppleBce.Vhci.EventQueues

namespace AppleBce

open Basis

def bcProtocolVersion : BitVec 64 := 0x20001

/-- The queues that the driver has from its probe on. The message queues have the names of the event queues. -/
inductive BceQueueRole
  | cmdCq
  | cmdSq
  | msgCq (q : EventQueueName)
  | msgSq (q : EventQueueName)
  | evCq
  | evSq (q : EventQueueName)
  deriving DecidableEq, Repr

/-- What `apple_bce_probe` and what it calls take: a `struct bce_queue_cq` or `_sq` with its ring and its
`completion_data`, the entry in `bce->queues`, the elements of a message or event queue, the command queue
of the virtual controller, the registration of the HCD, the pointer `global_bce`. The works of the recovery
and of its watchdog are held from when they are initialised to when `bce_vhci_destroy` cancels them: while
they are, they may be pending. That of the firmware events is the one work of `tq_state_wq` here. What the
USB core adds behind the HCD, the devices with their transfer queues, is left out. -/
inductive BceResource
  | pci
  | regions
  | irqVectors
  | bce
  | queuesSrcu
  | dev
  | regMemMb
  | regMemDma
  | mbIrq
  | dmaIrq
  | pci0
  | pci0Mem
  | timestamp
  | qid (q : BceQueueRole)
  | queue (q : BceQueueRole)
  | ring (q : BceQueueRole)
  | completionData (q : BceQueueRole)
  | cmdq
  | tres
  | entry (q : BceQueueRole)
  | cfg
  | cfgMapping
  | vdev
  | elements (q : BceQueueRole)
  | commandQueue
  | tqStateWq
  | recovery
  | watchdog
  | hcd
  | hcdAdded
  | pci0Link
  | globalBce
  deriving DecidableEq, Repr

def vhciQueueNames : List EventQueueName :=
  [.commands, .system, .isochronous, .interrupt, .asynchronous]

namespace BceResource

/-- What the completion handler of a queue works on, and where its completions come from. The handlers of
the events deliver the replies to the commands, that of the firmware's queues its work, and that of the
system events the recovery. -/
def handlerNeeds : BceQueueRole → List BceResource
  | .cmdCq => []
  | .cmdSq => [completionData .cmdSq, cmdq, tres]
  | .msgCq _ | .evCq => [entry .cmdSq]
  | .msgSq q => [completionData (.msgSq q), entry (.msgCq q), entry .cmdSq]
  | .evSq .commands => [completionData (.evSq .commands), entry .evCq, entry .cmdSq, tqStateWq]
  | .evSq .system => [completionData (.evSq .system), entry .evCq, entry .cmdSq, commandQueue, recovery]
  | .evSq q => [completionData (.evSq q), entry .evCq, entry .cmdSq, commandQueue]

/-- What `bce_vhci_recovery_w` works on: it flushes the workqueue, executes commands, pauses and resumes the
event queues, flushes three of the message queues, polls the root hub and arms the watchdog. -/
def recoveryNeeds : List BceResource :=
  [bce, tqStateWq, commandQueue, hcd, watchdog, entry .cmdSq, entry (.msgSq .isochronous),
    entry (.msgSq .interrupt), entry (.msgSq .asynchronous)] ++ vhciQueueNames.map fun q => entry (.evSq q)

/-- What is worked on by an interrupt handler, the timer, the T2, the USB core, a work or `aaudio`. A command
that gets no answer schedules the recovery, whoever executes it. -/
def needs : BceResource → List BceResource
  | regions | irqVectors => [pci]
  | regMemMb | regMemDma => [regions]
  | mbIrq => [irqVectors, bce, regMemMb]
  | dmaIrq => [irqVectors, bce, queuesSrcu, regMemDma]
  | pci0Mem | pci0Link => [pci0]
  | timestamp => [bce, regMemMb]
  | entry q => [bce, queue q, ring q] ++ handlerNeeds q
  | cfgMapping => [cfg]
  | vdev => [dev]
  | commandQueue => [bce, entry (.msgSq .commands)]
  | tqStateWq => [bce, commandQueue, recovery, entry .cmdSq, entry (.evSq .commands), entry (.msgSq .system)]
  | recovery => recoveryNeeds
  | watchdog => [bce, commandQueue, recovery]
  | hcdAdded =>
    [bce, vdev, hcd, commandQueue, tqStateWq, recovery, watchdog] ++
      vhciQueueNames.map (fun q => entry (.msgSq q)) ++ vhciQueueNames.map fun q => entry (.evSq q)
  | globalBce => [bce, entry .cmdSq]
  | _ => []

/-- The T2 reads and writes the elements of the queues, once it has them. The handler of system events
takes the HCD if there is one. -/
def mayUse : BceResource → List BceResource
  | entry (.msgSq q) => [elements (.msgSq q)]
  | entry (.evSq .system) => [elements (.evSq .system), hcd]
  | entry (.evSq q) => [elements (.evSq q)]
  | _ => []

end BceResource

def bceDependence : Dependence BceResource where
  needs := BceResource.needs
  mayUse := BceResource.mayUse

/-- What the calls of a probe and a remove return: an error or 0, and what the mailbox receives. -/
structure ProbeEnv where
  status : Nat → Option Errno
  recv : Nat → Except Errno (BitVec 64)

abbrev ProbeM := Logged (Ledger BceResource) (LedgerFault BceResource)

namespace BceProbe

variable (env : ProbeEnv)

def attempt (r : BceResource) : ProbeM (Option Errno) :=
  Ledger.attempt bceDependence env.status r

def take (r : BceResource) : ProbeM Unit :=
  Ledger.take bceDependence r

def giveBack (r : BceResource) : ProbeM Unit :=
  Ledger.giveBack bceDependence r

def bceMailboxSend : ProbeM (Except Errno (BitVec 64)) := do
  Ledger.access .mbIrq
  Ledger.access .regMemMb
  Ledger.ask env.recv

/-- `bce_alloc_cq`; whether it yields a queue. -/
def bceAllocCq (q : BceQueueRole) : ProbeM Bool := do
  let queue ← attempt env (.queue q)
  match queue with
  | some _ => pure false
  | none => do
    let data ← attempt env (.ring q)
    match data with
    | some _ => do
      giveBack (.queue q)
      pure false
    | none => pure true

def bceFreeCq (q : BceQueueRole) : ProbeM Unit := do
  giveBack (.ring q)
  giveBack (.queue q)

/-- `bce_alloc_sq`, which allocates the completion data also when there is no memory for the ring. -/
def bceAllocSq (q : BceQueueRole) : ProbeM Bool := do
  let queue ← attempt env (.queue q)
  match queue with
  | some _ => pure false
  | none => do
    let data ← attempt env (.ring q)
    let completionData ← attempt env (.completionData q)
    if data.isNone && completionData.isNone then pure true
    else do
      Ledger.onlyIf data.isNone (giveBack (.ring q))
      Ledger.onlyIf completionData.isNone (giveBack (.completionData q))
      giveBack (.queue q)
      pure false

def bceFreeSq (q : BceQueueRole) : ProbeM Unit := do
  giveBack (.ring q)
  giveBack (.completionData q)
  giveBack (.queue q)

def bceAllocCmdq : ProbeM Bool := do
  let q ← attempt env .cmdq
  match q with
  | some _ => pure false
  | none => do
    let sq ← bceAllocSq env .cmdSq
    if sq then do
      let tres ← attempt env .tres
      match tres with
      | some _ => do
        bceFreeSq .cmdSq
        giveBack .cmdq
        pure false
      | none => pure true
    else do
      giveBack .cmdq
      pure false

def bceFreeCmdq : ProbeM Unit := do
  bceFreeSq .cmdSq
  giveBack .tres
  giveBack .cmdq

/-- `bce_cmd_register_queue`, as far as its callers look at the status. -/
def bceCmdRegisterQueue : ProbeM Bool := do
  Ledger.access (.entry .cmdSq)
  let status ← Ledger.ask env.status
  pure status.isNone

def bceCmdUnregisterMemoryQueue (isBeingRemoved : Bool) : ProbeM Unit :=
  if isBeingRemoved then pure ()
  else do
    Ledger.access (.entry .cmdSq)
    let _ ← Ledger.ask env.status
    pure ()

/-- What `bce_create_cq` and `bce_create_sq` do, each with its own memory. -/
def createQueue (q : BceQueueRole) (alloc : ProbeM Bool) (free : ProbeM Unit) : ProbeM Bool := do
  let qid ← attempt env (.qid q)
  match qid with
  | some _ => pure false
  | none => do
    let queue ← alloc
    if queue then do
      let registered ← bceCmdRegisterQueue env
      if registered then do
        take (.entry q)
        pure true
      else do
        free
        giveBack (.qid q)
        pure false
    else do
      giveBack (.qid q)
      pure false

def bceCreateCq (q : BceQueueRole) : ProbeM Bool :=
  createQueue env q (bceAllocCq env q) (bceFreeCq q)

/-- `bce_create_sq`, with a CQ, a name and a direction that there is. -/
def bceCreateSq (q : BceQueueRole) : ProbeM Bool :=
  createQueue env q (bceAllocSq env q) (bceFreeSq q)

/-- What `bce_destroy_cq` and `bce_destroy_sq` do. The entry is given back once the passes that may have
seen it are over. -/
def destroyQueue (isBeingRemoved : Bool) (q : BceQueueRole) (free : ProbeM Unit) : ProbeM Unit := do
  bceCmdUnregisterMemoryQueue env isBeingRemoved
  giveBack (.entry q)
  giveBack (.qid q)
  free

def bceDestroyCq (isBeingRemoved : Bool) (q : BceQueueRole) : ProbeM Unit :=
  destroyQueue env isBeingRemoved q (bceFreeCq q)

def bceDestroySq (isBeingRemoved : Bool) (q : BceQueueRole) : ProbeM Unit :=
  destroyQueue env isBeingRemoved q (bceFreeSq q)

def bceVhciMessageQueueCreate (q : EventQueueName) : ProbeM Bool := do
  let cq ← bceCreateCq env (.msgCq q)
  if cq then do
    let sq ← bceCreateSq env (.msgSq q)
    if sq then do
      let data ← attempt env (.elements (.msgSq q))
      match data with
      | some _ => do
        bceDestroySq env false (.msgSq q)
        bceDestroyCq env false (.msgCq q)
        pure false
      | none => pure true
    else do
      bceDestroyCq env false (.msgCq q)
      pure false
  else pure false

/-- `bce_vhci_message_queue_destroy` for a queue that was created. -/
def bceVhciMessageQueueDestroy (isBeingRemoved : Bool) (q : EventQueueName) : ProbeM Unit := do
  giveBack (.elements (.msgSq q))
  bceDestroySq env isBeingRemoved (.msgSq q)
  bceDestroyCq env isBeingRemoved (.msgCq q)

/-- `bce_vhci_event_queue_create` and `__bce_vhci_event_queue_create`. -/
def bceVhciEventQueueCreate (q : EventQueueName) : ProbeM Bool := do
  let sq ← bceCreateSq env (.evSq q)
  if sq then do
    let data ← attempt env (.elements (.evSq q))
    match data with
    | some _ => do
      bceDestroySq env false (.evSq q)
      pure false
    | none => pure true
  else pure false

/-- `bce_vhci_event_queue_destroy` for a queue that was created. -/
def bceVhciEventQueueDestroy (isBeingRemoved : Bool) (q : EventQueueName) : ProbeM Unit := do
  giveBack (.elements (.evSq q))
  bceDestroySq env isBeingRemoved (.evSq q)

/-- `bce_vhci_destroy_message_queues`, which passes by the message queues that were not created, but not by
the command queue. -/
def bceVhciDestroyMessageQueues (isBeingRemoved : Bool) (created : List EventQueueName) : ProbeM Unit := do
  giveBack .commandQueue
  Ledger.unchain (bceVhciMessageQueueDestroy env isBeingRemoved) created vhciQueueNames

def bceVhciCreateMessageQueues : ProbeM (Option Errno) := do
  let made ← Ledger.chain (bceVhciMessageQueueCreate env) [] vhciQueueNames
  if made.1 then do
    take .commandQueue
    pure none
  else do
    bceVhciDestroyMessageQueues env false made.2
    pure (some .inval)

def bceVhciDestroyEventQueues (isBeingRemoved : Bool) (created : List EventQueueName) : ProbeM Unit := do
  Ledger.unchain (bceVhciEventQueueDestroy env isBeingRemoved) created vhciQueueNames
  bceDestroyCq env isBeingRemoved .evCq

def bceVhciCreateEventQueues : ProbeM (Option Errno) := do
  let evCq ← bceCreateCq env .evCq
  if evCq then do
    let made ← Ledger.chain (bceVhciEventQueueCreate env) [] vhciQueueNames
    if made.1 then pure none
    else do
      bceVhciDestroyEventQueues env false made.2
      pure (some .inval)
  else pure (some .inval)

/-- The labels of `bce_vhci_create`, each of which goes on with the next. -/
def failMq : ProbeM Unit :=
  giveBack .vdev

def failEq : ProbeM Unit := do
  bceVhciDestroyMessageQueues env false vhciQueueNames
  failMq

def failWq : ProbeM Unit := do
  bceVhciDestroyEventQueues env false vhciQueueNames
  failEq env

def failHcd : ProbeM Unit := do
  giveBack .tqStateWq
  failWq env

def failAddHcd : ProbeM Unit := do
  giveBack .hcd
  failHcd env

/-- `bce_vhci_create` behind the event queues. -/
def createHcd : ProbeM (Option Errno) := do
  let wq ← attempt env .tqStateWq
  match wq with
  | some _ => do
    failWq env
    pure (some .nomem)
  | none => do
    take .recovery
    take .watchdog
    let hcd ← attempt env .hcd
    match hcd with
    | some _ => do
      failHcd env
      pure (some .nomem)
    | none => do
      let status ← attempt env .hcdAdded
      match status with
      | some e => do
        failAddHcd env
        pure (some e)
      | none => pure none

def bceVhciCreate : ProbeM (Option Errno) := do
  let vdev ← attempt env .vdev
  match vdev with
  | some e => pure (some e)
  | none => do
    let mq ← bceVhciCreateMessageQueues env
    match mq with
    | some e => do
      failMq
      pure (some e)
    | none => do
      let eq ← bceVhciCreateEventQueues env
      match eq with
      | some e => do
        failEq env
        pure (some e)
      | none => createHcd env

/-- `bce_vhci_destroy`, which only `apple_bce_remove` calls. -/
def bceVhciDestroy : ProbeM Unit := do
  giveBack .hcdAdded
  giveBack .recovery
  giveBack .watchdog
  giveBack .tqStateWq
  bceVhciDestroyEventQueues env true vhciQueueNames
  bceVhciDestroyMessageQueues env true vhciQueueNames
  giveBack .vdev
  giveBack .hcd

def bceFwVersionHandshake : ProbeM (Option Errno) := do
  let result ← bceMailboxSend env
  match result with
  | .error e => pure (some e)
  | .ok result =>
    if bceMbType result ≠ BceMessageType.setFwProtocolVersion.code ∨ bceMbValue result ≠ bcProtocolVersion then
      pure (some .inval)
    else pure none

def bceRegisterCommandQueue : ProbeM (Option Errno) := do
  let a ← attempt env .cfgMapping
  match a with
  | some _ => pure (some .nomem)
  | none => do
    let result ← bceMailboxSend env
    giveBack .cfgMapping
    match result with
    | .error e => pure (some e)
    | .ok result =>
      if bceMbType result ≠ BceMessageType.registerCommandQueueReply.code then pure (some .inval) else pure none

/-- The label `err` of `bce_create_command_queues`. -/
def err (published cq cmdq : Bool) : ProbeM Unit := do
  Ledger.onlyIf published (giveBack (.entry .cmdCq))
  Ledger.onlyIf published (giveBack (.entry .cmdSq))
  Ledger.onlyIf cq (bceFreeCq .cmdCq)
  Ledger.onlyIf cmdq bceFreeCmdq

def errCfg : ProbeM Unit := do
  giveBack .cfg
  err true true true

/-- `bce_create_command_queues` behind the publication of the queues. -/
def registerCommandQueues : ProbeM (Option Errno) := do
  let cfg ← attempt env .cfg
  match cfg with
  | some _ => do
    err true true true
    pure (some .nomem)
  | none => do
    let cq ← bceRegisterCommandQueue env
    match cq with
    | some e => do
      errCfg
      pure (some e)
    | none => do
      let sq ← bceRegisterCommandQueue env
      match sq with
      | some e => do
        errCfg
        pure (some e)
      | none => do
        giveBack .cfg
        pure none

def bceCreateCommandQueues : ProbeM (Option Errno) := do
  let cq ← bceAllocCq env .cmdCq
  let cmdq ← bceAllocCmdq env
  if cq && cmdq then do
    take (.entry .cmdCq)
    take (.entry .cmdSq)
    registerCommandQueues env
  else do
    err false cq cmdq
    pure (some .nomem)

def bceFreeCommandQueues : ProbeM Unit := do
  giveBack (.entry .cmdCq)
  giveBack (.entry .cmdSq)
  bceFreeCq .cmdCq
  bceFreeCmdq

/-- What the label `fail` of `apple_bce_probe` finds in the `struct apple_bce_device`. -/
structure Fields where
  dev : Bool
  regMemMb : Bool
  regMemDma : Bool

/-- The part of the label `fail` for a device that was created, and for a `bce` that is not `NULL`. -/
def failDev (fields : Fields) : ProbeM Unit := do
  giveBack .dev
  Ledger.onlyIf fields.regMemMb (giveBack .regMemMb)
  Ledger.onlyIf fields.regMemDma (giveBack .regMemDma)

def failBce : Option Fields → ProbeM Unit
  | none => pure ()
  | some fields => do
    Ledger.onlyIf fields.dev (failDev fields)
    giveBack .queuesSrcu
    giveBack .bce

def fail (bce : Option Fields) : ProbeM Unit := do
  failBce bce
  giveBack .irqVectors
  giveBack .regions
  giveBack .pci

def failInterrupt0 : ProbeM Unit := do
  giveBack .mbIrq
  fail (some ⟨true, true, true⟩)

def failInterrupt : ProbeM Unit := do
  giveBack .dmaIrq
  failInterrupt0

def failDev0 : ProbeM Unit := do
  giveBack .pci0
  failInterrupt

def failTs : ProbeM Unit := do
  giveBack .timestamp
  giveBack .pci0Mem
  failDev0

def failVhci : ProbeM Unit := do
  bceFreeCommandQueues
  failTs

/-- `apple_bce_probe` from `bce_timestamp_start` on. A bind yields whether there is a `pci0_link`. -/
def probeT2 : ProbeM (Except Errno Bool) := do
  take .timestamp
  let handshake ← bceFwVersionHandshake env
  match handshake with
  | some e => do
    failTs
    pure (.error e)
  | none => do
    let queues ← bceCreateCommandQueues env
    match queues with
    | some e => do
      failTs
      pure (.error e)
    | none => do
      let vhci ← bceVhciCreate env
      match vhci with
      | some e => do
        failVhci
        pure (.error e)
      | none => do
        let link ← attempt env .pci0Link
        take .globalBce
        pure (.ok link.isNone)

/-- `apple_bce_probe` from the mask of the DMA addresses on. -/
def probePci0 : ProbeM (Except Errno Bool) := do
  let mask ← Ledger.ask env.status
  match mask with
  | some e => do
    failInterrupt
    pure (.error e)
  | none => do
    let pci0 ← attempt env .pci0
    match pci0 with
    | some _ => do
      failInterrupt
      pure (.error .nodev)
    | none => do
      let mem ← attempt env .pci0Mem
      match mem with
      | some e => do
        failDev0
        pure (.error e)
      | none => probeT2 env

/-- `apple_bce_probe` from `device_create` on. -/
def probeDev : ProbeM (Except Errno Bool) := do
  let dev ← attempt env .dev
  match dev with
  | some e => do
    fail (some ⟨false, false, false⟩)
    pure (.error e)
  | none => do
    let mb ← attempt env .regMemMb
    let dma ← attempt env .regMemDma
    if mb.isNone && dma.isNone then do
      let irq0 ← attempt env .mbIrq
      match irq0 with
      | some e => do
        fail (some ⟨true, true, true⟩)
        pure (.error e)
      | none => do
        let irq4 ← attempt env .dmaIrq
        match irq4 with
        | some e => do
          failInterrupt0
          pure (.error e)
        | none => probePci0 env
    else do
      -- the status is still 0 here, and becomes `-EINVAL` at the end
      fail (some ⟨true, mb.isNone, dma.isNone⟩)
      pure (.error .inval)

def appleBceProbe : ProbeM (Except Errno Bool) := do
  let pci ← attempt env .pci
  match pci with
  | some _ => pure (.error .nodev)
  | none => do
    let regions ← attempt env .regions
    match regions with
    | some _ => do
      fail none
      pure (.error .nodev)
    | none => do
      let nvec ← attempt env .irqVectors
      match nvec with
      | some e => do
        fail none
        pure (.error e)
      | none => do
        let bce ← attempt env .bce
        match bce with
        | some _ => do
          fail none
          pure (.error .nomem)
        | none => do
          let srcu ← attempt env .queuesSrcu
          match srcu with
          | some e => do
            giveBack .bce
            fail none
            pure (.error e)
          | none => probeDev env

def appleBceRemove (pci0Link : Bool) : ProbeM Unit := do
  giveBack .globalBce
  bceVhciDestroy env
  Ledger.onlyIf pci0Link (giveBack .pci0Link)
  giveBack .timestamp
  giveBack .pci0Mem
  giveBack .pci0
  giveBack .mbIrq
  giveBack .dmaIrq
  bceFreeCommandQueues
  giveBack .regMemMb
  giveBack .regMemDma
  giveBack .dev
  giveBack .irqVectors
  giveBack .regions
  giveBack .pci
  giveBack .queuesSrcu
  giveBack .bce

end BceProbe

end AppleBce

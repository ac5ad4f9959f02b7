import AppleBce.Basis.Loop
import AppleBce.Vhci.Resume
import Mathlib.Data.Finset.Erase
import Mathlib.Data.Finset.Insert
import Mathlib.Tactic.Simps.Basic

namespace AppleBce

open Basis

/-- `struct usb_device`. The serial tells apart the devices that come and go on one port; the
root hub is the one on port 0. -/
structure UsbDevice where
  portnum : Nat
  serial : Nat
  deriving DecidableEq, Repr

/-- `struct usb_host_endpoint`, which belongs to one device. The number tells apart endpoints with
one descriptor, such as those of two alternate settings. -/
structure UsbHostEndpoint where
  udev : UsbDevice
  desc : UsbEndpoint
  number : Nat
  deriving DecidableEq, Repr

/-- `udev->ep0`. -/
def UsbDevice.ep0 (udev : UsbDevice) : UsbHostEndpoint :=
  ⟨udev, controlEndpoint, 0⟩

/-- The index of the queue of an endpoint in `tq`. -/
def UsbHostEndpoint.index (endp : UsbHostEndpoint) : Nat :=
  (bceVhciEndpointIndex endp.desc.bEndpointAddress).toNat

/-- An element of `tq` of a device: its `endp` field, which outlives the queue, and the queue while
it has a completion queue and submission queues. -/
structure DeviceQueue where
  endp : Option UsbHostEndpoint
  queue : Option BceVhciTransferQueue

/-- `struct bce_vhci_device`, with the number of the allocation. -/
structure VhciDevice extends BceVhciDevice where
  object : Nat
  tq : Nat → DeviceQueue

/-- `BIT(j)` of `tq_mask`. -/
def tqBit (j : Nat) : BitVec 32 :=
  BitVec.twoPow 32 j

namespace VhciDevice

/-- `dev->tq_mask & BIT(j)`. -/
def hasQueue (dev : VhciDevice) (j : Nat) : Bool :=
  dev.tqMask.getLsbD j

/-- A zeroed allocation. -/
def zeroed (object : Nat) : VhciDevice where
  tqMask := 0
  object := object
  tq := fun _ => ⟨none, none⟩

def setQueue (dev : VhciDevice) (j : Nat) (queue : DeviceQueue) : VhciDevice :=
  { dev with tq := Function.update dev.tq j queue }

def setMask (dev : VhciDevice) (tqMask : BitVec 32) : VhciDevice :=
  { dev with tqMask }

/-- What is left of an element of `tq` by `bce_vhci_destroy_transfer_queue`. -/
def destroyQueue (dev : VhciDevice) (j : Nat) : VhciDevice :=
  dev.setQueue j { dev.tq j with queue := none }

end VhciDevice

/-- What the creation of a transfer queue meets: the memory there is, and the answers the message
queues of the host are going to give to reservations. -/
structure QueueEnv where
  memory : TransferQueueMemory
  reservations : List Bool

/-- `bce_vhci_create_transfer_queue` on `tq[j]`; it sets the endpoint in any case. -/
def VhciDevice.createQueue (dev : VhciDevice) (j : Nat) (endp : UsbHostEndpoint) (devid : Nat)
    (dir : DmaDataDirection) (env : QueueEnv) : VhciDevice :=
  dev.setQueue j ⟨some endp,
    bceVhciCreateTransferQueue endp.desc (BitVec.ofNat 8 devid) dir env.memory env.reservations⟩

/-- The device ids the T2 has handed out and not taken back, and whether every id it returned from
`DEVICE_CREATE` was in 1..15 and free. -/
structure T2Devices where
  held : Nat → Bool
  honest : Bool

namespace T2Devices

def create (t2 : T2Devices) (devid : Nat) : T2Devices where
  held := Function.update t2.held devid true
  honest := t2.honest && (1 ≤ devid && devid ≤ 15 && !t2.held devid)

/-- `DEVICE_DESTROY`, after which the T2 has released the id or, when the command failed, maybe not. -/
def destroy (t2 : T2Devices) (devid : Nat) (released : Bool) : T2Devices :=
  if released then { t2 with held := Function.update t2.held devid false } else t2

end T2Devices

/-- An index the driver uses, or a device id it stores. -/
inductive TableUse
  | portToDevice (port : Nat)
  | portResumeSkipReset (port : Nat)
  | portPowerMask (port : Nat)
  | devices (devid : Nat)
  | stored (devid : Nat)
  deriving DecidableEq, Repr

/-- `struct bce_vhci`, as far as its tables go. The masks of ports are the sets of their bits. The
`hcpriv` of an endpoint is the device and the index of a queue, and the last fields record the
allocations of devices made and given back, the ids at the T2 and the uses of the tables. -/
structure BceVhci where
  portMask : BitVec 16
  portCount : Nat
  portPowerMask : BitVec 16
  portToDevice : Nat → Nat
  devices : Nat → Option VhciDevice
  portResumeMask : Finset Nat
  portReenumerateMask : Finset Nat
  portSuppressConnectMask : Finset Nat
  portResumeSkipReset : Nat → Nat
  wRecovery : Bool
  recoveryWatchdog : Bool
  controllerDead : Bool
  hcpriv : UsbHostEndpoint → Option (Nat × Nat)
  objects : Nat
  freed : List Nat
  t2 : T2Devices
  uses : List TableUse

namespace BceVhci

/-- The zeroed `struct bce_vhci`, before the T2 has created a device. -/
def zeroed : BceVhci where
  portMask := 0
  portCount := 0
  portPowerMask := 0
  portToDevice := fun _ => 0
  devices := fun _ => none
  portResumeMask := ∅
  portReenumerateMask := ∅
  portSuppressConnectMask := ∅
  portResumeSkipReset := fun _ => 0
  wRecovery := false
  recoveryWatchdog := false
  controllerDead := false
  hcpriv := fun _ => none
  objects := 0
  freed := []
  t2 := ⟨fun _ => false, true⟩
  uses := []

@[simps -fullyApplied portToDevice devices t2 objects hcpriv portSuppressConnectMask wRecovery recoveryWatchdog
  controllerDead]
def use (v : BceVhci) (used : TableUse) : BceVhci :=
  { v with uses := v.uses ++ [used] }

@[simps -fullyApplied portToDevice devices t2 objects hcpriv portSuppressConnectMask wRecovery recoveryWatchdog
  controllerDead]
def setHcpriv (v : BceVhci) (endp : UsbHostEndpoint) (hcpriv : Option (Nat × Nat)) : BceVhci :=
  { v with hcpriv := Function.update v.hcpriv endp hcpriv }

/-- `if (endp) endp->hcpriv = NULL`. -/
def clearHcpriv (v : BceVhci) : Option UsbHostEndpoint → BceVhci
  | none => v
  | some endp => v.setHcpriv endp none

@[simps -fullyApplied portToDevice devices t2 objects hcpriv portSuppressConnectMask wRecovery recoveryWatchdog
  controllerDead]
def setDevice (v : BceVhci) (devid : Nat) (dev : Option VhciDevice) : BceVhci :=
  { v with
    devices := Function.update v.devices devid dev
    uses := v.uses ++ [.devices devid] }

@[simps -fullyApplied portToDevice devices t2 objects hcpriv portSuppressConnectMask wRecovery recoveryWatchdog
  controllerDead]
def setPort (v : BceVhci) (port devid : Nat) : BceVhci :=
  { v with
    portToDevice := Function.update v.portToDevice port devid
    uses := v.uses ++ [.portToDevice port, .stored devid] }

@[simps -fullyApplied portToDevice devices t2 objects hcpriv portSuppressConnectMask wRecovery recoveryWatchdog
  controllerDead]
def deviceCreate (v : BceVhci) (devid : Nat) : BceVhci :=
  { v with t2 := v.t2.create devid }

@[simps -fullyApplied portToDevice devices t2 objects hcpriv portSuppressConnectMask wRecovery recoveryWatchdog
  controllerDead]
def deviceDestroy (v : BceVhci) (devid : Nat) (released : Bool) : BceVhci :=
  { v with t2 := v.t2.destroy devid released }

@[simps -fullyApplied portToDevice devices t2 objects hcpriv portSuppressConnectMask wRecovery recoveryWatchdog
  controllerDead]
def kfree (v : BceVhci) (dev : VhciDevice) : BceVhci :=
  { v with freed := v.freed ++ [dev.object] }

/-- `kzalloc` of a device. -/
@[simps -fullyApplied portToDevice devices t2 objects hcpriv portSuppressConnectMask wRecovery recoveryWatchdog
  controllerDead]
def kzalloc (v : BceVhci) : BceVhci :=
  { v with objects := v.objects + 1 }

/-- A queue of a device that is not in the tables is torn down. -/
def tearDownQueue (j : Nat) (s : BceVhci × VhciDevice) : BceVhci × VhciDevice :=
  if s.2.hasQueue j then (s.1.clearHcpriv (s.2.tq j).endp, s.2.destroyQueue j) else s

/-- The loop over `tq_mask` that clears `hcpriv` and destroys the queues of a device. -/
def tearDownQueues (v : BceVhci) (dev : VhciDevice) : BceVhci × VhciDevice :=
  forLoop 32 tearDownQueue (v, dev)

/-- The reply to `DEVICE_CREATE`. -/
structure DeviceCreateReply where
  status : Int
  dev : BitVec 8

/-- What `bce_vhci_enable_device` meets. The flag `released` says whether the T2 gives the id up,
should the driver destroy the device again. -/
structure EnableEnv where
  create : DeviceCreateReply
  allocated : Bool
  queue : QueueEnv
  released : Bool

/-- The end of `bce_vhci_enable_device`, from where the new device is allocated. -/
def attachDevice (v : BceVhci) (udev : UsbDevice) (devid : Nat) (env : EnableEnv) : Int × BceVhci :=
  let vdev := (VhciDevice.zeroed v.objects).createQueue 0 udev.ep0 devid .bidirectional env.queue
  let v := v.kzalloc.setPort udev.portnum devid
  if (vdev.tq 0).queue.isNone then
    let v := (v.setDevice devid none).setPort udev.portnum 0
    (Errno.nomem.neg, (v.kfree vdev).deviceDestroy devid env.released)
  else
    let v := v.setHcpriv udev.ep0 (some (vdev.object, 0))
    (0, v.setDevice devid (some (vdev.setMask (vdev.tqMask ||| tqBit 0))))

/-- `bce_vhci_enable_device`, which is `bce_vhci_address_device` too. -/
def enableDevice (v : BceVhci) (udev : UsbDevice) (env : EnableEnv) : Int × BceVhci :=
  let port := udev.portnum
  let v := v.use (.portToDevice port)
  if v.portToDevice port ≠ 0 then (0, v)
  else if env.create.status ≠ 0 then (Errno.io.neg, v)
  else
    let devid := env.create.dev.toNat
    let v := v.deviceCreate devid
    if 16 ≤ devid then (Errno.io.neg, v.deviceDestroy devid env.released)
    else if ¬env.allocated then (Errno.nomem.neg, v.deviceDestroy devid env.released)
    else v.attachDevice udev devid env

/-- `test_and_clear_bit` on `port_reenumerate_mask` and what follows when it was set. -/
def signalReconnect (v : BceVhci) (port : Nat) : BceVhci :=
  if port ∈ v.portReenumerateMask then
    { v with
      portReenumerateMask := v.portReenumerateMask.erase port
      portResumeMask := insert port v.portResumeMask }
  else v

/-- `bce_vhci_free_device` for a port with a device: the tables forget it first. -/
def freeMapped (v : BceVhci) (port devid : Nat) (dev : VhciDevice) (released : Bool) : BceVhci :=
  let s := ((v.setDevice devid none).setPort port 0).tearDownQueues dev
  (s.1.deviceDestroy devid released).kfree s.2

/-- `bce_vhci_free_device`. An id without a device would be a fault in the kernel. -/
def freeDevice (v : BceVhci) (udev : UsbDevice) (released : Bool) : BceVhci :=
  let port := udev.portnum
  let v := v.use (.portToDevice port)
  let devid := v.portToDevice port
  if devid = 0 then v.signalReconnect port
  else
    let v := v.use (.devices devid)
    match v.devices devid with
    | none => v
    | some dev => (v.freeMapped port devid dev released).signalReconnect port

/-- What the second half of `bce_vhci_reset_device` meets. -/
structure ResetEnv where
  released : Bool
  portReset : Int
  create : DeviceCreateReply
  queue : Nat → QueueEnv

/-- A round of the loop of `bce_vhci_reset_device` that creates the queues again. -/
def recreateQueue (devid : Nat) (env : Nat → QueueEnv) (i : Nat) (s : BceVhci × VhciDevice) :
    BceVhci × VhciDevice :=
  if s.2.hasQueue i then
    match (s.2.tq i).endp with
    | none => s
    | some endp =>
      let dir := if i = 0 then .bidirectional else if endp.desc.dirIn then .fromDevice else .toDevice
      let dev := s.2.createQueue i endp devid dir (env i)
      if (dev.tq i).queue.isNone then
        (s.1.setHcpriv endp none, dev.setMask (dev.tqMask &&& ~~~tqBit i))
      else (s.1.setHcpriv endp (some (dev.object, i)), dev)
  else s

/-- `bce_vhci_reset_device` for a port with a device. The status of `PORT_RESET` is overwritten. -/
def resetMapped (v : BceVhci) (index devid : Nat) (dev : VhciDevice) (env : ResetEnv) : Int × BceVhci :=
  let s := v.tearDownQueues dev
  let v := ((s.1.setDevice devid none).setPort index 0).deviceDestroy devid env.released
  if env.create.status ≠ 0 then (env.create.status, v)
  else
    let devid := env.create.dev.toNat
    let s := forLoop 32 (recreateQueue devid env.queue) ((v.deviceCreate devid).setPort index devid, s.2)
    (0, s.1.setDevice devid (some s.2))

/-- `bce_vhci_reset_device`. -/
def resetDevice (v : BceVhci) (index : Nat) (env : ResetEnv) : Int × BceVhci :=
  let v := v.use (.portResumeSkipReset index)
  if 0 < v.portResumeSkipReset index then
    (0, { v with
      portResumeSkipReset :=
        Function.update v.portResumeSkipReset index (v.portResumeSkipReset index - 1) })
  else
    let v := v.use (.portToDevice index)
    let devid := v.portToDevice index
    if devid = 0 then (env.portReset, v)
    else
      let v := v.use (.devices devid)
      match v.devices devid with
      | none => (0, v)
      | some dev => v.resetMapped index devid dev env

/-- `bce_vhci_add_endpoint`; `create` is the status of `ENDPOINT_CREATE`. -/
def addEndpoint (v : BceVhci) (endp : UsbHostEndpoint) (queue : QueueEnv) (create : Int) : Int × BceVhci :=
  let v := v.use (.portToDevice endp.udev.portnum)
  let devid := v.portToDevice endp.udev.portnum
  let v := v.use (.devices devid)
  if endp.udev.portnum = 0 then (0, v)
  else
    match v.devices devid with
    | none => (Errno.nodev.neg, v)
    | some vdev =>
      if vdev.hasQueue endp.index then (0, v.setHcpriv endp (some (vdev.object, endp.index)))
      else
        let dir := if endp.desc.dirIn then .fromDevice else .toDevice
        let created := vdev.createQueue endp.index endp devid dir queue
        if (created.tq endp.index).queue.isNone then (Errno.nomem.neg, v.setDevice devid (some created))
        else if create ≠ 0 then
          (create, (v.setHcpriv endp none).setDevice devid (some (created.destroyQueue endp.index)))
        else
          (0, (v.setHcpriv endp (some (vdev.object, endp.index))).setDevice devid
            (some (created.setMask (vdev.tqMask ||| tqBit endp.index))))

/-- `bce_vhci_destroy_transfer_queue` through a pointer to a queue of one of the devices. -/
@[simps -fullyApplied portToDevice t2 objects hcpriv]
def destroyAt (v : BceVhci) (object j : Nat) : BceVhci :=
  { v with
    devices := fun d => (v.devices d).map fun dev => if dev.object = object then dev.destroyQueue j else dev }

/-- `bce_vhci_drop_endpoint`. The command that it sends to the T2 for an attached device has no
effect on the driver. -/
def dropEndpoint (v : BceVhci) (endp : UsbHostEndpoint) : BceVhci :=
  let v := v.use (.portToDevice endp.udev.portnum)
  let devid := v.portToDevice endp.udev.portnum
  if devid = 0 then v.setHcpriv endp none
  else
    let v := v.use (.devices devid)
    match v.devices devid with
    | none => v.setHcpriv endp none
    | some vdev =>
      let masked := v.setDevice devid (some (vdev.setMask (vdev.tqMask &&& ~~~tqBit endp.index)))
      match v.hcpriv endp with
      | none =>
        if vdev.hasQueue endp.index then (masked.destroyAt vdev.object endp.index).setHcpriv endp none else v
      | some (object, j) => (masked.destroyAt object j).setHcpriv endp none

/-- `bce_vhci_transfer_queue_cancel_all` on `tq[j]`, behind which the URBs are given back. -/
def cancelQueue (j : Nat) (s : BceVhci × VhciDevice) : BceVhci × VhciDevice :=
  if s.2.hasQueue j then
    (s.1.clearHcpriv (s.2.tq j).endp,
      s.2.setQueue j { s.2.tq j with
        queue := (s.2.tq j).queue.map fun q => { q.cancelAll with givebackUrbList := [] } })
  else s

/-- A round of the first phase of `bce_vhci_recovery_w`. -/
def recoveryCancelPort (i : Nat) (v : BceVhci) : BceVhci :=
  let v := v.use (.portToDevice i)
  if v.portToDevice i = 0 then v
  else
    let v := v.use (.devices (v.portToDevice i))
    match v.devices (v.portToDevice i) with
    | none => v
    | some vdev =>
      let s := forLoop 32 cancelQueue (v, vdev)
      s.1.setDevice (v.portToDevice i) (some s.2)

/-- The first phase of `bce_vhci_recovery_w`. -/
def recoveryCancelAll (v : BceVhci) : BceVhci :=
  forLoop 16 recoveryCancelPort v

end BceVhci

/-- `bce_vhci_device_persistable`. -/
def VhciDevice.persistable (vdev : VhciDevice) : Bool :=
  (List.range' 1 31).all fun j =>
    !vdev.hasQueue j || (vdev.tq j).endp.all fun endp => endp.desc.xfer == .int

/-- The loop of `bce_vhci_bus_resume` over the queues of a device that resumes in place: whether it
got through, and the device. -/
def VhciDevice.resumeQueues (env : Nat → PauseEnv) : List Nat → VhciDevice → Bool × VhciDevice
  | [], vdev => (true, vdev)
  | j :: js, vdev =>
    if vdev.hasQueue j then
      match (vdev.tq j).queue with
      | none => resumeQueues env js vdev
      | some q =>
        let resumed := q.transferQueueResume .suspend (env j)
        let vdev := vdev.setQueue j { vdev.tq j with queue := some resumed.2 }
        if resumed.1 ≠ 0 then (false, vdev) else resumeQueues env js vdev
    else resumeQueues env js vdev

namespace BceVhci

/-- What the rounds of `bce_vhci_bus_resume` meet on a port: the reply to `PORT_STATUS`, those to
`ENDPOINT_SET_STATE`, and for a refresh those to the commands in turn. -/
structure ResumeEnv where
  status : Int
  portStatus : BitVec 32
  resume : Nat → PauseEnv
  deviceDestroy : Int
  released : Bool
  portReset : Int
  create : DeviceCreateReply
  queue : QueueEnv
  releasedAgain : Bool

/-- The label `reenumerate` of `bce_vhci_bus_resume`. -/
@[simps -fullyApplied portToDevice devices t2 objects hcpriv portSuppressConnectMask wRecovery recoveryWatchdog
  controllerDead]
def reenumerate (v : BceVhci) (port : Nat) : BceVhci :=
  { v with
    portReenumerateMask := insert port v.portReenumerateMask
    portResumeMask := insert port v.portResumeMask }

/-- A round of the loop that cancels and destroys the queues of a device to be refreshed. -/
def refreshQueue (j : Nat) (s : BceVhci × VhciDevice) : BceVhci × VhciDevice :=
  tearDownQueue j (cancelQueue j s)

/-- The refresh of a surviving device in `bce_vhci_bus_resume`. -/
def refreshPort (v : BceVhci) (i devid : Nat) (vdev : VhciDevice) (env : ResumeEnv) : BceVhci :=
  let s := forLoop 32 refreshQueue (v, vdev)
  let torn := s.2.setMask 0
  let v := ((s.1.setDevice devid none).setPort i 0).deviceDestroy devid env.released
  if env.deviceDestroy ≠ 0 then (v.kfree torn).reenumerate i
  else if env.portReset ≠ 0 then (v.kfree torn).reenumerate i
  else if env.create.status ≠ 0 then (v.kfree torn).reenumerate i
  else
    let newDevid := env.create.dev.toNat
    let v := (v.deviceCreate newDevid).setPort i newDevid
    match (vdev.tq 0).endp with
    | none => v.setDevice newDevid (some torn)
    | some ep0 =>
      let created := torn.createQueue 0 ep0 newDevid .bidirectional env.queue
      if (created.tq 0).queue.isNone then
        let v := ((v.setDevice newDevid none).setPort i 0).deviceDestroy newDevid env.releasedAgain
        (v.kfree created).reenumerate i
      else
        let v := v.setHcpriv ep0 (some (created.object, 0))
        let v := v.setDevice newDevid (some (created.setMask (tqBit 0)))
        { v with portResumeSkipReset := Function.update v.portResumeSkipReset i 2 }.use
          (.portResumeSkipReset i)

/-- A round of the loop of `bce_vhci_bus_resume` that classifies the ports. -/
def resumePort (v : BceVhci) (i : Nat) (env : ResumeEnv) : BceVhci :=
  let v := v.use (.portToDevice i)
  if v.portToDevice i = 0 then v
  else
    let devid := v.portToDevice i
    let v := v.use (.devices devid)
    match v.devices devid with
    | none => v
    | some vdev =>
      if env.status = 0 ∧ env.portStatus &&& 0x40000 ≠ 0 then v.reenumerate i
      else if env.status ≠ 0 ∨ env.portStatus &&& 0x4 = 0 then v.reenumerate i
      else if vdev.persistable then
        let resumed := vdev.resumeQueues env.resume (List.range 32)
        if resumed.1 then v.setDevice devid (some resumed.2)
        else (v.setDevice devid (some resumed.2)).refreshPort i devid resumed.2 env
      else v.refreshPort i devid vdev env

end BceVhci

end AppleBce

import AppleBce.Vhci.Tables
import Mathlib.Data.Finset.Filter
import Mathlib.Data.Finset.Range

namespace AppleBce

open Basis

/-- The loop of `bce_vhci_start` that counts the ports; a `u16` is 0 after 16 shifts. -/
def portCountLoop : Nat → BitVec 16 → Nat
  | 0, _ => 0
  | n + 1, mask => if mask = 0 then 0 else portCountLoop n (mask >>> 1) + 1

/-- The port features that `bce_vhci_hub_control` knows. -/
inductive UsbPortFeat
  | enable
  | suspend
  | reset
  | power
  | cConnection
  | cReset
  | other
  deriving DecidableEq, Repr

/-- `typeReq` with `wValue`. -/
inductive HubRequest
  | getHubDescriptor
  | getHubStatus
  | getPortStatus
  | setPortFeature (feature : UsbPortFeat)
  | clearPortFeature (feature : UsbPortFeat)
  | other
  deriving DecidableEq, Repr

/-- The request names a port by `wIndex`. -/
def HubRequest.onPort : HubRequest → Bool
  | .getPortStatus | .setPortFeature _ | .clearPortFeature _ => true
  | _ => false

/-- What `bce_vhci_hub_control` writes into the buffer. -/
inductive HubBuffer
  | hubDescriptor (bNbrPorts : Nat)
  | hubStatus
  | portStatus (wPortStatus wPortChange : BitVec 16)
  deriving DecidableEq, Repr

def sizeofUsbHubDescriptor : Nat := 15
def sizeofUsbHubStatus : Nat := 4

def usbPortStatConnection : BitVec 16 := 0x1
def usbPortStatEnable : BitVec 16 := 0x2
def usbPortStatSuspend : BitVec 16 := 0x4
def usbPortStatOvercurrent : BitVec 16 := 0x8
def usbPortStatReset : BitVec 16 := 0x10
def usbPortStatPower : BitVec 16 := 0x100
def usbPortStatHighSpeed : BitVec 16 := 0x400
def usbPortStatCConnection : BitVec 16 := 0x1

/-- `bce_vhci_cmd_status_to_errno`. -/
def bceVhciCmdStatusToErrno (status : Int) : Int :=
  if 0 < status then Errno.io.neg else status

/-- The status bits of the hub that the T2's answer to `PORT_STATUS` stands for. -/
def portStatusBits (raw : BitVec 32) : BitVec 16 :=
  (if raw &&& 16 ≠ 0 then usbPortStatEnable ||| usbPortStatHighSpeed else 0) |||
  (if raw &&& 4 ≠ 0 then usbPortStatConnection else 0) |||
  (if raw &&& 2 ≠ 0 then usbPortStatOvercurrent else 0) |||
  (if raw &&& 8 ≠ 0 then usbPortStatReset else 0) |||
  (if raw &&& 0x60 ≠ 0 then usbPortStatSuspend else 0)

/-- What a hub request meets: the module parameter `vhci_port_mask`, the T2's answer to the command
of the request, and what a reset of the device meets. -/
structure HubEnv where
  vhciPortMask : BitVec 16
  status : Int
  portStatus : BitVec 32
  reset : BceVhci.ResetEnv

namespace BceVhci

/-- The state behind a successful `bce_vhci_start`, with the mask `CONTROLLER_ENABLE` returned. -/
def started (portMask : BitVec 16) : BceVhci :=
  { zeroed with portMask, portPowerMask := 0, portCount := portCountLoop 16 portMask, recoveryWatchdog := true }

/-- `GetPortStatus`. -/
def getPortStatus (v : BceVhci) (wIndex : Nat) (env : HubEnv) : Int × Option HubBuffer :=
  let power := if v.portPowerMask.getLsbD wIndex then usbPortStatPower else 0
  if ¬env.vhciPortMask.getLsbD wIndex then (0, some (.portStatus power 0))
  else if v.controllerDead then (0, some (.portStatus power 0))
  else if wIndex ∈ v.portReenumerateMask then (0, some (.portStatus power usbPortStatCConnection))
  else if env.status ≠ 0 then (bceVhciCmdStatusToErrno env.status, none)
  else
    let change := env.portStatus &&& 0x40000 ≠ 0 ∨ wIndex ∈ v.portResumeMask
    (0, some (.portStatus (power ||| portStatusBits env.portStatus) (if change then usbPortStatCConnection else 0)))

/-- `port_power_mask |= BIT(port)`; the mask is a `u16`. -/
def setPortPower (v : BceVhci) (port : Nat) : BceVhci :=
  { v with portPowerMask := v.portPowerMask ||| (BitVec.twoPow 64 port).setWidth 16 }.use (.portPowerMask port)

/-- `port_power_mask &= ~BIT(port)`. -/
def clearPortPower (v : BceVhci) (port : Nat) : BceVhci :=
  { v with portPowerMask := v.portPowerMask &&& (~~~BitVec.twoPow 64 port).setWidth 16 }.use (.portPowerMask port)

/-- `bce_vhci_hub_control`: its result, the buffer, and what it does to the tables. -/
def hubControl (v : BceVhci) (request : HubRequest) (wIndex wLength : Nat) (env : HubEnv) :
    Int × Option HubBuffer × BceVhci :=
  let failed := bceVhciCmdStatusToErrno env.status
  if request.onPort ∧ (wIndex < 1 ∨ v.portCount < wIndex) then (Errno.pipe.neg, none, v)
  else
    match request with
    | .getHubDescriptor =>
      if sizeofUsbHubDescriptor ≤ wLength then (0, some (.hubDescriptor v.portCount), v)
      else (Errno.io.neg, none, v)
    | .getHubStatus =>
      if sizeofUsbHubStatus ≤ wLength then (0, some .hubStatus, v) else (Errno.io.neg, none, v)
    | .getPortStatus =>
      if 4 ≤ wLength then
        ((v.getPortStatus wIndex env).1, (v.getPortStatus wIndex env).2, v.use (.portPowerMask wIndex))
      else (Errno.io.neg, none, v)
    | .setPortFeature .power => (failed, none, if env.status = 0 then v.setPortPower wIndex else v)
    | .setPortFeature .reset =>
      let reset := v.resetDevice wIndex env.reset
      (bceVhciCmdStatusToErrno reset.1, none, reset.2)
    | .setPortFeature .suspend => (failed, none, v)
    | .clearPortFeature .enable => (failed, none, v)
    | .clearPortFeature .power => (failed, none, if env.status = 0 then v.clearPortPower wIndex else v)
    | .clearPortFeature .cConnection =>
      (failed, none, { v with portResumeMask := v.portResumeMask.erase wIndex })
    | .clearPortFeature .cReset => (0, none, v)
    | .clearPortFeature .suspend => (if wIndex ∈ v.portReenumerateMask then 0 else failed, none, v)
    | _ => (Errno.io.neg, none, v)

/-- `PORT_STATUS_CHANGE` in `bce_vhci_handle_system_event`. -/
def portStatusChange (v : BceVhci) (param1 : BitVec 32) : BceVhci :=
  let port := (param1.setWidth 8).toNat
  if port = 0 ∨ v.portCount < port then v
  else if port ∈ v.portSuppressConnectMask then v
  else { v with portResumeMask := insert port v.portResumeMask }

/-- A message of the T2 for a transfer queue: `bce_vhci_handle_usb_event` and the firmware event
handler look the queue up by the same checks. The transfer queue may be left in any state. -/
def queueEvent (v : BceVhci) (param1 : BitVec 32) (after : BceVhciTransferQueue) : BceVhci :=
  let devid := (param1.setWidth 8).toNat
  let endp := (bceVhciEndpointIndex ((param1 >>> 8).setWidth 8)).toNat
  if 16 ≤ devid then v
  else
    let v := v.use (.devices devid)
    match v.devices devid with
    | none => v
    | some dev =>
      if dev.hasQueue endp ∧ (dev.tq endp).queue.isSome then
        v.setDevice devid (some (dev.setQueue endp { dev.tq endp with queue := some after }))
      else v

end BceVhci

/-- What `bce_vhci_bus_suspend` does to a transfer queue under its `pause_lock`. -/
def BceVhciTransferQueue.busSuspend (q : BceVhciTransferQueue) (env : PauseEnv) : BceVhciTransferQueue :=
  if q.pausedBy = 0 then ({ q with active := false }.setStateAnswered env).setPaused .suspend
  else q.setPaused .suspend

namespace BceVhci

/-- What `bce_vhci_bus_suspend` meets: the replies for each port and endpoint, and the status of
`CONTROLLER_PAUSE`. -/
structure SuspendEnv where
  setState : Nat → Nat → PauseEnv
  controllerPause : Int

/-- A round of the loop of `bce_vhci_bus_suspend` over `tq`. -/
def suspendQueue (env : Nat → PauseEnv) (j : Nat) (vdev : VhciDevice) : VhciDevice :=
  if vdev.hasQueue j then
    vdev.setQueue j { vdev.tq j with queue := (vdev.tq j).queue.map fun q => q.busSuspend (env j) }
  else vdev

/-- A round of the loop of `bce_vhci_bus_suspend` over the ports. -/
def suspendPort (env : Nat → Nat → PauseEnv) (i : Nat) (v : BceVhci) : BceVhci :=
  let v := v.use (.portToDevice i)
  if v.portToDevice i = 0 then v
  else
    let v := v.use (.devices (v.portToDevice i))
    match v.devices (v.portToDevice i) with
    | none => v
    | some vdev => v.setDevice (v.portToDevice i) (some (forLoop 32 (suspendQueue (env i)) vdev))

/-- `bce_vhci_bus_suspend`. The commands that suspend the ports have no effect on the driver, and
so has pausing the event queues on the tables. -/
def busSuspend (v : BceVhci) (env : SuspendEnv) : Int × BceVhci :=
  let v := { v with
    recoveryWatchdog := false
    portResumeSkipReset := fun _ => 0
    portResumeMask := ∅
    portReenumerateMask := ∅ }
  let v := forLoop 16 (suspendPort env.setState) v
  if env.controllerPause ≠ 0 then (env.controllerPause, v)
  else
    (0, { v with portSuppressConnectMask := (Finset.range 16).filter fun i => v.portToDevice i ≠ 0 })

/-- What `bce_vhci_bus_resume` meets: `recovering`, the status of `CONTROLLER_START`, and what its
round for each port meets. -/
structure BusResumeEnv where
  recovering : Bool
  controllerStart : Int
  port : Nat → ResumeEnv

/-- `bce_vhci_bus_resume`, which always returns 0. -/
def busResume (v : BceVhci) (env : BusResumeEnv) : BceVhci :=
  if env.recovering then v
  else if env.controllerStart ≠ 0 then
    { v with portSuppressConnectMask := ∅, portReenumerateMask := ∅, wRecovery := true }
  else
    { forLoop 16 (fun i v => v.resumePort i (env.port i)) v with
      portSuppressConnectMask := ∅
      recoveryWatchdog := true }

/-- The fifth phase of `bce_vhci_recovery_w`. -/
def recoverySignal (v : BceVhci) : BceVhci :=
  forLoop 16
    (fun i v => if v.portToDevice i = 0 then v.use (.portToDevice i) else (v.use (.portToDevice i)).reenumerate i) v

end BceVhci

/-- The operations on the tables. Those on a device or an endpoint are calls of the USB core for a
port of the hub, and a suspend and a resume are taken apart into their rounds where others may
come between them. -/
inductive VhciStep
  | hubControl (request : HubRequest) (wIndex wLength : Nat) (env : HubEnv)
  | enableDevice (udev : UsbDevice) (env : BceVhci.EnableEnv)
  | freeDevice (udev : UsbDevice) (released : Bool)
  | addEndpoint (endp : UsbHostEndpoint) (queue : QueueEnv) (create : Int)
  | dropEndpoint (endp : UsbHostEndpoint)
  | busSuspend (env : BceVhci.SuspendEnv)
  | busResume (env : BceVhci.BusResumeEnv)
  | resumePort (i : Nat) (env : BceVhci.ResumeEnv)
  | recoveryCancelAll
  | recoverySignal
  | portStatusChange (param1 : BitVec 32)
  | queueEvent (param1 : BitVec 32) (after : BceVhciTransferQueue)

namespace BceVhci

/-- The device is on a port of the hub, as the number of ports in its descriptor has it. -/
def OnHub (v : BceVhci) (udev : UsbDevice) : Prop :=
  1 ≤ udev.portnum ∧ udev.portnum ≤ v.portCount

instance (v : BceVhci) (udev : UsbDevice) : Decidable (v.OnHub udev) :=
  inferInstanceAs (Decidable (_ ∧ _))

def step (v : BceVhci) : VhciStep → Option BceVhci
  | .hubControl request wIndex wLength env => some (v.hubControl request wIndex wLength env).2.2
  | .enableDevice udev env => if v.OnHub udev then some (v.enableDevice udev env).2 else none
  | .freeDevice udev released => if v.OnHub udev then some (v.freeDevice udev released) else none
  -- the root hub has endpoints as well
  | .addEndpoint endp queue create =>
    if v.OnHub endp.udev ∨ endp.udev.portnum = 0 then some (v.addEndpoint endp queue create).2 else none
  | .dropEndpoint endp =>
    if v.OnHub endp.udev ∨ endp.udev.portnum = 0 then some (v.dropEndpoint endp) else none
  | .busSuspend env => some (v.busSuspend env).2
  | .busResume env => some (v.busResume env)
  | .resumePort i env => if i < 16 then some (v.resumePort i env) else none
  | .recoveryCancelAll => some v.recoveryCancelAll
  | .recoverySignal => some v.recoverySignal
  | .portStatusChange param1 => some (v.portStatusChange param1)
  | .queueEvent param1 after => some (v.queueEvent param1 after)

/-- The driver from `bce_vhci_start` on. -/
def machine : Machine BceVhci VhciStep where
  init := fun v => ∃ portMask, v = started portMask
  step := step

end BceVhci

end AppleBce

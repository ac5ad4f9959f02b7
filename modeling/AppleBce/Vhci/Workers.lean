import AppleBce.Vhci.MapRuns

namespace AppleBce

open Basis

/-- `time_before`. -/
def timeBefore (a b : BitVec 64) : Bool :=
  (a - b).msb

/-- `msecs_to_jiffies` for this many jiffies a second. -/
def msecsToJiffies (hz msecs : Nat) : BitVec 64 :=
  BitVec.ofNat 64 ((msecs * hz + 999) / 1000)

def bceVhciRecoveryCooldownSecs : Nat := 10
def bceVhciWatchdogIntervalSecs : Nat := 30
def bceVhciMaxRecoveryFailures : BitVec 32 := 3

/-- How far a run of `bce_vhci_watchdog_w` has got. -/
inductive WatchdogPc
  | begun
  | checkDead
  | probe
  | timedOut
  | reschedule
  deriving DecidableEq, Repr

/-- How far a run of `bce_vhci_recovery_w` has got. -/
inductive RecoveryPc
  | begun
  | cooldown
  | claim
  | cancelAll
  | controllerPause
  | controllerStart
  | started
  | startFailed
  | signal
  | out
  | rearm
  deriving DecidableEq, Repr

/-- Between the two writes to `recovering`. -/
def RecoveryPc.recovers : RecoveryPc → Bool
  | .begun | .cooldown | .claim | .rearm => false
  | _ => true

/-- How far the USB core has got with the bus: before `bce_vhci_start` has returned, at work, in
`bce_vhci_bus_suspend`, suspended, or in `bce_vhci_bus_resume`. -/
inductive BusPc
  | starting
  | active
  | cancelWatchdog
  | suspendPort (i : Nat)
  | controllerPause
  | suppress
  | pauseQueues
  | suspended
  | controllerStart
  | resumePort (i : Nat)
  | rearm
  | startFailed
  | scheduleRecovery
  deriving DecidableEq, Repr

/-- In `bce_vhci_bus_suspend` up to `CONTROLLER_PAUSE`. -/
def BusPc.suspending : BusPc → Bool
  | .cancelWatchdog | .suspendPort _ | .controllerPause => true
  | _ => false

/-- Who executes a command: the two work items, a callback of the bus, or anyone else. -/
inductive CmdCaller
  | watchdog
  | recovery
  | bus
  | other
  deriving DecidableEq, Repr

/-- `struct bce_vhci` with the work items: that one is pending is a field of the tables, and the
watchdog is then due at `watchdogExpires`. A command is executed under `cq->mutex`; it is marked when
its cancellation has timed out and it has found that the controller is not recovering. -/
structure VhciWork where
  vhci : BceVhci
  jiffies : BitVec 64
  recovering : Bool
  lastRecoveryJiffies : BitVec 64
  recoveryFailCount : BitVec 32
  watchdogExpires : BitVec 64
  watchdog : Option WatchdogPc
  recovery : Option RecoveryPc
  bus : BusPc
  cq : Option (CmdCaller × Bool)

/-- The steps: time passes, `bce_vhci_start` returns, the T2 notifies of a reset, the other operations
on the tables, commands, the two work items, and the callbacks of the bus. -/
inductive WorkStep
  | tick (jiffies : Nat)
  | start
  | controllerResetNotify
  | table (a : VhciStep)
  | execute (caller : CmdCaller)
  | cancelTimedOut
  | desync
  | reply (status : Int)
  | watchdogBegins
  | watchdog
  | recoveryBegins
  | recovery
  | busSuspend
  | suspend (env : Nat → Nat → PauseEnv)
  | busResume
  | resume (env : BceVhci.ResumeEnv)

/-- The operations that are no part of a suspend, a resume or a recovery. -/
def VhciStep.elsewhere : VhciStep → Bool
  | .busSuspend _ | .busResume _ | .resumePort _ _ | .recoveryCancelAll | .recoverySignal => false
  | _ => true

namespace BceVhci

variable {v w x : BceVhci} {p devid : Nat} {dev : VhciDevice}

/-- The flags of the work items and the mask of suppressed ports are as they were. -/
structure SameWork (v w : BceVhci) : Prop where
  portSuppressConnectMask : w.portSuppressConnectMask = v.portSuppressConnectMask
  wRecovery : w.wRecovery = v.wRecovery
  recoveryWatchdog : w.recoveryWatchdog = v.recoveryWatchdog
  controllerDead : w.controllerDead = v.controllerDead

theorem SameWork.refl (v : BceVhci) : v.SameWork v :=
  ⟨rfl, rfl, rfl, rfl⟩

theorem SameWork.trans (first : v.SameWork w) (second : w.SameWork x) : v.SameWork x where
  portSuppressConnectMask := second.portSuppressConnectMask.trans first.portSuppressConnectMask
  wRecovery := second.wRecovery.trans first.wRecovery
  recoveryWatchdog := second.recoveryWatchdog.trans first.recoveryWatchdog
  controllerDead := second.controllerDead.trans first.controllerDead

/-- What changes only other fields keeps these. -/
theorem SameWork.next (before : v.SameWork w)
    (portSuppressConnectMask : x.portSuppressConnectMask = w.portSuppressConnectMask)
    (wRecovery : x.wRecovery = w.wRecovery) (recoveryWatchdog : x.recoveryWatchdog = w.recoveryWatchdog)
    (controllerDead : x.controllerDead = w.controllerDead) : v.SameWork x :=
  before.trans ⟨portSuppressConnectMask, wRecovery, recoveryWatchdog, controllerDead⟩

theorem sameWork_of_frame (frame : ∃ hcpriv, w = { v with hcpriv }) : v.SameWork w := by
  obtain ⟨hcpriv, rfl⟩ := frame
  exact ⟨rfl, rfl, rfl, rfl⟩

/-- Looking at a table, entering a device and marking a port leave the works alone. -/
theorem sameWork_use (v : BceVhci) (used : TableUse) : v.SameWork (v.use used) :=
  ⟨rfl, rfl, rfl, rfl⟩

theorem sameWork_setDevice (v : BceVhci) (d : Nat) (dev : Option VhciDevice) : v.SameWork (v.setDevice d dev) :=
  ⟨rfl, rfl, rfl, rfl⟩

theorem sameWork_signalReconnect (v : BceVhci) (p : Nat) : v.SameWork (v.signalReconnect p) := by
  unfold signalReconnect
  split <;> exact ⟨rfl, rfl, rfl, rfl⟩

theorem sameWork_enableDevice (v : BceVhci) (udev : UsbDevice) (env : EnableEnv) :
    v.SameWork (v.enableDevice udev env).2 := by
  unfold enableDevice
  dsimp only
  split
  · exact ⟨rfl, rfl, rfl, rfl⟩
  split
  · exact ⟨rfl, rfl, rfl, rfl⟩
  split
  · exact ⟨rfl, rfl, rfl, rfl⟩
  split
  · exact ⟨rfl, rfl, rfl, rfl⟩
  · unfold attachDevice
    dsimp only
    split <;> constructor <;> simp

theorem sameWork_freeMapped (v : BceVhci) (port devid : Nat) (dev : VhciDevice) (released : Bool) :
    v.SameWork (v.freeMapped port devid dev released) := by
  unfold freeMapped
  dsimp only
  have emptied : v.SameWork ((v.setDevice devid none).setPort port 0) := ⟨rfl, rfl, rfl, rfl⟩
  generalize (v.setDevice devid none).setPort port 0 = w at emptied ⊢
  have torn := emptied.trans (sameWork_of_frame (tearDownQueues_tornDown w dev).frame)
  generalize w.tearDownQueues dev = s at torn ⊢
  exact torn.next rfl rfl rfl rfl

theorem sameWork_freeDevice (v : BceVhci) (udev : UsbDevice) (released : Bool) :
    v.SameWork (v.freeDevice udev released) := by
  unfold freeDevice
  dsimp only
  have looked := v.sameWork_use (.portToDevice udev.portnum)
  generalize v.use _ = w at looked ⊢
  split
  · exact looked.trans (sameWork_signalReconnect _ _)
  have looked := looked.trans (w.sameWork_use (.devices (w.portToDevice udev.portnum)))
  generalize w.use _ = x at looked ⊢
  split
  · exact looked
  · exact (looked.trans (sameWork_freeMapped _ _ _ _ _)).trans (sameWork_signalReconnect _ _)

theorem sameWork_resetMapped (v : BceVhci) (p devid : Nat) (dev : VhciDevice) (env : ResetEnv) :
    v.SameWork (v.resetMapped p devid dev env).2 := by
  unfold resetMapped
  dsimp only
  have torn := sameWork_of_frame (tearDownQueues_tornDown v dev).frame
  generalize v.tearDownQueues dev = s at torn ⊢
  split
  · exact torn.next rfl rfl rfl rfl
  · refine SameWork.next (SameWork.trans ?_ (sameWork_of_frame (recreate_frame _ _ _ _))) rfl rfl rfl rfl
    exact torn.next rfl rfl rfl rfl

theorem sameWork_resetDevice (v : BceVhci) (p : Nat) (env : ResetEnv) : v.SameWork (v.resetDevice p env).2 := by
  unfold resetDevice
  dsimp only
  have looked := v.sameWork_use (.portResumeSkipReset p)
  generalize v.use _ = w at looked ⊢
  split
  · exact looked.next rfl rfl rfl rfl
  have looked := looked.trans (w.sameWork_use (.portToDevice p))
  generalize w.use _ = x at looked ⊢
  split
  · exact looked
  have looked := looked.trans (x.sameWork_use (.devices (x.portToDevice p)))
  generalize x.use _ = y at looked ⊢
  split
  · exact looked
  · exact looked.trans (sameWork_resetMapped _ _ _ _ _)

theorem sameWork_addEndpoint (v : BceVhci) (endp : UsbHostEndpoint) (queue : QueueEnv) (create : Int) :
    v.SameWork (v.addEndpoint endp queue create).2 := by
  unfold addEndpoint
  dsimp only
  have looked := (v.sameWork_use (.portToDevice endp.udev.portnum)).trans (sameWork_use _
    (.devices ((v.use (.portToDevice endp.udev.portnum)).portToDevice endp.udev.portnum)))
  generalize (v.use (.portToDevice endp.udev.portnum)).use _ = w at looked ⊢
  split
  · exact looked
  split
  · exact looked
  split
  · exact looked.next rfl rfl rfl rfl
  generalize VhciDevice.createQueue _ _ _ _ _ _ = created
  split
  · exact looked.next rfl rfl rfl rfl
  split
  · exact looked.next rfl rfl rfl rfl
  · exact looked.next rfl rfl rfl rfl

theorem sameWork_dropEndpoint (v : BceVhci) (endp : UsbHostEndpoint) : v.SameWork (v.dropEndpoint endp) := by
  unfold dropEndpoint
  dsimp only
  have looked := v.sameWork_use (.portToDevice endp.udev.portnum)
  generalize v.use (.portToDevice endp.udev.portnum) = w at looked ⊢
  split
  · exact looked.next rfl rfl rfl rfl
  have looked := looked.trans (w.sameWork_use (.devices (w.portToDevice endp.udev.portnum)))
  generalize w.use _ = x at looked ⊢
  split
  · exact looked.next rfl rfl rfl rfl
  rename_i vdev _
  have masked := (sameWork_setDevice x (w.portToDevice endp.udev.portnum)
    (some (vdev.setMask (vdev.tqMask &&& ~~~tqBit endp.index))))
  generalize x.setDevice _ _ = y at masked ⊢
  split
  · split
    · exact (looked.trans masked).next rfl rfl rfl rfl
    · exact looked
  · exact (looked.trans masked).next rfl rfl rfl rfl

/-- No request to the root hub schedules a work. -/
theorem sameWork_hubControl (v : BceVhci) (request : HubRequest) (wIndex wLength : Nat) (env : HubEnv) :
    v.SameWork (v.hubControl request wIndex wLength env).2.2 := by
  unfold hubControl
  dsimp only
  split
  · exact .refl v
  split
  case h_5 => exact sameWork_resetDevice v wIndex env.reset
  all_goals first | exact ⟨rfl, rfl, rfl, rfl⟩ | (split <;> exact ⟨rfl, rfl, rfl, rfl⟩)

theorem sameWork_recoveryCancelAll (v : BceVhci) : v.SameWork v.recoveryCancelAll := by
  refine forLoop_keeps (P := v.SameWork) (.refl v) fun i w _ same => ?_
  unfold recoveryCancelPort
  dsimp only
  split
  · exact same.next rfl rfl rfl rfl
  split
  · exact same.next rfl rfl rfl rfl
  · rename_i dev _
    have looked : v.SameWork ((w.use (.portToDevice i)).use
      (.devices ((w.use (.portToDevice i)).portToDevice i))) :=
      same.next rfl rfl rfl rfl
    generalize (w.use _).use _ = x at looked ⊢
    have cancelled := looked.trans (sameWork_of_frame (cancelQueues_cancelled x dev).frame)
    exact cancelled.next rfl rfl rfl rfl

theorem sameWork_recoverySignal (v : BceVhci) : v.SameWork v.recoverySignal := by
  refine forLoop_keeps (P := v.SameWork) (.refl v) fun i w _ same => ?_
  split <;> exact same.next rfl rfl rfl rfl

/-- What a suspend does to one port leaves them alone. -/
theorem sameWork_suspendPort (env : Nat → Nat → PauseEnv) (i : Nat) (v : BceVhci) :
    v.SameWork (suspendPort env i v) := by
  unfold suspendPort
  dsimp only
  split
  · exact ⟨rfl, rfl, rfl, rfl⟩
  split
  · exact ⟨rfl, rfl, rfl, rfl⟩
  · generalize forLoop 32 _ _ = vdev
    exact ⟨rfl, rfl, rfl, rfl⟩

/-- However the refresh of a port ends, the works are as they were. -/
theorem RefreshCase.sameWork {ep0 : Option UsbHostEndpoint} {env : ResumeEnv}
    (refresh : RefreshCase v dev p ep0 env w) : v.SameWork w := by
  cases refresh <;> constructor <;> simp

theorem sameWork_refreshPort (v : BceVhci) (i devid : Nat) (dev : VhciDevice) (env : ResumeEnv) :
    v.SameWork (v.refreshPort i devid dev env) := by
  refine SameWork.trans ?_ (v.refreshPort_cases i devid dev env).sameWork
  unfold refreshTorn
  dsimp only
  exact (sameWork_of_frame (refresh_tornDown v dev).frame).next rfl rfl rfl rfl

theorem sameWork_resumePort (v : BceVhci) (i : Nat) (env : ResumeEnv) : v.SameWork (v.resumePort i env) := by
  unfold resumePort
  dsimp only
  split
  · exact ⟨rfl, rfl, rfl, rfl⟩
  have looked : v.SameWork ((v.use (.portToDevice i)).use (.devices ((v.use (.portToDevice i)).portToDevice i))) :=
    ⟨rfl, rfl, rfl, rfl⟩
  generalize (v.use _).use _ = w at looked ⊢
  split
  · exact looked
  split
  · exact looked.next rfl rfl rfl rfl
  split
  · exact looked.next rfl rfl rfl rfl
  split
  · split
    · exact looked.next rfl rfl rfl rfl
    · refine SameWork.trans ?_ (sameWork_refreshPort _ _ _ _ _)
      exact looked.next rfl rfl rfl rfl
  · exact looked.trans (sameWork_refreshPort _ _ _ _ _)

theorem sameWork_portStatusChange (v : BceVhci) (param1 : BitVec 32) : v.SameWork (v.portStatusChange param1) := by
  unfold portStatusChange
  dsimp only
  split
  · exact .refl v
  split <;> exact ⟨rfl, rfl, rfl, rfl⟩

theorem sameWork_queueEvent (v : BceVhci) (param1 : BitVec 32) (after : BceVhciTransferQueue) :
    v.SameWork (v.queueEvent param1 after) := by
  unfold queueEvent
  dsimp only
  split
  · exact .refl v
  split
  · exact ⟨rfl, rfl, rfl, rfl⟩
  split <;> exact ⟨rfl, rfl, rfl, rfl⟩

/-- An operation on the tables leaves the works alone if it is no part of a suspend, a resume or a
recovery. -/
theorem sameWork_step {a : VhciStep} (elsewhere : a.elsewhere) (run : v.step a = some w) : v.SameWork w := by
  cases a with
  | hubControl request wIndex wLength env =>
    cases Option.some.inj run
    exact sameWork_hubControl v request wIndex wLength env
  | enableDevice udev env =>
    cases (Option.ite_none_right_eq_some.mp run).2
    exact sameWork_enableDevice v udev env
  | freeDevice udev released =>
    cases (Option.ite_none_right_eq_some.mp run).2
    exact sameWork_freeDevice v udev released
  | addEndpoint endp queue create =>
    cases (Option.ite_none_right_eq_some.mp run).2
    exact sameWork_addEndpoint v endp queue create
  | dropEndpoint endp =>
    cases (Option.ite_none_right_eq_some.mp run).2
    exact sameWork_dropEndpoint v endp
  | portStatusChange param1 =>
    cases Option.some.inj run
    exact sameWork_portStatusChange v param1
  | queueEvent param1 after =>
    cases Option.some.inj run
    exact sameWork_queueEvent v param1 after
  | busSuspend | busResume | resumePort | recoveryCancelAll | recoverySignal => cases elsewhere

end BceVhci

namespace VhciWork

/-- `schedule_work(&vhci->w_recovery)`. -/
def scheduleRecovery (s : VhciWork) : VhciWork :=
  { s with vhci := { s.vhci with wRecovery := true } }

/-- `schedule_delayed_work` for the watchdog, which has no effect while the work is pending or is
being cancelled. -/
def scheduleWatchdog (hz : Nat) (s : VhciWork) : VhciWork :=
  if s.bus = .cancelWatchdog ∨ s.vhci.recoveryWatchdog then s
  else
    { s with
      vhci := { s.vhci with recoveryWatchdog := true }
      watchdogExpires := s.jiffies + msecsToJiffies hz (bceVhciWatchdogIntervalSecs * 1000) }

/-- Less than the cooldown has passed since the last recovery. -/
def coolingDown (hz : Nat) (s : VhciWork) : Bool :=
  s.lastRecoveryJiffies != 0 &&
    timeBefore s.jiffies (s.lastRecoveryJiffies + msecsToJiffies hz (bceVhciRecoveryCooldownSecs * 1000))

/-- The caller has a command to execute. -/
def awaits (s : VhciWork) : CmdCaller → Bool
  | .watchdog => s.watchdog = some .probe
  | .recovery => s.recovery = some .controllerPause ∨ s.recovery = some .controllerStart
  | .bus => s.bus = .controllerPause ∨ s.bus = .controllerStart
  | .other => true

/-- `bce_vhci_recovery_w` behind a `CONTROLLER_START` that has failed. -/
def recoveryFailed (s : VhciWork) : VhciWork :=
  let recoveryFailCount := s.recoveryFailCount + 1
  { s with
    recoveryFailCount
    vhci := { s.vhci with
      controllerDead :=
        s.vhci.controllerDead || decide (bceVhciMaxRecoveryFailures.toNat ≤ recoveryFailCount.toNat) }
    recovery := some .out }

/-- The caller goes on with the status of its command. -/
def returned (s : VhciWork) (status : Int) : CmdCaller → VhciWork
  | .watchdog => { s with watchdog := some (if status = Errno.timedout.neg then .timedOut else .reschedule) }
  | .recovery =>
    match s.recovery with
    | some .controllerPause => { s with recovery := some .controllerStart }
    | some .controllerStart => { s with recovery := some (if status ≠ 0 then .startFailed else .started) }
    | _ => s
  | .bus =>
    match s.bus with
    | .controllerPause => { s with bus := if status ≠ 0 then .active else .suppress }
    | .controllerStart => { s with bus := if status ≠ 0 then .startFailed else .resumePort 0 }
    | _ => s
  | .other => s

/-- `bce_vhci_watchdog_w` between its commands. -/
def watchdogStep (hz : Nat) (s : VhciWork) : Option VhciWork :=
  match s.watchdog with
  | some .begun => some { s with watchdog := some (if s.recovering then .reschedule else .checkDead) }
  | some .checkDead => some { s with watchdog := if s.vhci.controllerDead then none else some .probe }
  | some .timedOut => some { s.scheduleRecovery with watchdog := none }
  | some .reschedule => some { s.scheduleWatchdog hz with watchdog := none }
  | some .probe | none => none

/-- `bce_vhci_recovery_w` between its commands. Pausing and resuming the event queues and flushing
those of the transfers concern neither the tables nor the work items. -/
def recoveryStep (hz : Nat) (s : VhciWork) : Option VhciWork :=
  match s.recovery with
  | some .begun => some { s with recovery := if s.vhci.controllerDead then none else some .cooldown }
  | some .cooldown => some { s with recovery := if s.coolingDown hz then none else some .claim }
  | some .claim =>
    if s.recovering then some { s with recovery := none }
    else some { s with recovering := true, lastRecoveryJiffies := s.jiffies, recovery := some .cancelAll }
  | some .cancelAll => some { s with vhci := s.vhci.recoveryCancelAll, recovery := some .controllerPause }
  | some .started => some { s with recoveryFailCount := 0, recovery := some .signal }
  | some .startFailed => some s.recoveryFailed
  | some .signal => some { s with vhci := s.vhci.recoverySignal, recovery := some .out }
  | some .out => some { s with recovering := false, recovery := some .rearm }
  | some .rearm =>
    some { (if s.vhci.controllerDead then s else s.scheduleWatchdog hz) with recovery := none }
  | some .controllerPause | some .controllerStart | none => none

/-- `bce_vhci_bus_suspend` between its commands. It cancels the watchdog and waits for a run of it. -/
def suspendStep (s : VhciWork) (env : Nat → Nat → PauseEnv) : Option VhciWork :=
  match s.bus with
  | .cancelWatchdog =>
    if s.watchdog.isSome then none
    else
      some { s with
        vhci := { s.vhci with
          portResumeSkipReset := fun _ => 0
          portResumeMask := ∅
          portReenumerateMask := ∅ }
        bus := .suspendPort 0 }
  | .suspendPort i =>
    if i < 16 then some { s with vhci := BceVhci.suspendPort env i s.vhci, bus := .suspendPort (i + 1) }
    else some { s with bus := .controllerPause }
  | .suppress =>
    some { s with
      vhci := { s.vhci with
        portSuppressConnectMask := (Finset.range 16).filter fun i => s.vhci.portToDevice i ≠ 0 }
      bus := .pauseQueues }
  | .pauseQueues => some { s with bus := .suspended }
  | _ => none

/-- `bce_vhci_bus_resume` between its commands. -/
def resumeStep (hz : Nat) (s : VhciWork) (env : BceVhci.ResumeEnv) : Option VhciWork :=
  match s.bus with
  | .resumePort i =>
    if i < 16 then some { s with vhci := s.vhci.resumePort i env, bus := .resumePort (i + 1) }
    else some { s with vhci := { s.vhci with portSuppressConnectMask := ∅ }, bus := .rearm }
  | .rearm => some { s.scheduleWatchdog hz with bus := .active }
  | .startFailed =>
    some { s with
      vhci := { s.vhci with portSuppressConnectMask := ∅, portReenumerateMask := ∅ }
      bus := .scheduleRecovery }
  | .scheduleRecovery => some { s.scheduleRecovery with bus := .active }
  | _ => none

def step (hz : Nat) (s : VhciWork) : WorkStep → Option VhciWork
  | .tick jiffies => some { s with jiffies := s.jiffies + BitVec.ofNat 64 jiffies }
  | .start => if s.bus = .starting then some { s.scheduleWatchdog hz with bus := .active } else none
  | .controllerResetNotify => some s.scheduleRecovery
  | .table a => if a.elsewhere then (s.vhci.step a).map fun vhci => { s with vhci } else none
  | .execute caller =>
    if s.cq.isNone ∧ s.awaits caller then
      if s.vhci.controllerDead then some (s.returned Errno.nodev.neg caller)
      else some { s with cq := some (caller, false) }
    else none
  | .cancelTimedOut =>
    match s.cq with
    | some (caller, false) =>
      if s.recovering then some { s.returned Errno.timedout.neg caller with cq := none }
      else some { s with cq := some (caller, true) }
    | _ => none
  | .desync =>
    match s.cq with
    | some (caller, true) => some { s.scheduleRecovery.returned Errno.timedout.neg caller with cq := none }
    | _ => none
  | .reply status =>
    match s.cq with
    | some (caller, false) => some { s.returned status caller with cq := none }
    | _ => none
  | .watchdogBegins =>
    if s.vhci.recoveryWatchdog ∧ ¬timeBefore s.jiffies s.watchdogExpires ∧ s.watchdog.isNone then
      some { s with vhci := { s.vhci with recoveryWatchdog := false }, watchdog := some .begun }
    else none
  | .watchdog => s.watchdogStep hz
  | .recoveryBegins =>
    if s.vhci.wRecovery ∧ s.recovery.isNone then
      some { s with vhci := { s.vhci with wRecovery := false }, recovery := some .begun }
    else none
  | .recovery => s.recoveryStep hz
  | .busSuspend =>
    if s.bus = .active then
      some { s with vhci := { s.vhci with recoveryWatchdog := false }, bus := .cancelWatchdog }
    else none
  | .suspend env => s.suspendStep env
  | .busResume =>
    if s.bus = .suspended then some { s with bus := if s.recovering then .active else .controllerStart }
    else none
  | .resume env => s.resumeStep hz env

/-- The driver while `bce_vhci_start` is about to return. -/
def starting (portMask : BitVec 16) (jiffies : BitVec 64) : VhciWork where
  vhci := { BceVhci.started portMask with recoveryWatchdog := false }
  jiffies := jiffies
  recovering := false
  lastRecoveryJiffies := 0
  recoveryFailCount := 0
  watchdogExpires := 0
  watchdog := none
  recovery := none
  bus := .starting
  cq := none

def machine (hz : Nat) : Machine VhciWork WorkStep where
  init := fun s => ∃ portMask jiffies, s = starting portMask jiffies
  step := step hz

variable {hz : Nat} {s t : VhciWork} {a : WorkStep}

theorem scheduleWatchdog_pending (free : s.bus ≠ .cancelWatchdog) :
    (s.scheduleWatchdog hz).vhci.recoveryWatchdog = true := by
  unfold scheduleWatchdog
  split
  · rename_i kept
    exact kept.resolve_left free
  · rfl

/-- Scheduling the watchdog concerns nothing but its work item. -/
theorem scheduleWatchdog_frame (hz : Nat) (s : VhciWork) : ∃ recoveryWatchdog watchdogExpires,
    s.scheduleWatchdog hz = { s with vhci := { s.vhci with recoveryWatchdog }, watchdogExpires } := by
  unfold scheduleWatchdog
  split
  · exact ⟨s.vhci.recoveryWatchdog, s.watchdogExpires, rfl⟩
  · exact ⟨_, _, rfl⟩

@[simp] theorem scheduleWatchdog_bus : (s.scheduleWatchdog hz).bus = s.bus := by
  obtain ⟨_, _, frame⟩ := scheduleWatchdog_frame hz s
  rw [frame]

@[simp] theorem scheduleWatchdog_recovery : (s.scheduleWatchdog hz).recovery = s.recovery := by
  obtain ⟨_, _, frame⟩ := scheduleWatchdog_frame hz s
  rw [frame]

@[simp] theorem scheduleWatchdog_recovering : (s.scheduleWatchdog hz).recovering = s.recovering := by
  obtain ⟨_, _, frame⟩ := scheduleWatchdog_frame hz s
  rw [frame]

@[simp] theorem scheduleWatchdog_suppress :
    (s.scheduleWatchdog hz).vhci.portSuppressConnectMask = s.vhci.portSuppressConnectMask := by
  obtain ⟨_, _, frame⟩ := scheduleWatchdog_frame hz s
  rw [frame]

/-- What a caller does when its command returns. -/
inductive ReturnCase (s : VhciWork) (status : Int) : CmdCaller → VhciWork → Prop
  | watchdog (pc : WatchdogPc) : ReturnCase s status .watchdog { s with watchdog := some pc }
  | recovery (pc : RecoveryPc) (before : s.recovery.any RecoveryPc.recovers) (after : pc.recovers) :
    ReturnCase s status .recovery { s with recovery := some pc }
  | suspendFailed (at_ : s.bus = .controllerPause) (failed : status ≠ 0) :
    ReturnCase s status .bus { s with bus := .active }
  | suspend (at_ : s.bus = .controllerPause) : ReturnCase s status .bus { s with bus := .suppress }
  | resumeFailed (at_ : s.bus = .controllerStart) : ReturnCase s status .bus { s with bus := .startFailed }
  | resume (at_ : s.bus = .controllerStart) : ReturnCase s status .bus { s with bus := .resumePort 0 }
  | idle (caller : CmdCaller) : ReturnCase s status caller s

/-- What the result of a command does, by who has executed it. -/
theorem returned_cases (s : VhciWork) (status : Int) (caller : CmdCaller) :
    ReturnCase s status caller (s.returned status caller) := by
  cases caller with
  | watchdog => exact .watchdog _
  | recovery =>
    unfold returned
    dsimp only
    split
    · rename_i at_
      exact .recovery .controllerStart (by rw [at_]; rfl) rfl
    · rename_i at_
      refine .recovery _ (by rw [at_]; rfl) ?_
      split <;> rfl
    · exact .idle _
  | bus =>
    unfold returned
    dsimp only
    split
    · rename_i at_
      split
      · rename_i failed
        exact .suspendFailed at_ failed
      · exact .suspend at_
    · rename_i at_
      split
      · exact .resumeFailed at_
      · exact .resume at_
    · exact .idle _
  | other => exact .idle _

/-- What a step does. A step of the table operations keeps the flags of the work items, and so do the
rounds of the loops over the ports. -/
inductive Move (hz : Nat) (s : VhciWork) : WorkStep → VhciWork → Prop
  | tick (n : Nat) : Move hz s (.tick n) { s with jiffies := s.jiffies + BitVec.ofNat 64 n }
  | started (at_ : s.bus = .starting) : Move hz s .start { s.scheduleWatchdog hz with bus := .active }
  | notified : Move hz s .controllerResetNotify s.scheduleRecovery
  | table (a : VhciStep) (vhci : BceVhci) (same : s.vhci.SameWork vhci) : Move hz s (.table a) { s with vhci }
  | refused (caller : CmdCaller) (t : VhciWork) (dead : s.vhci.controllerDead)
      (goes : ReturnCase s Errno.nodev.neg caller t) : Move hz s (.execute caller) t
  | executed (caller : CmdCaller) : Move hz s (.execute caller) { s with cq := some (caller, false) }
  | timedOut (caller : CmdCaller) (t : VhciWork) (recovering : s.recovering)
      (goes : ReturnCase s Errno.timedout.neg caller t) : Move hz s .cancelTimedOut { t with cq := none }
  | desynced (caller : CmdCaller) : Move hz s .cancelTimedOut { s with cq := some (caller, true) }
  | desync (caller : CmdCaller) (t : VhciWork) (goes : ReturnCase s.scheduleRecovery Errno.timedout.neg caller t) :
    Move hz s .desync { t with cq := none }
  | replied (status : Int) (caller : CmdCaller) (t : VhciWork) (held : s.cq = some (caller, false))
      (goes : ReturnCase s status caller t) : Move hz s (.reply status) { t with cq := none }
  | watchdogBegins : Move hz s .watchdogBegins { s with
      vhci := { s.vhci with recoveryWatchdog := false }
      watchdog := some .begun }
  | watchdogGoes (pc : WatchdogPc) : Move hz s .watchdog { s with watchdog := some pc }
  | watchdogDead (dead : s.vhci.controllerDead) : Move hz s .watchdog { s with watchdog := none }
  | watchdogTimedOut : Move hz s .watchdog { s.scheduleRecovery with watchdog := none }
  | watchdogAgain : Move hz s .watchdog { s.scheduleWatchdog hz with watchdog := none }
  | recoveryBegins (idle : s.recovery = none) : Move hz s .recoveryBegins { s with
      vhci := { s.vhci with wRecovery := false }
      recovery := some .begun }
  | recoveryDead (at_ : s.recovery = some .begun) (dead : s.vhci.controllerDead) :
    Move hz s .recovery { s with recovery := none }
  | recoverySkipped (at_ : s.recovery = some .cooldown) (cooling : s.coolingDown hz) :
    Move hz s .recovery { s with recovery := none }
  | recoveryTwice (at_ : s.recovery = some .claim) (recovering : s.recovering) :
    Move hz s .recovery { s with recovery := none }
  | recoveryGoes (pc next : RecoveryPc) (vhci : BceVhci) (at_ : s.recovery = some pc)
      (same : s.vhci.SameWork vhci) (recovers : next.recovers = pc.recovers) :
    Move hz s .recovery { s with vhci, recovery := some next }
  | recoveryStarted (at_ : s.recovery = some .started) :
    Move hz s .recovery { s with recoveryFailCount := 0, recovery := some .signal }
  | recoveryFails (at_ : s.recovery = some .startFailed) : Move hz s .recovery s.recoveryFailed
  | recoveryClaims (at_ : s.recovery = some .claim) (free : s.recovering = false) : Move hz s .recovery { s with
      recovering := true
      lastRecoveryJiffies := s.jiffies
      recovery := some .cancelAll }
  | recoveryOut (at_ : s.recovery = some .out) :
    Move hz s .recovery { s with recovering := false, recovery := some .rearm }
  | recoveryEnds (at_ : s.recovery = some .rearm) (dead : s.vhci.controllerDead) :
    Move hz s .recovery { s with recovery := none }
  | recoveryRearms (at_ : s.recovery = some .rearm) :
    Move hz s .recovery { s.scheduleWatchdog hz with recovery := none }
  | busSuspend (at_ : s.bus = .active) : Move hz s .busSuspend { s with
      vhci := { s.vhci with recoveryWatchdog := false }
      bus := .cancelWatchdog }
  | suspendGoes (env : Nat → Nat → PauseEnv) (vhci : BceVhci) (next : BusPc)
      (suspending : s.bus.suspending) (same : s.vhci.SameWork vhci) (still : next.suspending) :
    Move hz s (.suspend env) { s with vhci, bus := next }
  | suppressed (env : Nat → Nat → PauseEnv) (at_ : s.bus = .suppress) : Move hz s (.suspend env) { s with
      vhci := { s.vhci with
        portSuppressConnectMask := (Finset.range 16).filter fun i => s.vhci.portToDevice i ≠ 0 }
      bus := .pauseQueues }
  | suspended (env : Nat → Nat → PauseEnv) (at_ : s.bus = .pauseQueues) :
    Move hz s (.suspend env) { s with bus := .suspended }
  | deferred (at_ : s.bus = .suspended) (recovering : s.recovering) :
    Move hz s .busResume { s with bus := .active }
  | busResume (at_ : s.bus = .suspended) : Move hz s .busResume { s with bus := .controllerStart }
  | resumedPort (env : BceVhci.ResumeEnv) (i j : Nat) (vhci : BceVhci) (at_ : s.bus = .resumePort i)
      (same : s.vhci.SameWork vhci) : Move hz s (.resume env) { s with vhci, bus := .resumePort j }
  | resumedPorts (env : BceVhci.ResumeEnv) (i : Nat) (at_ : s.bus = .resumePort i) :
    Move hz s (.resume env) { s with vhci := { s.vhci with portSuppressConnectMask := ∅ }, bus := .rearm }
  | resumed (env : BceVhci.ResumeEnv) (at_ : s.bus = .rearm) :
    Move hz s (.resume env) { s.scheduleWatchdog hz with bus := .active }
  | startFailed (env : BceVhci.ResumeEnv) (at_ : s.bus = .startFailed) : Move hz s (.resume env) { s with
      vhci := { s.vhci with portSuppressConnectMask := ∅, portReenumerateMask := ∅ }
      bus := .scheduleRecovery }
  | scheduled (env : BceVhci.ResumeEnv) (at_ : s.bus = .scheduleRecovery) :
    Move hz s (.resume env) { s.scheduleRecovery with bus := .active }

/-- Each step of the watchdog is one of its moves. -/
theorem watchdogStep_move (run : s.watchdogStep hz = some t) : Move hz s .watchdog t := by
  unfold watchdogStep at run
  split at run
  · cases run
    exact .watchdogGoes _
  · cases run
    split
    · rename_i dead
      exact .watchdogDead dead
    · exact .watchdogGoes .probe
  · cases run
    exact .watchdogTimedOut
  · cases run
    exact .watchdogAgain
  · cases run
  · cases run

/-- Each step of the recovery is one of its moves. -/
theorem recoveryStep_move (run : s.recoveryStep hz = some t) : Move hz s .recovery t := by
  unfold recoveryStep at run
  split at run
  · rename_i at_
    cases run
    split
    · rename_i dead
      exact .recoveryDead at_ dead
    · exact .recoveryGoes .begun .cooldown s.vhci at_ (.refl _) rfl
  · rename_i at_
    cases run
    split
    · rename_i cooling
      exact .recoverySkipped at_ cooling
    · exact .recoveryGoes .cooldown .claim s.vhci at_ (.refl _) rfl
  · rename_i at_
    split at run
    · rename_i recovering
      cases run
      exact .recoveryTwice at_ recovering
    · rename_i free
      cases run
      exact .recoveryClaims at_ (Bool.eq_false_iff.mpr free)
  · rename_i at_
    have same := BceVhci.sameWork_recoveryCancelAll s.vhci
    generalize s.vhci.recoveryCancelAll = vhci at run same
    cases run
    exact .recoveryGoes .cancelAll .controllerPause vhci at_ same rfl
  · rename_i at_
    cases run
    exact .recoveryStarted at_
  · rename_i at_
    cases run
    exact .recoveryFails at_
  · rename_i at_
    have same := BceVhci.sameWork_recoverySignal s.vhci
    generalize s.vhci.recoverySignal = vhci at run same
    cases run
    exact .recoveryGoes .signal .out vhci at_ same rfl
  · rename_i at_
    cases run
    exact .recoveryOut at_
  · rename_i at_
    cases run
    split
    · rename_i dead
      exact .recoveryEnds at_ dead
    · exact .recoveryRearms at_
  · cases run
  · cases run
  · cases run

theorem suspendStep_move {env : Nat → Nat → PauseEnv} (run : s.suspendStep env = some t) :
    Move hz s (.suspend env) t := by
  unfold suspendStep at run
  split at run
  · rename_i at_
    split at run
    · cases run
    · cases run
      exact .suspendGoes env _ (.suspendPort 0) (by rw [at_]; rfl) ⟨rfl, rfl, rfl, rfl⟩ rfl
  · rename_i i at_
    split at run
    · cases run
      exact .suspendGoes env _ (.suspendPort (i + 1)) (by rw [at_]; rfl) (BceVhci.sameWork_suspendPort env i _) rfl
    · cases run
      exact .suspendGoes env s.vhci .controllerPause (by rw [at_]; rfl) (.refl _) rfl
  · rename_i at_
    cases run
    exact .suppressed env at_
  · rename_i at_
    cases run
    exact .suspended env at_
  · cases run

theorem resumeStep_move {env : BceVhci.ResumeEnv} (run : s.resumeStep hz env = some t) :
    Move hz s (.resume env) t := by
  unfold resumeStep at run
  split at run
  · rename_i i at_
    split at run
    · cases run
      exact .resumedPort env i (i + 1) _ at_ (BceVhci.sameWork_resumePort _ _ _)
    · cases run
      exact .resumedPorts env i at_
  · rename_i at_
    cases run
    exact .resumed env at_
  · rename_i at_
    cases run
    exact .startFailed env at_
  · rename_i at_
    cases run
    exact .scheduled env at_
  · cases run

/-- Every step is one of the moves, whoever makes it. -/
theorem step_move (run : s.step hz a = some t) : Move hz s a t := by
  cases a with
  | tick n =>
    cases Option.some.inj run
    exact .tick n
  | start =>
    obtain ⟨at_, after⟩ := Option.ite_none_right_eq_some.mp run
    cases after
    exact .started at_
  | controllerResetNotify =>
    cases Option.some.inj run
    exact .notified
  | table a =>
    obtain ⟨elsewhere, mapped⟩ := Option.ite_none_right_eq_some.mp run
    obtain ⟨vhci, ran, rfl⟩ := Option.map_eq_some_iff.mp mapped
    exact .table a vhci (BceVhci.sameWork_step elsewhere ran)
  | execute caller =>
    obtain ⟨_, after⟩ := Option.ite_none_right_eq_some.mp run
    split at after
    · rename_i dead
      cases after
      exact .refused caller _ dead (s.returned_cases _ caller)
    · cases after
      exact .executed caller
  | cancelTimedOut =>
    simp only [step] at run
    split at run
    · rename_i caller _
      split at run
      · rename_i recovering
        cases run
        exact .timedOut caller _ recovering (s.returned_cases _ caller)
      · cases run
        exact .desynced caller
    · cases run
  | desync =>
    simp only [step] at run
    split at run
    · rename_i caller _
      cases run
      exact .desync caller _ (s.scheduleRecovery.returned_cases _ caller)
    · cases run
  | reply status =>
    simp only [step] at run
    split at run
    · rename_i caller held
      cases run
      exact .replied status caller _ held (s.returned_cases status caller)
    · cases run
  | watchdogBegins =>
    cases (Option.ite_none_right_eq_some.mp run).2
    exact .watchdogBegins
  | watchdog => exact watchdogStep_move run
  | recoveryBegins =>
    obtain ⟨⟨_, idle⟩, after⟩ := Option.ite_none_right_eq_some.mp run
    cases after
    exact .recoveryBegins (Option.isNone_iff_eq_none.mp idle)
  | recovery => exact recoveryStep_move run
  | busSuspend =>
    obtain ⟨at_, after⟩ := Option.ite_none_right_eq_some.mp run
    cases after
    exact .busSuspend at_
  | suspend env => exact suspendStep_move run
  | busResume =>
    obtain ⟨at_, after⟩ := Option.ite_none_right_eq_some.mp run
    cases after
    split
    · rename_i recovering
      exact .deferred at_ recovering
    · exact .busResume at_
  | resume env => exact resumeStep_move run

end VhciWork

end AppleBce

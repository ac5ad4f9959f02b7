import AppleBce.Vhci.MapRuns

namespace AppleBce

open Basis

/-- The index is one of the table, or the id one that the tables have room for. -/
def TableUse.InTable : TableUse → Prop
  | .portToDevice port | .portResumeSkipReset port | .portPowerMask port => port < 16
  | .devices devid | .stored devid => devid ≤ 15

theorem portCountLoop_le {n k : Nat} {mask : BitVec 16} (short : mask >>> k = 0) : portCountLoop n mask ≤ k := by
  induction n generalizing mask k with
  | zero => exact k.zero_le
  | succ n ih =>
    unfold portCountLoop
    split
    · exact k.zero_le
    · rename_i nonzero
      cases k with
      | zero => exact absurd short nonzero
      | succ k =>
        refine Nat.succ_le_succ (ih ?_)
        rwa [Nat.add_comm, BitVec.shiftRight_add] at short

/-- The mask of the ports leaves a port for each index of the tables. -/
def SmallMask (mask : BitVec 16) : Prop :=
  mask.getLsbD 15 = false

theorem SmallMask.portCount {mask : BitVec 16} (small : SmallMask mask) : portCountLoop 16 mask ≤ 15 := by
  apply portCountLoop_le
  apply BitVec.eq_of_getLsbD_eq
  intro i _
  rw [BitVec.getLsbD_ushiftRight]
  cases i with
  | zero => exact small
  | succ i =>
    rw [BitVec.getLsbD_of_ge _ _ (by omega)]
    exact (BitVec.getLsbD_zero ..).symm

namespace BceVhci

variable {v w : BceVhci} {dev vdev : VhciDevice} {mask : BitVec 16} {p devid : Nat}

/-- The indices used and the ids stored so far are in the tables, and id 0 means no device. -/
structure Bounds (v : BceVhci) : Prop where
  uses : ∀ used ∈ v.uses, used.InTable
  ids : ∀ p, v.portToDevice p ≤ 15
  null : v.devices 0 = none

/-- The driver with this mask of ports keeps to the bounds if the mask is small. -/
structure Bounded (v : BceVhci) (mask : BitVec 16) : Prop where
  portMask : v.portMask = mask
  portCount : v.portCount = portCountLoop 16 mask
  bounds : SmallMask mask → v.Bounds

theorem Bounded.port (bounded : v.Bounded mask) (below : p ≤ v.portCount) (small : SmallMask mask) : p < 16 := by
  rw [bounded.portCount] at below
  have most := small.portCount
  omega

theorem Bounded.id (bounded : v.Bounded mask) (p : Nat) (small : SmallMask mask) : v.portToDevice p ≤ 15 :=
  (bounded.bounds small).ids p

theorem Bounded.ne_zero (bounded : v.Bounded mask) (found : v.devices devid = some dev) (small : SmallMask mask) :
    devid ≠ 0 := by
  rintro rfl
  cases (bounded.bounds small).null.symm.trans found

/-- Neither the tables nor what was used of them change. -/
theorem Bounded.of_same (bounded : v.Bounded mask) (portMask : w.portMask = v.portMask)
    (portCount : w.portCount = v.portCount) (uses : w.uses = v.uses) (ports : w.portToDevice = v.portToDevice)
    (devices : w.devices = v.devices) : w.Bounded mask where
  portMask := portMask.trans bounded.portMask
  portCount := portCount.trans bounded.portCount
  bounds := fun small => by
    obtain ⟨used, ids, null⟩ := bounded.bounds small
    exact ⟨uses ▸ used, ports ▸ ids, devices ▸ null⟩

theorem Bounded.use (bounded : v.Bounded mask) (used : TableUse) (inTable : SmallMask mask → used.InTable) :
    (v.use used).Bounded mask where
  portMask := bounded.portMask
  portCount := bounded.portCount
  bounds := fun small => by
    obtain ⟨before, ids, null⟩ := bounded.bounds small
    refine ⟨?_, ids, null⟩
    intro u member
    rcases List.mem_append.mp member with old | new
    · exact before u old
    · rw [List.mem_singleton.mp new]
      exact inTable small

theorem Bounded.setPort (bounded : v.Bounded mask) (port : SmallMask mask → p < 16)
    (id : SmallMask mask → devid ≤ 15) : (v.setPort p devid).Bounded mask where
  portMask := bounded.portMask
  portCount := bounded.portCount
  bounds := fun small => by
    obtain ⟨before, ids, null⟩ := bounded.bounds small
    refine ⟨?_, ?_, null⟩
    · intro u member
      rcases List.mem_append.mp member with old | new
      · exact before u old
      · rcases List.mem_pair.mp new with rfl | rfl
        · exact port small
        · exact id small
    · intro q
      by_cases same : q = p
      · rw [same, setPort_portToDevice, Function.update_self]
        exact id small
      · rw [setPort_portToDevice, Function.update_of_ne same]
        exact ids q

theorem Bounded.setDevice (bounded : v.Bounded mask) (now : Option VhciDevice)
    (id : SmallMask mask → devid ≤ 15) (device : SmallMask mask → devid = 0 → now = none) :
    (v.setDevice devid now).Bounded mask where
  portMask := bounded.portMask
  portCount := bounded.portCount
  bounds := fun small => by
    obtain ⟨before, ids, null⟩ := bounded.bounds small
    refine ⟨?_, ids, ?_⟩
    · intro u member
      rcases List.mem_append.mp member with old | new
      · exact before u old
      · rw [List.mem_singleton.mp new]
        exact id small
    · by_cases zero : 0 = devid
      · rw [setDevice_devices, ← zero, Function.update_self]
        exact device small zero.symm
      · rw [setDevice_devices, Function.update_of_ne zero]
        exact null

/-- Loops over the queues of a device that change nothing of the tables but pointers. -/
theorem Bounded.of_frame (bounded : v.Bounded mask) (frame : ∃ hcpriv, w = { v with hcpriv }) :
    w.Bounded mask := by
  obtain ⟨hcpriv, rfl⟩ := frame
  exact bounded.of_same rfl rfl rfl rfl rfl

/-- A device that the tables have already is put back. -/
theorem Bounded.putDevice (bounded : v.Bounded mask) (found : v.devices devid = some dev)
    (id : SmallMask mask → devid ≤ 15) : (v.setDevice devid (some vdev)).Bounded mask :=
  bounded.setDevice _ id fun small zero => absurd zero (bounded.ne_zero found small)

/-- The T2 fails the command, or creates a device under an id the tables have room for. -/
def DeviceCreateReply.InRange (reply : DeviceCreateReply) : Prop :=
  reply.status = 0 → 1 ≤ reply.dev.toNat ∧ reply.dev.toNat ≤ 15

instance (reply : DeviceCreateReply) : Decidable reply.InRange :=
  inferInstanceAs (Decidable (_ → _))

theorem Bounded.attachDevice {udev : UsbDevice} (bounded : v.Bounded mask)
    (port : SmallMask mask → udev.portnum < 16)
    (id : devid ≤ 15) (nonzero : devid ≠ 0) (env : EnableEnv) : (v.attachDevice udev devid env).2.Bounded mask := by
  unfold BceVhci.attachDevice
  dsimp only
  have mapped : (v.kzalloc.setPort udev.portnum devid).Bounded mask :=
    Bounded.setPort (v := v.kzalloc) (bounded.of_same rfl rfl rfl rfl rfl) port fun _ => id
  split
  · have undone := (mapped.setDevice none (fun _ => id) fun _ _ => rfl).setPort port fun _ => Nat.zero_le _
    exact undone.of_same rfl rfl rfl rfl rfl
  · refine Bounded.setDevice ?_ _ (fun _ => id) fun _ zero => absurd zero nonzero
    exact mapped.of_same rfl rfl rfl rfl rfl

theorem Bounded.enableDevice {udev : UsbDevice} (bounded : v.Bounded mask) (onHub : v.OnHub udev) (env : EnableEnv)
    (reply : env.create.status = 0 → env.allocated → env.create.dev ≠ 0) :
    (v.enableDevice udev env).2.Bounded mask := by
  have port := bounded.port onHub.2
  have looked : (v.use (.portToDevice udev.portnum)).Bounded mask := bounded.use _ port
  unfold BceVhci.enableDevice
  dsimp only
  split
  · exact looked
  split
  · exact looked
  rename_i ok
  split
  · exact looked.of_same rfl rfl rfl rfl rfl
  rename_i range
  split
  · exact looked.of_same rfl rfl rfl rfl rfl
  · rename_i allocated
    have created : ((v.use (.portToDevice udev.portnum)).deviceCreate env.create.dev.toNat).Bounded mask :=
      looked.of_same rfl rfl rfl rfl rfl
    refine created.attachDevice port (by omega) ?_ env
    intro zero
    exact reply (not_ne_iff.mp ok) (not_not.mp allocated) (BitVec.eq_of_toNat_eq zero)

theorem Bounded.signalReconnect (bounded : v.Bounded mask) (p : Nat) : (v.signalReconnect p).Bounded mask := by
  unfold BceVhci.signalReconnect
  split
  · exact bounded.of_same rfl rfl rfl rfl rfl
  · exact bounded

theorem Bounded.freeDevice {udev : UsbDevice} (bounded : v.Bounded mask) (onHub : v.OnHub udev) (released : Bool) :
    (v.freeDevice udev released).Bounded mask := by
  have port := bounded.port onHub.2
  have id := bounded.id udev.portnum
  have looked : (v.use (.portToDevice udev.portnum)).Bounded mask := bounded.use _ port
  unfold BceVhci.freeDevice
  dsimp only
  split
  · exact looked.signalReconnect _
  have looked := looked.use (.devices (v.portToDevice udev.portnum)) id
  split
  · exact looked
  · rename_i dev _
    refine Bounded.signalReconnect ?_ _
    unfold BceVhci.freeMapped
    dsimp only
    have unmapped := (looked.setDevice none id fun _ _ => rfl).setPort port fun _ => Nat.zero_le 15
    simp only [use_portToDevice]
    generalize BceVhci.setPort _ udev.portnum 0 = w at unmapped ⊢
    have torn : (w.tearDownQueues dev).1.Bounded mask := unmapped.of_frame (tearDownQueues_tornDown w dev).frame
    generalize w.tearDownQueues dev = s at torn ⊢
    exact torn.of_same rfl rfl rfl rfl rfl

theorem Bounded.resetMapped (bounded : v.Bounded mask) (port : SmallMask mask → p < 16)
    (id : SmallMask mask → devid ≤ 15) (env : ResetEnv) (reply : env.create.InRange) :
    (v.resetMapped p devid dev env).2.Bounded mask := by
  unfold BceVhci.resetMapped
  dsimp only
  have torn : (v.tearDownQueues dev).1.Bounded mask := bounded.of_frame (tearDownQueues_tornDown v dev).frame
  have unmapped := (torn.setDevice none id fun _ _ => rfl).setPort port fun _ => Nat.zero_le 15
  generalize ((v.tearDownQueues dev).1.setDevice devid none).setPort p 0 = w at unmapped ⊢
  split
  · exact unmapped.of_same rfl rfl rfl rfl rfl
  · rename_i ok
    obtain ⟨low, high⟩ := reply (not_ne_iff.mp ok)
    refine Bounded.setDevice (Bounded.of_frame ?_ (recreate_frame _ _ _ _)) _ (fun _ => high) fun _ zero => by omega
    refine Bounded.setPort ?_ port fun _ => high
    exact unmapped.of_same rfl rfl rfl rfl rfl

theorem Bounded.resetDevice (bounded : v.Bounded mask) (below : p ≤ v.portCount) (env : ResetEnv)
    (reply : env.create.InRange) : (v.resetDevice p env).2.Bounded mask := by
  have port := bounded.port below
  have id := bounded.id p
  have looked : (v.use (.portResumeSkipReset p)).Bounded mask := bounded.use _ port
  unfold BceVhci.resetDevice
  dsimp only
  split
  · exact looked.of_same rfl rfl rfl rfl rfl
  have looked := looked.use (.portToDevice p) port
  split
  · exact looked
  have looked := looked.use (.devices (v.portToDevice p)) id
  split
  · exact looked
  · exact looked.resetMapped port id env reply

theorem Bounded.addEndpoint {endp : UsbHostEndpoint} (bounded : v.Bounded mask)
    (below : endp.udev.portnum ≤ v.portCount) (queue : QueueEnv) (create : Int) :
    (v.addEndpoint endp queue create).2.Bounded mask := by
  have id := bounded.id endp.udev.portnum
  have looked := (bounded.use (.portToDevice endp.udev.portnum) (bounded.port below)).use
    (.devices (v.portToDevice endp.udev.portnum)) id
  unfold BceVhci.addEndpoint
  dsimp only
  simp only [use_portToDevice]
  split
  · exact looked
  split
  · exact looked
  rename_i vdev found
  have pointed : ∀ pointer, (((v.use (.portToDevice endp.udev.portnum)).use
      (.devices (v.portToDevice endp.udev.portnum))).setHcpriv endp pointer).Bounded mask :=
    fun _ => looked.of_same rfl rfl rfl rfl rfl
  split
  · exact pointed _
  generalize vdev.createQueue endp.index endp _ _ queue = created
  split
  · exact looked.putDevice found id
  split
  · exact (pointed none).putDevice found id
  · exact (pointed _).putDevice found id

theorem Bounded.destroyAt (bounded : v.Bounded mask) (object j : Nat) : (v.destroyAt object j).Bounded mask where
  portMask := bounded.portMask
  portCount := bounded.portCount
  bounds := fun small => by
    obtain ⟨used, ids, null⟩ := bounded.bounds small
    refine ⟨used, ids, ?_⟩
    show (v.devices 0).map _ = none
    rw [null, Option.map_none]

theorem Bounded.dropEndpoint {endp : UsbHostEndpoint} (bounded : v.Bounded mask)
    (below : endp.udev.portnum ≤ v.portCount) : (v.dropEndpoint endp).Bounded mask := by
  have id := bounded.id endp.udev.portnum
  have looked := bounded.use (.portToDevice endp.udev.portnum) (bounded.port below)
  unfold BceVhci.dropEndpoint
  dsimp only
  simp only [use_portToDevice]
  split
  · exact looked.of_same rfl rfl rfl rfl rfl
  have looked := looked.use (.devices (v.portToDevice endp.udev.portnum)) id
  split
  · exact looked.of_same rfl rfl rfl rfl rfl
  rename_i vdev found
  have dropped : ∀ object j, (((((v.use (.portToDevice endp.udev.portnum)).use
      (.devices (v.portToDevice endp.udev.portnum))).setDevice (v.portToDevice endp.udev.portnum)
        (some (vdev.setMask (vdev.tqMask &&& ~~~tqBit endp.index)))).destroyAt object
          j).setHcpriv endp none).Bounded
          mask := by
    intro object j
    exact ((looked.putDevice found id).destroyAt object j).of_same rfl rfl rfl rfl rfl
  split
  · split
    · exact dropped _ _
    · exact looked
  · exact dropped _ _

theorem Bounded.recoveryCancelPort (bounded : v.Bounded mask) (port : p < 16) :
    (v.recoveryCancelPort p).Bounded mask := by
  have id := bounded.id p
  have looked := bounded.use (.portToDevice p) fun _ => port
  unfold BceVhci.recoveryCancelPort
  dsimp only
  simp only [use_portToDevice]
  split
  · exact looked
  have looked := looked.use (.devices (v.portToDevice p)) id
  split
  · exact looked
  · rename_i vdev found
    generalize (v.use _).use _ = w at looked found ⊢
    obtain ⟨hcpriv, frame⟩ := (cancelQueues_cancelled w vdev).frame
    have kept : (forLoop 32 cancelQueue (w, vdev)).1.devices (v.portToDevice p) = some vdev := by
      rw [frame]
      exact found
    exact (looked.of_frame ⟨hcpriv, frame⟩).putDevice kept id

theorem Bounded.suspendPort (bounded : v.Bounded mask) (port : p < 16) (env : Nat → Nat → PauseEnv) :
    (suspendPort env p v).Bounded mask := by
  have id := bounded.id p
  have looked := bounded.use (.portToDevice p) fun _ => port
  unfold BceVhci.suspendPort
  dsimp only
  simp only [use_portToDevice]
  split
  · exact looked
  have looked := looked.use (.devices (v.portToDevice p)) id
  split
  · exact looked
  · rename_i vdev found
    exact looked.putDevice found id

theorem Bounded.busSuspend (bounded : v.Bounded mask) (env : SuspendEnv) : (v.busSuspend env).2.Bounded mask := by
  unfold BceVhci.busSuspend
  dsimp only
  have before : { v with
      recoveryWatchdog := false
      portResumeSkipReset := fun _ => 0
      portResumeMask := ∅
      portReenumerateMask := ∅ }.Bounded mask :=
    bounded.of_same rfl rfl rfl rfl rfl
  have looped := forLoop_keeps (P := (Bounded · mask)) (f := BceVhci.suspendPort env.setState) (n := 16) before
    fun i _ port bounded => bounded.suspendPort port env.setState
  generalize forLoop 16 (BceVhci.suspendPort env.setState) _ = w at looped ⊢
  split
  · exact looped
  · exact looped.of_same rfl rfl rfl rfl rfl

theorem Bounded.refreshed {torn : VhciDevice} {ep0 : Option UsbHostEndpoint} {env : ResumeEnv}
    (bounded : v.Bounded mask) (port : p < 16) (reply : env.create.InRange)
    (refresh : RefreshCase v torn p ep0 env w) : w.Bounded mask := by
  have created : env.create.status = 0 → ((v.deviceCreate env.create.dev.toNat).setPort p
      env.create.dev.toNat).Bounded mask := by
    intro ok
    refine Bounded.setPort ?_ (fun _ => port) fun _ => (reply ok).2
    exact bounded.of_same rfl rfl rfl rfl rfl
  have nonzero : ∀ {now : Option VhciDevice}, env.create.status = 0 → SmallMask mask →
      env.create.dev.toNat = 0 → now = none := by
    intro _ ok _ zero
    have low := (reply ok).1
    omega
  cases refresh with
  | gaveUp => exact bounded.of_same rfl rfl rfl rfl rfl
  | faulted ok _ => exact (created ok).setDevice _ (fun _ => (reply ok).2) (nonzero ok)
  | undone ok _ =>
    have undone := ((created ok).setDevice none (fun _ => (reply ok).2) fun _ _ => rfl).setPort (fun _ => port)
      fun _ => Nat.zero_le 15
    exact undone.of_same rfl rfl rfl rfl rfl
  | refreshed ok e q _ _ =>
    have pointed : (((v.deviceCreate env.create.dev.toNat).setPort p env.create.dev.toNat).setHcpriv e
        (some (torn.object, 0))).Bounded mask :=
      (created ok).of_same rfl rfl rfl rfl rfl
    have stored := pointed.setDevice (some ((torn.setQueue 0 ⟨some e, some q⟩).setMask (tqBit 0)))
      (fun _ => (reply ok).2) (nonzero ok)
    refine Bounded.use ?_ _ fun _ => port
    exact stored.of_same rfl rfl rfl rfl rfl

theorem Bounded.refreshPort (bounded : v.Bounded mask) (port : p < 16) (id : SmallMask mask → devid ≤ 15)
    (env : ResumeEnv) (reply : env.create.InRange) : (v.refreshPort p devid dev env).Bounded mask := by
  refine Bounded.refreshed ?_ port reply (v.refreshPort_cases p devid dev env)
  unfold refreshTorn
  dsimp only
  have torn := bounded.of_frame (refresh_tornDown v dev).frame
  exact ((torn.setDevice none id fun _ _ => rfl).setPort (fun _ => port) fun _ => Nat.zero_le 15).of_same
    rfl rfl rfl rfl rfl

theorem Bounded.resumePort (bounded : v.Bounded mask) (port : p < 16) (env : ResumeEnv)
    (reply : env.create.InRange) : (v.resumePort p env).Bounded mask := by
  have id := bounded.id p
  have looked := bounded.use (.portToDevice p) fun _ => port
  unfold BceVhci.resumePort
  dsimp only
  simp only [use_portToDevice]
  split
  · exact looked
  have looked := looked.use (.devices (v.portToDevice p)) id
  generalize (v.use _).use _ = w at looked ⊢
  split
  · exact looked
  rename_i vdev found
  split
  · exact looked.of_same rfl rfl rfl rfl rfl
  split
  · exact looked.of_same rfl rfl rfl rfl rfl
  split
  · split
    · exact looked.putDevice found id
    · exact (looked.putDevice found id).refreshPort port id env reply
  · exact looked.refreshPort port id env reply

theorem Bounded.busResume (bounded : v.Bounded mask) (env : BusResumeEnv)
    (replies : ∀ i < 16, (env.port i).create.InRange) : (v.busResume env).Bounded mask := by
  unfold BceVhci.busResume
  split
  · exact bounded
  split
  · exact bounded.of_same rfl rfl rfl rfl rfl
  · have looped := forLoop_keeps (P := (Bounded · mask)) (n := 16) (f := fun i v => v.resumePort i (env.port i))
      bounded fun i _ port bounded => bounded.resumePort port (env.port i) (replies i port)
    generalize forLoop 16 _ v = w at looped ⊢
    exact looped.of_same rfl rfl rfl rfl rfl

theorem Bounded.recoverySignal (bounded : v.Bounded mask) : v.recoverySignal.Bounded mask := by
  refine forLoop_keeps (P := (Bounded · mask)) bounded fun i w port bounded => ?_
  have looked := bounded.use (.portToDevice i) fun _ => port
  split
  · exact looked
  · exact looked.of_same rfl rfl rfl rfl rfl

theorem Bounded.portStatusChange (bounded : v.Bounded mask) (param1 : BitVec 32) :
    (v.portStatusChange param1).Bounded mask := by
  unfold BceVhci.portStatusChange
  dsimp only
  split
  · exact bounded
  split
  · exact bounded
  · exact bounded.of_same rfl rfl rfl rfl rfl

theorem Bounded.queueEvent (bounded : v.Bounded mask) (param1 : BitVec 32) (after : BceVhciTransferQueue) :
    (v.queueEvent param1 after).Bounded mask := by
  unfold BceVhci.queueEvent
  dsimp only
  split
  · exact bounded
  rename_i range
  have id : SmallMask mask → (param1.setWidth 8).toNat ≤ 15 := fun _ => by omega
  have looked := bounded.use (.devices (param1.setWidth 8).toNat) id
  split
  · exact looked
  rename_i dev found
  split
  · exact looked.putDevice found id
  · exact looked

theorem Bounded.hubControl {request : HubRequest} {wIndex wLength : Nat} {env : HubEnv} (bounded : v.Bounded mask)
    (reply : request = .setPortFeature .reset → env.reset.create.InRange) :
    (v.hubControl request wIndex wLength env).2.2.Bounded mask := by
  unfold BceVhci.hubControl
  dsimp only
  split
  · exact bounded
  rename_i accepted
  have port : request.onPort → SmallMask mask → wIndex < 16 := fun onPort => bounded.port (by
    by_contra above
    exact accepted ⟨onPort, .inr (by omega)⟩)
  split
  · split <;> exact bounded
  · split <;> exact bounded
  · split
    · exact bounded.use _ (port rfl)
    · exact bounded
  · dsimp only
    split
    · refine Bounded.use ?_ _ (port rfl)
      exact bounded.of_same rfl rfl rfl rfl rfl
    · exact bounded
  · have below : wIndex ≤ v.portCount := by
      by_contra above
      exact accepted ⟨rfl, .inr (by omega)⟩
    exact bounded.resetDevice below env.reset (reply rfl)
  · exact bounded
  · exact bounded
  · dsimp only
    split
    · refine Bounded.use ?_ _ (port rfl)
      exact bounded.of_same rfl rfl rfl rfl rfl
    · exact bounded
  · exact bounded.of_same rfl rfl rfl rfl rfl
  · exact bounded
  · exact bounded
  · exact bounded

/-- The T2 answers `DEVICE_CREATE` with an id the driver can store: the answer for a new device is
checked but for 0, and those for a reset and a refresh are not. -/
def RepliesInRange : VhciStep → Prop
  | .hubControl request _ _ env => request = .setPortFeature .reset → env.reset.create.InRange
  | .enableDevice _ env => env.create.status = 0 → env.allocated → env.create.dev ≠ 0
  | .busResume env => ∀ i < 16, (env.port i).create.InRange
  | .resumePort _ env => env.create.InRange
  | _ => True

instance (a : VhciStep) : Decidable (RepliesInRange a) := by
  unfold RepliesInRange
  split <;> infer_instance

theorem Bounded.step {a : VhciStep} (bounded : v.Bounded mask) (replies : RepliesInRange a)
    (run : v.step a = some w) : w.Bounded mask := by
  cases a with
  | hubControl request wIndex wLength env =>
    cases Option.some.inj run
    exact bounded.hubControl replies
  | enableDevice udev env =>
    obtain ⟨onHub, after⟩ := Option.ite_none_right_eq_some.mp run
    cases after
    exact bounded.enableDevice onHub env replies
  | freeDevice udev released =>
    obtain ⟨onHub, after⟩ := Option.ite_none_right_eq_some.mp run
    cases after
    exact bounded.freeDevice onHub released
  | addEndpoint endp queue create =>
    obtain ⟨onHub, after⟩ := Option.ite_none_right_eq_some.mp run
    cases after
    exact bounded.addEndpoint (onHub.elim (fun onHub => onHub.2) fun root => by omega) queue create
  | dropEndpoint endp =>
    obtain ⟨onHub, after⟩ := Option.ite_none_right_eq_some.mp run
    cases after
    exact bounded.dropEndpoint (onHub.elim (fun onHub => onHub.2) fun root => by omega)
  | busSuspend env =>
    cases Option.some.inj run
    exact bounded.busSuspend env
  | busResume env =>
    cases Option.some.inj run
    exact bounded.busResume env replies
  | resumePort i env =>
    obtain ⟨port, after⟩ := Option.ite_none_right_eq_some.mp run
    cases after
    exact bounded.resumePort port env replies
  | recoveryCancelAll =>
    cases Option.some.inj run
    exact forLoop_keeps (P := (Bounded · mask)) bounded fun i _ port bounded => bounded.recoveryCancelPort port
  | recoverySignal =>
    cases Option.some.inj run
    exact bounded.recoverySignal
  | portStatusChange param1 =>
    cases Option.some.inj run
    exact bounded.portStatusChange param1
  | queueEvent param1 after =>
    cases Option.some.inj run
    exact bounded.queueEvent param1 after

theorem bounded_of_reach (reach : machine.ReachableUnder (fun _ a => RepliesInRange a) v) :
    v.Bounded v.portMask := by
  have some_mask : ∃ mask, v.Bounded mask := by
    refine reach.invariant (I := fun v => ∃ mask, v.Bounded mask) ?_ ?_
    · rintro _ ⟨mask, rfl⟩
      exact ⟨mask, rfl, rfl, fun _ => ⟨nofun, fun _ => Nat.zero_le 15, rfl⟩⟩
    · rintro v a w ⟨mask, bounded⟩ replies run
      exact ⟨mask, bounded.step replies run⟩
  obtain ⟨mask, bounded⟩ := some_mask
  rw [bounded.portMask]
  exact bounded

/-- A port has a bit of its own in `port_power_mask`. -/
structure OwnPowerBit (v : BceVhci) (p : Nat) : Prop where
  set : (v.setPortPower p).portPowerMask.getLsbD p
  clear : (v.clearPortPower p).portPowerMask.getLsbD p = false
  others : ∀ q, q ≠ p → (v.setPortPower p).portPowerMask.getLsbD q = v.portPowerMask.getLsbD q ∧
    (v.clearPortPower p).portPowerMask.getLsbD q = v.portPowerMask.getLsbD q

theorem ownPowerBit (v : BceVhci) (port : p < 16) : v.OwnPowerBit p := by
  have set : ∀ q, (v.setPortPower p).portPowerMask.getLsbD q =
      (v.portPowerMask.getLsbD q || decide (q < 16) && (decide (p < 64) && decide (p = q))) := by
    intro q
    show (v.portPowerMask ||| (BitVec.twoPow 64 p).setWidth 16).getLsbD q = _
    rw [BitVec.getLsbD_or, BitVec.getLsbD_setWidth, BitVec.getLsbD_twoPow]
  have clear : ∀ q, (v.clearPortPower p).portPowerMask.getLsbD q =
      (v.portPowerMask.getLsbD q && (decide (q < 16) && !(decide (p < 64) && decide (p = q)))) := by
    intro q
    show (v.portPowerMask &&& (~~~BitVec.twoPow 64 p).setWidth 16).getLsbD q = _
    rw [BitVec.getLsbD_and, BitVec.getLsbD_setWidth, BitVec.getLsbD_not, BitVec.getLsbD_twoPow]
    by_cases width : q < 64 <;> grind
  refine ⟨?_, ?_, fun q apart => ⟨?_, ?_⟩⟩
  · rw [set]
    simp [port, Nat.lt_trans port (show 16 < 64 by decide)]
  · rw [clear]
    simp [Nat.lt_trans port (show 16 < 64 by decide)]
  · rw [set]
    simp [apart.symm]
  · rw [clear]
    by_cases width : q < 16
    · simp [apart.symm, width]
    · simp [BitVec.getLsbD_of_ge v.portPowerMask q (by omega)]

/-- With a mask that leaves out port 16, and as long as the T2 answers with ids that the driver can
store, no index leaves its table, id 0 means no device, and every port that is accepted has a power
bit. -/
theorem tables_in_bounds (reach : machine.ReachableUnder (fun _ a => RepliesInRange a) v)
    (small : v.portMask.getLsbD 15 = false) :
    v.Bounds ∧ ∀ p, 1 ≤ p → p ≤ v.portCount → v.OwnPowerBit p := by
  have bounded := bounded_of_reach reach
  exact ⟨bounded.bounds small, fun p _ below => v.ownPowerBit (bounded.port below small)⟩

/-- The T2 carries out the command of a hub request, and creates a device under this id. -/
def replies (devid : BitVec 8) : HubEnv :=
  ⟨0xffff, 0, 0, ⟨true, 0, ⟨0, devid⟩, fun _ => .plenty⟩⟩

/-- A device is powered, created under id 15, and created again under id 3 by a reset. -/
theorem tables_in_bounds_reset : ∃ v, machine.ReachableUnder (fun _ a => RepliesInRange a) v ∧
    v.portToDevice 1 = 3 ∧ v.Bounds ∧ ∀ p, 1 ≤ p → p ≤ v.portCount → v.OwnPowerBit p := by
  have ran : (ranUnder (fun _ a => RepliesInRange a) 0x7fff [.hubControl (.setPortFeature .power) 1 0 (replies 0),
      .enableDevice sampleDevice (.created 15), .hubControl (.setPortFeature .reset) 1 0 (replies 3)]).map
      (fun v => (v.portToDevice 1, v.portMask)) = some (3, 0x7fff) := by
    decide +kernel
  obtain ⟨v, reach, seen⟩ := reachableUnder_of_ran ran
  simp only [Prod.mk.injEq] at seen
  refine ⟨v, reach, seen.1, tables_in_bounds reach ?_⟩
  rw [seen.2]
  rfl

/-- The T2 creates the device again under id 16, which `bce_vhci_reset_device` stores unchecked. -/
theorem reset_id_out_of_bounds : ¬∀ v, machine.Reachable v →
    v.Bounds ∧ ∀ p, 1 ≤ p → p ≤ v.portCount → v.OwnPowerBit p := by
  intro fits
  have ran : (ranUnder (fun _ _ => True) 3 [.enableDevice sampleDevice (.created 1),
      .hubControl (.setPortFeature .reset) 1 0 (replies 16)]).map (fun v => v.portToDevice 1) = some 16 := by
    decide +kernel
  obtain ⟨v, reach, seen⟩ := reachableUnder_of_ran ran
  have stored := (fits v reach).1.ids 1
  rw [seen] at stored
  omega

end BceVhci

end AppleBce

import AppleBce.Vhci.BusSuspend

namespace AppleBce

open Basis

namespace BceVhciTransferQueue

variable {q : BceVhciTransferQueue} {src : BceVhciPauseSource}

theorem clearPaused_pausedFor (q : BceVhciTransferQueue) (src : BceVhciPauseSource) :
    (q.clearPaused src).pausedFor src = false := by
  rw [pausedFor, clearPaused, BitVec.and_assoc, BitVec.and_comm (~~~src.bit), BitVec.and_not_self]
  simp

/-- A resume that succeeds leaves no pause by its source. -/
theorem transferQueueResume_pausedFor {env : PauseEnv} (ok : (q.transferQueueResume src env).1 = 0) :
    (q.transferQueueResume src env).2.pausedFor src = false := by
  unfold transferQueueResume at ok ⊢
  by_cases held : q.pausedFor src
  · rw [if_neg (not_not.mpr held)] at ok ⊢
    by_cases others : q.pausedBy &&& ~~~src.bit ≠ 0
    · rw [if_pos others]
      exact q.clearPaused_pausedFor src
    · rw [if_neg others] at ok ⊢
      split at ok
      · rename_i resumed found
        exact resumed.clearPaused_pausedFor src
      · rename_i status resumed failed found
        exact absurd ok failed
  · rw [if_pos held]
    exact Bool.eq_false_iff.mpr held

end BceVhciTransferQueue

namespace VhciDevice

variable {dev vdev : VhciDevice} {env : Nat → PauseEnv}

/-- No queue in `tq_mask` is paused by a suspend of the bus. -/
def Awake (dev : VhciDevice) : Prop :=
  ∀ j q, dev.hasQueue j → (dev.tq j).queue = some q → q.pausedFor .suspend = false

/-- What a queue is paused by once the loop over the queues has got through. -/
theorem resumeQueues_awake {js : List Nat} (ok : (dev.resumeQueues env js).1) {j : Nat} (has : dev.hasQueue j)
    (todo : j ∉ js → ∀ q, (dev.tq j).queue = some q → q.pausedFor .suspend = false) :
    ∀ q, ((dev.resumeQueues env js).2.tq j).queue = some q → q.pausedFor .suspend = false := by
  induction js generalizing dev with
  | nil => exact todo List.not_mem_nil
  | cons k js ih =>
    unfold resumeQueues at ok ⊢
    by_cases hasK : dev.hasQueue k
    · rw [if_pos hasK] at ok ⊢
      split at ok
      · rename_i none
        refine ih ok has fun done q found => ?_
        by_cases same : j = k
        · rw [same, none] at found
          cases found
        · exact todo (fun member => (List.mem_cons.mp member).elim same done) q found
      · rename_i q here
        dsimp only at ok ⊢
        split at ok
        · cases ok
        · rename_i resumed
          rw [if_neg resumed]
          have awake := BceVhciTransferQueue.transferQueueResume_pausedFor (not_ne_iff.mp resumed)
          refine ih ok has fun done q' found => ?_
          by_cases same : j = k
          · rw [same, setQueue_self] at found
            cases found
            exact awake
          · rw [setQueue_other _ _ same] at found
            exact todo (fun member => (List.mem_cons.mp member).elim same done) q' found
    · rw [if_neg hasK] at ok ⊢
      have apart : j ≠ k := fun same => hasK (same ▸ has)
      exact ih ok has fun done => todo fun member => (List.mem_cons.mp member).elim apart done

theorem resumeQueues_all_awake (ok : (dev.resumeQueues env (List.range 32)).1) :
    (dev.resumeQueues env (List.range 32)).2.Awake := by
  intro j q has
  rw [(alike_resumeQueues env (List.range 32) dev).hasQueue] at has
  exact resumeQueues_awake ok has (fun missing => absurd (List.mem_range.mpr (hasQueue_lt has)) missing) q

end VhciDevice

namespace BceVhci

variable {u v w x : BceVhci} {dev vdev : VhciDevice} {i p d devid : Nat} {tidy : Prop}

/-- A port and its bits are as they were. -/
structure SameAt (p : Nat) (v w : BceVhci) : Prop where
  port : w.portToDevice p = v.portToDevice p
  mapped : w.mapped p = v.mapped p
  reenumerate : p ∈ w.portReenumerateMask ↔ p ∈ v.portReenumerateMask
  resume : p ∈ w.portResumeMask ↔ p ∈ v.portResumeMask
  skipReset : w.portResumeSkipReset p = v.portResumeSkipReset p

theorem SameAt.refl (p : Nat) (v : BceVhci) : SameAt p v v :=
  ⟨rfl, rfl, Iff.rfl, Iff.rfl, rfl⟩

theorem SameAt.trans (first : SameAt p v w) (second : SameAt p w x) : SameAt p v x where
  port := second.port.trans first.port
  mapped := second.mapped.trans first.mapped
  reenumerate := second.reenumerate.trans first.reenumerate
  resume := second.resume.trans first.resume
  skipReset := second.skipReset.trans first.skipReset

/-- Nothing but a port has changed. -/
structure OnlyAt (i : Nat) (v w : BceVhci) : Prop where
  others : ∀ p, p ≠ i → SameAt p v w
  hcpriv : ∀ e : UsbHostEndpoint, e.udev.portnum ≠ i → w.hcpriv e = v.hcpriv e

theorem OnlyAt.trans (first : OnlyAt i v w) (second : OnlyAt i w x) : OnlyAt i v x where
  others := fun p apart => (first.others p apart).trans (second.others p apart)
  hcpriv := fun e apart => (second.hcpriv e apart).trans (first.hcpriv e apart)

theorem onlyAt_of_same (ports : w.portToDevice = v.portToDevice) (devices : w.devices = v.devices)
    (reenumerate : w.portReenumerateMask = v.portReenumerateMask) (resume : w.portResumeMask = v.portResumeMask)
    (skipReset : w.portResumeSkipReset = v.portResumeSkipReset) (hcpriv : w.hcpriv = v.hcpriv) : OnlyAt i v w where
  others := fun p _ => ⟨by rw [ports], by rw [BceVhci.mapped, BceVhci.mapped, ports, devices], by rw [reenumerate],
    by rw [resume], by rw [skipReset]⟩
  hcpriv := fun _ _ => by rw [hcpriv]

theorem reenumerate_onlyAt (v : BceVhci) (i : Nat) : OnlyAt i v (v.reenumerate i) where
  others := fun p apart =>
    ⟨rfl, rfl, by simp [BceVhci.reenumerate, apart], by simp [BceVhci.reenumerate, apart], rfl⟩
  hcpriv := fun _ _ => rfl

/-- One port gets or loses its device, and the pointers of its endpoints at most are changed. -/
theorem Remaps.onlyAt {now : Option VhciDevice} (remaps : v.Remaps w i now)
    (ports : ∀ p, p ≠ i → w.portToDevice p = v.portToDevice p)
    (reenumerate : w.portReenumerateMask = v.portReenumerateMask) (resume : w.portResumeMask = v.portResumeMask)
    (skipReset : ∀ p, p ≠ i → w.portResumeSkipReset p = v.portResumeSkipReset p)
    (hcpriv : ∀ e : UsbHostEndpoint, e.udev.portnum ≠ i → w.hcpriv e = v.hcpriv e) : OnlyAt i v w where
  others := fun p apart =>
    ⟨ports p apart, remaps.others p apart, by rw [reenumerate], by rw [resume], skipReset p apart⟩
  hcpriv := hcpriv

theorem TornDown.hcpriv_onlyAt {s : BceVhci × VhciDevice} {e : UsbHostEndpoint} (torn : TornDown v dev 32 s)
    (belongs : dev.Belongs i) (apart : e.udev.portnum ≠ i) : s.1.hcpriv e = v.hcpriv e := by
  refine torn.foreign e fun j has owner => ?_
  obtain ⟨e', owner', here, -⟩ := belongs.endp j has
  rw [owner] at owner'
  cases owner'
  exact apart here

theorem Inv.detach_onlyAt (inv : v.Inv tidy) (held : v.mapped i = some dev) {s : BceVhci × VhciDevice}
    (torn : TornDown v dev 32 s) (released : Bool) :
    OnlyAt i v
      (((s.1.setDevice (v.portToDevice i) none).setPort i 0).deviceDestroy (v.portToDevice i) released) := by
  have hcpriv := fun e => torn.hcpriv_onlyAt (e := e) (inv.queues i dev held).1
  obtain ⟨pointers, frame⟩ := torn.frame
  rw [frame] at hcpriv ⊢
  refine Remaps.onlyAt (inv.maps.unmap held ?_ ?_ ?_ ?_) ?_ rfl rfl (fun _ _ => rfl) ?_
  · simp
  · simp
  · intro d apart
    simp only [deviceDestroy_t2, setPort_t2, setDevice_t2]
    exact T2Devices.destroy_held apart
  · simp
  · intro p apart
    simp [apart]
  · exact fun e apart => hcpriv e apart

/-- A port keeps its device id, and its device is awake. -/
def KeepsId (u : BceVhci) (p d : Nat) : Prop :=
  u.portToDevice p = d ∧ ∃ vdev, u.mapped p = some vdev ∧ vdev.Awake

/-- A port keeps its device, awake, and neither is the port marked for a re-enumeration nor was its
device created again. -/
def ResumedInPlace (u : BceVhci) (p d : Nat) : Prop :=
  u.KeepsId p d ∧ p ∉ u.portReenumerateMask ∧ u.portResumeSkipReset p = 0

/-- A port has the device that was just created, with its control endpoint alone. -/
def Refreshed (u : BceVhci) (p d : Nat) : Prop :=
  u.portToDevice p = d ∧ d ≠ 0 ∧ u.portResumeSkipReset p = 2 ∧ ∃ vdev e q, u.mapped p = some vdev ∧
    vdev.tqMask = tqBit 0 ∧ vdev.tq 0 = ⟨some e, some q⟩ ∧ q.active ∧ q.pausedBy = 0 ∧
    e.udev.portnum = p ∧ u.hcpriv e = some (vdev.object, 0)

/-- A port is marked for a re-enumeration, and its mapping is intact or gone. -/
def Reenumerating (u : BceVhci) (p d : Nat) (dev : VhciDevice) : Prop :=
  p ∈ u.portReenumerateMask ∧ p ∈ u.portResumeMask ∧
    (u.portToDevice p = d ∧ u.mapped p = some dev ∨
      u.portToDevice p = 0 ∧ ∀ e other, u.devices e = some other → other.object ≠ dev.object)

/-- What a round of the resume comes to at its port. -/
inductive Settled (u : BceVhci) (p d : Nat) (dev : VhciDevice) (devid : Nat) : Prop
  | inPlace (resumed : u.ResumedInPlace p d)
  | refreshed (refreshed : u.Refreshed p devid) (unmarked : p ∉ u.portReenumerateMask)
  | marked (reenumerate : p ∈ u.portReenumerateMask) (resume : p ∈ u.portResumeMask)
      (skipReset : u.portResumeSkipReset p = 0)
      (mapping : u.portToDevice p = d ∧ u.mapped p = some dev ∨ u.portToDevice p = 0)

/-- The rounds at other ports do not change it. -/
theorem Settled.stays (settled : v.Settled p d dev devid) (only : OnlyAt i v w) (apart : p ≠ i) :
    w.Settled p d dev devid := by
  have same := only.others p apart
  cases settled with
  | inPlace resumed =>
    obtain ⟨⟨port, vdev, mapped, awake⟩, unmarked, skipReset⟩ := resumed
    exact .inPlace ⟨⟨same.port.trans port, vdev, same.mapped.trans mapped, awake⟩,
      fun marked => unmarked (same.reenumerate.mp marked), same.skipReset.trans skipReset⟩
  | refreshed refreshed unmarked =>
    obtain ⟨port, nonzero, skipReset, vdev, e, q, mapped, mask, first, active, pausedBy, here, pointer⟩ := refreshed
    refine .refreshed ⟨same.port.trans port, nonzero, same.skipReset.trans skipReset, vdev, e, q,
      same.mapped.trans mapped, mask, first, active, pausedBy, here, ?_⟩ fun marked =>
        unmarked (same.reenumerate.mp marked)
    exact (only.hcpriv e (here ▸ apart)).trans pointer
  | marked reenumerate resume skipReset mapping =>
    refine .marked (same.reenumerate.mpr reenumerate) (same.resume.mpr resume) (same.skipReset.trans skipReset) ?_
    rw [same.port, same.mapped]
    exact mapping

theorem kfree_onlyAt (v : BceVhci) (dev : VhciDevice) (i : Nat) : OnlyAt i v (v.kfree dev) :=
  onlyAt_of_same rfl rfl rfl rfl rfl rfl

/-- The tables where a device that was just created is destroyed again. -/
def takenBack (v : BceVhci) (i devid : Nat) (released : Bool) : BceVhci :=
  ((((v.deviceCreate devid).setPort i devid).setDevice devid none).setPort i 0).deviceDestroy devid released

theorem takenBack_ports (free : v.portToDevice i = 0) (devid : Nat) (released : Bool) :
    (v.takenBack i devid released).portToDevice = v.portToDevice := by
  simp only [takenBack, deviceDestroy_portToDevice, setPort_portToDevice, setDevice_portToDevice,
    deviceCreate_portToDevice]
  rw [Function.update_idem, ← free, Function.update_eq_self]

theorem takenBack_devices {devid : Nat} (unheld : v.devices devid = none) (i : Nat) (released : Bool) :
    (v.takenBack i devid released).devices = v.devices := by
  simp only [takenBack, deviceDestroy_devices, setPort_devices, setDevice_devices, deviceCreate_devices]
  rw [← unheld, Function.update_eq_self]

theorem takenBack_onlyAt {devid : Nat} (free : v.portToDevice i = 0) (unheld : v.devices devid = none)
    (released : Bool) : OnlyAt i v (v.takenBack i devid released) := by
  refine onlyAt_of_same (takenBack_ports free devid released) (takenBack_devices unheld i released) ?_ ?_ ?_ ?_
  all_goals simp only [takenBack, deviceDestroy, setPort, setDevice, deviceCreate]

/-- How the refresh leaves the port. -/
theorem Detached.refresh_settled {torn : VhciDevice} {ep0 : Option UsbHostEndpoint} {env : ResumeEnv}
    (d : Nat) (dev : VhciDevice) (apart : v.Detached tidy i torn)
    (owner : ∃ e, ep0 = some e ∧ e.udev.portnum = i ∧ e.index = 0)
    (refresh : RefreshCase v torn i ep0 env w) (unmarked : i ∉ v.portReenumerateMask)
    (unskipped : v.portResumeSkipReset i = 0) (honest : w.t2.honest) :
    OnlyAt i v w ∧ w.Settled i d dev env.create.dev.toNat ∧
      ∀ vdev, w.mapped i = some vdev → vdev.object = torn.object := by
  obtain ⟨e, owner, here, index⟩ := owner
  have unmapped : v.mapped i = none := by
    rw [mapped, apart.free]
    exact apart.inv.maps.null
  cases refresh with
  | gaveUp =>
    refine ⟨?_, .marked ?_ ?_ unskipped (.inr apart.free), ?_⟩
    · exact (v.kfree_onlyAt torn i).trans ((v.kfree torn).reenumerate_onlyAt i)
    · exact Finset.mem_insert_self ..
    · exact Finset.mem_insert_self ..
    · intro vdev found
      cases unmapped.symm.trans found
  | faulted _ missing => cases missing.symm.trans owner
  | undone _ created =>
    have honest : ((v.t2.create env.create.dev.toNat).destroy env.create.dev.toNat env.releasedAgain).honest :=
      honest
    rw [T2Devices.destroy_honest] at honest
    obtain ⟨-, -, -, fresh⟩ := T2Devices.create_honest honest
    have unheld := apart.inv.maps.unheld fresh
    have ports := takenBack_ports apart.free env.create.dev.toNat env.releasedAgain
    have devices := takenBack_devices unheld i env.releasedAgain
    have same := takenBack_onlyAt apart.free unheld env.releasedAgain
    refine ⟨(same.trans (kfree_onlyAt _ created i)).trans (reenumerate_onlyAt _ i),
      .marked ?_ ?_ unskipped (.inr ?_), ?_⟩
    · exact Finset.mem_insert_self ..
    · exact Finset.mem_insert_self ..
    · exact (congrFun ports i).trans apart.free
    · intro vdev found
      have found : (v.takenBack i env.create.dev.toNat env.releasedAgain).devices
          ((v.takenBack i env.create.dev.toNat env.releasedAgain).portToDevice i) = some vdev := found
      rw [ports, devices] at found
      cases unmapped.symm.trans found
  | refreshed _ e' q owner' made =>
    cases owner.symm.trans owner'
    obtain ⟨-, low, high, fresh⟩ := T2Devices.create_honest honest
    have unused := createTransferQueue_unused made
    let y := { (((v.deviceCreate env.create.dev.toNat).setPort i env.create.dev.toNat).setHcpriv e
        (some (torn.object, 0))).setDevice env.create.dev.toNat
        (some ((torn.setQueue 0 ⟨some e, some q⟩).setMask (tqBit 0))) with
      portResumeSkipReset := Function.update v.portResumeSkipReset i 2 }.use (.portResumeSkipReset i)
    have remaps : v.Remaps y i (some ((torn.setQueue 0 ⟨some e, some q⟩).setMask (tqBit 0))) := by
      refine apart.inv.maps.map apart.free ⟨low, high⟩ fresh ?_ ?_ ?_ le_rfl apart.object apart.new
      all_goals simp [y]
    have port : y.portToDevice i = env.create.dev.toNat := by
      simp [y]
    refine ⟨remaps.onlyAt ?_ rfl rfl ?_ ?_, .refreshed ⟨port, by omega, ?_, ?_⟩ unmarked, ?_⟩
    · intro p apart
      simp [y, apart]
    · exact fun p apart => Function.update_of_ne apart ..
    · intro e' apart
      have other : e' ≠ e := fun same => apart (same ▸ here)
      simp [y, other]
    · exact Function.update_self ..
    · refine ⟨_, e, q, remaps.own, rfl, ?_, unused.active, unused.pausedBy, here, ?_⟩
      · rw [VhciDevice.setMask_tq, VhciDevice.setQueue_self]
      · simp
    · intro vdev found
      rw [remaps.own] at found
      cases found
      rfl

theorem refreshTorn_onlyAt (inv : v.Inv tidy) (held : v.mapped i = some dev) (env : ResumeEnv) :
    OnlyAt i v (v.refreshTorn i (v.portToDevice i) dev env).1 :=
  inv.detach_onlyAt held (refresh_tornDown v dev) env.released

theorem refreshPort_settled (sound : v.Sound tidy) (held : v.mapped i = some dev) (env : ResumeEnv)
    (unmarked : i ∉ v.portReenumerateMask) (unskipped : v.portResumeSkipReset i = 0)
    (honest : (v.refreshPort i (v.portToDevice i) dev env).t2.honest) :
    OnlyAt i v (v.refreshPort i (v.portToDevice i) dev env) ∧
      (v.refreshPort i (v.portToDevice i) dev env).Settled i d vdev env.create.dev.toNat ∧
      ∀ now, (v.refreshPort i (v.portToDevice i) dev env).mapped i = some now → now.object = dev.object := by
  have refresh := v.refreshPort_cases i (v.portToDevice i) dev env
  have inv := sound (refreshTorn_honest v i _ dev env ▸ refresh.honest honest)
  have torn := refresh_tornDown v dev
  obtain ⟨hcpriv, frame⟩ := torn.frame
  have masks : (v.refreshTorn i (v.portToDevice i) dev env).1.portReenumerateMask = v.portReenumerateMask ∧
      (v.refreshTorn i (v.portToDevice i) dev env).1.portResumeSkipReset = v.portResumeSkipReset := by
    unfold refreshTorn
    dsimp only
    rw [frame]
    exact ⟨rfl, rfl⟩
  obtain ⟨only, settled, object⟩ := Detached.refresh_settled d vdev (refreshTorn_detached inv held env)
    (inv.queues i dev held).1.ep0 refresh (masks.1 ▸ unmarked) ((congrFun masks.2 i).trans unskipped) honest
  exact ⟨(refreshTorn_onlyAt inv held env).trans only, settled,
    fun now found => (object now found).trans torn.object⟩

theorem refreshPort_honest {env : ResumeEnv} (honest : (v.refreshPort i devid dev env).t2.honest) :
    v.t2.honest := by
  rw [← refreshTorn_honest v i devid dev env]
  exact (v.refreshPort_cases i devid dev env).honest honest

theorem ResumeCase.honest {env : ResumeEnv} (resume : ResumeCase v i dev env w) (honest : w.t2.honest) :
    v.t2.honest := by
  cases resume with
  | marked => exact honest
  | inPlace _ => exact honest
  | refreshed => exact refreshPort_honest honest
  | interrupted vdev _ =>
    have before : (v.setDevice (v.portToDevice i) (some vdev)).t2.honest := refreshPort_honest honest
    exact before

theorem resumePort_honest {env : ResumeEnv} (honest : (v.resumePort i env).t2.honest) : v.t2.honest := by
  rcases v.resumePort_cases i env with ⟨_, same⟩ | ⟨dev, -, -, resume⟩
  · rw [same.t2] at honest
    exact honest
  · exact resume.honest honest

/-- A device changes in place. -/
theorem Inv.replace_onlyAt (inv : v.Inv tidy) (held : v.mapped i = some dev) (object : vdev.object = dev.object) :
    OnlyAt i v (v.setDevice (v.portToDevice i) (some vdev)) := by
  have remaps : v.Remaps (v.setDevice (v.portToDevice i) (some vdev)) i (some vdev) := by
    refine inv.maps.replace held ?_ ?_ ?_ ?_ object
    all_goals simp
  exact remaps.onlyAt (fun _ _ => rfl) rfl rfl (fun _ _ => rfl) fun _ _ => rfl

theorem ResumeCase.settled {env : ResumeEnv} (resume : ResumeCase v i dev env w) (sound : v.Sound tidy)
    (held : v.mapped i = some dev) (unmarked : i ∉ v.portReenumerateMask)
    (unskipped : v.portResumeSkipReset i = 0) (honest : w.t2.honest) :
    OnlyAt i v w ∧ w.Settled i (v.portToDevice i) dev env.create.dev.toNat ∧
      ∀ now, w.mapped i = some now → now.object = dev.object := by
  have inv := sound (resume.honest honest)
  cases resume with
  | marked =>
    refine ⟨v.reenumerate_onlyAt i, .marked ?_ ?_ unskipped (.inl ⟨rfl, held⟩), ?_⟩
    · exact Finset.mem_insert_self ..
    · exact Finset.mem_insert_self ..
    · intro now (found : v.mapped i = some now)
      cases held.symm.trans found
      rfl
  | inPlace resumed =>
    have alike := VhciDevice.alike_resumeQueues env.resume (List.range 32) dev
    have here : (v.setDevice (v.portToDevice i) (some (dev.resumeQueues env.resume (List.range 32)).2)).mapped i =
        some (dev.resumeQueues env.resume (List.range 32)).2 :=
      Function.update_self ..
    refine ⟨inv.replace_onlyAt held alike.object, .inPlace ⟨⟨rfl, _, here, ?_⟩, unmarked, unskipped⟩, ?_⟩
    · exact VhciDevice.resumeQueues_all_awake resumed
    · intro now found
      cases here.symm.trans found
      exact alike.object
  | refreshed => exact refreshPort_settled sound held env unmarked unskipped honest
  | interrupted vdev alike =>
    have here : (v.setDevice (v.portToDevice i) (some vdev)).mapped i = some vdev := Function.update_self ..
    have sound' : (v.setDevice (v.portToDevice i) (some vdev)).Sound tidy := by
      refine sound.of_alike held alike ?_ ?_ ?_ ?_ ?_
      all_goals simp
    obtain ⟨only, settled, object⟩ := refreshPort_settled sound' here env unmarked unskipped honest
    exact ⟨(inv.replace_onlyAt held alike.object).trans only, settled, fun now found =>
      (object now found).trans alike.object⟩

/-- The resume has got to a port: those ahead and those without a device are as they were, and the
others are settled. -/
structure Progress (w : BceVhci) (env : Nat → ResumeEnv) (k : Nat) (x : BceVhci) : Prop where
  ahead : ∀ p, k ≤ p ∨ w.portToDevice p = 0 → SameAt p w x
  done : ∀ p dev, p < k → w.portToDevice p ≠ 0 → w.mapped p = some dev →
    x.Settled p (w.portToDevice p) dev (env p).create.dev.toNat
  objects : ∀ p now, x.mapped p = some now → ∃ dev, w.mapped p = some dev ∧ now.object = dev.object

theorem Progress.round {env : Nat → ResumeEnv} {k : Nat} (progress : Progress w env k x) (sound : x.Sound tidy)
    (clear : w.portReenumerateMask = ∅) (unskipped : ∀ p, w.portResumeSkipReset p = 0)
    (honest : (x.resumePort k (env k)).t2.honest) : Progress w env (k + 1) (x.resumePort k (env k)) := by
  have here := progress.ahead k (.inl le_rfl)
  rcases x.resumePort_cases k (env k) with ⟨gone, same⟩ | ⟨dev, mapped, held, resume⟩
  · have only : ∀ i, OnlyAt i x (x.resumePort k (env k)) := fun i =>
      onlyAt_of_same same.portToDevice same.devices same.reenumerate same.resume same.skipReset same.hcpriv
    refine ⟨?_, ?_, ?_⟩
    · intro p behind
      refine (progress.ahead p (behind.imp_left (by omega))).trans ((only (p + 1)).others p (by omega))
    · intro p dev below mapped held
      refine (progress.done p dev ?_ mapped held).stays (only (p + 1)) (by omega)
      have apart : p ≠ k := by
        rintro rfl
        rcases gone with missing | unmapped
        · cases (here.mapped.trans held).symm.trans missing
        · exact mapped (here.port.symm.trans unmapped)
      omega
    · intro p now found
      exact progress.objects p now (((only (p + 1)).others p (by omega)).mapped.symm.trans found)
  · let looked := (x.use (.portToDevice k)).use (.devices (x.portToDevice k))
    have same : OnlyAt k x looked := onlyAt_of_same rfl rfl rfl rfl rfl rfl
    have unmarked : k ∉ looked.portReenumerateMask := by
      intro marked
      have before := here.reenumerate.mp marked
      rw [clear] at before
      exact Finset.notMem_empty k before
    have soundLooked : looked.Sound tidy := sound.of_same rfl rfl rfl rfl rfl
    obtain ⟨only, settled, object⟩ := resume.settled soundLooked held unmarked
      (here.skipReset.trans (unskipped k)) honest
    replace only := same.trans only
    have port : w.portToDevice k = x.portToDevice k := here.port.symm
    have device : w.mapped k = some dev := here.mapped.symm.trans held
    refine ⟨?_, ?_, ?_⟩
    · intro p behind
      have apart : p ≠ k := by
        rintro rfl
        exact behind.elim (by omega) fun unmapped => mapped (port.symm.trans unmapped)
      exact (progress.ahead p (behind.imp_left (by omega))).trans (only.others p apart)
    · intro p dev' below mapped' held'
      by_cases same : p = k
      · subst same
        cases device.symm.trans held'
        rw [port]
        exact settled
      · exact (progress.done p dev' (by omega) mapped' held').stays only same
    · intro p now found
      by_cases same : p = k
      · subst same
        exact ⟨dev, device, object now found⟩
      · exact progress.objects p now ((only.others p same).mapped.symm.trans found)

/-- One of three holds and the other two do not. -/
def ExactlyOne (a b c : Prop) : Prop :=
  a ∧ ¬b ∧ ¬c ∨ ¬a ∧ b ∧ ¬c ∨ ¬a ∧ ¬b ∧ c

theorem suspendPort_masks (env : Nat → Nat → PauseEnv) (i : Nat) (v : BceVhci) :
    (suspendPort env i v).portReenumerateMask = v.portReenumerateMask ∧
      (suspendPort env i v).portResumeSkipReset = v.portResumeSkipReset := by
  unfold suspendPort
  dsimp only
  split
  · exact ⟨rfl, rfl⟩
  · split <;> exact ⟨rfl, rfl⟩

/-- A suspend forgets what is left of a resume before it. -/
theorem busSuspend_masks (v : BceVhci) (env : SuspendEnv) :
    (v.busSuspend env).2.portReenumerateMask = ∅ ∧ ∀ p, (v.busSuspend env).2.portResumeSkipReset p = 0 := by
  have looped := forLoop_keeps (n := 16) (f := suspendPort env.setState) (s := v.suspendBegun)
    (P := fun w => w.portReenumerateMask = ∅ ∧ w.portResumeSkipReset = fun _ => 0) ⟨rfl, rfl⟩
    fun i w _ masks => by
      rw [(suspendPort_masks env.setState i w).1, (suspendPort_masks env.setState i w).2]
      exact masks
  rw [busSuspend_eq]
  generalize forLoop 16 (suspendPort env.setState) v.suspendBegun = w at looped ⊢
  dsimp only
  split
  · exact ⟨looped.1, congrFun looped.2⟩
  · exact ⟨looped.1, congrFun looped.2⟩

/-- A port that is settled is in one of three states. -/
theorem Settled.exactlyOne (settled : u.Settled p d dev devid)
    (gone : u.portToDevice p = 0 → ∀ e other, u.devices e = some other → other.object ≠ dev.object) :
    ExactlyOne (u.ResumedInPlace p d) (u.Refreshed p devid) (u.Reenumerating p d dev) := by
  cases settled with
  | inPlace resumed =>
    refine .inl ⟨resumed, ?_, fun marked => resumed.2.1 marked.1⟩
    rintro ⟨-, -, twice, -⟩
    cases resumed.2.2.symm.trans twice
  | refreshed refreshed unmarked =>
    refine .inr (.inl ⟨?_, refreshed, fun marked => unmarked marked.1⟩)
    rintro ⟨-, -, zero⟩
    cases zero.symm.trans refreshed.2.2.1
  | marked reenumerate resume skipReset mapping =>
    refine .inr (.inr ⟨fun resumed => resumed.2.1 reenumerate, ?_, reenumerate, resume, ?_⟩)
    · rintro ⟨-, -, twice, -⟩
      cases skipReset.symm.trans twice
    · exact mapping.imp_right fun unmapped => ⟨unmapped, gone unmapped⟩

/-- After a suspend, a resume that runs to its end leaves every mapped port either awake in place, or
with a new device and its control endpoint, or marked for a re-enumeration, and it does not touch
the marks of the other ports. -/
theorem busResume_settles {suspended : SuspendEnv} {resumed : BusResumeEnv} (reach : machine.Reachable v)
    (suspend : v.busSuspend suspended = (0, w)) (resume : w.busResume resumed = u)
    (free : resumed.recovering = false) (start : resumed.controllerStart = 0) (honest : u.t2.honest) :
    (∀ p, p < 16 → w.portToDevice p ≠ 0 → ∃ dev, w.mapped p = some dev ∧
      ExactlyOne (u.ResumedInPlace p (w.portToDevice p)) (u.Refreshed p (resumed.port p).create.dev.toNat)
        (u.Reenumerating p (w.portToDevice p) dev)) ∧
      ∀ p, w.portToDevice p = 0 → (p ∈ u.portReenumerateMask ↔ p ∈ w.portReenumerateMask) ∧
        (p ∈ u.portResumeMask ↔ p ∈ w.portResumeMask) := by
  have sound : w.Sound False := by
    have before : v.Sound False := sound_of_reach False (fun _ _ _ holds => holds.elim) reach
    have after := before.busSuspend suspended
    rwa [suspend] at after
  obtain ⟨clear, unskipped⟩ := v.busSuspend_masks suspended
  rw [suspend] at clear unskipped
  have looped := forLoop_invariant (n := 16) (f := fun i x => x.resumePort i (resumed.port i)) (s := w)
    (P := fun k x => x.Sound False ∧ (x.t2.honest → w.t2.honest ∧ Progress w resumed.port k x)) ?_ ?_
  · unfold busResume at resume
    rw [free, if_neg Bool.false_ne_true, if_neg (not_not.mpr start)] at resume
    generalize forLoop 16 _ w = x at looped resume
    have only : ∀ i, OnlyAt i x u := fun i => resume ▸ onlyAt_of_same rfl rfl rfl rfl rfl rfl
    have soundU : u.Sound False := resume ▸ looped.1.of_same rfl rfl rfl rfl rfl
    have t2 : u.t2 = x.t2 := resume ▸ rfl
    obtain ⟨honestW, progress⟩ := looped.2 (t2 ▸ honest)
    have invW := sound honestW
    refine ⟨fun p below mapped => ?_, fun p unmapped => ?_⟩
    · obtain ⟨dev, held⟩ := Option.isSome_iff_exists.mp (invW.maps.named p mapped)
      have settled := (progress.done p dev below mapped held).stays (only 16) (by omega)
      refine ⟨dev, held, settled.exactlyOne fun gone e other found object => ?_⟩
      obtain ⟨nonzero, -, -, q, named⟩ := (soundU honest).maps.owned e other found
      have foundQ : u.mapped q = some other := by
        rw [BceVhci.mapped, named, found]
      rw [((only (q + 1)).others q (by omega)).mapped] at foundQ
      obtain ⟨dev', heldQ, same⟩ := progress.objects q other foundQ
      have port := invW.maps.unique _ _ dev' dev heldQ held (same.symm.trans object)
      have here := invW.maps.apart q p (invW.maps.port_ne_zero heldQ) port
      exact nonzero (named.symm.trans (here ▸ gone))
    · have same := (progress.ahead p (.inr unmapped)).trans ((only (p + 1)).others p (by omega))
      exact ⟨same.reenumerate, same.resume⟩
  · refine ⟨sound, fun honest => ⟨honest, fun p _ => .refl p w,
      fun p _ before => absurd before (Nat.not_lt_zero p), fun p now found => ⟨now, found, rfl⟩⟩⟩
  · rintro k x - ⟨sound, progress⟩
    refine ⟨sound.resumePort k (resumed.port k), fun honest => ?_⟩
    obtain ⟨before, progress⟩ := progress (resumePort_honest honest)
    exact ⟨before, progress.round sound clear unskipped honest⟩

/-- The T2 takes every command of a suspend. -/
def SuspendEnv.smooth : SuspendEnv :=
  ⟨fun _ _ => ⟨false, 0, 1⟩, 0⟩

/-- The T2 takes every command of a resume, and gives each new device this id. -/
def BusResumeEnv.smooth (devid : BitVec 8) : BusResumeEnv where
  recovering := false
  controllerStart := 0
  port := fun _ => ⟨0, 4, fun _ => ⟨false, 0, 0⟩, 0, true, 0, ⟨0, devid⟩, .plenty, true⟩

/-- A device with its control endpoint alone is resumed in place. -/
theorem busResume_settles_smooth : ∃ v w u : BceVhci, v.busSuspend .smooth = (0, w) ∧
    w.busResume (.smooth 1) = u ∧ w.portToDevice 1 = 1 ∧ ∃ dev, w.mapped 1 = some dev ∧
      ExactlyOne (u.ResumedInPlace 1 1) (u.Refreshed 1 1) (u.Reenumerating 1 1 dev) := by
  have ran : (ranUnder (fun _ _ => True) 3 [.enableDevice sampleDevice (.created 1)]).map
      (fun v => ((v.busSuspend .smooth).1, (v.busSuspend .smooth).2.portToDevice 1,
        ((v.busSuspend .smooth).2.busResume (.smooth 1)).t2.honest)) = some (0, 1, true) := by
    decide +kernel
  obtain ⟨v, reach, seen⟩ := reachableUnder_of_ran ran
  simp only [Prod.mk.injEq] at seen
  obtain ⟨ok, port, honest⟩ := seen
  have suspend : v.busSuspend .smooth = (0, (v.busSuspend .smooth).2) := Prod.ext ok rfl
  obtain ⟨dev, held, one⟩ := (busResume_settles reach suspend rfl rfl rfl honest).1 1 (by decide)
    (by rw [port]; decide)
  rw [port] at one
  exact ⟨v, _, _, suspend, rfl, port, dev, held, one⟩

/-- A device with a bulk endpoint is created again, and the T2 gives it the id it had. -/
theorem same_id_created_again : ¬∀ v w u suspended resumed, machine.Reachable v →
    v.busSuspend suspended = (0, w) → w.busResume resumed = u → resumed.recovering = false →
    resumed.controllerStart = 0 → u.t2.honest → ∀ p, p < 16 → w.portToDevice p ≠ 0 →
      ∃ dev, w.mapped p = some dev ∧ ExactlyOne (u.KeepsId p (w.portToDevice p))
        (u.Refreshed p (resumed.port p).create.dev.toNat) (u.Reenumerating p (w.portToDevice p) dev) := by
  intro settles
  have ran : (ranUnder (fun _ _ => True) 3 [.enableDevice sampleDevice (.created 1),
      .addEndpoint (sampleEndpoint 0) .plenty 0]).map (fun v =>
        let w := (v.busSuspend .smooth).2
        let u := w.busResume (.smooth 1)
        (((v.busSuspend .smooth).1, w.portToDevice 1, u.t2.honest), ((u.portToDevice 1, u.portResumeSkipReset 1),
          u.hcpriv sampleDevice.ep0), (u.mapped 1).map fun dev => ((dev.tqMask, dev.object),
            ((dev.tq 0).endp, (dev.tq 0).queue.map fun q => (q.active, q.pausedBy))))) =
      some ((0, 1, true), ((1, 2), some (0, 0)), some ((1, 0), some sampleDevice.ep0, some (true, 0))) := by
    set_option synthInstance.maxSize 1024 in decide +kernel
  obtain ⟨v, reach, seen⟩ := reachableUnder_of_ran ran
  simp only [Prod.mk.injEq] at seen
  obtain ⟨⟨ok, before, honest⟩, ⟨⟨port, skipReset⟩, pointer⟩, device⟩ := seen
  generalize after : (v.busSuspend .smooth).2.busResume (.smooth 1) = u at *
  obtain ⟨vdev, held, device⟩ := Option.map_eq_some_iff.mp device
  simp only [Prod.mk.injEq] at device
  obtain ⟨⟨mask, object⟩, owner, queue⟩ := device
  obtain ⟨q, queue, flags⟩ := Option.map_eq_some_iff.mp queue
  simp only [Prod.mk.injEq] at flags
  have awake : vdev.Awake := by
    intro j q' has found
    have first : j = 0 := by
      rw [VhciDevice.hasQueue, mask] at has
      simpa [BitVec.getLsbD_one] using has
    rw [first, queue] at found
    cases found
    rw [BceVhciTransferQueue.pausedFor, flags.2]
    simp
  have keeps : u.KeepsId 1 1 := ⟨port, vdev, held, awake⟩
  have refreshed : u.Refreshed 1 1 := by
    refine ⟨port, by decide, skipReset, vdev, sampleDevice.ep0, q, held, mask, ?_, flags.1, flags.2, rfl, ?_⟩
    · rw [← owner, ← queue]
    · rw [pointer, object]
  have suspend : v.busSuspend .smooth = (0, (v.busSuspend .smooth).2) := Prod.ext ok rfl
  generalize (v.busSuspend .smooth).2 = w at before after suspend
  obtain ⟨dev, -, one⟩ := settles v w u .smooth (.smooth 1) reach suspend after rfl rfl honest 1
    (by decide) (by rw [before]; decide)
  rw [before] at one
  rcases one with ⟨-, other, -⟩ | ⟨other, -, -⟩ | ⟨other, -, -⟩
  · exact other refreshed
  · exact other keeps
  · exact other keeps

end BceVhci

end AppleBce

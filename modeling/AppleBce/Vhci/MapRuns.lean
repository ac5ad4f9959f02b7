import AppleBce.Vhci.MapConsistency

namespace AppleBce

open Basis

namespace VhciDevice

variable {dev vdev last : VhciDevice} {e : UsbHostEndpoint} {port object j : Nat}

/-- The queues of a device are those there were, in another state at most. -/
structure Alike (dev vdev : VhciDevice) : Prop where
  tqMask : vdev.tqMask = dev.tqMask
  object : vdev.object = dev.object
  endp : ∀ j, (vdev.tq j).endp = (dev.tq j).endp
  queue : ∀ j, (vdev.tq j).queue.isSome = (dev.tq j).queue.isSome

theorem Alike.refl (dev : VhciDevice) : dev.Alike dev :=
  ⟨rfl, rfl, fun _ => rfl, fun _ => rfl⟩

theorem Alike.trans (first : dev.Alike vdev) (second : vdev.Alike last) : dev.Alike last where
  tqMask := second.tqMask.trans first.tqMask
  object := second.object.trans first.object
  endp := fun j => (second.endp j).trans (first.endp j)
  queue := fun j => (second.queue j).trans (first.queue j)

theorem Alike.hasQueue (alike : dev.Alike vdev) (j : Nat) : vdev.hasQueue j = dev.hasQueue j :=
  congrArg (BitVec.getLsbD · j) alike.tqMask

theorem Alike.kept (alike : dev.Alike vdev) : dev.Kept vdev :=
  ⟨alike.object, alike.endp, fun j has => (alike.hasQueue j).symm.trans has⟩

theorem Alike.live (alike : dev.Alike vdev) (live : dev.Live) : vdev.Live := by
  intro j
  rw [alike.hasQueue, alike.queue]
  exact live j

theorem Alike.points (alike : dev.Alike vdev) (points : dev.Points e object j) : vdev.Points e object j where
  object := alike.object.trans points.object
  index := points.index
  hasQueue := (alike.hasQueue j).trans points.hasQueue
  endp := (alike.endp j).trans points.endp

/-- The state of one queue changes. -/
theorem alike_setQueue {queue : Option BceVhciTransferQueue} (same : queue.isSome = (dev.tq j).queue.isSome) :
    dev.Alike (dev.setQueue j { dev.tq j with queue }) := by
  refine ⟨rfl, rfl, ?_, ?_⟩
  · intro k
    by_cases here : k = j
    · rw [here, setQueue_self]
    · rw [setQueue_other _ _ here]
  · intro k
    by_cases here : k = j
    · rw [here, setQueue_self, same]
    · rw [setQueue_other _ _ here]

theorem alike_resumeQueues (env : Nat → PauseEnv) (js : List Nat) (dev : VhciDevice) :
    dev.Alike (dev.resumeQueues env js).2 := by
  induction js generalizing dev with
  | nil => exact .refl dev
  | cons j js ih =>
    unfold resumeQueues
    split
    · split
      · exact ih dev
      · rename_i q found
        have one :
            dev.Alike (dev.setQueue j { dev.tq j with queue := some (q.transferQueueResume .suspend (env j)).2 }) :=
          alike_setQueue (by rw [found]; rfl)
        dsimp only
        split
        · exact one
        · exact one.trans (ih _)
    · exact ih dev

theorem alike_suspendQueue (env : Nat → PauseEnv) (j : Nat) (dev : VhciDevice) :
    dev.Alike (BceVhci.suspendQueue env j dev) := by
  unfold BceVhci.suspendQueue
  split
  · exact alike_setQueue Option.isSome_map
  · exact .refl dev

theorem alike_suspendQueues (env : Nat → PauseEnv) (dev : VhciDevice) :
    dev.Alike (forLoop 32 (BceVhci.suspendQueue env) dev) :=
  forLoop_keeps (P := dev.Alike) (.refl dev) fun j vdev _ alike => alike.trans (alike_suspendQueue env j vdev)

end VhciDevice

namespace BceVhci

variable {v w : BceVhci} {dev vdev : VhciDevice} {endp : UsbHostEndpoint} {p devid : Nat} {tidy : Prop}

/-- A mapped device changes the state of its queues. -/
theorem Sound.of_alike (sound : v.Sound tidy) (held : v.mapped p = some dev) (alike : dev.Alike vdev)
    (ports : w.portToDevice = v.portToDevice)
    (devices : w.devices = Function.update v.devices (v.portToDevice p) (some vdev)) (t2 : w.t2 = v.t2)
    (objects : w.objects = v.objects)
    (kept : ∀ e pointer, w.hcpriv e = some pointer → v.hcpriv e = some pointer) : w.Sound tidy := by
  intro honest
  have inv := sound (t2 ▸ honest)
  obtain ⟨belongs, live⟩ := inv.queues p dev held
  refine inv.replace held ports devices t2 objects alike.object (alike.kept.belongs belongs)
    (fun holds => alike.live (live holds)) ?_
  exact fun _ e o j pointer => .inl ⟨kept e _ pointer, fun _ points => alike.points points⟩

/-- The URBs of a device below a queue have been cancelled. -/
structure Cancelled (v : BceVhci) (dev : VhciDevice) (s : BceVhci × VhciDevice) : Prop where
  frame : ∃ hcpriv, s.1 = { v with hcpriv }
  hcpriv : ∀ e pointer, s.1.hcpriv e = some pointer → v.hcpriv e = some pointer
  alike : dev.Alike s.2

theorem Cancelled.round {s : BceVhci × VhciDevice} (cancelled : Cancelled v dev s) (j : Nat) :
    Cancelled v dev (cancelQueue j s) := by
  obtain ⟨⟨hcpriv, frame⟩, kept, alike⟩ := cancelled
  unfold cancelQueue
  split
  · refine ⟨?_, ?_, alike.trans (VhciDevice.alike_setQueue Option.isSome_map)⟩
    · cases (s.2.tq j).endp with
      | none => exact ⟨hcpriv, frame⟩
      | some e =>
        refine ⟨Function.update hcpriv e none, ?_⟩
        show s.1.setHcpriv e none = _
        rw [frame]
        rfl
    · cases (s.2.tq j).endp with
      | none => exact kept
      | some e =>
        intro e' pointer (found : (s.1.setHcpriv e none).hcpriv e' = some pointer)
        by_cases same : e' = e
        · rw [same, setHcpriv_self] at found
          cases found
        · rw [setHcpriv_other same] at found
          exact kept e' pointer found
  · exact ⟨⟨hcpriv, frame⟩, kept, alike⟩

theorem cancelQueues_cancelled (v : BceVhci) (dev : VhciDevice) :
    Cancelled v dev (forLoop 32 cancelQueue (v, dev)) :=
  forLoop_keeps (P := Cancelled v dev) ⟨⟨v.hcpriv, rfl⟩, fun _ _ pointer => pointer, .refl dev⟩
    fun j _ _ cancelled => cancelled.round j

theorem Sound.recoveryCancelPort (sound : v.Sound tidy) (i : Nat) : (v.recoveryCancelPort i).Sound tidy := by
  unfold BceVhci.recoveryCancelPort
  dsimp only
  split
  · exact sound.of_same rfl rfl rfl rfl rfl
  split
  · exact sound.of_same rfl rfl rfl rfl rfl
  · rename_i dev found
    have held : v.mapped i = some dev := found
    have cancelled := cancelQueues_cancelled ((v.use (.portToDevice i)).use (.devices (v.portToDevice i))) dev
    simp only [use_portToDevice]
    generalize forLoop 32 cancelQueue (_, dev) = s at cancelled ⊢
    obtain ⟨⟨hcpriv, frame⟩, kept, alike⟩ := cancelled
    rw [frame] at kept ⊢
    refine sound.of_alike held alike ?_ ?_ ?_ ?_ kept
    all_goals simp

theorem Sound.recoveryCancelAll (sound : v.Sound tidy) : v.recoveryCancelAll.Sound tidy :=
  forLoop_keeps (P := (Sound · tidy)) sound fun i _ _ sound => sound.recoveryCancelPort i

theorem Sound.suspendPort (sound : v.Sound tidy) (env : Nat → Nat → PauseEnv) (i : Nat) :
    (suspendPort env i v).Sound tidy := by
  unfold BceVhci.suspendPort
  dsimp only
  split
  · exact sound.of_same rfl rfl rfl rfl rfl
  split
  · exact sound.of_same rfl rfl rfl rfl rfl
  · rename_i dev found
    have held : v.mapped i = some dev := found
    refine sound.of_alike held (VhciDevice.alike_suspendQueues (env i) dev) ?_ ?_ ?_ ?_ ?_
    all_goals simp

theorem Sound.busSuspend (sound : v.Sound tidy) (env : SuspendEnv) : (v.busSuspend env).2.Sound tidy := by
  unfold BceVhci.busSuspend
  dsimp only
  have before : { v with
      recoveryWatchdog := false
      portResumeSkipReset := fun _ => 0
      portResumeMask := ∅
      portReenumerateMask := ∅ }.Sound tidy :=
    sound.of_same rfl rfl rfl rfl rfl
  have looped := forLoop_keeps (P := (Sound · tidy)) (f := BceVhci.suspendPort env.setState) (n := 16) before
    fun i _ _ sound => sound.suspendPort _ i
  generalize forLoop 16 (BceVhci.suspendPort env.setState) _ = w at looped ⊢
  split
  · exact looped
  · exact looped.of_same rfl rfl rfl rfl rfl

/-- How the refresh of a surviving device can end, once the tables have forgotten it: with the port
given up, with no endpoint for the control queue, which would be a fault in the kernel, with the new
device taken back, or with the device refreshed. -/
inductive RefreshCase (w : BceVhci) (torn : VhciDevice) (i : Nat) (ep0 : Option UsbHostEndpoint)
    (env : ResumeEnv) : BceVhci → Prop
  | gaveUp : RefreshCase w torn i ep0 env ((w.kfree torn).reenumerate i)
  | faulted (ok : env.create.status = 0) (missing : ep0 = none) :
    RefreshCase w torn i ep0 env (((w.deviceCreate env.create.dev.toNat).setPort i env.create.dev.toNat).setDevice
      env.create.dev.toNat (some torn))
  | undone (ok : env.create.status = 0) (created : VhciDevice) :
    RefreshCase w torn i ep0 env
      (((((((w.deviceCreate env.create.dev.toNat).setPort i env.create.dev.toNat).setDevice
        env.create.dev.toNat none).setPort i 0).deviceDestroy env.create.dev.toNat env.releasedAgain).kfree
          created).reenumerate i)
  | refreshed (ok : env.create.status = 0) (e : UsbHostEndpoint) (q : BceVhciTransferQueue)
      (owner : ep0 = some e)
      (made : bceVhciCreateTransferQueue e.desc (BitVec.ofNat 8 env.create.dev.toNat) .bidirectional
        env.queue.memory env.queue.reservations = some q) :
    RefreshCase w torn i ep0 env
      ({ (((w.deviceCreate env.create.dev.toNat).setPort i env.create.dev.toNat).setHcpriv e
          (some (torn.object, 0))).setDevice env.create.dev.toNat
          (some ((torn.setQueue 0 ⟨some e, some q⟩).setMask (tqBit 0))) with
        portResumeSkipReset := Function.update w.portResumeSkipReset i 2 }.use (.portResumeSkipReset i))

/-- The tables without the device to be refreshed, and the device torn down. -/
def refreshTorn (v : BceVhci) (i devid : Nat) (vdev : VhciDevice) (env : ResumeEnv) : BceVhci × VhciDevice :=
  let s := forLoop 32 refreshQueue (v, vdev)
  (((s.1.setDevice devid none).setPort i 0).deviceDestroy devid env.released, s.2)

theorem refreshPort_cases (v : BceVhci) (i devid : Nat) (vdev : VhciDevice) (env : ResumeEnv) :
    RefreshCase (v.refreshTorn i devid vdev env).1 ((v.refreshTorn i devid vdev env).2.setMask 0) i
      (vdev.tq 0).endp env (v.refreshPort i devid vdev env) := by
  unfold BceVhci.refreshPort refreshTorn
  dsimp only
  generalize forLoop 32 refreshQueue (v, vdev) = s
  generalize ((s.1.setDevice devid none).setPort i 0).deviceDestroy devid env.released = w
  split
  · exact .gaveUp
  split
  · exact .gaveUp
  split
  · exact .gaveUp
  rename_i ok
  have ok := not_ne_iff.mp ok
  split
  · rename_i missing
    exact .faulted ok missing
  · rename_i e owner
    simp only [VhciDevice.createQueue, VhciDevice.setQueue_self]
    cases made : bceVhciCreateTransferQueue e.desc (BitVec.ofNat 8 env.create.dev.toNat) .bidirectional
        env.queue.memory env.queue.reservations with
    | none => exact .undone ok _
    | some q => exact .refreshed ok e q owner made

/-- The T2's promise about ids goes back before a refresh. -/
theorem RefreshCase.honest {torn : VhciDevice} {ep0 : Option UsbHostEndpoint} {env : ResumeEnv} {i : Nat}
    (refresh : RefreshCase v torn i ep0 env w) (honest : w.t2.honest) : v.t2.honest := by
  cases refresh with
  | gaveUp => exact honest
  | faulted _ _ => exact (T2Devices.create_honest honest).1
  | undone _ created =>
    have honest : ((v.t2.create env.create.dev.toNat).destroy env.create.dev.toNat env.releasedAgain).honest :=
      honest
    rw [T2Devices.destroy_honest] at honest
    exact (T2Devices.create_honest honest).1
  | refreshed _ _ _ _ _ => exact (T2Devices.create_honest honest).1

/-- A device that has been torn down, behind its refresh. -/
theorem Detached.refresh {torn : VhciDevice} {ep0 : Option UsbHostEndpoint} {env : ResumeEnv}
    (apart : v.Detached tidy p torn) (owner : ∃ e, ep0 = some e ∧ e.udev.portnum = p ∧ e.index = 0)
    (refresh : RefreshCase v torn p ep0 env w) : w.Sound tidy := by
  obtain ⟨e, owner, here, index⟩ := owner
  intro honest
  cases refresh with
  | gaveUp => exact apart.inv.of_same rfl rfl (fun _ held => held) le_rfl rfl
  | faulted _ missing => cases missing.symm.trans owner
  | undone _ created =>
    have honest : ((v.t2.create env.create.dev.toNat).destroy env.create.dev.toNat env.releasedAgain).honest :=
      honest
    rw [T2Devices.destroy_honest] at honest
    obtain ⟨-, -, -, fresh⟩ := T2Devices.create_honest honest
    refine apart.inv.undo_create apart.free fresh env.releasedAgain ?_ ?_ ?_ ?_ ?_
    all_goals simp
  | refreshed _ e' q owner' made =>
    cases owner.symm.trans owner'
    obtain ⟨-, low, high, fresh⟩ := T2Devices.create_honest honest
    have tq : ((torn.setQueue 0 ⟨some e, some q⟩).setMask (tqBit 0)).tq =
        Function.update torn.tq 0 ⟨some e, some q⟩ := rfl
    refine apart.attach ⟨low, high⟩ fresh here index ?_ tq (VhciDevice.hasQueue_ep0 rfl) ?_ ?_ ?_ ?_ ?_
    all_goals simp

/-- What the tables are once they have forgotten a device to be refreshed. -/
theorem refreshTorn_detached (inv : v.Inv tidy) (held : v.mapped p = some dev) (env : ResumeEnv) :
    Detached (v.refreshTorn p (v.portToDevice p) dev env).1 tidy p
      ((v.refreshTorn p (v.portToDevice p) dev env).2.setMask 0) := by
  obtain ⟨apart, -⟩ := inv.detach held (refresh_tornDown v dev) env.released
  exact ⟨apart.inv, apart.free, apart.object, apart.new, apart.idle⟩

theorem refreshTorn_honest (v : BceVhci) (i devid : Nat) (dev : VhciDevice) (env : ResumeEnv) :
    (v.refreshTorn i devid dev env).1.t2.honest = v.t2.honest := by
  obtain ⟨hcpriv, frame⟩ := (refresh_tornDown v dev).frame
  unfold refreshTorn
  dsimp only
  rw [frame]
  exact T2Devices.destroy_honest

/-- A surviving device is refreshed. -/
theorem Sound.refreshPort (sound : v.Sound tidy) (held : v.mapped p = some dev) (env : ResumeEnv) :
    (v.refreshPort p (v.portToDevice p) dev env).Sound tidy := by
  intro honest
  have refresh := v.refreshPort_cases p (v.portToDevice p) dev env
  have inv := sound (refreshTorn_honest v p _ dev env ▸ refresh.honest honest)
  exact (refreshTorn_detached inv held env).refresh (inv.queues p dev held).1.ep0 refresh honest

/-- How a round of the resume can go at a port with a device. An endpoint that cannot be resumed in
place leaves the device to the refresh. -/
inductive ResumeCase (v : BceVhci) (i : Nat) (dev : VhciDevice) (env : ResumeEnv) : BceVhci → Prop
  | marked : ResumeCase v i dev env (v.reenumerate i)
  | inPlace (resumed : (dev.resumeQueues env.resume (List.range 32)).1) :
    ResumeCase v i dev env
      (v.setDevice (v.portToDevice i) (some (dev.resumeQueues env.resume (List.range 32)).2))
  | refreshed : ResumeCase v i dev env (v.refreshPort i (v.portToDevice i) dev env)
  | interrupted (vdev : VhciDevice) (alike : dev.Alike vdev) :
    ResumeCase v i dev env
      ((v.setDevice (v.portToDevice i) (some vdev)).refreshPort i (v.portToDevice i) vdev env)

/-- The tables are the same. -/
structure SameTables (v w : BceVhci) : Prop where
  portToDevice : w.portToDevice = v.portToDevice
  devices : w.devices = v.devices
  t2 : w.t2 = v.t2
  objects : w.objects = v.objects
  hcpriv : w.hcpriv = v.hcpriv
  reenumerate : w.portReenumerateMask = v.portReenumerateMask
  resume : w.portResumeMask = v.portResumeMask
  skipReset : w.portResumeSkipReset = v.portResumeSkipReset

theorem resumePort_cases (v : BceVhci) (i : Nat) (env : ResumeEnv) :
    (v.mapped i = none ∨ v.portToDevice i = 0) ∧ v.SameTables (v.resumePort i env) ∨
    ∃ dev, v.portToDevice i ≠ 0 ∧ v.mapped i = some dev ∧
      ResumeCase ((v.use (.portToDevice i)).use (.devices (v.portToDevice i))) i dev env (v.resumePort i env) := by
  unfold resumePort
  dsimp only
  split
  · rename_i unmapped
    exact .inl ⟨.inr unmapped, rfl, rfl, rfl, rfl, rfl, rfl, rfl, rfl⟩
  rename_i mapped
  split
  · rename_i missing
    exact .inl ⟨.inl missing, rfl, rfl, rfl, rfl, rfl, rfl, rfl, rfl⟩
  rename_i dev found
  refine .inr ⟨dev, mapped, found, ?_⟩
  split
  · exact .marked
  split
  · exact .marked
  split
  · split
    · rename_i resumed
      exact .inPlace resumed
    · exact .interrupted _ (VhciDevice.alike_resumeQueues env.resume (List.range 32) dev)
  · exact .refreshed

theorem ResumeCase.sound {env : ResumeEnv} {i : Nat} (resume : ResumeCase v i dev env w) (sound : v.Sound tidy)
    (held : v.mapped i = some dev) : w.Sound tidy := by
  have kept : ∀ {vdev}, dev.Alike vdev → (v.setDevice (v.portToDevice i) (some vdev)).Sound tidy := by
    intro vdev alike
    refine sound.of_alike held alike ?_ ?_ ?_ ?_ ?_
    all_goals simp
  cases resume with
  | marked => exact sound.of_same rfl rfl rfl rfl rfl
  | inPlace _ => exact kept (VhciDevice.alike_resumeQueues env.resume (List.range 32) dev)
  | refreshed => exact sound.refreshPort held env
  | interrupted vdev alike => exact (kept alike).refreshPort (Function.update_self ..) env

theorem Sound.resumePort (sound : v.Sound tidy) (i : Nat) (env : ResumeEnv) :
    (v.resumePort i env).Sound tidy := by
  rcases v.resumePort_cases i env with ⟨-, same⟩ | ⟨dev, -, held, resume⟩
  · exact sound.of_same same.portToDevice same.devices same.t2 same.objects same.hcpriv
  · exact resume.sound (sound.of_same rfl rfl rfl rfl rfl) held

theorem Sound.busResume (sound : v.Sound tidy) (env : BusResumeEnv) : (v.busResume env).Sound tidy := by
  unfold BceVhci.busResume
  split
  · exact sound
  split
  · exact sound.of_same rfl rfl rfl rfl rfl
  · have looped := forLoop_keeps (P := (Sound · tidy)) (n := 16) (f := fun i v => v.resumePort i (env.port i)) sound
      fun i _ _ sound => sound.resumePort i (env.port i)
    generalize forLoop 16 _ v = w at looped ⊢
    exact looped.of_same rfl rfl rfl rfl rfl

theorem Sound.recoverySignal (sound : v.Sound tidy) : v.recoverySignal.Sound tidy := by
  refine forLoop_keeps (P := (Sound · tidy)) sound fun i w _ sound => ?_
  split
  · exact sound.of_same rfl rfl rfl rfl rfl
  · exact sound.of_same rfl rfl rfl rfl rfl

theorem Sound.portStatusChange (sound : v.Sound tidy) (param1 : BitVec 32) :
    (v.portStatusChange param1).Sound tidy := by
  unfold BceVhci.portStatusChange
  dsimp only
  split
  · exact sound
  split
  · exact sound
  · exact sound.of_same rfl rfl rfl rfl rfl

theorem Sound.queueEvent (sound : v.Sound tidy) (param1 : BitVec 32) (after : BceVhciTransferQueue) :
    (v.queueEvent param1 after).Sound tidy := by
  unfold BceVhci.queueEvent
  dsimp only
  generalize (param1.setWidth 8).toNat = devid
  generalize (bceVhciEndpointIndex _).toNat = j
  split
  · exact sound
  split
  · exact sound.of_same rfl rfl rfl rfl rfl
  rename_i dev found
  have found : v.devices devid = some dev := found
  split
  · rename_i exists_
    intro honest
    obtain ⟨-, -, -, p, here⟩ := (sound honest).maps.owned devid dev found
    have held : v.mapped p = some dev := by
      rw [mapped, here, found]
    have alike : dev.Alike (dev.setQueue j { dev.tq j with queue := some after }) :=
      VhciDevice.alike_setQueue exists_.2.symm
    refine sound.of_alike held alike ?_ ?_ ?_ ?_ ?_ honest
    all_goals simp [here]
  · exact sound.of_same rfl rfl rfl rfl rfl

theorem Sound.hubControl (sound : v.Sound tidy) (request : HubRequest) (wIndex wLength : Nat) (env : HubEnv) :
    (v.hubControl request wIndex wLength env).2.2.Sound tidy := by
  unfold BceVhci.hubControl
  dsimp only
  split
  · exact sound
  split
  · split <;> exact sound
  · split <;> exact sound
  · split
    · exact sound.of_same rfl rfl rfl rfl rfl
    · exact sound
  · dsimp only
    split
    · exact sound.of_same rfl rfl rfl rfl rfl
    · exact sound
  · exact sound.resetDevice wIndex env.reset
  · exact sound
  · exact sound
  · dsimp only
    split
    · exact sound.of_same rfl rfl rfl rfl rfl
    · exact sound
  · exact sound.of_same rfl rfl rfl rfl rfl
  · exact sound
  · exact sound
  · exact sound

theorem started_sound (portMask : BitVec 16) : (started portMask).Sound tidy := by
  intro _
  refine ⟨⟨fun _ named => absurd rfl named, fun _ _ named => absurd rfl named, nofun, nofun, nofun⟩, ?_, nofun⟩
  exact fun _ _ mapped => nomatch mapped

/-- Where the endpoint's queue is there, it was created for this endpoint. -/
def OwnsQueue (v : BceVhci) (endp : UsbHostEndpoint) : Prop :=
  ∀ vdev ∈ v.mapped endp.udev.portnum, vdev.hasQueue endp.index → (vdev.tq endp.index).endp = some endp

instance (v : BceVhci) (endp : UsbHostEndpoint) : Decidable (v.OwnsQueue endp) :=
  inferInstanceAs (Decidable (∀ vdev ∈ _, _))

/-- An endpoint is not added where another endpoint has its queue, and one without a queue of its
own is not dropped there. -/
def Owns (v : BceVhci) : VhciStep → Prop
  | .addEndpoint endp _ _ => endp.udev.portnum = 0 ∨ v.OwnsQueue endp
  | .dropEndpoint endp => v.hcpriv endp ≠ none ∨ v.OwnsQueue endp
  | _ => True

instance (v : BceVhci) (a : VhciStep) : Decidable (v.Owns a) := by
  unfold Owns
  split <;> infer_instance

theorem Sound.step {a : VhciStep} (sound : v.Sound tidy) (owns : tidy → v.Owns a) (run : v.step a = some w) :
    w.Sound tidy := by
  cases a with
  | hubControl request wIndex wLength env =>
    cases Option.some.inj run
    exact sound.hubControl request wIndex wLength env
  | enableDevice udev env =>
    cases (Option.ite_none_right_eq_some.mp run).2
    exact sound.enableDevice udev env
  | freeDevice udev released =>
    cases (Option.ite_none_right_eq_some.mp run).2
    exact sound.freeDevice udev released
  | addEndpoint endp queue create =>
    cases (Option.ite_none_right_eq_some.mp run).2
    exact sound.addEndpoint queue create fun holds vdev port held => (owns holds).resolve_left port vdev held
  | dropEndpoint endp =>
    cases (Option.ite_none_right_eq_some.mp run).2
    exact sound.dropEndpoint fun holds vdev held null => (owns holds).resolve_left (not_ne_iff.mpr null) vdev held
  | busSuspend env =>
    cases Option.some.inj run
    exact sound.busSuspend env
  | busResume env =>
    cases Option.some.inj run
    exact sound.busResume env
  | resumePort i env =>
    cases (Option.ite_none_right_eq_some.mp run).2
    exact sound.resumePort i env
  | recoveryCancelAll =>
    cases Option.some.inj run
    exact sound.recoveryCancelAll
  | recoverySignal =>
    cases Option.some.inj run
    exact sound.recoverySignal
  | portStatusChange param1 =>
    cases Option.some.inj run
    exact sound.portStatusChange param1
  | queueEvent param1 after =>
    cases Option.some.inj run
    exact sound.queueEvent param1 after

theorem sound_of_reach (tidy : Prop) {C : BceVhci → VhciStep → Prop} (owns : ∀ v a, C v a → tidy → v.Owns a)
    (reach : machine.ReachableUnder C v) : v.Sound tidy := by
  refine reach.invariant (I := (Sound · tidy)) ?_ fun _ _ _ sound cond run => sound.step (owns _ _ cond) run
  rintro _ ⟨portMask, rfl⟩
  exact started_sound portMask

/-- The tables of ports, devices and endpoints fit each other. -/
structure Consistent (v : BceVhci) : Prop where
  named : ∀ p, v.portToDevice p ≠ 0 → (v.devices (v.portToDevice p)).isSome
  apart : ∀ p q, v.portToDevice p ≠ 0 → v.portToDevice p = v.portToDevice q → p = q
  owned : ∀ d, (v.devices d).isSome → ∃! p, v.portToDevice p = d
  hcpriv : ∀ e o j, v.hcpriv e = some (o, j) → ∃ p vdev, v.portToDevice p ≠ 0 ∧
    v.devices (v.portToDevice p) = some vdev ∧ vdev.object = o ∧ vdev.hasQueue j
  queues : ∀ d vdev j, v.devices d = some vdev → (vdev.hasQueue j ↔ (vdev.tq j).queue.isSome)

/-- As long as the T2 hands out free ids only, the tables fit each other in every run in which no
endpoint is added or dropped at the queue of another one. -/
theorem tables_consistent (reach : machine.ReachableUnder Owns v) (honest : v.t2.honest) : v.Consistent := by
  have inv := sound_of_reach True (fun _ _ owns _ => owns) reach honest
  refine ⟨inv.maps.named, inv.maps.apart, ?_, ?_, ?_⟩
  · intro d found
    obtain ⟨vdev, found⟩ := Option.isSome_iff_exists.mp found
    obtain ⟨nonzero, -, -, p, here⟩ := inv.maps.owned d vdev found
    refine ⟨p, here, fun q there => ?_⟩
    exact (inv.maps.apart p q (here ▸ nonzero) (here.trans there.symm)).symm
  · intro e o j pointer
    obtain ⟨vdev, held, points⟩ := inv.pointers trivial e o j pointer
    exact ⟨_, vdev, inv.maps.port_ne_zero held, held, points.object, points.hasQueue⟩
  · intro d vdev j found
    obtain ⟨-, -, -, p, here⟩ := inv.maps.owned d vdev found
    have held : v.mapped p = some vdev := by
      rw [mapped, here, found]
    exact Bool.eq_iff_iff.mp ((inv.queues p vdev held).2 trivial j)

end BceVhci

/-- There is memory for every queue, and room for every message. -/
def QueueEnv.plenty : QueueEnv :=
  ⟨⟨true, true, true⟩, []⟩

/-- The T2 creates a device under this id. -/
def BceVhci.EnableEnv.created (devid : BitVec 8) : BceVhci.EnableEnv :=
  ⟨⟨0, devid⟩, true, .plenty, true⟩

/-- A device on port 1, and its bulk IN endpoint in each alternate setting. -/
def sampleDevice : UsbDevice :=
  ⟨1, 0⟩

def sampleEndpoint (setting : Nat) : UsbHostEndpoint :=
  ⟨sampleDevice, bulkIn, setting⟩

namespace BceVhci

/-- What the steps from a start with one port lead to. -/
def ranUnder (C : BceVhci → VhciStep → Prop) [∀ v a, Decidable (C v a)] (portMask : BitVec 16)
    (steps : List VhciStep) : Option BceVhci :=
  (machine.guard C).run (started portMask) steps

theorem reachableUnder_of_ran {β : Type} {C : BceVhci → VhciStep → Prop} [∀ v a, Decidable (C v a)]
    {portMask : BitVec 16} {steps : List VhciStep} {view : BceVhci → β} {x : β}
    (ran : (ranUnder C portMask steps).map view = some x) : ∃ v, machine.ReachableUnder C v ∧ view v = x := by
  obtain ⟨v, ran, seen⟩ := Option.map_eq_some_iff.mp ran
  exact ⟨v, .of_run ⟨portMask, rfl⟩ steps ran, seen⟩

/-- A change of the alternate setting that ends well. -/
theorem tables_consistent_setting : ∃ v, machine.ReachableUnder Owns v ∧
    v.hcpriv (sampleEndpoint 1) = some (0, 17) ∧ v.Consistent := by
  have ran : (ranUnder Owns 3 [.enableDevice sampleDevice (.created 1), .addEndpoint (sampleEndpoint 0) .plenty 0,
      .dropEndpoint (sampleEndpoint 0), .addEndpoint (sampleEndpoint 1) .plenty 0]).map
      (fun v => (v.hcpriv (sampleEndpoint 1), v.t2.honest)) = some (some (0, 17), true) := by
    decide
  obtain ⟨v, reach, seen⟩ := reachableUnder_of_ran ran
  simp only [Prod.mk.injEq] at seen
  exact ⟨v, reach, seen.1, tables_consistent reach seen.2⟩

/-- A change of the alternate setting fails behind the first endpoint, and the USB core tries again:
it drops the endpoint of the old setting once more. -/
theorem dropped_twice_dangles : ¬∀ v, machine.Reachable v → v.t2.honest → v.Consistent := by
  intro fits
  have ran : (ranUnder (fun _ _ => True) 3 [.enableDevice sampleDevice (.created 1),
      .addEndpoint (sampleEndpoint 0) .plenty 0, .dropEndpoint (sampleEndpoint 0),
      .addEndpoint (sampleEndpoint 1) .plenty 0, .dropEndpoint (sampleEndpoint 0)]).map
      (fun v => (v.portToDevice, v.hcpriv (sampleEndpoint 1), v.t2.honest,
        (v.devices 1).map fun vdev => vdev.hasQueue 17)) =
        some (Function.update (fun _ => 0) 1 1, some (0, 17), true, some false) := by
    rfl
  obtain ⟨v, reach, seen⟩ := reachableUnder_of_ran ran
  simp only [Prod.mk.injEq] at seen
  obtain ⟨ports, pointer, honest, bit⟩ := seen
  obtain ⟨p, vdev, mapped, found, -, has⟩ := (fits v reach honest).hcpriv _ _ _ pointer
  have only : p = 1 := by
    by_contra apart
    rw [ports, Function.update_of_ne apart] at mapped
    exact mapped rfl
  rw [only, ports, Function.update_self] at found
  rw [found, Option.map_some, has] at bit
  cases bit

end BceVhci

end AppleBce

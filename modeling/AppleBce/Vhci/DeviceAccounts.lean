import AppleBce.Vhci.TableBounds

namespace AppleBce

open Basis

namespace BceVhci

variable {v w : BceVhci} {dev vdev : VhciDevice} {p object devid : Nat}
  {freed : List Nat}

/-- The port is mapped to the object. The id 0 means that there is no device, and the table of the
devices has no room for the ids from 16 on. -/
structure Reaches (v : BceVhci) (p object : Nat) : Prop where
  low : 1 ≤ v.portToDevice p
  high : v.portToDevice p ≤ 15
  held : ∃ dev, v.devices (v.portToDevice p) = some dev ∧ dev.object = object

/-- An operation at the port that began with `freed` has kept the object, or freed it once. -/
inductive Accounts (w : BceVhci) (freed : List Nat) (p object : Nat) : Prop
  | kept (reaches : w.Reaches p object) (same : w.freed = freed)
  | released (unmapped : w.portToDevice p = 0) (once : w.freed = freed ++ [object])

theorem not_reaches_unmapped (unmapped : w.portToDevice p = 0) : ¬ w.Reaches p object := by
  intro reaches
  have low := reaches.low
  omega

/-- An object that leaves the table and is not freed is lost. -/
theorem not_accounts_dropped (unmapped : w.portToDevice p = 0) (same : w.freed = freed) :
    ¬ w.Accounts freed p object := by
  intro accounts
  cases accounts with
  | kept reaches _ => exact not_reaches_unmapped unmapped reaches
  | released _ more =>
    rw [same] at more
    exact absurd more (by simp)

/-- A device that is put into the table is kept when its id is one of the table. -/
theorem accounts_put_iff {devices : Nat → Option VhciDevice} (port : w.portToDevice p = devid)
    (put : w.devices = Function.update devices devid (some dev)) (own : dev.object = object)
    (same : w.freed = freed) : w.Accounts freed p object ↔ 1 ≤ devid ∧ devid ≤ 15 := by
  constructor
  · intro accounts
    cases accounts with
    | kept reaches _ => exact ⟨port ▸ reaches.low, port ▸ reaches.high⟩
    | released _ once =>
      rw [same] at once
      exact absurd once (by simp)
  · rintro ⟨low, high⟩
    have found : w.devices (w.portToDevice p) = some dev := by
      rw [put, port, Function.update_self]
    exact .kept ⟨port.symm ▸ low, port.symm ▸ high, dev, found, own⟩ same

theorem recreateQueue_object (devid : Nat) (env : Nat → QueueEnv) (v : BceVhci) (dev : VhciDevice) :
    (forLoop 32 (recreateQueue devid env) (v, dev)).2.object = dev.object := by
  refine forLoop_keeps (P := fun s : BceVhci × VhciDevice => s.2.object = dev.object) rfl ?_
  rintro i s - same
  unfold recreateQueue
  split
  · split
    · exact same
    · rename_i endp owner
      dsimp only
      generalize made : s.2.createQueue i endp devid _ (env i) = created
      have object : created.object = s.2.object := by
        rw [← made]
        rfl
      split
      · exact object.trans same
      · exact object.trans same
  · exact same

/-- A device that was torn down comes back under the id the T2 gives. -/
theorem recreated_accounts (w : BceVhci) (p devid : Nat) (dev : VhciDevice) (env : Nat → QueueEnv)
    {s : BceVhci × VhciDevice}
    (loop : forLoop 32 (recreateQueue devid env) ((w.deviceCreate devid).setPort p devid, dev) = s) :
    (s.1.setDevice devid (some s.2)).Accounts w.freed p dev.object ↔ 1 ≤ devid ∧ devid ≤ 15 := by
  obtain ⟨hcpriv, frame⟩ := recreate_frame devid env ((w.deviceCreate devid).setPort p devid) dev
  have own := recreateQueue_object devid env ((w.deviceCreate devid).setPort p devid) dev
  rw [loop] at frame own
  refine accounts_put_iff ?_ rfl own ?_
  · rw [setDevice_portToDevice, frame]
    exact Function.update_self ..
  · have same : s.1.freed = w.freed := by
      rw [frame]
      rfl
    exact same

/-- What a reset of a mapped port meets where it ends well. -/
structure ResetEnv.Fine (env : ResetEnv) : Prop where
  portReset : env.portReset = 0
  create : env.create.status = 0
  low : 1 ≤ env.create.dev.toNat
  high : env.create.dev.toNat ≤ 15

theorem resetMapped_accounts (v : BceVhci) (p devid : Nat) (dev : VhciDevice) (env : ResetEnv) :
    ((v.resetMapped p devid dev env).2.Accounts v.freed p dev.object ∧
      (env.portReset ≠ 0 → (v.resetMapped p devid dev env).1 = env.portReset)) ↔ env.Fine := by
  unfold resetMapped
  dsimp only
  have torn := tearDownQueues_tornDown v dev
  obtain ⟨hcpriv, frame⟩ := torn.frame
  have object := torn.object
  generalize v.tearDownQueues dev = s at frame object ⊢
  have same : (((s.1.setDevice devid none).setPort p 0).deviceDestroy devid env.released).freed =
      v.freed := by
    rw [frame]
    rfl
  have unmapped : (((s.1.setDevice devid none).setPort p 0).deviceDestroy devid
      env.released).portToDevice p = 0 := Function.update_self ..
  generalize ((s.1.setDevice devid none).setPort p 0).deviceDestroy devid env.released = w
    at same unmapped ⊢
  rw [← object, ← same]
  by_cases created : env.create.status = 0
  · rw [if_neg (not_not.mpr created), recreated_accounts w p env.create.dev.toNat s.2 env.queue rfl]
    constructor
    · rintro ⟨⟨low, high⟩, reports⟩
      refine ⟨?_, created, low, high⟩
      by_contra failed
      exact failed (reports failed).symm
    · exact fun fine => ⟨⟨fine.low, fine.high⟩, fun failed => absurd fine.portReset failed⟩
  · rw [if_pos created]
    constructor
    · exact fun fine => absurd fine.1 (not_accounts_dropped unmapped rfl)
    · exact fun fine => absurd fine.create created

/-- A reset of a mapped port keeps or frees the device and reports a failed `PORT_RESET` exactly when
it is skipped, or the port is reset and the device created again under an id of the table. -/
theorem resetDevice_accounts (mapped : v.Reaches p object) (env : ResetEnv) :
    ((v.resetDevice p env).2.Accounts v.freed p object ∧
      (v.portResumeSkipReset p = 0 → env.portReset ≠ 0 → (v.resetDevice p env).1 = env.portReset)) ↔
      0 < v.portResumeSkipReset p ∨ env.Fine := by
  obtain ⟨dev, found, rfl⟩ := mapped.held
  unfold resetDevice
  dsimp only
  split
  · rename_i skipped
    have skipped : 0 < v.portResumeSkipReset p := skipped
    constructor
    · exact fun _ => Or.inl skipped
    · intro _
      refine ⟨.kept ⟨mapped.low, mapped.high, dev, found, rfl⟩ rfl, ?_⟩
      intro sent
      omega
  · rename_i sent
    have sent : v.portResumeSkipReset p = 0 := Nat.eq_zero_of_not_pos sent
    have port : v.portToDevice p ≠ 0 := Nat.pos_iff_ne_zero.mp mapped.low
    split
    · rename_i unmapped
      exact absurd unmapped port
    split
    · rename_i missing
      cases missing.symm.trans found
    · rename_i other also
      cases also.symm.trans found
      have reset := resetMapped_accounts (((v.use (.portResumeSkipReset p)).use (.portToDevice p)).use
        (.devices (v.portToDevice p))) p (v.portToDevice p) dev env
      constructor
      · rintro ⟨accounts, reports⟩
        exact Or.inr (reset.mp ⟨accounts, reports sent⟩)
      · rintro (skipped | fine)
        · omega
        · obtain ⟨accounts, reports⟩ := reset.mpr fine
          exact ⟨accounts, fun _ => reports⟩

/-- What the refresh of a mapped port meets where it ends well: it is given up in time, or the device
gets an id of the table. -/
def ResumeEnv.Fine (env : ResumeEnv) (ep0 : Option UsbHostEndpoint) : Prop :=
  env.deviceDestroy ≠ 0 ∨ env.portReset ≠ 0 ∨ env.create.status ≠ 0 ∨
    (∃ e, ep0 = some e ∧ bceVhciCreateTransferQueue e.desc (BitVec.ofNat 8 env.create.dev.toNat)
      .bidirectional env.queue.memory env.queue.reservations = none) ∨
    1 ≤ env.create.dev.toNat ∧ env.create.dev.toNat ≤ 15

theorem refreshPort_accounts (v : BceVhci) (p devid : Nat) (dev : VhciDevice) (env : ResumeEnv) :
    ((v.refreshPort p devid dev env).Accounts v.freed p dev.object ∧
      (env.deviceDestroy = 0 → env.portReset ≠ 0 →
        p ∈ (v.refreshPort p devid dev env).portReenumerateMask)) ↔ env.Fine (dev.tq 0).endp := by
  unfold refreshPort
  dsimp only
  have torn := refresh_tornDown v dev
  obtain ⟨hcpriv, frame⟩ := torn.frame
  have object := torn.object
  generalize forLoop 32 refreshQueue (v, dev) = s at frame object ⊢
  have same : (((s.1.setDevice devid none).setPort p 0).deviceDestroy devid env.released).freed =
      v.freed := by
    rw [frame]
    rfl
  have unmapped : (((s.1.setDevice devid none).setPort p 0).deviceDestroy devid
      env.released).portToDevice p = 0 := Function.update_self ..
  generalize ((s.1.setDevice devid none).setPort p 0).deviceDestroy devid env.released = w
    at same unmapped ⊢
  rw [← object, ← same]
  have gaveUp : ((w.kfree (s.2.setMask 0)).reenumerate p).Accounts w.freed p s.2.object ∧
      p ∈ ((w.kfree (s.2.setMask 0)).reenumerate p).portReenumerateMask :=
    ⟨.released unmapped rfl, Finset.mem_insert_self ..⟩
  unfold ResumeEnv.Fine
  by_cases destroyed : env.deviceDestroy = 0
  swap
  · rw [if_pos destroyed]
    exact ⟨fun _ => Or.inl destroyed, fun _ => ⟨gaveUp.1, fun _ _ => gaveUp.2⟩⟩
  rw [if_neg (not_not.mpr destroyed)]
  by_cases reset : env.portReset = 0
  swap
  · rw [if_pos reset]
    exact ⟨fun _ => Or.inr (Or.inl reset), fun _ => ⟨gaveUp.1, fun _ _ => gaveUp.2⟩⟩
  rw [if_neg (not_not.mpr reset)]
  by_cases created : env.create.status = 0
  swap
  · rw [if_pos created]
    exact ⟨fun _ => Or.inr (Or.inr (Or.inl created)), fun _ => ⟨gaveUp.1, fun _ _ => gaveUp.2⟩⟩
  rw [if_neg (not_not.mpr created)]
  simp only [destroyed, reset, created, ne_eq, not_true_eq_false, false_or, false_implies,
    implies_true, and_true]
  have port : ((w.deviceCreate env.create.dev.toNat).setPort p env.create.dev.toNat).portToDevice p =
      env.create.dev.toNat := Function.update_self ..
  cases owner : (dev.tq 0).endp with
  | none =>
    simp only [reduceCtorEq, false_and, exists_false, false_or]
    exact accounts_put_iff port rfl rfl rfl
  | some e =>
    simp only [VhciDevice.createQueue, VhciDevice.setQueue_self, Option.some.injEq,
      exists_eq_left']
    cases made : bceVhciCreateTransferQueue e.desc (BitVec.ofNat 8 env.create.dev.toNat) .bidirectional
        env.queue.memory env.queue.reservations with
    | none =>
      simp only [Option.isNone_none, if_true, true_or, iff_true]
      refine .released ?_ rfl
      exact Function.update_self ..
    | some q =>
      simp only [Option.isNone_some, Bool.false_eq_true, if_false, reduceCtorEq, false_or]
      exact accounts_put_iff port rfl rfl rfl

/-- What `bce_vhci_enable_device` meets where it ends well: it makes no device, or gives it an id that
does not mean that there is none. -/
def EnableEnv.Fine (env : EnableEnv) (udev : UsbDevice) : Prop :=
  env.create.status = 0 → env.allocated →
    (bceVhciCreateTransferQueue udev.ep0.desc (BitVec.ofNat 8 env.create.dev.toNat) .bidirectional
      env.queue.memory env.queue.reservations).isSome → 1 ≤ env.create.dev.toNat

/-- The operation has allocated nothing and freed nothing, or accounts for the device it allocated. -/
def AccountsNew (v w : BceVhci) (p : Nat) : Prop :=
  (w.objects = v.objects ∧ w.freed = v.freed) ∨
    (w.objects = v.objects + 1 ∧ w.Accounts v.freed p v.objects)

theorem AccountsNew.none (objects : w.objects = v.objects) (same : w.freed = v.freed) :
    AccountsNew v w p :=
  Or.inl ⟨objects, same⟩

theorem accountsNew_iff (objects : w.objects = v.objects + 1) :
    AccountsNew v w p ↔ w.Accounts v.freed p v.objects := by
  constructor
  · rintro (⟨also, -⟩ | ⟨-, accounts⟩)
    · omega
    · exact accounts
  · exact fun accounts => Or.inr ⟨objects, accounts⟩

theorem attachDevice_accounts (v : BceVhci) (udev : UsbDevice) (devid : Nat) (env : EnableEnv)
    (high : devid ≤ 15) :
    AccountsNew v (v.attachDevice udev devid env).2 udev.portnum ↔
      ((bceVhciCreateTransferQueue udev.ep0.desc (BitVec.ofNat 8 devid) .bidirectional
        env.queue.memory env.queue.reservations).isSome → 1 ≤ devid) := by
  unfold attachDevice
  simp only [VhciDevice.createQueue, VhciDevice.setQueue_self]
  cases made : bceVhciCreateTransferQueue udev.ep0.desc (BitVec.ofNat 8 devid) .bidirectional
      env.queue.memory env.queue.reservations with
  | none =>
    simp only [Option.isNone_none, if_true, Option.isSome_none, Bool.false_eq_true, false_implies,
      iff_true]
    refine (accountsNew_iff rfl).mpr (.released ?_ rfl)
    exact Function.update_self ..
  | some q =>
    have port : (v.kzalloc.setPort udev.portnum devid).portToDevice udev.portnum = devid :=
      Function.update_self ..
    simp only [Option.isNone_some, Bool.false_eq_true, if_false, Option.isSome_some, true_implies]
    refine Iff.trans (accountsNew_iff rfl) ?_
    exact Iff.trans (accounts_put_iff port rfl rfl rfl) (and_iff_left high)

/-- A port that has a device keeps it, and one that gets a device accounts for it unless it is given
the id 0. -/
theorem enableDevice_accounts (v : BceVhci) (udev : UsbDevice) (env : EnableEnv) :
    (AccountsNew v (v.enableDevice udev env).2 udev.portnum ∧
      ∀ object, v.Reaches udev.portnum object →
        (v.enableDevice udev env).2.Accounts v.freed udev.portnum object) ↔
      v.portToDevice udev.portnum ≠ 0 ∨ env.Fine udev := by
  by_cases mapped : v.portToDevice udev.portnum ≠ 0
  · have stays : v.enableDevice udev env = (0, v.use (.portToDevice udev.portnum)) := if_pos mapped
    rw [stays]
    refine ⟨fun _ => Or.inl mapped, fun _ => ⟨.none rfl rfl, ?_⟩⟩
    intro object reaches
    exact .kept ⟨reaches.low, reaches.high, reaches.held⟩ rfl
  have vacant : ∀ object, v.Reaches udev.portnum object →
      (v.enableDevice udev env).2.Accounts v.freed udev.portnum object :=
    fun object reaches => absurd reaches (not_reaches_unmapped (not_not.mp mapped))
  rw [and_iff_left vacant, or_iff_right mapped]
  have begins : v.enableDevice udev env =
      (if env.create.status ≠ 0 then (Errno.io.neg, v.use (.portToDevice udev.portnum))
      else if 16 ≤ env.create.dev.toNat then
        (Errno.io.neg, ((v.use (.portToDevice udev.portnum)).deviceCreate
          env.create.dev.toNat).deviceDestroy env.create.dev.toNat env.released)
      else if ¬env.allocated then
        (Errno.nomem.neg, ((v.use (.portToDevice udev.portnum)).deviceCreate
          env.create.dev.toNat).deviceDestroy env.create.dev.toNat env.released)
      else ((v.use (.portToDevice udev.portnum)).deviceCreate env.create.dev.toNat).attachDevice udev
        env.create.dev.toNat env) := if_neg mapped
  rw [begins]
  unfold EnableEnv.Fine
  by_cases created : env.create.status = 0
  swap
  · rw [if_pos created]
    exact ⟨fun _ zero => absurd zero created, fun _ => .none rfl rfl⟩
  rw [if_neg (not_not.mpr created)]
  by_cases high : 16 ≤ env.create.dev.toNat
  · rw [if_pos high]
    exact ⟨fun _ _ _ _ => by omega, fun _ => .none rfl rfl⟩
  rw [if_neg high]
  by_cases allocated : env.allocated
  · rw [if_neg (not_not.mpr allocated)]
    have attached := attachDevice_accounts ((v.use (.portToDevice udev.portnum)).deviceCreate
      env.create.dev.toNat) udev env.create.dev.toNat env (by omega)
    exact attached.trans ⟨fun low _ _ => low, fun fine => fine created allocated⟩
  · rw [if_pos allocated]
    exact ⟨fun _ _ made => absurd made allocated, fun _ => .none rfl rfl⟩

/-- Whether each operation that rebuilds the device at a port keeps the object it began with or frees
it once, and reports a failed `PORT_RESET`. A reset of a mapped port does exactly when it is skipped,
or `PORT_RESET` and `DEVICE_CREATE` succeed and the id is one of the table; a refresh exactly when it
gives up or the id is one of the table; the making of a device unless it gets the id 0. -/
theorem device_accounted_iff (v : BceVhci) :
    (∀ p object env, v.Reaches p object →
      (((v.resetDevice p env).2.Accounts v.freed p object ∧
        (v.portResumeSkipReset p = 0 → env.portReset ≠ 0 → (v.resetDevice p env).1 = env.portReset)) ↔
          0 < v.portResumeSkipReset p ∨ env.Fine)) ∧
    (∀ p dev env, v.mapped p = some dev →
      (((v.refreshPort p (v.portToDevice p) dev env).Accounts v.freed p dev.object ∧
        (env.deviceDestroy = 0 → env.portReset ≠ 0 →
          p ∈ (v.refreshPort p (v.portToDevice p) dev env).portReenumerateMask)) ↔
            env.Fine (dev.tq 0).endp)) ∧
    ∀ udev env,
      ((AccountsNew v (v.enableDevice udev env).2 udev.portnum ∧
        ∀ object, v.Reaches udev.portnum object →
          (v.enableDevice udev env).2.Accounts v.freed udev.portnum object) ↔
            v.portToDevice udev.portnum ≠ 0 ∨ env.Fine udev) := by
  refine ⟨?_, ?_, v.enableDevice_accounts⟩
  · exact fun p object env mapped => resetDevice_accounts mapped env
  · exact fun p dev env _ => v.refreshPort_accounts p (v.portToDevice p) dev env

/-- A device on port 1 with id 3. -/
def enabledSample : BceVhci :=
  ((started 3).enableDevice sampleDevice (.created 3)).2

theorem enabledSample_reachable : machine.Reachable enabledSample :=
  (Machine.Reachable.start (M := machine) ⟨3, rfl⟩).next (a := .enableDevice sampleDevice (.created 3)) rfl

theorem enabledSample_reaches : enabledSample.Reaches 1 0 :=
  ⟨by decide, by decide, _, rfl, rfl⟩

/-- The device is created again under id 5. -/
theorem device_accounted_iff_reset : ∃ v, machine.Reachable v ∧ v.Reaches 1 0 ∧
    (v.resetDevice 1 ⟨true, 0, ⟨0, 5⟩, fun _ => .plenty⟩).2.Accounts v.freed 1 0 := by
  have fine : (⟨true, 0, ⟨0, 5⟩, fun _ => .plenty⟩ : ResetEnv).Fine := ⟨rfl, rfl, by decide, by decide⟩
  have accounted := ((device_accounted_iff enabledSample).1 1 0 _ enabledSample_reaches).mpr (Or.inr fine)
  exact ⟨enabledSample, enabledSample_reachable, enabledSample_reaches, accounted.1⟩

/-- A device that cannot be created again is lost, and a failed reset before one that can is reported
as a success. -/
theorem reset_loses_device :
    (¬ ∀ v p object env, machine.Reachable v → v.Reaches p object →
      (v.resetDevice p env).2.Accounts v.freed p object) ∧
    ¬ ∀ v p object (env : ResetEnv), machine.Reachable v → v.Reaches p object →
      v.portResumeSkipReset p = 0 → env.portReset ≠ 0 → (v.resetDevice p env).1 = env.portReset := by
  constructor
  · intro accounts
    have kept := accounts enabledSample 1 0 ⟨true, 0, ⟨-5, 0⟩, fun _ => .plenty⟩
      enabledSample_reachable enabledSample_reaches
    exact not_accounts_dropped (by decide +kernel) (by decide +kernel) kept
  · intro reports
    have reported := reports enabledSample 1 0 ⟨true, -110, ⟨0, 5⟩, fun _ => .plenty⟩
      enabledSample_reachable enabledSample_reaches (by decide) (by decide)
    exact absurd reported (by decide +kernel)

end BceVhci

end AppleBce

import AppleBce.Vhci.MapRuns
import AppleBce.Vhci.PauseSources

namespace AppleBce

open Basis

namespace BceVhciTransferQueue

variable {q q' q'' : BceVhciTransferQueue}

/-- A queue is paused by the suspend of the bus. -/
structure Suspended (q q' : BceVhciTransferQueue) : Prop where
  pausedBy : q'.pausedBy = q.pausedBy ||| BceVhciPauseSource.suspend.bit
  active : q'.active = (q.active && q.pausedBy != 0)

theorem busSuspend_suspended (q : BceVhciTransferQueue) (env : PauseEnv) : q.Suspended (q.busSuspend env) := by
  unfold busSuspend
  split
  · rename_i unpaused
    obtain ⟨active, -, pausedBy⟩ := setStateAnswered_flags { q with active := false } env
    refine ⟨congrArg (· ||| BceVhciPauseSource.suspend.bit) pausedBy, active.trans ?_⟩
    rw [unpaused]
    exact (Bool.and_false _).symm
  · rename_i paused
    refine ⟨rfl, ?_⟩
    rw [bne_iff_ne.mpr paused, Bool.and_true]
    rfl

theorem Suspended.pausedFor (suspended : q.Suspended q') : q'.pausedFor .suspend := by
  rw [BceVhciTransferQueue.pausedFor, suspended.pausedBy]
  exact q.setPaused_pausedFor .suspend

/-- Suspending twice is suspending once. -/
theorem Suspended.again (suspended : q.Suspended q') (twice : q'.Suspended q'') : q.Suspended q'' where
  pausedBy := by
    rw [twice.pausedBy, suspended.pausedBy, BitVec.or_assoc, BitVec.or_self]
  active := by
    rw [twice.active, bne_iff_ne.mpr (pausedBy_ne_zero suspended.pausedFor), Bool.and_true, suspended.active]

/-- The queues that a suspend leaves as they were are those it had suspended before. -/
theorem Suspended.kept_iff (suspended : q.Suspended q') :
    (q'.active = q.active ∧ q'.pausedBy = q.pausedBy) ↔ q.pausedFor .suspend := by
  constructor
  · rintro ⟨-, pausedBy⟩
    rw [BceVhciTransferQueue.pausedFor, ← pausedBy]
    exact suspended.pausedFor
  · intro held
    refine ⟨?_, suspended.pausedBy.trans (BceVhciPauseSource.or_bit_of_held (pausedFor_iff.mp held))⟩
    rw [suspended.active, bne_iff_ne.mpr (pausedBy_ne_zero held), Bool.and_true]

end BceVhciTransferQueue

/-- The steps of the suspend of the bus at a transfer queue. -/
def BceVhciTransferQueue.suspendSteps (q : BceVhciTransferQueue) (env : PauseEnv) : List TransferStep :=
  if q.pausedBy = 0 then [.lock .suspend, .advance env, .advance env] else [.lock .suspend]

/-- What the suspend of the bus does to a queue is what its sections do one after the other. -/
theorem TransferRun.run_suspendSteps {s : TransferRun} {env : PauseEnv} (free : s.holder = none)
    (idle : s.unlocked) (alive : ¬(s.q.nullSq ∨ s.teardown = .destroyed)) :
    TransferRun.machine.run s (s.q.suspendSteps env) = some { s with q := s.q.busSuspend env } := by
  have taken : s.step (.lock .suspend) = s.lockStep false .suspend := by
    rw [TransferRun.step, if_neg alive]
    exact if_pos ⟨free, nofun⟩
  unfold BceVhciTransferQueue.suspendSteps BceVhciTransferQueue.busSuspend
  by_cases unpaused : s.q.pausedBy = 0
  · let stopped := { s with q := { s.q with active := false } }.goto false .suspendCommand
    let told := { stopped with q := stopped.q.setStateAnswered env }.goto false .suspendSet
    have lock : machine.step s (.lock .suspend) = some stopped := by
      refine taken.trans ?_
      rw [lockStep, if_neg (not_not.mpr unpaused), if_pos idle]
    have command : machine.step stopped (.advance env) = some told := by
      refine (if_neg alive).trans ?_
      rfl
    have set : machine.step told (.advance env) =
        some ({ told with q := told.q.setPaused .suspend }.release false) := by
      have alive : ¬(told.q.nullSq ∨ told.teardown = .destroyed) := by
        show ¬((BceVhciTransferQueue.setStateAnswered _ env).nullSq ∨ _)
        unfold BceVhciTransferQueue.setStateAnswered
        split <;> exact alive
      refine (if_neg alive).trans ?_
      rfl
    rw [if_pos unpaused, if_pos unpaused, Machine.run_cons, lock, Option.bind_some, Machine.run_cons, command,
      Option.bind_some, Machine.run_single set, release, if_neg Bool.false_ne_true, ← free]
    rfl
  · rw [if_neg unpaused, if_neg unpaused]
    refine Machine.run_single (taken.trans ?_)
    rw [lockStep, if_pos unpaused, release, if_neg Bool.false_ne_true, ← free]

/-- The queue is suspended in one case, and left alone in the other. -/
structure BceVhciTransferQueue.SuspendedIf (which : Prop) (q q' : BceVhciTransferQueue) : Prop where
  suspended : which → q.Suspended q'
  same : ¬which → q' = q

theorem BceVhciTransferQueue.SuspendedIf.or {q q' q'' : BceVhciTransferQueue} {first second : Prop}
    (one : q.SuspendedIf first q') (two : q'.SuspendedIf second q'') : q.SuspendedIf (first ∨ second) q'' := by
  refine ⟨?_, ?_⟩
  · intro which
    by_cases again : second
    · have twice := two.suspended again
      by_cases before : first
      · exact (one.suspended before).again twice
      · rwa [one.same before] at twice
    · rw [two.same again]
      exact one.suspended (which.resolve_right again)
  · intro neither
    rw [two.same fun second => neither (.inr second), one.same fun first => neither (.inl first)]

namespace VhciDevice

variable {dev vdev last : VhciDevice} {which also : Nat → Prop} {j k : Nat}

/-- Some of the queues of a device have been suspended. -/
structure SuspendedAt (dev : VhciDevice) (which : Nat → Prop) (vdev : VhciDevice) : Prop where
  alike : dev.Alike vdev
  queue : ∀ j q, (dev.tq j).queue = some q → ∃ q', (vdev.tq j).queue = some q' ∧ q.SuspendedIf (which j) q'

theorem SuspendedAt.refl (none : ∀ j, ¬which j) : dev.SuspendedAt which dev :=
  ⟨.refl dev, fun j q found => ⟨q, found, fun some => absurd some (none j), fun _ => rfl⟩⟩

theorem SuspendedAt.trans (first : dev.SuspendedAt which vdev) (second : vdev.SuspendedAt also last) :
    dev.SuspendedAt (fun j => which j ∨ also j) last := by
  refine ⟨first.alike.trans second.alike, fun j q found => ?_⟩
  obtain ⟨q', found', one⟩ := first.queue j q found
  obtain ⟨q'', found'', two⟩ := second.queue j q' found'
  exact ⟨q'', found'', one.or two⟩

theorem SuspendedAt.congr (at_ : dev.SuspendedAt which vdev) (same : ∀ j, which j ↔ also j) :
    dev.SuspendedAt also vdev := by
  rwa [funext fun j => propext (same j)] at at_

theorem suspendQueue_suspendedAt (env : Nat → PauseEnv) (k : Nat) (dev : VhciDevice) :
    dev.SuspendedAt (fun j => j = k ∧ dev.hasQueue j) (BceVhci.suspendQueue env k dev) := by
  unfold BceVhci.suspendQueue
  split
  · rename_i has
    refine ⟨alike_setQueue Option.isSome_map, fun j q found => ?_⟩
    by_cases same : j = k
    · rw [same] at found ⊢
      rw [setQueue_self]
      refine ⟨q.busSuspend (env k), by rw [found]; rfl, fun _ => q.busSuspend_suspended _, ?_⟩
      exact fun other => absurd ⟨rfl, has⟩ other
    · rw [setQueue_other _ _ same]
      exact ⟨q, found, fun here => absurd here.1 same, fun _ => rfl⟩
  · rename_i absent
    exact .refl fun j here => absent (here.1 ▸ here.2)

theorem suspendQueues_suspendedAt (env : Nat → PauseEnv) (dev : VhciDevice) :
    dev.SuspendedAt (fun j => dev.hasQueue j) (forLoop 32 (BceVhci.suspendQueue env) dev) := by
  have below := forLoop_invariant (n := 32) (f := BceVhci.suspendQueue env)
    (P := fun k vdev => dev.SuspendedAt (fun j => j < k ∧ dev.hasQueue j) vdev) (s := dev)
    (.refl fun j here => absurd here.1 j.not_lt_zero) ?_
  · exact below.congr fun j => ⟨fun here => here.2, fun has => ⟨hasQueue_lt has, has⟩⟩
  · intro k vdev _ done
    refine (done.trans (suspendQueue_suspendedAt env k vdev)).congr fun j => ?_
    rw [done.alike.hasQueue, ← or_and_right, Nat.lt_succ_iff_lt_or_eq]

end VhciDevice

namespace BceVhci

variable {v w : BceVhci} {which also : Nat → Prop}

/-- The queues of some of the devices have been suspended. -/
structure SuspendedAt (v : BceVhci) (which : Nat → Prop) (w : BceVhci) : Prop where
  ports : w.portToDevice = v.portToDevice
  device : ∀ d dev, v.devices d = some dev →
    ∃ vdev, w.devices d = some vdev ∧ dev.SuspendedAt (fun j => which d ∧ dev.hasQueue j) vdev

/-- The loop of the suspend over the ports has got to a device. -/
def SuspendsBelow (v : BceVhci) (k d : Nat) : Prop :=
  d ≠ 0 ∧ ∃ p, p < k ∧ v.portToDevice p = d

theorem suspendPort_suspendedAt (env : Nat → Nat → PauseEnv) (i : Nat) (v : BceVhci) :
    v.SuspendedAt (fun d => d ≠ 0 ∧ v.portToDevice i = d) (suspendPort env i v) := by
  have skipped : ∀ {w : BceVhci}, w.portToDevice = v.portToDevice → w.devices = v.devices →
      (v.portToDevice i ≠ 0 → v.devices (v.portToDevice i) = none) →
      v.SuspendedAt (fun d => d ≠ 0 ∧ v.portToDevice i = d) w := by
    intro w ports devices gone
    refine ⟨ports, fun d dev found => ⟨dev, by rw [devices, found], .refl ?_⟩⟩
    rintro j ⟨⟨nonzero, rfl⟩, -⟩
    cases found.symm.trans (gone nonzero)
  unfold suspendPort
  dsimp only
  split
  · rename_i unmapped
    exact skipped (by simp) (by simp) fun mapped => absurd unmapped mapped
  rename_i mapped
  split
  · rename_i gone
    exact skipped (by simp) (by simp) fun _ => gone
  · rename_i vdev found
    have found : v.devices (v.portToDevice i) = some vdev := found
    refine ⟨by simp, fun d dev held => ?_⟩
    by_cases here : d = v.portToDevice i
    · subst here
      cases found.symm.trans held
      refine ⟨_, Function.update_self .., ?_⟩
      exact (VhciDevice.suspendQueues_suspendedAt (env i) vdev).congr fun j =>
        ⟨fun has => ⟨⟨mapped, rfl⟩, has⟩, fun has => has.2⟩
    · refine ⟨dev, (Function.update_of_ne here ..).trans held, .refl ?_⟩
      exact fun j there => here there.1.2.symm

theorem suspendPorts_suspendedAt (env : Nat → Nat → PauseEnv) (v : BceVhci) :
    v.SuspendedAt (v.SuspendsBelow 16) (forLoop 16 (suspendPort env) v) := by
  refine forLoop_invariant (P := fun k w => v.SuspendedAt (v.SuspendsBelow k) w) ⟨rfl, ?_⟩ ?_
  · refine fun d dev found => ⟨dev, found, .refl ?_⟩
    rintro j ⟨⟨-, p, below, -⟩, -⟩
    exact p.not_lt_zero below
  · intro i w _ done
    have round := suspendPort_suspendedAt env i w
    refine ⟨round.ports.trans done.ports, fun d dev found => ?_⟩
    obtain ⟨vdev, found', one⟩ := done.device d dev found
    obtain ⟨last, found'', two⟩ := round.device d vdev found'
    refine ⟨last, found'', (one.trans two).congr fun j => ?_⟩
    rw [one.alike.hasQueue, done.ports, ← or_and_right, SuspendsBelow, SuspendsBelow, ← and_or_left]
    have next : (∃ p, p < i + 1 ∧ v.portToDevice p = d) ↔
        (∃ p, p < i ∧ v.portToDevice p = d) ∨ v.portToDevice i = d := by
      constructor
      · rintro ⟨p, below, here⟩
        rcases Nat.lt_succ_iff_lt_or_eq.mp below with below | rfl
        · exact .inl ⟨p, below, here⟩
        · exact .inr here
      · rintro (⟨p, below, here⟩ | here)
        · exact ⟨p, Nat.lt_succ_of_lt below, here⟩
        · exact ⟨i, i.lt_succ_self, here⟩
    rw [next]

/-- Every transfer queue is active and paused as it was. -/
def PausesKept (v w : BceVhci) : Prop :=
  ∀ d dev j q, v.devices d = some dev → (dev.tq j).queue = some q → ∃ vdev q', w.devices d = some vdev ∧
    (vdev.tq j).queue = some q' ∧ q'.active = q.active ∧ q'.pausedBy = q.pausedBy

/-- A suspend that fails leaves the queues as they were, and the watchdog armed. -/
def SuspendUndone (v : BceVhci) (env : SuspendEnv) : Prop :=
  (v.busSuspend env).1 ≠ 0 → v.PausesKept (v.busSuspend env).2 ∧ (v.busSuspend env).2.recoveryWatchdog

/-- The queues of mapped devices were suspended before. -/
def SuspendedBefore (v : BceVhci) : Prop :=
  ∀ p, p < 16 → v.portToDevice p ≠ 0 → ∀ dev, v.devices (v.portToDevice p) = some dev →
    ∀ j q, dev.hasQueue j → (dev.tq j).queue = some q → q.pausedFor .suspend

theorem SuspendedAt.kept_iff (suspended : v.SuspendedAt (v.SuspendsBelow 16) w) :
    v.PausesKept w ↔ v.SuspendedBefore := by
  constructor
  · intro kept p below mapped dev found j q has queue
    obtain ⟨vdev, q', found', queue', same⟩ := kept _ dev j q found queue
    obtain ⟨vdev', again, at_⟩ := suspended.device _ dev found
    cases found'.symm.trans again
    obtain ⟨q'', queue'', changed⟩ := at_.queue j q queue
    cases queue'.symm.trans queue''
    exact (changed.suspended ⟨⟨mapped, p, below, rfl⟩, has⟩).kept_iff.mp same
  · intro before d dev j q found queue
    obtain ⟨vdev, found', at_⟩ := suspended.device d dev found
    obtain ⟨q', queue', changed⟩ := at_.queue j q queue
    refine ⟨vdev, q', found', queue', ?_⟩
    by_cases which : v.SuspendsBelow 16 d ∧ dev.hasQueue j
    · obtain ⟨⟨mapped, p, below, rfl⟩, has⟩ := which
      exact (changed.suspended ⟨⟨mapped, p, below, rfl⟩, has⟩).kept_iff.mpr
        (before p below mapped dev found j q has queue)
    · rw [changed.same which]
      exact ⟨rfl, rfl⟩

/-- The suspend as it is before it pauses the controller. -/
def suspendBegun (v : BceVhci) : BceVhci :=
  { v with
    recoveryWatchdog := false
    portResumeSkipReset := fun _ => 0
    portResumeMask := ∅
    portReenumerateMask := ∅ }

theorem busSuspend_eq (v : BceVhci) (env : SuspendEnv) : v.busSuspend env =
    let w := forLoop 16 (suspendPort env.setState) v.suspendBegun
    if env.controllerPause ≠ 0 then (env.controllerPause, w)
    else (0, { w with portSuppressConnectMask := (Finset.range 16).filter fun i => w.portToDevice i ≠ 0 }) := by
  unfold busSuspend suspendBegun
  rfl

theorem suspendPort_recoveryWatchdog (env : Nat → Nat → PauseEnv) (i : Nat) (v : BceVhci) :
    (suspendPort env i v).recoveryWatchdog = v.recoveryWatchdog := by
  unfold suspendPort
  dsimp only
  split
  · rfl
  · split <;> rfl

/-- A suspend is undone when it fails exactly if it does not fail: with a controller that refuses to
pause the watchdog stays cancelled, and each queue suspended here stays suspended. -/
theorem busSuspend_undone_iff (v : BceVhci) (env : SuspendEnv) :
    (v.SuspendUndone env ↔ env.controllerPause = 0) ∧
      ((v.busSuspend env).1 ≠ 0 → (v.busSuspend env).2.recoveryWatchdog = false ∧
        (v.PausesKept (v.busSuspend env).2 ↔ v.SuspendedBefore)) := by
  have looped := suspendPorts_suspendedAt env.setState v.suspendBegun
  have cancelled : (forLoop 16 (suspendPort env.setState) v.suspendBegun).recoveryWatchdog = false :=
    forLoop_keeps (P := fun w => w.recoveryWatchdog = false) rfl fun i w _ same =>
      (suspendPort_recoveryWatchdog env.setState i w).trans same
  have suspend : v.busSuspend env =
      let w := forLoop 16 (suspendPort env.setState) v.suspendBegun
      if env.controllerPause ≠ 0 then (env.controllerPause, w)
      else (0, { w with portSuppressConnectMask := (Finset.range 16).filter fun i => w.portToDevice i ≠ 0 }) :=
    v.busSuspend_eq env
  generalize forLoop 16 (suspendPort env.setState) v.suspendBegun = w at looped cancelled suspend
  have looped : v.SuspendedAt (v.SuspendsBelow 16) w := ⟨looped.ports, looped.device⟩
  rw [SuspendUndone, suspend]
  by_cases paused : env.controllerPause = 0
  · simp [paused]
  · rw [if_pos paused]
    refine ⟨iff_of_false ?_ paused, fun _ => ⟨cancelled, looped.kept_iff⟩⟩
    intro undone
    cases cancelled.symm.trans (undone paused).2

/-- The two fields of a transfer queue that say whether it runs. -/
def pauseOf (v : BceVhci) (d j : Nat) : Option (Bool × BitVec 32) :=
  (v.devices d).bind fun dev => (dev.tq j).queue.map fun q => (q.active, q.pausedBy)

theorem PausesKept.pauseOf {v w : BceVhci} {d j : Nat} {x : Bool × BitVec 32} (kept : v.PausesKept w)
    (before : v.pauseOf d j = some x) : w.pauseOf d j = some x := by
  obtain ⟨dev, found, before⟩ := Option.bind_eq_some_iff.mp before
  obtain ⟨q, queue, before⟩ := Option.map_eq_some_iff.mp before
  obtain ⟨vdev, q', found', queue', active, pausedBy⟩ := kept d dev j q found queue
  rw [BceVhci.pauseOf, found', Option.bind_some, queue', Option.map_some, active, pausedBy, before]

/-- One device, and a controller that does not answer to the pause. -/
theorem failed_suspend_stays : ¬∀ v env, machine.Reachable v → v.SuspendUndone env := by
  intro undone
  have ran : (ranUnder (fun _ _ => True) 3 [.enableDevice sampleDevice (.created 1)]).map
      (fun v => ((v.busSuspend ⟨fun _ _ => ⟨false, 0, 1⟩, -110⟩).1, v.pauseOf 1 0,
        (v.busSuspend ⟨fun _ _ => ⟨false, 0, 1⟩, -110⟩).2.pauseOf 1 0)) =
        some (-110, some (true, 0), some (false, 4)) := by
    decide +kernel
  obtain ⟨v, reach, seen⟩ := reachableUnder_of_ran ran
  simp only [Prod.mk.injEq] at seen
  obtain ⟨failed, before, after⟩ := seen
  have kept := (undone v _ reach (by rw [failed]; decide)).1
  rw [kept.pauseOf before] at after
  cases after

end BceVhci

end AppleBce

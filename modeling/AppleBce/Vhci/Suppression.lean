import AppleBce.Vhci.Callbacks
import AppleBce.Vhci.Watchdog

namespace AppleBce

open Basis

/-- A suspend has succeeded, since its `CONTROLLER_PAUSE` has, and the resume has not returned yet. -/
def BusPc.suspendSucceeded : BusPc → Bool
  | .suppress | .pauseQueues | .suspended | .controllerStart | .resumePort _ | .rearm | .startFailed
  | .scheduleRecovery => true
  | _ => false

/-- Between the write of the mask of suppressed ports and the one that clears it. -/
def BusPc.suppresses : BusPc → Bool
  | .pauseQueues | .suspended | .controllerStart | .resumePort _ | .startFailed => true
  | _ => false

namespace VhciWork

variable {hz : Nat} {s t : VhciWork} {a : WorkStep} {caller : CmdCaller} {status : Int} {param1 : BitVec 32}

/-- No resume is called during a recovery while ports are suppressed. -/
def Clears (s : VhciWork) : WorkStep → Prop
  | .busResume => s.recovering → s.vhci.portSuppressConnectMask = ∅
  | _ => True

instance (s : VhciWork) (a : WorkStep) : Decidable (s.Clears a) := by
  unfold Clears
  split <;> infer_instance

/-- Ports are suppressed only from a suspend to a resume. -/
def SuppressOk (s : VhciWork) : Prop :=
  s.bus.suppresses = false → s.vhci.portSuppressConnectMask = ∅

theorem ReturnCase.suppressOk (goes : ReturnCase s status caller t) (ok : s.SuppressOk) : t.SuppressOk := by
  cases goes with
  | suspendFailed at_ | suspend at_ => exact fun _ => ok (by rw [at_]; rfl)
  | resumeFailed at_ | resume at_ => exact fun off => by cases off
  | _ => exact ok

theorem Move.suppressOk (move : Move hz s a t) (clears : s.Clears a) (ok : s.SuppressOk) : t.SuppressOk := by
  cases move with
  | started at_ =>
    intro _
    rw [scheduleWatchdog_suppress]
    exact ok (by rw [at_]; rfl)
  | table a vhci same =>
    intro off
    exact same.portSuppressConnectMask.trans (ok off)
  | refused caller t dead goes => exact goes.suppressOk ok
  | timedOut caller t recovering goes => exact goes.suppressOk ok
  | desync caller t goes => exact goes.suppressOk (s := s.scheduleRecovery) ok
  | replied status caller t held goes => exact goes.suppressOk ok
  | watchdogAgain | recoveryRearms =>
    intro off
    rw [scheduleWatchdog_suppress]
    rw [scheduleWatchdog_bus] at off
    exact ok off
  | recoveryGoes pc next vhci at_ same =>
    intro off
    exact same.portSuppressConnectMask.trans (ok off)
  | busSuspend at_ => exact fun _ => ok (by rw [at_]; rfl)
  | suspendGoes env vhci next suspending same =>
    intro _
    refine same.portSuppressConnectMask.trans (ok ?_)
    cases at_ : s.bus <;> rw [at_] at suspending <;> first | rfl | cases suspending
  | deferred at_ recovering => exact fun _ => clears recovering
  | suppressed | suspended | busResume | resumedPort => exact fun off => by cases off
  | resumedPorts | startFailed => exact fun _ => rfl
  | resumed env at_ =>
    intro _
    rw [scheduleWatchdog_suppress]
    exact ok (by rw [at_]; rfl)
  | scheduled env at_ => exact fun _ => ok (by rw [at_]; rfl)
  | _ => exact ok

theorem suppressOk_of_reach (reach : (machine hz).ReachableUnder Clears s) : s.SuppressOk := by
  refine reach.invariant ?_ fun _ _ _ ok clears run => (step_move run).suppressOk clears ok
  rintro _ ⟨portMask, jiffies, rfl⟩ _
  rfl

/-- A change of the port is not hidden from the USB core. -/
theorem reported_of_not_suppressed {v : BceVhci} (clear : v.portSuppressConnectMask = ∅)
    (port : 1 ≤ (param1.setWidth 8).toNat) (below : (param1.setWidth 8).toNat ≤ v.portCount) :
    (param1.setWidth 8).toNat ∈ (v.portStatusChange param1).portResumeMask := by
  unfold BceVhci.portStatusChange
  dsimp only
  rw [if_neg (by omega), clear, if_neg (Finset.notMem_empty _)]
  exact Finset.mem_insert_self _ _

/-- In a run in which no resume is called during a recovery while ports are suppressed, no port is
suppressed unless a suspend has succeeded since the last resume, and every change of a port is recorded. -/
theorem suppression_ends (reach : (machine hz).ReachableUnder Clears s) (awake : s.bus.suspendSucceeded = false) :
    s.vhci.portSuppressConnectMask = ∅ ∧ ∀ param1 : BitVec 32, 1 ≤ (param1.setWidth 8).toNat →
      (param1.setWidth 8).toNat ≤ s.vhci.portCount →
      (param1.setWidth 8).toNat ∈ (s.vhci.portStatusChange param1).portResumeMask := by
  have clear : s.vhci.portSuppressConnectMask = ∅ := by
    refine suppressOk_of_reach reach ?_
    cases at_ : s.bus <;> rw [at_] at awake <;> first | rfl | cases awake
  exact ⟨clear, fun _ port below => reported_of_not_suppressed clear port below⟩

/-- A resume that does not meet the condition does leave ports suppressed. -/
theorem suppressed_of_not_clears (run : s.step hz a = some t) (kept : ¬s.Clears a) :
    t.bus.suspendSucceeded = false ∧ t.vhci.portSuppressConnectMask ≠ ∅ := by
  cases a with
  | busResume =>
    simp only [Clears, Classical.not_imp] at kept
    obtain ⟨recovering, kept⟩ := kept
    obtain ⟨_, after⟩ := Option.ite_none_right_eq_some.mp run
    rw [if_pos recovering] at after
    cases after
    exact ⟨rfl, kept⟩
  | _ => exact absurd trivial kept

/-- A device, then a suspend and a resume that nothing comes in between. -/
theorem suppression_ends_smooth : ∃ s, (machine 250).ReachableUnder Clears s ∧ s.vhci.portToDevice 1 = 1 ∧
    s.bus.suspendSucceeded = false ∧ s.vhci.portSuppressConnectMask = ∅ ∧ ∀ param1 : BitVec 32,
      1 ≤ (param1.setWidth 8).toNat → (param1.setWidth 8).toNat ≤ s.vhci.portCount →
      (param1.setWidth 8).toNat ∈ (s.vhci.portStatusChange param1).portResumeMask := by
  have ran : (ranUnder Clears (.start :: .table (.enableDevice sampleDevice (.created 1)) ::
      (BceVhci.SuspendEnv.smooth.steps ++ (BceVhci.BusResumeEnv.smooth 1).steps))).map
      (fun s => (s.vhci.portToDevice 1, s.bus.suspendSucceeded)) = some (1, false) := by
    decide +kernel
  obtain ⟨s, reach, seen⟩ := reachableUnder_of_ran ran
  simp only [Prod.mk.injEq] at seen
  exact ⟨s, reach, seen.1, seen.2, suppression_ends reach seen.2⟩

/-- The recovery after a reset of the controller is still on when the bus has been suspended and is
resumed. It runs to its end, and port 1 stays suppressed. -/
theorem suppressed_by_recovery : ¬∀ hz s, (machine hz).Reachable s → s.bus.suspendSucceeded = false →
    s.vhci.portSuppressConnectMask = ∅ ∧ ∀ param1 : BitVec 32, 1 ≤ (param1.setWidth 8).toNat →
      (param1.setWidth 8).toNat ≤ s.vhci.portCount →
      (param1.setWidth 8).toNat ∈ (s.vhci.portStatusChange param1).portResumeMask := by
  intro ends
  have ran : (ranUnder (fun _ _ => True) (.start :: .table (.enableDevice sampleDevice (.created 1)) ::
      .controllerResetNotify :: (recoverySteps.take 5 ++ BceVhci.SuspendEnv.smooth.steps ++ .busResume ::
        recoverySteps.drop 5))).map
      (fun s => (s.bus.suspendSucceeded, s.recovery.isNone, s.vhci.portSuppressConnectMask)) =
        some (false, true, {1}) := by
    decide +kernel
  obtain ⟨s, reach, seen⟩ := reachableUnder_of_ran ran
  simp only [Prod.mk.injEq] at seen
  have clear := (ends 250 s reach seen.1).1
  rw [seen.2.2] at clear
  exact Finset.singleton_ne_empty 1 clear

end VhciWork

end AppleBce

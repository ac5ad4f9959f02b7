import AppleBce.Vhci.Workers

namespace AppleBce

open Basis

namespace VhciWork

variable {hz : Nat} {s t u : VhciWork} {a : WorkStep} {caller : CmdCaller} {status : Int}

/-- The clock and the fields that only a recovery writes. -/
structure SameRecovery (s t : VhciWork) : Prop where
  jiffies : t.jiffies = s.jiffies
  lastRecoveryJiffies : t.lastRecoveryJiffies = s.lastRecoveryJiffies
  recoveryFailCount : t.recoveryFailCount = s.recoveryFailCount
  controllerDead : t.vhci.controllerDead = s.vhci.controllerDead

theorem SameRecovery.trans (first : s.SameRecovery t) (second : t.SameRecovery u) : s.SameRecovery u where
  jiffies := second.jiffies.trans first.jiffies
  lastRecoveryJiffies := second.lastRecoveryJiffies.trans first.lastRecoveryJiffies
  recoveryFailCount := second.recoveryFailCount.trans first.recoveryFailCount
  controllerDead := second.controllerDead.trans first.controllerDead

/-- How a run of `bce_vhci_recovery_w` goes on, apart from the claim and the count of the failures. -/
inductive RecoveryGoes (hz : Nat) (s : VhciWork) : Option RecoveryPc → Option RecoveryPc → Prop
  | begins : RecoveryGoes hz s none (some .begun)
  | dead (dead : s.vhci.controllerDead) : RecoveryGoes hz s (some .begun) none
  | alive (alive : s.vhci.controllerDead = false) : RecoveryGoes hz s (some .begun) (some .cooldown)
  | skips : RecoveryGoes hz s (some .cooldown) none
  | cooled (cooled : s.coolingDown hz = false) : RecoveryGoes hz s (some .cooldown) (some .claim)
  | twice : RecoveryGoes hz s (some .claim) none
  | cancels : RecoveryGoes hz s (some .cancelAll) (some .controllerPause)
  | paused : RecoveryGoes hz s (some .controllerPause) (some .controllerStart)
  | starts : RecoveryGoes hz s (some .controllerStart) (some .started)
  | fails : RecoveryGoes hz s (some .controllerStart) (some .startFailed)
  | signals : RecoveryGoes hz s (some .signal) (some .out)
  | releases : RecoveryGoes hz s (some .out) (some .rearm)
  | ends : RecoveryGoes hz s (some .rearm) none

/-- What a step does to the recoveries. -/
inductive RecoveryMove (hz : Nat) (s : VhciWork) : WorkStep → VhciWork → Prop
  | ticks {t : VhciWork} (n : Nat) (jiffies : t.jiffies = s.jiffies + BitVec.ofNat 64 n)
      (last : t.lastRecoveryJiffies = s.lastRecoveryJiffies) (count : t.recoveryFailCount = s.recoveryFailCount)
      (dead : t.vhci.controllerDead = s.vhci.controllerDead) (recovery : t.recovery = s.recovery) :
    RecoveryMove hz s (.tick n) t
  | keeps {a : WorkStep} {t : VhciWork} (same : s.SameRecovery t) (recovery : t.recovery = s.recovery) :
    RecoveryMove hz s a t
  | goes {a : WorkStep} {t : VhciWork} (same : s.SameRecovery t) (goes : RecoveryGoes hz s s.recovery t.recovery) :
    RecoveryMove hz s a t
  | claims {a : WorkStep} {t : VhciWork} (before : s.recovery = some .claim) (after : t.recovery = some .cancelAll)
      (jiffies : t.jiffies = s.jiffies) (last : t.lastRecoveryJiffies = s.jiffies)
      (count : t.recoveryFailCount = s.recoveryFailCount)
      (dead : t.vhci.controllerDead = s.vhci.controllerDead) : RecoveryMove hz s a t
  | started {a : WorkStep} {t : VhciWork} (before : s.recovery = some .started)
      (after : t.recovery = some .signal) (jiffies : t.jiffies = s.jiffies)
      (last : t.lastRecoveryJiffies = s.lastRecoveryJiffies) (count : t.recoveryFailCount = 0)
      (dead : t.vhci.controllerDead = s.vhci.controllerDead) : RecoveryMove hz s a t
  | failed {a : WorkStep} {t : VhciWork} (before : s.recovery = some .startFailed)
      (after : t.recovery = some .out) (jiffies : t.jiffies = s.jiffies)
      (last : t.lastRecoveryJiffies = s.lastRecoveryJiffies) (count : t.recoveryFailCount = s.recoveryFailCount + 1)
      (dead : t.vhci.controllerDead =
        (s.vhci.controllerDead || decide (3 ≤ (s.recoveryFailCount + 1).toNat))) : RecoveryMove hz s a t

/-- A step that is one for the recoveries when what it does besides is left out. -/
theorem RecoveryMove.of_same {r : VhciWork} (before : s.SameRecovery r) (begins : r.recovery = s.recovery)
    (move : RecoveryMove hz r a t) (clock : ∀ n, a ≠ .tick n) (cooling : r.coolingDown hz = s.coolingDown hz) :
    RecoveryMove hz s a t := by
  cases move with
  | ticks n => exact absurd rfl (clock n)
  | keeps same recovery => exact .keeps (before.trans same) (recovery.trans begins)
  | goes same goes =>
    refine .goes (before.trans same) ?_
    rw [begins] at goes
    generalize s.recovery = old, t.recovery = new at goes ⊢
    cases goes with
    | dead dead => exact .dead (before.controllerDead ▸ dead)
    | alive alive => exact .alive (before.controllerDead ▸ alive)
    | cooled cooled => exact .cooled (cooling ▸ cooled)
    | begins => exact .begins
    | skips => exact .skips
    | twice => exact .twice
    | cancels => exact .cancels
    | paused => exact .paused
    | starts => exact .starts
    | fails => exact .fails
    | signals => exact .signals
    | releases => exact .releases
    | ends => exact .ends
  | claims at_ after jiffies last count dead =>
    exact .claims (begins ▸ at_) after (jiffies.trans before.jiffies) (last.trans before.jiffies)
      (count.trans before.recoveryFailCount) (dead.trans before.controllerDead)
  | started at_ after jiffies last count dead =>
    exact .started (begins ▸ at_) after (jiffies.trans before.jiffies) (last.trans before.lastRecoveryJiffies)
      count (dead.trans before.controllerDead)
  | failed at_ after jiffies last count dead =>
    refine .failed (begins ▸ at_) after (jiffies.trans before.jiffies) (last.trans before.lastRecoveryJiffies)
      ?_ ?_
    · rw [count, before.recoveryFailCount]
    · rw [dead, before.recoveryFailCount, before.controllerDead]

theorem returned_recoveryMove (s : VhciWork) (status : Int) (caller : CmdCaller) (cq : Option (CmdCaller × Bool)) :
    RecoveryMove hz s a { s.returned status caller with cq } := by
  cases caller with
  | watchdog | other => exact .keeps ⟨rfl, rfl, rfl, rfl⟩ rfl
  | bus =>
    unfold returned
    dsimp only
    split
    · exact .keeps ⟨rfl, rfl, rfl, rfl⟩ rfl
    · exact .keeps ⟨rfl, rfl, rfl, rfl⟩ rfl
    · exact .keeps ⟨rfl, rfl, rfl, rfl⟩ rfl
  | recovery =>
    unfold returned
    dsimp only
    split
    next at_ => exact .goes ⟨rfl, rfl, rfl, rfl⟩ (by rw [at_]; exact .paused)
    next at_ =>
      refine .goes ⟨rfl, rfl, rfl, rfl⟩ ?_
      rw [at_]
      split
      · exact .fails
      · exact .starts
    next => exact .keeps ⟨rfl, rfl, rfl, rfl⟩ rfl

theorem sameRecovery_scheduleWatchdog (hz : Nat) (s : VhciWork) :
    s.SameRecovery (s.scheduleWatchdog hz) ∧ (s.scheduleWatchdog hz).recovery = s.recovery := by
  obtain ⟨_, _, frame⟩ := scheduleWatchdog_frame hz s
  rw [frame]
  exact ⟨⟨rfl, rfl, rfl, rfl⟩, rfl⟩

theorem watchdogStep_recoveryMove (run : s.watchdogStep hz = some t) : RecoveryMove hz s a t := by
  unfold watchdogStep at run
  split at run
  · cases Option.some.inj run
    exact .keeps ⟨rfl, rfl, rfl, rfl⟩ rfl
  · cases Option.some.inj run
    exact .keeps ⟨rfl, rfl, rfl, rfl⟩ rfl
  · cases Option.some.inj run
    exact .keeps ⟨rfl, rfl, rfl, rfl⟩ rfl
  · cases Option.some.inj run
    obtain ⟨same, recovery⟩ := sameRecovery_scheduleWatchdog hz s
    exact .keeps (same.trans ⟨rfl, rfl, rfl, rfl⟩) recovery
  · cases run
  · cases run

theorem recoveryStep_recoveryMove (run : s.recoveryStep hz = some t) : RecoveryMove hz s a t := by
  unfold recoveryStep at run
  split at run
  next at_ =>
    cases Option.some.inj run
    refine .goes ⟨rfl, rfl, rfl, rfl⟩ ?_
    rw [at_]
    split
    next dead => exact .dead dead
    next alive => exact .alive (by simpa using alive)
  next at_ =>
    cases Option.some.inj run
    refine .goes ⟨rfl, rfl, rfl, rfl⟩ ?_
    rw [at_]
    split
    next => exact .skips
    next cooled => exact .cooled (by simpa using cooled)
  next at_ =>
    split at run
    · cases Option.some.inj run
      exact .goes ⟨rfl, rfl, rfl, rfl⟩ (by rw [at_]; exact .twice)
    · cases Option.some.inj run
      exact .claims at_ rfl rfl rfl rfl rfl
  next at_ =>
    cases Option.some.inj run
    have same := BceVhci.sameWork_recoveryCancelAll s.vhci
    exact .goes ⟨rfl, rfl, rfl, same.controllerDead⟩ (by rw [at_]; exact .cancels)
  next at_ =>
    cases Option.some.inj run
    exact .started at_ rfl rfl rfl rfl rfl
  next at_ =>
    cases Option.some.inj run
    exact .failed at_ rfl rfl rfl rfl rfl
  next at_ =>
    cases Option.some.inj run
    have same := BceVhci.sameWork_recoverySignal s.vhci
    exact .goes ⟨rfl, rfl, rfl, same.controllerDead⟩ (by rw [at_]; exact .signals)
  next at_ =>
    cases Option.some.inj run
    exact .goes ⟨rfl, rfl, rfl, rfl⟩ (by rw [at_]; exact .releases)
  next at_ =>
    cases Option.some.inj run
    split
    · exact .goes ⟨rfl, rfl, rfl, rfl⟩ (by rw [at_]; exact .ends)
    · obtain ⟨same, -⟩ := sameRecovery_scheduleWatchdog hz s
      exact .goes (same.trans ⟨rfl, rfl, rfl, rfl⟩) (by rw [at_]; exact .ends)
  next => cases run
  next => cases run
  next => cases run

theorem suspendStep_recoveryMove {env : Nat → Nat → PauseEnv} (run : s.suspendStep env = some t) :
    RecoveryMove hz s a t := by
  unfold suspendStep at run
  split at run
  next =>
    split at run
    · cases run
    · cases Option.some.inj run
      exact .keeps ⟨rfl, rfl, rfl, rfl⟩ rfl
  next i _ =>
    split at run
    · cases Option.some.inj run
      exact .keeps ⟨rfl, rfl, rfl, (BceVhci.sameWork_suspendPort env i s.vhci).controllerDead⟩ rfl
    · cases Option.some.inj run
      exact .keeps ⟨rfl, rfl, rfl, rfl⟩ rfl
  next =>
    cases Option.some.inj run
    exact .keeps ⟨rfl, rfl, rfl, rfl⟩ rfl
  next =>
    cases Option.some.inj run
    exact .keeps ⟨rfl, rfl, rfl, rfl⟩ rfl
  next => cases run

theorem resumeStep_recoveryMove {env : BceVhci.ResumeEnv} (run : s.resumeStep hz env = some t) :
    RecoveryMove hz s a t := by
  unfold resumeStep at run
  split at run
  next i _ =>
    split at run
    · cases Option.some.inj run
      exact .keeps ⟨rfl, rfl, rfl, (BceVhci.sameWork_resumePort s.vhci i env).controllerDead⟩ rfl
    · cases Option.some.inj run
      exact .keeps ⟨rfl, rfl, rfl, rfl⟩ rfl
  next =>
    cases Option.some.inj run
    obtain ⟨same, recovery⟩ := sameRecovery_scheduleWatchdog hz s
    exact .keeps (same.trans ⟨rfl, rfl, rfl, rfl⟩) recovery
  next =>
    cases Option.some.inj run
    exact .keeps ⟨rfl, rfl, rfl, rfl⟩ rfl
  next =>
    cases Option.some.inj run
    exact .keeps ⟨rfl, rfl, rfl, rfl⟩ rfl
  next => cases run

theorem step_recoveryMove (run : s.step hz a = some t) : RecoveryMove hz s a t := by
  cases a with
  | tick n =>
    cases Option.some.inj run
    exact .ticks n rfl rfl rfl rfl rfl
  | start =>
    cases Option.some.inj (Option.ite_none_right_eq_some.mp run).2
    obtain ⟨same, recovery⟩ := sameRecovery_scheduleWatchdog hz s
    exact .keeps (same.trans ⟨rfl, rfl, rfl, rfl⟩) recovery
  | controllerResetNotify =>
    cases Option.some.inj run
    exact .keeps ⟨rfl, rfl, rfl, rfl⟩ rfl
  | table a =>
    obtain ⟨elsewhere, mapped⟩ := Option.ite_none_right_eq_some.mp run
    obtain ⟨vhci, ran, rfl⟩ := Option.map_eq_some_iff.mp mapped
    exact .keeps ⟨rfl, rfl, rfl, (BceVhci.sameWork_step elsewhere ran).controllerDead⟩ rfl
  | execute caller =>
    obtain ⟨-, run⟩ := Option.ite_none_right_eq_some.mp run
    split at run
    · cases Option.some.inj run
      exact returned_recoveryMove s Errno.nodev.neg caller (s.returned Errno.nodev.neg caller).cq
    · cases Option.some.inj run
      exact .keeps ⟨rfl, rfl, rfl, rfl⟩ rfl
  | cancelTimedOut =>
    simp only [step] at run
    split at run
    next caller _ =>
      split at run
      · cases Option.some.inj run
        exact returned_recoveryMove s Errno.timedout.neg caller none
      · cases Option.some.inj run
        exact .keeps ⟨rfl, rfl, rfl, rfl⟩ rfl
    next => cases run
  | desync =>
    simp only [step] at run
    split at run
    next caller _ =>
      cases Option.some.inj run
      exact .of_same (r := s.scheduleRecovery) ⟨rfl, rfl, rfl, rfl⟩ rfl
        (returned_recoveryMove s.scheduleRecovery Errno.timedout.neg caller none) (by simp) rfl
    next => cases run
  | reply status =>
    simp only [step] at run
    split at run
    next caller _ =>
      cases Option.some.inj run
      exact returned_recoveryMove s status caller none
    next => cases run
  | watchdogBegins | busSuspend | busResume =>
    cases Option.some.inj (Option.ite_none_right_eq_some.mp run).2
    exact .keeps ⟨rfl, rfl, rfl, rfl⟩ rfl
  | watchdog => exact watchdogStep_recoveryMove run
  | recoveryBegins =>
    obtain ⟨⟨-, idle⟩, run⟩ := Option.ite_none_right_eq_some.mp run
    cases Option.some.inj run
    exact .goes ⟨rfl, rfl, rfl, rfl⟩ (by rw [Option.isNone_iff_eq_none.mp idle]; exact .begins)
  | recovery => exact recoveryStep_recoveryMove run
  | suspend env => exact suspendStep_recoveryMove run
  | resume env => exact resumeStep_recoveryMove run

/-- What a recovery finds its `CONTROLLER_START` to have come back with in this step: that the controller has
started, or has not. -/
def startResult (hz : Nat) (s : VhciWork) (a : WorkStep) : List Bool :=
  match s.recovery, (s.step hz a).bind VhciWork.recovery with
  | some .started, some .signal => [true]
  | some .startFailed, some .out => [false]
  | _, _ => []

/-- The failures behind `n` earlier ones since the last success. -/
def failuresAfter (n : Nat) (results : List Bool) : Nat :=
  results.foldl (fun n started => if started then 0 else n + 1) n

/-- Behind the look at `controller_dead`, and before the result is counted. -/
def RecoveryPc.checked : RecoveryPc → Bool
  | .cooldown | .claim | .cancelAll | .controllerPause | .controllerStart | .started | .startFailed | .signal =>
    true
  | .begun | .out | .rearm => false

/-- The controller is given up with the third failure in a row, and no run gets past the look then. -/
structure Limits (s : VhciWork) : Prop where
  most : s.recoveryFailCount.toNat ≤ 3
  dead : s.vhci.controllerDead ↔ s.recoveryFailCount.toNat = 3
  checked : s.recovery.any RecoveryPc.checked → s.vhci.controllerDead = false

theorem startResult_of_ne (run : s.step hz a = some t)
    (starts : s.recovery ≠ some .started ∨ t.recovery ≠ some .signal)
    (fails : s.recovery ≠ some .startFailed ∨ t.recovery ≠ some .out) : startResult hz s a = [] := by
  rw [startResult, run, Option.bind_some]
  split
  next before after => exact absurd after (starts.resolve_left (not_not_intro before))
  next before after => exact absurd after (fails.resolve_left (not_not_intro before))
  next => rfl

/-- No result is counted while the recovery stays where it is. -/
theorem startResult_of_eq (run : s.step hz a = some t) (recovery : t.recovery = s.recovery) :
    startResult hz s a = [] := by
  apply startResult_of_ne run
  · rw [recovery]
    by_cases at_ : s.recovery = some .started <;> simp [at_]
  · rw [recovery]
    by_cases at_ : s.recovery = some .startFailed <;> simp [at_]

theorem Limits.same (limits : s.Limits) (count : t.recoveryFailCount = s.recoveryFailCount)
    (dead : t.vhci.controllerDead = s.vhci.controllerDead)
    (checked : t.recovery.any RecoveryPc.checked → s.vhci.controllerDead = false) : t.Limits where
  most := count ▸ limits.most
  dead := by rw [count, dead]; exact limits.dead
  checked now := dead.trans (checked now)

theorem RecoveryGoes.checked {before after : Option RecoveryPc} (goes : RecoveryGoes hz s before after)
    (passed : after.any RecoveryPc.checked) :
    before.any RecoveryPc.checked ∨ s.vhci.controllerDead = false := by
  cases goes with
  | alive alive => exact Or.inr alive
  | cooled | cancels | paused | starts | fails => exact Or.inl rfl
  | begins | dead | skips | twice | signals | releases | ends => cases passed

theorem RecoveryGoes.no_result {after : Option RecoveryPc} (goes : RecoveryGoes hz s s.recovery after) :
    (s.recovery ≠ some .started ∨ after ≠ some .signal) ∧
      (s.recovery ≠ some .startFailed ∨ after ≠ some .out) := by
  generalize s.recovery = before at goes
  cases goes <;> simp

theorem Limits.step (limits : s.Limits) (run : s.step hz a = some t) :
    t.Limits ∧ t.recoveryFailCount.toNat = failuresAfter s.recoveryFailCount.toNat (startResult hz s a) := by
  cases step_recoveryMove run with
  | ticks n jiffies last count dead recovery =>
    rw [startResult_of_eq run recovery]
    exact ⟨limits.same count dead fun checked => limits.checked (recovery ▸ checked), by rw [count]; rfl⟩
  | keeps same recovery =>
    rw [startResult_of_eq run recovery]
    exact ⟨limits.same same.recoveryFailCount same.controllerDead fun checked =>
      limits.checked (recovery ▸ checked), by rw [same.recoveryFailCount]; rfl⟩
  | goes same goes =>
    rw [startResult_of_ne run goes.no_result.1 goes.no_result.2]
    refine ⟨limits.same same.recoveryFailCount same.controllerDead fun checked => ?_,
      by rw [same.recoveryFailCount]; rfl⟩
    exact (goes.checked checked).elim limits.checked id
  | claims before after jiffies last count dead =>
    rw [startResult_of_ne run (Or.inl (by simp [before])) (Or.inl (by simp [before]))]
    exact ⟨limits.same count dead fun _ => limits.checked (by rw [before]; rfl), by rw [count]; rfl⟩
  | started before after jiffies last count dead =>
    have alive := limits.checked (by rw [before]; rfl)
    have result : startResult hz s a = [true] := by rw [startResult, run, Option.bind_some, before, after]
    refine ⟨⟨by simp [count], ?_, fun _ => dead.trans alive⟩, by rw [count, result]; rfl⟩
    simp [count, dead, alive]
  | failed before after jiffies last count dead =>
    have alive := limits.checked (by rw [before]; rfl)
    have below : s.recoveryFailCount.toNat ≠ 3 := fun most => by
      rw [limits.dead.mpr most] at alive
      cases alive
    have most := limits.most
    have next : (s.recoveryFailCount + 1).toNat = s.recoveryFailCount.toNat + 1 := by
      rw [BitVec.toNat_add]
      simp
      omega
    have result : startResult hz s a = [false] := by rw [startResult, run, Option.bind_some, before, after]
    refine ⟨⟨?_, ?_, fun checked => ?_⟩, by rw [count, result, next]; rfl⟩
    · rw [count, next]
      omega
    · rw [dead, count, next, alive, Bool.false_or, decide_eq_true_iff]
      omega
    · rw [after] at checked
      cases checked

theorem Limits.run {as : List WorkStep} (limits : s.Limits) (ran : (machine hz).run s as = some t) :
    t.Limits ∧ t.recoveryFailCount.toNat =
      failuresAfter s.recoveryFailCount.toNat ((machine hz).trace (startResult hz) s as) := by
  induction as generalizing s with
  | nil =>
    cases Option.some.inj ran
    exact ⟨limits, rfl⟩
  | cons a as ih =>
    obtain ⟨r, first, ran⟩ := Option.bind_eq_some_iff.mp ran
    obtain ⟨kept, count⟩ := limits.step first
    obtain ⟨last, total⟩ := ih kept ran
    refine ⟨last, ?_⟩
    rw [total, count, Machine.trace, first]
    exact (List.foldl_append ..).symm

theorem limits_starting (portMask : BitVec 16) (jiffies : BitVec 64) : (starting portMask jiffies).Limits where
  most := by simp [starting]
  dead := by simp [starting, BceVhci.started, BceVhci.zeroed]
  checked := by simp [starting]

/-- Who gets a command past the look at `controller_dead` in this step, and holds `cq->mutex` from then on. -/
def commandBegins (hz : Nat) (s : VhciWork) (a : WorkStep) : List CmdCaller :=
  match s.cq, (s.step hz a).bind VhciWork.cq with
  | none, some (caller, _) => [caller]
  | _, _ => []

theorem commandBegins_of_none (run : s.step hz a = some t) (free : s.cq = none → t.cq = none) :
    commandBegins hz s a = [] := by
  rw [commandBegins, run, Option.bind_some]
  split
  next before after =>
    rw [free before] at after
    cases after
  next => rfl

theorem ReturnCase.cq_eq (goes : ReturnCase s status caller t) : t.cq = s.cq := by
  cases goes <;> rfl

/-- Nobody gets past the look once `controller_dead` is set. -/
theorem dead_no_command (run : s.step hz a = some t) (dead : s.vhci.controllerDead) (free : s.cq = none) :
    t.cq = none := by
  cases a with
  | execute caller =>
    obtain ⟨-, run⟩ := Option.ite_none_right_eq_some.mp run
    rw [if_pos dead] at run
    cases Option.some.inj run
    rw [(returned_cases s _ caller).cq_eq, free]
  | cancelTimedOut =>
    simp only [VhciWork.step, free] at run
    cases run
  | _ =>
    cases step_move run
    all_goals first
      | exact free
      | rfl
      | obtain ⟨_, _, frame⟩ := scheduleWatchdog_frame hz s
        rw [frame]
        exact free

/-- A controller that is given up stays so. -/
theorem RecoveryMove.dead (move : RecoveryMove hz s a t) (dead : s.vhci.controllerDead) :
    t.vhci.controllerDead := by
  cases move with
  | ticks _ _ _ _ same | claims _ _ _ _ _ same | started _ _ _ _ _ same => exact same.trans dead
  | keeps same | goes same => exact same.controllerDead.trans dead
  | failed _ _ _ _ _ same => rw [same, dead, Bool.true_or]

/-- Once the controller is given up it stays so: no command gets past the look at `controller_dead`, and no
recovery has a `CONTROLLER_START` to count. -/
theorem Limits.dead_run {as : List WorkStep} (limits : s.Limits) (dead : s.vhci.controllerDead)
    (ran : (machine hz).run s as = some t) :
    t.vhci.controllerDead ∧ (machine hz).trace (commandBegins hz) s as = [] ∧
      (machine hz).trace (startResult hz) s as = [] := by
  induction as generalizing s with
  | nil =>
    cases Option.some.inj ran
    exact ⟨dead, rfl, rfl⟩
  | cons a as ih =>
    obtain ⟨r, first, ran⟩ := Option.bind_eq_some_iff.mp ran
    obtain ⟨dies, refused, nothing⟩ := ih (limits.step first).1 ((step_recoveryMove first).dead dead) ran
    have unchecked : ∀ pc, RecoveryPc.checked pc → s.recovery ≠ some pc := by
      intro pc checked at_
      rw [limits.checked (by rw [at_]; exact checked)] at dead
      cases dead
    have none_begins := commandBegins_of_none first (dead_no_command first dead)
    have none_counted := startResult_of_ne first (Or.inl (unchecked _ rfl)) (Or.inl (unchecked _ rfl))
    refine ⟨dies, ?_, ?_⟩
    · rw [Machine.trace, show (machine hz).step s a = some r from first]
      simp only [none_begins, refused, List.append_nil]
    · rw [Machine.trace, show (machine hz).step s a = some r from first]
      simp only [none_counted, nothing, List.append_nil]

/-- The recoveries count their failures in a row, and the third gives the controller up: from then on no
command begins, and no recovery gets as far as the result of its `CONTROLLER_START`. A command that got
past the look before still holds the mutex. -/
theorem controller_given_up (hz : Nat) (portMask : BitVec 16) (jiffies : BitVec 64) (as : List WorkStep)
    (ran : (machine hz).run (starting portMask jiffies) as = some t) :
    t.recoveryFailCount.toNat =
        failuresAfter 0 ((machine hz).trace (startResult hz) (starting portMask jiffies) as) ∧
      t.recoveryFailCount.toNat ≤ 3 ∧ (t.vhci.controllerDead ↔ t.recoveryFailCount.toNat = 3) ∧
      (t.vhci.controllerDead → ∀ bs u, (machine hz).run t bs = some u →
        u.vhci.controllerDead ∧ (machine hz).trace (commandBegins hz) t bs = [] ∧
          (machine hz).trace (startResult hz) t bs = []) := by
  obtain ⟨limits, count⟩ := (limits_starting portMask jiffies).run ran
  exact ⟨count, limits.most, limits.dead, fun dead bs u later => limits.dead_run dead later⟩

/-- A recovery whose `CONTROLLER_START` times out, when the T2 has notified of a reset. -/
def failedRecovery : List WorkStep :=
  [.controllerResetNotify, .recoveryBegins, .recovery, .recovery, .recovery, .recovery, .execute .recovery,
    .reply 0, .execute .recovery, .reply Errno.timedout.neg, .recovery, .recovery, .recovery]

/-- Three recoveries fail, each when the cooldown of the last is over. -/
theorem controller_given_up_third : ∃ t, (machine 250).run (starting 3 1000)
      (failedRecovery ++ .tick 2500 :: (failedRecovery ++ .tick 2500 :: failedRecovery)) = some t ∧
    t.vhci.controllerDead ∧ (t.recoveryFailCount.toNat =
        failuresAfter 0 ((machine 250).trace (startResult 250) (starting 3 1000)
          (failedRecovery ++ .tick 2500 :: (failedRecovery ++ .tick 2500 :: failedRecovery))) ∧
      t.recoveryFailCount.toNat ≤ 3 ∧ (t.vhci.controllerDead ↔ t.recoveryFailCount.toNat = 3) ∧
      (t.vhci.controllerDead → ∀ bs u, (machine 250).run t bs = some u →
        u.vhci.controllerDead ∧ (machine 250).trace (commandBegins 250) t bs = [] ∧
          (machine 250).trace (startResult 250) t bs = [])) := by
  have dies : ((machine 250).run (starting 3 1000)
      (failedRecovery ++ .tick 2500 :: (failedRecovery ++ .tick 2500 :: failedRecovery))).map
      (fun t => t.vhci.controllerDead) = some true := by
    decide +kernel
  obtain ⟨t, ran, dead⟩ := Option.map_eq_some_iff.mp dies
  exact ⟨t, ran, dead, controller_given_up 250 3 1000 _ ran⟩

/-- The time when a run of `bce_vhci_recovery_w` sets out to recover. -/
def claimTime (hz : Nat) (s : VhciWork) (a : WorkStep) : List Nat :=
  match s.recovery, (s.step hz a).bind VhciWork.recovery with
  | some .claim, some .cancelAll => [s.jiffies.toNat]
  | _, _ => []

/-- The jiffies that pass in a step. -/
def ticks : WorkStep → Nat
  | .tick n => n
  | _ => 0

/-- The jiffies that pass in a run. -/
def jiffiesOf (as : List WorkStep) : Nat :=
  (as.map ticks).sum

/-- The cooldown is over for a run of `bce_vhci_recovery_w` that is about to claim. -/
structure Spaced (hz : Nat) (s : VhciWork) : Prop where
  begun : 0 < s.jiffies.toNat
  past : s.lastRecoveryJiffies.toNat ≤ s.jiffies.toNat
  claim : s.recovery = some .claim →
    s.lastRecoveryJiffies = 0 ∨ s.lastRecoveryJiffies.toNat + 10 * hz ≤ s.jiffies.toNat

theorem coolingDown_eq_false (range : 10 * hz < 2 ^ 63)
    (past : s.lastRecoveryJiffies.toNat ≤ s.jiffies.toNat) (cooled : s.coolingDown hz = false) :
    s.lastRecoveryJiffies = 0 ∨ s.lastRecoveryJiffies.toNat + 10 * hz ≤ s.jiffies.toNat := by
  have cooldown : (bceVhciRecoveryCooldownSecs * 1000 * hz + 999) / 1000 = 10 * hz := by
    rw [bceVhciRecoveryCooldownSecs]
    omega
  obtain never | passed := Bool.and_eq_false_iff.mp cooled
  · exact Or.inl (by simpa using never)
  · refine Or.inr ?_
    have begun := s.lastRecoveryJiffies.isLt
    have now := s.jiffies.isLt
    rw [timeBefore, msecsToJiffies, cooldown, BitVec.msb_eq_decide, decide_eq_false_iff_not, BitVec.toNat_sub,
      BitVec.toNat_add, BitVec.toNat_ofNat] at passed
    omega

theorem RecoveryGoes.claims {before after : Option RecoveryPc} (goes : RecoveryGoes hz s before after)
    (claim : after = some .claim) : s.coolingDown hz = false := by
  cases goes with
  | cooled cooled => exact cooled
  | _ => cases claim

theorem step_jiffies (run : s.step hz a = some t) : t.jiffies = s.jiffies + BitVec.ofNat 64 (ticks a) := by
  cases step_recoveryMove run with
  | ticks n jiffies => exact jiffies
  | keeps same | goes same =>
    cases a with
    | tick n =>
      cases Option.some.inj run
      rfl
    | _ => simpa [ticks] using same.jiffies
  | claims before after jiffies | started before after jiffies | failed before after jiffies =>
    cases a with
    | tick n =>
      cases Option.some.inj run
      rfl
    | _ => simpa [ticks] using jiffies

theorem claimTime_of_ne (run : s.step hz a = some t)
    (other : s.recovery ≠ some .claim ∨ t.recovery ≠ some .cancelAll) :
    claimTime hz s a = [] := by
  rw [claimTime, run, Option.bind_some]
  split
  next before after => exact absurd after (other.resolve_left (not_not_intro before))
  next => rfl

theorem RecoveryGoes.no_claim {after : Option RecoveryPc} (goes : RecoveryGoes hz s s.recovery after) :
    s.recovery ≠ some .claim ∨ after ≠ some .cancelAll := by
  generalize s.recovery = before at goes
  cases goes <;> simp

theorem Spaced.kept (spaced : s.Spaced hz) (later : s.jiffies.toNat ≤ t.jiffies.toNat)
    (last : t.lastRecoveryJiffies = s.lastRecoveryJiffies)
    (claim : t.recovery = some .claim → s.lastRecoveryJiffies = 0 ∨
      s.lastRecoveryJiffies.toNat + 10 * hz ≤ s.jiffies.toNat) : t.Spaced hz where
  begun := Nat.lt_of_lt_of_le spaced.begun later
  past := last ▸ Nat.le_trans spaced.past later
  claim at_ := by
    rw [last]
    exact (claim at_).imp_right fun passed => Nat.le_trans passed later

/-- A step keeps the invariant, and one that sets out to recover does so when the cooldown is over. -/
theorem Spaced.step (spaced : s.Spaced hz) (range : 10 * hz < 2 ^ 63) (ends : s.jiffies.toNat + ticks a < 2 ^ 64)
    (run : s.step hz a = some t) :
    t.Spaced hz ∧ (claimTime hz s a = [] ∧ t.lastRecoveryJiffies = s.lastRecoveryJiffies ∨
      claimTime hz s a = [s.jiffies.toNat] ∧ t.lastRecoveryJiffies = s.jiffies ∧
        (s.lastRecoveryJiffies = 0 ∨ s.lastRecoveryJiffies.toNat + 10 * hz ≤ s.jiffies.toNat)) := by
  have later : s.jiffies.toNat ≤ t.jiffies.toNat := by
    rw [step_jiffies run, BitVec.toNat_add, BitVec.toNat_ofNat]
    omega
  cases step_recoveryMove run with
  | ticks n jiffies last count dead recovery =>
    refine ⟨spaced.kept later last fun at_ => spaced.claim (recovery ▸ at_), Or.inl ⟨claimTime_of_ne run ?_, last⟩⟩
    rw [recovery]
    by_cases at_ : s.recovery = some .claim <;> simp [at_]
  | keeps same recovery =>
    refine ⟨spaced.kept later same.lastRecoveryJiffies fun at_ => spaced.claim (recovery ▸ at_),
      Or.inl ⟨claimTime_of_ne run ?_, same.lastRecoveryJiffies⟩⟩
    rw [recovery]
    by_cases at_ : s.recovery = some .claim <;> simp [at_]
  | goes same goes =>
    refine ⟨spaced.kept later same.lastRecoveryJiffies fun at_ => ?_,
      Or.inl ⟨claimTime_of_ne run goes.no_claim, same.lastRecoveryJiffies⟩⟩
    exact coolingDown_eq_false range spaced.past (goes.claims at_)
  | claims before after jiffies last count dead =>
    refine ⟨⟨Nat.lt_of_lt_of_le spaced.begun later, last ▸ later, by simp [after]⟩,
      Or.inr ⟨?_, last, spaced.claim before⟩⟩
    rw [claimTime, run, Option.bind_some, before, after]
  | started before after jiffies last | failed before after jiffies last =>
    exact ⟨spaced.kept later last (by simp [after]), Or.inl ⟨claimTime_of_ne run (Or.inl (by simp [before])), last⟩⟩

theorem Spaced.trace (spaced : s.Spaced hz) (range : 10 * hz < 2 ^ 63) (as : List WorkStep)
    (ends : s.jiffies.toNat + jiffiesOf as < 2 ^ 64) :
    ((machine hz).trace (claimTime hz) s as).Pairwise (fun first next => first + 10 * hz ≤ next) ∧
      ∀ time ∈ (machine hz).trace (claimTime hz) s as,
        s.lastRecoveryJiffies = 0 ∨ s.lastRecoveryJiffies.toNat + 10 * hz ≤ time := by
  induction as generalizing s with
  | nil => exact ⟨List.Pairwise.nil, by simp [Machine.trace]⟩
  | cons a as ih =>
    rw [jiffiesOf, List.map_cons, List.sum_cons, ← jiffiesOf] at ends
    rw [Machine.trace]
    split
    next => exact ⟨List.Pairwise.nil, by simp⟩
    next r run =>
      have clock : r.jiffies.toNat = s.jiffies.toNat + ticks a := by
        rw [step_jiffies run, BitVec.toNat_add, BitVec.toNat_ofNat]
        omega
      obtain ⟨kept, here⟩ := spaced.step range (by omega) run
      obtain ⟨apart, behind⟩ := ih kept (by omega)
      obtain ⟨none_here, last⟩ | ⟨claims, last, cooled⟩ := here
      · rw [none_here, List.nil_append]
        exact ⟨apart, last ▸ behind⟩
      · -- The clock has begun, so the time of this claim is not the zero that stands for no recovery.
        have begun := spaced.begun
        have after : ∀ time ∈ (machine hz).trace (claimTime hz) r as, s.jiffies.toNat + 10 * hz ≤ time := by
          intro time member
          have passed := behind time member
          rw [last] at passed
          refine passed.resolve_left fun zero => ?_
          rw [zero] at begun
          cases begun
        rw [claims, List.singleton_append]
        refine ⟨List.pairwise_cons.mpr ⟨after, apart⟩, fun time member => ?_⟩
        obtain rfl | member := List.mem_cons.mp member
        · exact cooled
        · have := after time member
          exact cooled.imp_right fun passed => by omega

/-- As long as the clock does not run over, the recoveries begin at least the cooldown apart. -/
theorem recoveries_spaced (hz : Nat) (portMask : BitVec 16) (jiffies : BitVec 64) (as : List WorkStep)
    (range : 10 * hz < 2 ^ 63) (begins : 0 < jiffies.toNat) (ends : jiffies.toNat + jiffiesOf as < 2 ^ 64) :
    ((machine hz).trace (claimTime hz) (starting portMask jiffies) as).Pairwise
      fun first next => first + 10 * hz ≤ next :=
  (Spaced.trace (s := starting portMask jiffies) ⟨begins, Nat.zero_le _, by simp [starting]⟩ range as ends).1

/-- The second recovery begins when the cooldown of the first is over, and what is scheduled meanwhile
is skipped. -/
theorem recoveries_spaced_skipped :
    (machine 250).trace (claimTime 250) (starting 3 1000) (failedRecovery ++ .tick 2499 ::
        .controllerResetNotify :: .recoveryBegins :: .recovery :: .recovery :: .tick 1 :: failedRecovery) =
      [1000, 3500] ∧
    ((machine 250).trace (claimTime 250) (starting 3 1000) (failedRecovery ++ .tick 2499 ::
        .controllerResetNotify :: .recoveryBegins :: .recovery :: .recovery :: .tick 1 :: failedRecovery)).Pairwise
      fun first next => first + 10 * 250 ≤ next :=
  ⟨by decide +kernel, recoveries_spaced 250 3 1000 _ (by decide) (by decide) (by decide)⟩

end VhciWork

end AppleBce

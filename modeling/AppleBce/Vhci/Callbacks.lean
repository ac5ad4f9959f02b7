import AppleBce.Vhci.BusResume
import AppleBce.Vhci.Workers

namespace AppleBce

open Basis

/-- The steps of a suspend that nothing comes in between. -/
def BceVhci.SuspendEnv.steps (env : BceVhci.SuspendEnv) : List WorkStep :=
  [.busSuspend, .suspend env.setState] ++ List.replicate 16 (.suspend env.setState) ++ [.suspend env.setState] ++
    [.execute .bus, .reply env.controllerPause] ++
    if env.controllerPause ≠ 0 then [] else [.suspend env.setState, .suspend env.setState]

/-- The steps of a resume that nothing comes in between. -/
def BceVhci.BusResumeEnv.steps (env : BceVhci.BusResumeEnv) : List WorkStep :=
  if env.recovering then [.busResume]
  else
    [.busResume] ++ [.execute .bus, .reply env.controllerStart] ++
      if env.controllerStart ≠ 0 then [.resume (env.port 0), .resume (env.port 0)]
      else (List.range 16).map (fun i => .resume (env.port i)) ++ [.resume (env.port 0)] ++ [.resume (env.port 0)]

namespace VhciWork

variable {hz : Nat} {s : VhciWork}

theorem step_suspendPort {env : Nat → Nat → PauseEnv} {i : Nat} (at_ : s.bus = .suspendPort i) (below : i < 16) :
    (machine hz).step s (.suspend env) =
      some { s with vhci := BceVhci.suspendPort env i s.vhci, bus := .suspendPort (i + 1) } := by
  show s.suspendStep env = _
  simp only [suspendStep, at_, if_pos below]

theorem step_resumePort {env : BceVhci.ResumeEnv} {i : Nat} (at_ : s.bus = .resumePort i) (below : i < 16) :
    (machine hz).step s (.resume env) =
      some { s with vhci := s.vhci.resumePort i env, bus := .resumePort (i + 1) } := by
  show s.resumeStep hz env = _
  simp only [resumeStep, at_, if_pos below]

theorem run_suspendPorts (env : Nat → Nat → PauseEnv) {n : Nat} (most : n ≤ 16) (begun : s.bus = .suspendPort 0) :
    (machine hz).run s (List.replicate n (.suspend env)) =
      some { s with vhci := forLoop n (BceVhci.suspendPort env) s.vhci, bus := .suspendPort n } := by
  induction n with
  | zero => rw [List.replicate_zero, Machine.run_nil, forLoop_zero, ← begun]
  | succ n ih =>
    rw [List.replicate_succ', Machine.run_append, ih (by omega), Option.bind_some]
    exact Machine.run_single (step_suspendPort rfl (by omega))

theorem run_resumePorts (env : Nat → BceVhci.ResumeEnv) {n : Nat} (most : n ≤ 16) (begun : s.bus = .resumePort 0) :
    (machine hz).run s ((List.range n).map fun i => .resume (env i)) =
      some { s with vhci := forLoop n (fun i v => v.resumePort i (env i)) s.vhci, bus := .resumePort n } := by
  induction n with
  | zero => rw [List.range_zero, List.map_nil, Machine.run_nil, forLoop_zero, ← begun]
  | succ n ih =>
    rw [List.range_succ, List.map_append, Machine.run_append, ih (by omega), Option.bind_some]
    exact Machine.run_single (step_resumePort rfl (by omega))

theorem sameWork_suspendPorts (env : Nat → Nat → PauseEnv) (v : BceVhci) :
    v.SameWork (forLoop 16 (BceVhci.suspendPort env) v) :=
  forLoop_keeps (P := v.SameWork) (.refl v) fun i w _ same => same.trans (BceVhci.sameWork_suspendPort env i w)

/-- A command of the bus is executed and replied to. -/
theorem run_command {status : Int} (awaits : s.awaits .bus) (free : s.cq = none)
    (alive : s.vhci.controllerDead = false) :
    (machine hz).run s [.execute .bus, .reply status] = some { s.returned status .bus with cq := none } := by
  have executes : (machine hz).step s (.execute .bus) = some { s with cq := some (.bus, false) } := by
    show (if s.cq.isNone ∧ s.awaits .bus then _ else none) = _
    rw [if_pos ⟨by rw [free]; rfl, awaits⟩, alive]
    rfl
  rw [Machine.run_cons, executes, Option.bind_some]
  apply Machine.run_single
  show some _ = some _
  unfold returned
  dsimp only
  split <;> rfl

/-- A suspend that nothing comes in between does `bce_vhci_bus_suspend` to the tables. -/
theorem run_suspend (env : BceVhci.SuspendEnv) (active : s.bus = .active) (idle : s.watchdog = none)
    (free : s.cq = none) (alive : s.vhci.controllerDead = false) :
    (machine hz).run s env.steps = some { s with
      vhci := (s.vhci.busSuspend env).2
      bus := if env.controllerPause ≠ 0 then .active else .suspended } := by
  have begun : (machine hz).run s [.busSuspend, .suspend env.setState] =
      some { s with vhci := s.vhci.suspendBegun, bus := .suspendPort 0 } := by
    simp only [Machine.run_cons, Machine.run_nil, machine, step, suspendStep, active, idle, if_true,
      Option.bind_some]
    rfl
  have alive : (forLoop 16 (BceVhci.suspendPort env.setState) s.vhci.suspendBegun).controllerDead = false :=
    (sameWork_suspendPorts env.setState s.vhci.suspendBegun).controllerDead.trans alive
  have paused (w : BceVhci) :
      (machine hz).step { s with vhci := w, bus := .suspendPort 16 } (.suspend env.setState) =
      some { s with vhci := w, bus := .controllerPause } := rfl
  rw [BceVhci.busSuspend_eq, BceVhci.SuspendEnv.steps, Machine.run_append, Machine.run_append, Machine.run_append,
    Machine.run_append, begun, Option.bind_some, run_suspendPorts env.setState (Nat.le_refl 16) rfl,
    Option.bind_some]
  generalize forLoop 16 (BceVhci.suspendPort env.setState) s.vhci.suspendBegun = w at alive ⊢
  have ran : (machine hz).run { s with vhci := w, bus := .controllerPause }
      [.execute .bus, .reply env.controllerPause] = _ :=
    run_command rfl free alive
  rw [Machine.run_single (paused w), Option.bind_some, ran, Option.bind_some]
  by_cases failed : env.controllerPause ≠ 0
  · simp only [if_pos failed, returned, Machine.run_nil, free]
  · simp only [if_neg failed, returned, Machine.run_cons, Machine.run_nil, machine, step, suspendStep,
      Option.bind_some, free]

/-- A resume that nothing comes in between does `bce_vhci_bus_resume` to the tables. -/
theorem run_resume (env : BceVhci.BusResumeEnv) (suspended : s.bus = .suspended)
    (recovering : s.recovering = env.recovering) (free : s.cq = none) (alive : s.vhci.controllerDead = false) :
    ∃ watchdogExpires, (machine hz).run s env.steps = some { s with
      vhci := s.vhci.busResume env
      watchdogExpires
      bus := .active } := by
  have called : (machine hz).step s .busResume =
      some { s with bus := if env.recovering then .active else .controllerStart } := by
    rw [← recovering]
    exact if_pos suspended
  unfold BceVhci.BusResumeEnv.steps BceVhci.busResume
  by_cases deferred : env.recovering
  · rw [if_pos deferred] at called
    simp only [if_pos deferred]
    exact ⟨s.watchdogExpires, Machine.run_single called⟩
  rw [if_neg deferred] at called
  simp only [if_neg deferred]
  have ran : (machine hz).run { s with bus := .controllerStart } [.execute .bus, .reply env.controllerStart] = _ :=
    run_command rfl free alive
  rw [Machine.run_append, Machine.run_append, Machine.run_single called, Option.bind_some, ran, Option.bind_some]
  by_cases failed : env.controllerStart ≠ 0
  · simp only [if_pos failed, returned, Machine.run_cons, Machine.run_nil, machine, step, resumeStep,
      scheduleRecovery, Option.bind_some, free]
    exact ⟨s.watchdogExpires, rfl⟩
  · simp only [if_neg failed, returned, free]
    rw [Machine.run_append, Machine.run_append, run_resumePorts env.port (Nat.le_refl 16) rfl, Option.bind_some]
    generalize forLoop 16 _ s.vhci = w
    have cleared :
        (machine hz).step { s with vhci := w, bus := .resumePort 16, cq := none } (.resume (env.port 0)) =
        some { s with vhci := { w with portSuppressConnectMask := ∅ }, bus := .rearm, cq := none } := rfl
    rw [Machine.run_single cleared, Option.bind_some]
    refine ⟨if w.recoveryWatchdog then s.watchdogExpires
      else s.jiffies + msecsToJiffies hz (bceVhciWatchdogIntervalSecs * 1000), ?_⟩
    apply Machine.run_single
    show some { scheduleWatchdog hz _ with bus := .active } = _
    unfold scheduleWatchdog
    cases w.recoveryWatchdog with
    | true => simp
    | false => simp

end VhciWork

end AppleBce

import AppleBce.Vhci.Workers

namespace AppleBce

open Basis

namespace VhciWork

variable {hz : Nat} {s t : VhciWork} {a : WorkStep} {caller : CmdCaller} {status : Int}

/-- `recovering` is set while a recovery is at it. -/
def RecoveringOk (s : VhciWork) : Prop :=
  s.recovering = s.recovery.any RecoveryPc.recovers

theorem RecoveringOk.isSome (ok : s.RecoveringOk) (recovering : s.recovering) : s.recovery.isSome := by
  unfold RecoveringOk at ok
  cases run : s.recovery with
  | none =>
    rw [ok, run] at recovering
    cases recovering
  | some pc => rfl

theorem ReturnCase.recoveringOk (goes : ReturnCase s status caller t) (ok : s.RecoveringOk) : t.RecoveringOk := by
  unfold RecoveringOk at *
  cases goes with
  | recovery pc before after =>
    rw [before] at ok
    exact ok.trans after.symm
  | _ => exact ok

theorem Move.recoveringOk (move : Move hz s a t) (ok : s.RecoveringOk) : t.RecoveringOk := by
  cases move with
  | refused caller t dead goes => exact goes.recoveringOk ok
  | timedOut caller t recovering goes => exact goes.recoveringOk ok
  | desync caller t goes => exact goes.recoveringOk (s := s.scheduleRecovery) ok
  | replied status caller t held goes => exact goes.recoveringOk ok
  | recoveryTwice at_ recovering =>
    unfold RecoveringOk at ok
    rw [at_, recovering] at ok
    cases ok
  | recoveryGoes pc next vhci at_ same recovers =>
    unfold RecoveringOk at *
    rw [at_] at ok
    exact ok.trans recovers.symm
  | recoveryBegins at_ | recoveryDead at_ | recoverySkipped at_ | recoveryEnds at_ | recoveryStarted at_
  | recoveryFails at_ =>
    unfold RecoveringOk at *
    rw [at_] at ok
    exact ok
  | recoveryRearms at_ =>
    unfold RecoveringOk at *
    rw [at_] at ok
    simpa [RecoveryPc.recovers] using ok
  | recoveryClaims | recoveryOut => rfl
  | started | watchdogAgain | resumed => simpa [RecoveringOk] using ok
  | _ => exact ok

theorem recoveringOk_of_reach (reach : (machine hz).Reachable s) : s.RecoveringOk := by
  refine reach.invariant ?_ fun _ _ _ ok run => (step_move run).recoveringOk ok
  rintro _ ⟨portMask, jiffies, rfl⟩
  rfl

/-- The watchdog is pending or running. -/
def WatchdogLive (s : VhciWork) : Prop :=
  s.vhci.recoveryWatchdog ∨ s.watchdog.isSome

/-- The watchdog is pending or running, or a recovery is. -/
def Watched (s : VhciWork) : Prop :=
  s.WatchdogLive ∨ s.vhci.wRecovery ∨ s.recovery.isSome

/-- The bus is at work, from the return of `bce_vhci_start` on, and the controller is not given up. -/
def OnDuty (s : VhciWork) : Prop :=
  s.bus = .active ∧ s.vhci.controllerDead = false

instance (s : VhciWork) : Decidable s.WatchdogLive :=
  inferInstanceAs (Decidable (_ ∨ _))

instance (s : VhciWork) : Decidable s.Watched :=
  inferInstanceAs (Decidable (_ ∨ _))

instance (s : VhciWork) : Decidable s.OnDuty :=
  inferInstanceAs (Decidable (_ ∧ _))

/-- No recovery is skipped by the cooldown while the watchdog counts on it, and no suspend fails when
there is nothing but the watchdog it has cancelled. -/
def Spares (hz : Nat) (s : VhciWork) : WorkStep → Prop
  | .recovery => s.recovery = some .cooldown → s.coolingDown hz → s.OnDuty → s.WatchdogLive
  | .reply status => s.cq = some (.bus, false) → s.bus = .controllerPause → status ≠ 0 →
    s.vhci.controllerDead = false → s.Watched
  | _ => True

instance (hz : Nat) (s : VhciWork) (a : WorkStep) : Decidable (Spares hz s a) := by
  unfold Spares
  split <;> infer_instance

/-- A run of `bce_vhci_recovery_w` ends. -/
def RecoveryReturns (s t : VhciWork) : Prop :=
  s.recovery.isSome ∧ t.recovery = none

theorem ReturnCase.watched (goes : ReturnCase s status caller t) (watched : s.Watched) : t.Watched := by
  cases goes with
  | watchdog pc => exact .inl (.inr rfl)
  | recovery => exact .inr (.inr rfl)
  | _ => exact watched

/-- A command that returns puts the bus to work only when it is the one that a suspend fails with, and
it does not bring the controller back to life. -/
theorem ReturnCase.onDuty (goes : ReturnCase s status caller t) (duty : t.OnDuty) :
    s.vhci.controllerDead = false ∧ (s.bus = .active ∨ caller = .bus ∧ s.bus = .controllerPause ∧ status ≠ 0) := by
  obtain ⟨active, alive⟩ := duty
  cases goes with
  | suspendFailed at_ failed => exact ⟨alive, .inr ⟨rfl, at_, failed⟩⟩
  | suspend | resumeFailed | resume => cases active
  | _ => exact ⟨alive, .inl active⟩

/-- The watchdog is not lost by a step. -/
theorem Move.watched (move : Move hz s a t) (spares : Spares hz s a) (ok : s.RecoveringOk)
    (before : s.OnDuty → s.Watched) (duty : t.OnDuty) : t.Watched := by
  cases move with
  | started at_ =>
    exact .inl (.inl (scheduleWatchdog_pending (by rw [at_]; nofun)))
  | notified => exact .inr (.inl rfl)
  | table a vhci same =>
    obtain ⟨active, alive⟩ := duty
    have watched := before ⟨active, same.controllerDead.symm.trans alive⟩
    unfold Watched WatchdogLive at *
    rw [same.recoveryWatchdog, same.wRecovery]
    exact watched
  | refused caller t dead goes =>
    rw [(goes.onDuty duty).1] at dead
    cases dead
  | timedOut caller t recovering goes => exact goes.watched (.inr (.inr (ok.isSome recovering)))
  | desync caller t goes => exact goes.watched (s := s.scheduleRecovery) (.inr (.inl rfl))
  | replied status caller t held goes =>
    obtain ⟨alive, active | ⟨rfl, at_, failed⟩⟩ := goes.onDuty duty
    · exact goes.watched (before ⟨active, alive⟩)
    · exact goes.watched (spares held at_ failed alive)
  | watchdogBegins | watchdogGoes => exact .inl (.inr rfl)
  | watchdogDead dead =>
    rw [duty.2] at dead
    cases dead
  | watchdogTimedOut => exact .inr (.inl rfl)
  | watchdogAgain =>
    refine .inl (.inl (scheduleWatchdog_pending ?_))
    have active := duty.1
    simp only [scheduleWatchdog_bus] at active
    rw [active]
    nofun
  | recoveryBegins | recoveryGoes | recoveryStarted | recoveryFails | recoveryClaims | recoveryOut =>
    exact .inr (.inr rfl)
  | recoveryDead at_ dead | recoveryEnds at_ dead =>
    rw [duty.2] at dead
    cases dead
  | recoverySkipped at_ cooling => exact .inl (spares at_ cooling duty)
  | recoveryTwice at_ recovering =>
    unfold RecoveringOk at ok
    rw [at_, recovering] at ok
    cases ok
  | recoveryRearms at_ =>
    refine .inl (.inl (scheduleWatchdog_pending ?_))
    have active := duty.1
    simp only [scheduleWatchdog_bus] at active
    rw [active]
    nofun
  | deferred at_ recovering => exact .inr (.inr (ok.isSome recovering))
  | resumed env at_ =>
    exact .inl (.inl (scheduleWatchdog_pending (by rw [at_]; nofun)))
  | scheduled => exact .inr (.inl rfl)
  | suspendGoes env vhci next suspending same still =>
    cases (show next = .active from duty.1)
    cases still
  | busSuspend | suppressed | suspended | busResume | resumedPort | resumedPorts | startFailed => cases duty.1
  | tick | executed | desynced => exact before duty

theorem ReturnCase.isSome (goes : ReturnCase s status caller t) (running : s.recovery.isSome) :
    t.recovery.isSome := by
  cases goes with
  | recovery => rfl
  | _ => exact running

/-- A recovery that ends leaves the watchdog pending or running. -/
theorem Move.rearms (move : Move hz s a t) (spares : Spares hz s a) (ok : s.RecoveringOk)
    (returns : s.RecoveryReturns t) (duty : t.OnDuty) : t.WatchdogLive := by
  obtain ⟨running, done⟩ := returns
  have stays : ¬t.recovery.isSome := by
    rw [done]
    nofun
  cases move with
  | refused caller t dead goes => exact absurd (goes.isSome running) stays
  | timedOut caller t recovering goes => exact absurd (goes.isSome running) stays
  | desync caller t goes => exact absurd (goes.isSome (s := s.scheduleRecovery) running) stays
  | replied status caller t held goes => exact absurd (goes.isSome running) stays
  | recoveryDead at_ dead | recoveryEnds at_ dead =>
    rw [duty.2] at dead
    cases dead
  | recoverySkipped at_ cooling => exact spares at_ cooling duty
  | recoveryTwice at_ recovering =>
    unfold RecoveringOk at ok
    rw [at_, recovering] at ok
    cases ok
  | recoveryRearms at_ =>
    refine .inl (scheduleWatchdog_pending ?_)
    have active := duty.1
    simp only [scheduleWatchdog_bus] at active
    rw [active]
    nofun
  | recoveryBegins | recoveryGoes | recoveryStarted | recoveryFails | recoveryClaims | recoveryOut =>
    exact absurd rfl stays
  | started | watchdogAgain | resumed =>
    rw [scheduleWatchdog_recovery] at done
    rw [done] at running
    cases running
  | _ => exact absurd running stays

/-- In a run in which no recovery that the watchdog counts on is skipped by the cooldown, and no
suspend fails when nothing but the watchdog it has cancelled was there, the watchdog is not lost: it is
pending or running, or a recovery is pending or running, and one that ends has armed it. -/
theorem watchdog_never_lost (reach : (machine hz).ReachableUnder (Spares hz) s) :
    (s.OnDuty → s.Watched) ∧
      ∀ a t, Spares hz s a → s.step hz a = some t → s.RecoveryReturns t → t.OnDuty → t.WatchdogLive := by
  have ok {s : VhciWork} (reach : (machine hz).ReachableUnder (Spares hz) s) : s.RecoveringOk :=
    recoveringOk_of_reach reach.reachable
  refine ⟨?_, fun a t spares run => (step_move run).rearms spares (ok reach)⟩
  refine reach.invariant_of (I := fun s => s.OnDuty → s.Watched) (fun _ => ok) ?_ ?_
  · rintro _ ⟨portMask, jiffies, rfl⟩ ⟨active, -⟩
    cases active
  · exact fun s a t ok before spares run => (step_move run).watched spares ok before

/-- A step that does not meet the condition does lose the watchdog. -/
theorem lost_of_not_spares (run : s.step hz a = some t) (lost : ¬Spares hz s a) :
    t.OnDuty ∧ (¬t.Watched ∨ s.RecoveryReturns t ∧ ¬t.WatchdogLive) := by
  cases a with
  | recovery =>
    simp only [Spares, Classical.not_imp] at lost
    obtain ⟨at_, cooling, duty, lost⟩ := lost
    simp only [step, recoveryStep, at_, cooling, if_true] at run
    cases run
    exact ⟨duty, .inr ⟨⟨by rw [at_]; rfl, rfl⟩, lost⟩⟩
  | reply status =>
    simp only [Spares, Classical.not_imp] at lost
    obtain ⟨held, at_, failed, alive, lost⟩ := lost
    simp only [step, held, returned, at_, if_pos failed] at run
    cases run
    exact ⟨⟨rfl, alive⟩, .inl lost⟩
  | _ => exact absurd trivial lost

/-- What a run from a start with one port leads to, at 250 jiffies a second. -/
def ranUnder (C : VhciWork → WorkStep → Prop) [∀ s a, Decidable (C s a)] (steps : List WorkStep) :
    Option VhciWork :=
  ((machine 250).guard C).run (starting 3 1000) steps

theorem reachableUnder_of_ran {β : Type} {C : VhciWork → WorkStep → Prop} [∀ s a, Decidable (C s a)]
    {steps : List WorkStep} {view : VhciWork → β} {x : β}
    (ran : (ranUnder C steps).map view = some x) : ∃ s, (machine 250).ReachableUnder C s ∧ view s = x := by
  obtain ⟨s, ran, seen⟩ := Option.map_eq_some_iff.mp ran
  exact ⟨s, .of_run ⟨3, 1000, rfl⟩ steps ran, seen⟩

/-- A recovery from beginning to end, both of whose commands succeed. -/
def recoverySteps : List WorkStep :=
  [.recoveryBegins, .recovery, .recovery, .recovery, .recovery, .execute .recovery, .reply 0,
    .execute .recovery, .reply 0, .recovery, .recovery, .recovery, .recovery]

/-- A probe of the watchdog that times out. -/
def timedOutProbe : List WorkStep :=
  [.watchdogBegins, .watchdog, .watchdog, .execute .watchdog, .reply Errno.timedout.neg, .watchdog]

/-- A probe times out, and the recovery arms the watchdog. -/
theorem watchdog_never_lost_probe : ∃ s, (machine 250).ReachableUnder (Spares 250) s ∧ s.OnDuty ∧
    s.vhci.recoveryWatchdog = true ∧ ((s.OnDuty → s.Watched) ∧
      ∀ a t, Spares 250 s a → s.step 250 a = some t → s.RecoveryReturns t → t.OnDuty → t.WatchdogLive) := by
  have ran : (ranUnder (Spares 250) (.start :: .tick 7500 :: (timedOutProbe ++ recoverySteps))).map
      (fun s => (decide s.OnDuty, s.vhci.recoveryWatchdog)) = some (true, true) := by
    decide +kernel
  obtain ⟨s, reach, seen⟩ := reachableUnder_of_ran ran
  simp only [Prod.mk.injEq, decide_eq_true_eq] at seen
  exact ⟨s, reach, seen.1, seen.2, watchdog_never_lost reach⟩

/-- The T2 notifies of a reset when the watchdog is about to run. The recovery leaves the watchdog
pending, the probe times out, and the recovery that it schedules is skipped by the cooldown. -/
theorem watchdog_lost_in_cooldown : ¬∀ hz s, (machine hz).Reachable s → s.OnDuty → s.Watched := by
  intro kept
  have ran : (ranUnder (fun _ _ => True) (.start :: .tick 7400 :: .controllerResetNotify :: (recoverySteps ++
      (.tick 100 :: (timedOutProbe ++ [.recoveryBegins, .recovery, .recovery]))))).map
      (fun s => (decide s.OnDuty, decide s.Watched)) = some (true, false) := by
    decide +kernel
  obtain ⟨s, reach, seen⟩ := reachableUnder_of_ran ran
  simp only [Prod.mk.injEq, decide_eq_true_eq, decide_eq_false_iff_not] at seen
  exact seen.2 (kept 250 s reach seen.1)

end VhciWork

end AppleBce

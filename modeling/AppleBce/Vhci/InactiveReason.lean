import AppleBce.Vhci.PauseSources

namespace AppleBce

open Basis

namespace TransferRun

variable {s t : TransferRun} {a : TransferStep}

/-- The step is not that of a `do_pause` that gives up: the T2 took the command, and the endpoint is
in another state. Cancelling all URBs is left to the recovery and the refresh of a device. -/
def PauseConfirmed (s : TransferRun) : TransferStep → Prop
  | .advance _ =>
    match s.holder with
    | some (_, .pauseCheck _ status) => status = 0 → s.q.IsInState .paused
    | _ => True
  | .cancelAll => False
  | _ => True

instance (s : TransferRun) : (a : TransferStep) → Decidable (s.PauseConfirmed a)
  | .advance _ =>
    match holder : s.holder with
    | some (_, .pauseCheck _ status) =>
      decidable_of_iff (status = 0 → s.q.IsInState .paused) (by simp only [PauseConfirmed, holder])
    | none => .isTrue (by simp only [PauseConfirmed, holder])
    | some (_, .removePending _) | some (_, .pauseCommand _) | some (_, .pauseSet _) | some (_, .resumeCommand _)
    | some (_, .resumeCheck _) | some (_, .resumeSection _) | some (_, .resumeClear _) | some (_, .resetMark)
    | some (_, .resetRemove) | some (_, .resetEnd) | some (_, .suspendCommand) | some (_, .suspendSet) =>
      .isTrue (by simp only [PauseConfirmed, holder])
  | .cancelAll => .isFalse id
  | .op _ | .giveback | .queueFlush | .endpointReset | .startWork _ | .work | .lock _ | .destroy => .isTrue trivial

/-- A pause call for a source is in `do_pause`. -/
def Pausing (s : TransferRun) (src : BceVhciPauseSource) : Prop :=
  ∃ onWorker stage, s.holder = some (onWorker, stage) ∧
    (stage = .removePending src ∨ stage = .pauseCommand src ∨ (∃ status, stage = .pauseCheck src status) ∨
      stage = .pauseSet src)

/-- With `pause_lock` free an inactive queue is paused or stalled, and where `do_resume` has
activated it only a stall stops it again. -/
def Accounted (s : TransferRun) : Prop :=
  match s.holder with
  | none => s.q.active = false → s.q.pausedBy ≠ 0 ∨ s.q.stalled
  | some (_, .resumeClear _) => s.q.active = false → s.q.stalled
  | some _ => True

theorem accounted_of_stops (accounted : s.Accounted) (holder : t.holder = s.holder)
    (stops : s.q.Stops t.q) : t.Accounted := by
  have stalls : t.q.active = false → s.q.active = true → t.q.stalled := by
    intro inactive active
    rcases stops.active with same | ⟨-, stalled⟩
    · rw [inactive, active] at same
      cases same
    · exact stalled
  unfold Accounted at accounted ⊢
  rw [holder]
  split
  · rename_i free
    rw [free] at accounted
    intro inactive
    cases before : s.q.active with
    | true => exact .inr (stalls inactive before)
    | false =>
      rw [stops.pausedBy]
      exact (accounted before).imp_right stops.stalled
  · rename_i held
    rw [held] at accounted
    intro inactive
    cases before : s.q.active with
    | true => exact stalls inactive before
    | false => exact stops.stalled (accounted before)
  · trivial

theorem accounted_of_paused (q : BceVhciTransferQueue) (paused : q.pausedBy ≠ 0) :
    q.active = false → q.pausedBy ≠ 0 ∨ q.stalled :=
  fun _ => .inl paused

theorem accounted_of_set (q : BceVhciTransferQueue) (src : BceVhciPauseSource) :
    (q.setPaused src).active = false → (q.setPaused src).pausedBy ≠ 0 ∨ (q.setPaused src).stalled :=
  accounted_of_paused _ (BceVhciTransferQueue.pausedBy_ne_zero (q.setPaused_pausedFor src))

theorem lockStep_accounted {onWorker : Bool} {call : PauseCall} (accounted : s.Accounted)
    (free : s.holder = none) (run : s.lockStep onWorker call = some t) : t.Accounted := by
  have reason : s.q.active = false → s.q.pausedBy ≠ 0 ∨ s.q.stalled := by
    rw [Accounted, free] at accounted
    exact accounted
  cases call with
  | pause src =>
    simp only [lockStep] at run
    split at run
    · cases Option.some.inj run
      exact reason
    · split at run
      · cases Option.some.inj run
        exact accounted_of_set s.q src
      · obtain ⟨-, after⟩ := Option.ite_none_right_eq_some.mp run
        cases after
        exact trivial
  | resume src =>
    simp only [lockStep] at run
    split at run
    · cases Option.some.inj run
      exact reason
    · split at run
      · rename_i others
        cases Option.some.inj run
        exact accounted_of_paused (s.q.clearPaused src) others
      · cases Option.some.inj run
        exact trivial
  | reset =>
    simp only [lockStep] at run
    split at run
    · cases run
    · split at run
      · cases Option.some.inj run
        rw [Accounted, free]
        exact reason
      · cases Option.some.inj run
        exact trivial
  | suspend =>
    simp only [lockStep] at run
    split at run
    · cases Option.some.inj run
      exact accounted_of_set s.q .suspend
    · obtain ⟨-, after⟩ := Option.ite_none_right_eq_some.mp run
      cases after
      exact trivial

theorem advanceStep_accounted {onWorker : Bool} {env : PauseEnv} {stage : PauseStage}
    (accounted : s.Accounted) (exclusive : s.Exclusive) (held : s.holder = some (onWorker, stage))
    (confirmed : s.PauseConfirmed (.advance env)) (run : s.advanceStep onWorker env stage = some t) :
    t.Accounted := by
  have ok := exclusive_stage exclusive held
  cases stage with
  | removePending src | resetRemove =>
    obtain ⟨-, after⟩ := Option.ite_none_right_eq_some.mp run
    cases after
    exact trivial
  | pauseCommand src =>
    simp only [advanceStep] at run
    split at run <;> cases Option.some.inj run <;> exact trivial
  | pauseCheck src status =>
    simp only [advanceStep] at run
    split at run
    · rename_i wrong
      rw [PauseConfirmed, held] at confirmed
      exact absurd (confirmed wrong.1) wrong.2
    · cases Option.some.inj run
      exact trivial
  | pauseSet src =>
    cases Option.some.inj run
    exact accounted_of_set s.q src
  | suspendSet =>
    cases Option.some.inj run
    exact accounted_of_set s.q .suspend
  | resumeCommand src =>
    obtain ⟨-, -, pausedBy⟩ := s.q.setStateAnswered_flags env
    have paused : (s.q.setStateAnswered env).pausedBy ≠ 0 := by
      rw [pausedBy, ok.2]
      exact src.bit_ne_zero
    simp only [advanceStep] at run
    split at run <;> cases Option.some.inj run
    · exact accounted_of_paused _ paused
    · exact trivial
  | resumeCheck src =>
    have paused : s.q.pausedBy ≠ 0 := by
      rw [ok.2]
      exact src.bit_ne_zero
    simp only [advanceStep] at run
    split at run <;> cases Option.some.inj run
    · exact accounted_of_paused s.q paused
    · exact trivial
  | resumeSection src =>
    obtain ⟨-, after⟩ := Option.ite_none_right_eq_some.mp run
    cases after
    show s.q.resumeSection.active = false → s.q.resumeSection.stalled
    intro inactive
    rcases (BceVhciTransferQueue.stops_relation.resumeSection s.q).active with same | ⟨-, stalled⟩
    · rw [inactive] at same
      cases same
    · exact stalled
  | resumeClear src =>
    cases Option.some.inj run
    rw [Accounted, held] at accounted
    exact fun inactive => .inr (accounted inactive)
  | resetMark | suspendCommand =>
    cases Option.some.inj run
    exact trivial
  | resetEnd =>
    obtain ⟨-, after⟩ := Option.ite_none_right_eq_some.mp run
    cases after
    have paused : BceVhciTransferQueue.pausedBy { s.q with stalled := false } ≠ 0 :=
      BceVhciTransferQueue.pausedBy_ne_zero ok.2
    exact accounted_of_paused _ paused

theorem step_accounted (exclusive : s.Exclusive) (accounted : s.Accounted) (confirmed : s.PauseConfirmed a)
    (run : s.step a = some t) : t.Accounted := by
  cases step_pauseEffect run with
  | lock onWorker call _ _ free run => exact lockStep_accounted accounted free run
  | advance onWorker env stage label held run =>
    rw [label] at confirmed
    exact advanceStep_accounted accounted exclusive held confirmed run
  | cancelledAll label _ =>
    rw [label] at confirmed
    cases confirmed
  | stops holder stops => exact accounted_of_stops accounted holder stops

theorem accounted_of_reach (reach : machine.ReachableUnder PauseConfirmed s) : s.Accounted := by
  refine reach.invariant_of (J := Exclusive) (fun s reach => exclusive_of_reach reach.reachable) ?_
    (fun s a t exclusive accounted confirmed run => step_accounted exclusive accounted confirmed run)
  rintro s ⟨endp, devAddr, memory, reservations, q, create, rfl⟩
  intro inactive
  have active := (createTransferQueue_unused create).active
  rw [show q.active = false from inactive] at active
  cases active

/-- A pause that is confirmed ends with the bit of its source set. -/
theorem step_pausing {src : BceVhciPauseSource} (pausing : s.Pausing src) (confirmed : s.PauseConfirmed a)
    (run : s.step a = some t) : t.Pausing src ∨ (t.holder = none ∧ t.q.pausedFor src) := by
  obtain ⟨onWorker, stage, held, stages⟩ := pausing
  cases step_pauseEffect run with
  | lock _ _ _ _ free _ =>
    rw [free] at held
    cases held
  | cancelledAll label _ =>
    rw [label] at confirmed
    cases confirmed
  | stops holder _ => exact .inl ⟨onWorker, stage, holder.trans held, stages⟩
  | advance onWorker' env stage' label here run =>
    cases here.symm.trans held
    rw [label] at confirmed
    rcases stages with rfl | rfl | ⟨status, rfl⟩ | rfl
    · obtain ⟨-, after⟩ := Option.ite_none_right_eq_some.mp run
      cases after
      exact .inl ⟨onWorker, _, rfl, .inr (.inl rfl)⟩
    · simp only [advanceStep] at run
      split at run <;> cases Option.some.inj run
      · exact .inl ⟨onWorker, _, rfl, .inr (.inr (.inr rfl))⟩
      · exact .inl ⟨onWorker, _, rfl, .inr (.inr (.inl ⟨_, rfl⟩))⟩
    · simp only [advanceStep] at run
      split at run
      · rename_i wrong
        rw [PauseConfirmed, held] at confirmed
        exact absurd (confirmed wrong.1) wrong.2
      · cases Option.some.inj run
        exact .inl ⟨onWorker, _, rfl, .inr (.inr (.inr rfl))⟩
    · cases Option.some.inj run
      exact .inr ⟨rfl, s.q.setPaused_pausedFor src⟩

/-- In every run in which the T2 confirms the pauses it takes, an inactive queue is paused or
stalled whenever `pause_lock` is free, and a pause ends with the bit of its source set. -/
theorem inactive_has_reason (reach : machine.ReachableUnder PauseConfirmed s) :
    (s.holder = none → s.q.active = false → s.q.pausedBy ≠ 0 ∨ s.q.stalled) ∧
      ∀ a t src, s.Pausing src → s.PauseConfirmed a → s.step a = some t →
        t.Pausing src ∨ (t.holder = none ∧ t.q.pausedFor src) := by
  refine ⟨?_, fun a t src pausing confirmed run => step_pausing pausing confirmed run⟩
  intro free inactive
  have accounted := accounted_of_reach reach
  rw [Accounted, free] at accounted
  exact accounted inactive

/-- The T2 fails the pause command, and the endpoint is paused all the same. -/
theorem inactive_has_reason_failed : ∃ s, machine.ReachableUnder PauseConfirmed s ∧ s.holder = none ∧
    s.q.active = false ∧ (s.q.pausedBy ≠ 0 ∨ s.q.stalled) := by
  have ran : (ranUnder PauseConfirmed bulkIn []
      [.lock (.pause .firmware), .advance ⟨false, 0, 1⟩, .advance ⟨false, -110, 0⟩,
        .advance ⟨false, 0, 1⟩, .advance ⟨false, 0, 1⟩]).map
      (fun s => (s.holder, s.q.active)) = some (none, false) := by
    decide
  obtain ⟨s, reach, seen⟩ := reachableUnder_of_ran ran
  simp only [Prod.mk.injEq] at seen
  exact ⟨s, reach, seen.1, seen.2, (inactive_has_reason reach).1 seen.1 seen.2⟩

/-- The T2 takes the pause command and answers that the endpoint is active. -/
theorem unconfirmed_pause_wedges : ¬∀ s, machine.ReachableUnder (fun _ a => a ≠ .cancelAll) s →
    s.holder = none → s.q.active = false → s.q.pausedBy ≠ 0 ∨ s.q.stalled := by
  intro reasons
  have ran : (ranUnder (fun _ a => a ≠ .cancelAll) bulkIn []
      [.lock (.pause .firmware), .advance ⟨false, 0, 0⟩, .advance ⟨false, 0, 0⟩,
        .advance ⟨false, 0, 0⟩]).map
      (fun s => (s.holder, s.q.active, s.q.pausedBy, s.q.stalled)) = some (none, false, 0, false) := by
    decide
  obtain ⟨s, reach, seen⟩ := reachableUnder_of_ran ran
  simp only [Prod.mk.injEq] at seen
  obtain ⟨free, inactive, unpaused, running⟩ := seen
  rcases reasons s reach free inactive with paused | stalled
  · exact paused unpaused
  · rw [running] at stalled
    cases stalled

end TransferRun

end AppleBce

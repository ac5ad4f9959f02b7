import AppleBce.Basis.Machine
import AppleBce.Basis.Timer

namespace AppleBce

open Basis

/-- Where `aaudio_pcm_period_timer` is: before it reads `started`, before it queues the work item, or
before it forwards the timer and returns `HRTIMER_RESTART`. -/
inductive PeriodCallback
  | begun
  | wanted
  | queued
  deriving DecidableEq, Repr

/-- Where `aaudio_pcm_period_work` is: before it reads `started`, before `snd_pcm_period_elapsed` has
the lock of the stream, or with it. -/
inductive PeriodWork
  | begun
  | passed
  | elapsing
  deriving DecidableEq, Repr

/-- What ALSA takes the substream for. -/
inductive PcmState
  | closed
  | idle
  | running
  | suspended
  deriving DecidableEq, Repr

/-- Where a callback of ALSA is: `aaudio_pcm_trigger` before a store to `started`, or before
`hrtimer_start` or `hrtimer_cancel`, and `aaudio_pcm_close` before `hrtimer_cancel` or
`cancel_work_sync`. The flag of a start is `no_period_wakeup`. -/
inductive PcmCall
  | startIo (noWakeup : Bool)
  | startTimer (noWakeup : Bool)
  | stopIo
  | stopCancel
  | suspendCancel
  | closeTimer
  | closeWork
  deriving DecidableEq, Repr

/-- A trigger is called with the lock of the stream. -/
def PcmCall.locked : PcmCall → Bool
  | .closeTimer | .closeWork => false
  | _ => true

/-- A substream with its period timer and its work item. `number` is that of the substream, `wakeups`
whether the running session asked for period wakeups, and the counters are the expiries of the timer and
the calls of `snd_pcm_period_elapsed` by the work item. -/
structure PeriodRun where
  number : Nat
  state : PcmState
  started : Bool
  wakeups : Bool
  call : Option PcmCall
  timer : Timer PeriodCallback
  work : Timer PeriodWork
  expiries : Nat
  elapsed : Nat

/-- `pcmOpen` is for a substream with a hardware description, or without. A substream that does not run is
suspended without a trigger (`suspendIdle`), and one that is suspended is prepared before it starts again.
`call` is a step of the running callback of ALSA, `callback` of that of the timer, and `work` of the work
item. -/
inductive PeriodStep
  | pcmOpen (described : Bool)
  | triggerStart (noWakeup : Bool)
  | triggerStop
  | triggerSuspend
  | suspendIdle
  | prepare
  | close
  | call
  | quiesce
  | expires
  | callback
  | workBegins
  | work
  deriving DecidableEq, Repr

namespace PeriodRun

def fresh (number : Nat) : PeriodRun where
  number := number
  state := .closed
  started := false
  wakeups := false
  call := none
  timer := .idle
  work := .idle
  expiries := 0
  elapsed := 0

/-- A trigger holds the lock of the stream. -/
def triggered (s : PeriodRun) : Bool :=
  s.call.any PcmCall.locked

/-- Nothing holds the lock of the stream. -/
def unlocked (s : PeriodRun) : Prop :=
  s.triggered = false ∧ s.work.running ≠ some .elapsing

instance (s : PeriodRun) : Decidable s.unlocked :=
  inferInstanceAs (Decidable (_ ∧ _))

/-- A trigger on another substream than the first has no effect but on what ALSA takes it for. -/
def trigger (s : PeriodRun) (call : PcmCall) (state : PcmState) : PeriodRun :=
  if s.number = 0 then { s with call := some call } else { s with state }

def callStep (s : PeriodRun) : Option PeriodRun :=
  match s.call with
  | none => none
  | some (.startIo noWakeup) => some { s with started := true, call := some (.startTimer noWakeup) }
  | some (.startTimer noWakeup) =>
    some { s with
      timer := if noWakeup then s.timer else s.timer.arm
      wakeups := !noWakeup
      state := .running
      call := none }
  | some .stopIo => some { s with started := false, call := some .stopCancel }
  | some .stopCancel => s.timer.deleteSync.map fun timer => { s with timer, state := .idle, call := none }
  | some .suspendCancel => s.timer.deleteSync.map fun timer => { s with timer, state := .suspended, call := none }
  | some .closeTimer => s.timer.deleteSync.map fun timer => { s with timer, call := some .closeWork }
  | some .closeWork => s.work.deleteSync.map fun work => { s with work, state := .closed, call := none }

/-- `aaudio_pcm_period_timer`. -/
def callbackStep (s : PeriodRun) : Option PeriodRun :=
  match s.timer.running with
  | none => none
  | some .begun => some { s with timer := if s.started then s.timer.goOn .wanted else s.timer.finish }
  | some .wanted => some { s with work := s.work.arm, timer := s.timer.goOn .queued }
  | some .queued => some { s with timer := s.timer.arm.finish }

/-- `aaudio_pcm_period_work`. -/
def workStep (s : PeriodRun) : Option PeriodRun :=
  match s.work.running with
  | none => none
  | some .begun => some { s with work := if s.started then s.work.goOn .passed else s.work.finish }
  | some .passed =>
    if s.unlocked then some { s with work := s.work.goOn .elapsing, elapsed := s.elapsed + 1 } else none
  -- a stop within `snd_pcm_period_elapsed` ends before it
  | some .elapsing => if s.triggered then none else some { s with work := s.work.finish }

def step (s : PeriodRun) : PeriodStep → Option PeriodRun
  | .pcmOpen described =>
    if s.state = .closed ∧ s.call = none then
      some (if described then { s with state := .idle, timer := .idle, work := .idle } else s)
    else none
  | .triggerStart noWakeup =>
    if s.state = .idle ∧ s.call = none ∧ s.unlocked then some (s.trigger (.startIo noWakeup) .running) else none
  -- also by `snd_pcm_period_elapsed` itself, for an overrun or underrun
  | .triggerStop => if s.state = .running ∧ s.call = none then some (s.trigger .stopIo .idle) else none
  | .triggerSuspend =>
    if s.state = .running ∧ s.call = none ∧ s.unlocked then some (s.trigger .suspendCancel .suspended) else none
  | .suspendIdle => if s.state = .idle ∧ s.call = none then some { s with state := .suspended } else none
  -- neither `aaudio_pcm_prepare` nor a drop, which is without a trigger here, touches `started` or the timer
  | .prepare => if s.state = .suspended ∧ s.call = none then some { s with state := .idle } else none
  | .close =>
    if (s.state = .idle ∨ s.state = .suspended) ∧ s.call = none then
      some { s with call := some .closeTimer }
    else none
  | .call => s.callStep
  | .quiesce => some { s with started := false }
  | .expires => (s.timer.expire .begun).map fun timer => { s with timer, expiries := s.expiries + 1 }
  | .callback => s.callbackStep
  | .workBegins => (s.work.expire .begun).map fun work => { s with work }
  | .work => s.workStep

/-- All orders of ALSA's calls, of `aaudio_quiesce`, of the timer and of the work item. -/
def machine : Machine PeriodRun PeriodStep where
  init s := ∃ number, s = fresh number
  step := step

variable {s t : PeriodRun}

/-- What is known of the timer and the work item at each point of ALSA's calls. -/
def Phase (s : PeriodRun) : Option PcmCall → Prop
  | none =>
    match s.state with
    | .closed => s.timer.Quiet ∧ s.work.Quiet
    | .idle | .suspended => s.timer.Quiet
    | .running => s.started → s.wakeups → ¬s.timer.Quiet
  | some (.startIo _) | some (.startTimer _) => s.state = .idle ∧ s.timer.Quiet
  | some .stopIo | some .stopCancel | some .suspendCancel => s.state = .running
  | some .closeTimer | some .closeWork => (s.state = .idle ∨ s.state = .suspended) ∧ s.timer.Quiet

/-- Whether the callback of the timer, or the work item, may still come to call `snd_pcm_period_elapsed`. -/
def callbackOwes : Option PeriodCallback → Nat
  | some .begun | some .wanted => 1
  | _ => 0

def workOwes : Option PeriodWork → Nat
  | some .begun | some .passed => 1
  | _ => 0

/-- The calls of `snd_pcm_period_elapsed` that are on their way. -/
def owed (s : PeriodRun) : Nat :=
  s.work.pending.toNat + workOwes s.work.running + callbackOwes s.timer.running

structure Sound (s : PeriodRun) : Prop where
  phase : s.Phase s.call
  idle : s.state = .closed → s.timer.Quiet ∧ s.work.Quiet
  single : s.timer.pending → s.timer.running = none
  other : s.number ≠ 0 → s.started = false ∧ s.triggered = false ∧ s.timer.Quiet
  owed : s.elapsed + s.owed ≤ s.expiries

theorem fresh_sound (number : Nat) : (fresh number).Sound where
  phase := ⟨Timer.idle_quiet, Timer.idle_quiet⟩
  idle _ := ⟨Timer.idle_quiet, Timer.idle_quiet⟩
  single := by simp [fresh, Timer.idle]
  other _ := ⟨rfl, rfl, Timer.idle_quiet⟩
  owed := Nat.le_refl 0

theorem first_of_triggered (sound : s.Sound) (triggered : s.triggered) : s.number = 0 := by
  refine Decidable.byContradiction fun other => ?_
  rw [(sound.other other).2.1] at triggered
  cases triggered

theorem arm_not_quiet (timer : Timer PeriodCallback) : ¬timer.arm.Quiet := by
  rintro ⟨pending, -⟩
  cases pending

/-- Once the timer is deleted its callback queues no work. -/
theorem owed_deleted {timer : Timer PeriodCallback} (deleted : s.timer.deleteSync = some timer) :
    timer.Quiet ∧ PeriodRun.owed { s with timer } ≤ s.owed := by
  have quiet := Timer.deleteSync_quiet deleted
  refine ⟨quiet, ?_⟩
  simp only [PeriodRun.owed, quiet.2, callbackOwes]
  omega

theorem Sound.callStep (sound : s.Sound) (run : s.callStep = some t) : t.Sound := by
  have phase := sound.phase
  have owed := sound.owed
  have first : s.triggered → s.number = 0 := first_of_triggered sound
  unfold PeriodRun.callStep at run
  split at run
  case h_1 => cases run
  case h_2 noWakeup call =>
    cases Option.some.inj run
    rw [call] at phase
    have zero : s.number = 0 := first (by rw [triggered, call]; rfl)
    exact ⟨phase, sound.idle, sound.single, fun other => absurd zero other, owed⟩
  case h_3 noWakeup call =>
    cases Option.some.inj run
    rw [call] at phase
    obtain ⟨idle, quiet⟩ := phase
    have zero : s.number = 0 := first (by rw [triggered, call]; rfl)
    refine ⟨?_, nofun, ?_, fun other => absurd zero other, ?_⟩
    · intro _ wakeups
      cases noWakeup with
      | true => cases wakeups
      | false => exact arm_not_quiet s.timer
    · intro _
      cases noWakeup <;> exact quiet.2
    · cases noWakeup <;> exact owed
  case h_4 call =>
    cases Option.some.inj run
    rw [call] at phase
    have zero : s.number = 0 := first (by rw [triggered, call]; rfl)
    exact ⟨phase, sound.idle, sound.single, fun other => absurd zero other, owed⟩
  case h_5 call | h_6 call =>
    obtain ⟨timer, deleted, rfl⟩ := Option.map_eq_some_iff.mp run
    obtain ⟨quiet, less⟩ := owed_deleted deleted
    have zero : s.number = 0 := first (by rw [triggered, call]; rfl)
    exact ⟨quiet, nofun, fun _ => quiet.2, fun other => absurd zero other,
      Nat.le_trans (Nat.add_le_add_left less _) owed⟩
  case h_7 call =>
    obtain ⟨timer, deleted, rfl⟩ := Option.map_eq_some_iff.mp run
    obtain ⟨quiet, less⟩ := owed_deleted deleted
    rw [call] at phase
    refine ⟨⟨phase.1, quiet⟩, ?_, fun _ => quiet.2, ?_, Nat.le_trans (Nat.add_le_add_left less _) owed⟩
    · exact fun closed => ⟨quiet, (sound.idle closed).2⟩
    · exact fun other => ⟨(sound.other other).1, rfl, quiet⟩
  case h_8 call =>
    obtain ⟨work, deleted, rfl⟩ := Option.map_eq_some_iff.mp run
    have quiet := Timer.deleteSync_quiet deleted
    rw [call] at phase
    refine ⟨⟨phase.2, quiet⟩, fun _ => ⟨phase.2, quiet⟩, sound.single, ?_, ?_⟩
    · exact fun other => ⟨(sound.other other).1, rfl, phase.2⟩
    · simp only [PeriodRun.owed, quiet.1, quiet.2, workOwes, Bool.toNat_false] at owed ⊢
      omega

/-- The timer is at work only while the stream runs. -/
theorem running_of_busy (sound : s.Sound) (busy : ¬s.timer.Quiet) : s.state = .running := by
  have phase := sound.phase
  unfold Phase at phase
  split at phase
  · split at phase
    · exact absurd phase.1 busy
    · exact absurd phase busy
    · exact absurd phase busy
    · assumption
  · exact absurd phase.2 busy
  · exact absurd phase.2 busy
  · exact phase
  · exact phase
  · exact phase
  · exact absurd phase.2 busy
  · exact absurd phase.2 busy

/-- The timer and its callback go on. -/
theorem Sound.callback {timer : Timer PeriodCallback} {work : Timer PeriodWork} {expiries : Nat} (sound : s.Sound)
    (busy : ¬s.timer.Quiet) (alive : s.started → ¬timer.Quiet) (single : timer.pending → timer.running = none)
    (owed : s.elapsed + PeriodRun.owed { s with timer, work } ≤ expiries) :
    Sound { s with timer, work, expiries } := by
  have runs := running_of_busy sound busy
  refine ⟨?_, ?_, single, fun other => absurd (sound.other other).2.2 busy, owed⟩
  · have phase := sound.phase
    revert phase
    dsimp only
    cases s.call with
    | none =>
      intro _
      simp only [Phase, runs]
      exact fun started _ => alive started
    | some call =>
      intro phase
      cases call with
      | stopIo | stopCancel | suspendCancel => exact phase
      | startIo _ | startTimer _ | closeTimer | closeWork => exact absurd phase.2 busy
  · intro closed
    cases runs.symm.trans closed

/-- The work item goes on. -/
theorem Sound.works {work : Timer PeriodWork} {elapsed : Nat} (sound : s.Sound) (busy : ¬s.work.Quiet)
    (owed : elapsed + PeriodRun.owed { s with work } ≤ s.expiries) : Sound { s with work, elapsed } := by
  have opened : s.state ≠ .closed := fun closed => busy (sound.idle closed).2
  refine ⟨?_, fun closed => absurd closed opened, sound.single, sound.other, owed⟩
  have phase := sound.phase
  revert phase
  dsimp only
  cases s.call with
  | none =>
    simp only [Phase]
    cases state : s.state with
    | closed => exact absurd state opened
    | idle | suspended | running => exact id
  | some call => cases call <;> exact id

theorem Sound.callbackStep (sound : s.Sound) (run : s.callbackStep = some t) : t.Sound := by
  have owed := sound.owed
  unfold PeriodRun.callbackStep at run
  split at run
  case h_1 => cases run
  case h_2 running =>
    cases Option.some.inj run
    refine sound.callback (Timer.not_quiet_of_running running) ?_ ?_ ?_
    · intro started
      rw [if_pos started]
      exact Timer.not_quiet_of_running rfl
    · intro pending
      have before : s.timer.pending := by
        split at pending <;> exact pending
      cases running.symm.trans (sound.single before)
    · simp only [PeriodRun.owed, running, callbackOwes] at owed ⊢
      cases s.started
      · exact Nat.le_trans (Nat.add_le_add_left (Nat.le_succ _) _) owed
      · exact owed
  case h_3 running =>
    cases Option.some.inj run
    refine sound.callback (Timer.not_quiet_of_running running) (fun _ => Timer.not_quiet_of_running rfl) ?_ ?_
    · intro pending
      cases running.symm.trans (sound.single pending)
    · -- a work item that is pending stays so, and takes this expiry with it
      have one : (true : Bool).toNat ≤ s.work.pending.toNat + 1 := Nat.le_add_left 1 _
      simp only [PeriodRun.owed, running, callbackOwes, Timer.arm, Timer.goOn] at owed ⊢
      omega
  case h_4 running =>
    cases Option.some.inj run
    refine sound.callback (Timer.not_quiet_of_running running) ?_ (fun _ => rfl) ?_
    · rintro - ⟨pending, -⟩
      cases pending
    · simp only [PeriodRun.owed, running] at owed ⊢
      exact owed

theorem Sound.workStep (sound : s.Sound) (run : s.workStep = some t) : t.Sound := by
  have owed := sound.owed
  unfold PeriodRun.workStep at run
  split at run
  case h_1 => cases run
  case h_2 running =>
    cases Option.some.inj run
    refine sound.works (Timer.not_quiet_of_running running) ?_
    simp only [PeriodRun.owed, running, workOwes] at owed ⊢
    cases s.started
    · simp only [Bool.false_eq_true, if_false, Timer.finish]
      omega
    · exact owed
  case h_3 running =>
    obtain ⟨-, after⟩ := Option.ite_none_right_eq_some.mp run
    cases after
    refine sound.works (Timer.not_quiet_of_running running) ?_
    simp only [PeriodRun.owed, running, workOwes, Timer.goOn] at owed ⊢
    omega
  case h_4 running =>
    obtain ⟨-, after⟩ := Option.ite_none_left_eq_some.mp run
    cases after
    refine sound.works (Timer.not_quiet_of_running running) ?_
    simp only [PeriodRun.owed, running] at owed ⊢
    exact owed

/-- A trigger begins, or ends at once on another substream. -/
theorem Sound.trigger {call : PcmCall} {state : PcmState} (sound : s.Sound) (begins : Phase s (some call))
    (ends : s.number ≠ 0 → Phase { s with state } none) (opened : state ≠ .closed) (idle : s.call = none) :
    (s.trigger call state).Sound := by
  unfold PeriodRun.trigger
  split
  · rename_i zero
    exact ⟨begins, sound.idle, sound.single, fun other => absurd zero other, sound.owed⟩
  · rename_i other
    refine ⟨?_, fun closed => absurd closed opened, sound.single, sound.other, sound.owed⟩
    rw [idle]
    exact ends other

/-- A substream whose timer is quiet is taken for suspended, or for prepared. -/
theorem Sound.halted {state : PcmState} (sound : s.Sound) (quiet : s.timer.Quiet) (opened : state ≠ .closed)
    (idle : s.call = none) (runs : state ≠ .running) : Sound { s with state } := by
  refine ⟨?_, fun closed => absurd closed opened, sound.single, sound.other, sound.owed⟩
  simp only [idle, Phase]
  cases state with
  | closed => exact absurd rfl opened
  | idle | suspended => exact quiet
  | running => exact absurd rfl runs

theorem Sound.step {a : PeriodStep} (sound : s.Sound) (run : s.step a = some t) : t.Sound := by
  have phase := sound.phase
  have owed := sound.owed
  cases a with
  | pcmOpen described =>
    obtain ⟨⟨closed, idle⟩, after⟩ := Option.ite_none_right_eq_some.mp run
    cases after
    split
    · refine ⟨?_, nofun, nofun, fun other => ?_, ?_⟩
      · simp only [idle]
        exact Timer.idle_quiet
      · exact ⟨(sound.other other).1, (sound.other other).2.1, Timer.idle_quiet⟩
      · exact Nat.le_trans (Nat.le_add_right _ _) owed
    · exact sound
  | triggerStart noWakeup =>
    obtain ⟨⟨state, idle, -⟩, after⟩ := Option.ite_none_right_eq_some.mp run
    cases after
    simp only [idle, Phase, state] at phase
    refine sound.trigger ⟨state, phase⟩ ?_ nofun idle
    intro other started
    cases (sound.other other).1.symm.trans started
  | triggerStop =>
    obtain ⟨⟨state, idle⟩, after⟩ := Option.ite_none_right_eq_some.mp run
    cases after
    exact sound.trigger state (fun other => (sound.other other).2.2) nofun idle
  | triggerSuspend =>
    obtain ⟨⟨state, idle, -⟩, after⟩ := Option.ite_none_right_eq_some.mp run
    cases after
    exact sound.trigger state (fun other => (sound.other other).2.2) nofun idle
  | suspendIdle | prepare =>
    obtain ⟨⟨state, idle⟩, after⟩ := Option.ite_none_right_eq_some.mp run
    cases after
    simp only [idle, Phase, state] at phase
    exact sound.halted phase nofun idle nofun
  | close =>
    obtain ⟨⟨state, idle⟩, after⟩ := Option.ite_none_right_eq_some.mp run
    cases after
    have quiet : s.timer.Quiet := by
      rcases state with state | state
      · simpa only [idle, Phase, state] using phase
      · simpa only [idle, Phase, state] using phase
    exact ⟨⟨state, quiet⟩, sound.idle, sound.single, fun other => ⟨(sound.other other).1, rfl, quiet⟩, owed⟩
  | call => exact sound.callStep run
  | quiesce =>
    cases Option.some.inj run
    refine ⟨?_, sound.idle, sound.single, fun other => ⟨rfl, (sound.other other).2⟩, owed⟩
    revert phase
    dsimp only
    cases s.call with
    | none =>
      simp only [Phase]
      cases s.state with
      | closed | idle | suspended => exact id
      | running => exact fun _ started => nomatch started
    | some call => cases call <;> exact id
  | expires =>
    obtain ⟨timer, expired, rfl⟩ := Option.map_eq_some_iff.mp run
    obtain ⟨pending, waiting, rfl⟩ := Timer.expire_eq expired
    refine sound.callback (Timer.expire_not_quiet expired) (fun _ => Timer.not_quiet_of_running rfl) nofun ?_
    simp only [PeriodRun.owed, waiting, callbackOwes] at owed ⊢
    omega
  | callback => exact sound.callbackStep run
  | workBegins =>
    obtain ⟨work, expired, rfl⟩ := Option.map_eq_some_iff.mp run
    obtain ⟨pending, waiting, rfl⟩ := Timer.expire_eq expired
    refine sound.works (Timer.expire_not_quiet expired) ?_
    simp only [PeriodRun.owed, waiting, pending, workOwes, Bool.toNat_true, Bool.toNat_false] at owed ⊢
    omega
  | work => exact sound.workStep run

theorem sound_of_reach (reach : machine.Reachable s) : s.Sound := by
  refine reach.invariant (I := Sound) ?_ fun _ _ _ sound run => sound.step run
  rintro _ ⟨number, rfl⟩
  exact fresh_sound number

/-- The timer and the work item are left alone while the stream is closed, and so is the timer while it
does not run: they are never initialised again while they are in use. In a running stream that asked for
periods the timer lives until `started` is cleared, and no expiry has more than one call of
`snd_pcm_period_elapsed` follow it. -/
theorem period_timer_follows (reach : machine.Reachable s) :
    (s.state = .closed → s.timer.Quiet ∧ s.work.Quiet) ∧
    (s.call = none → s.state ≠ .running → s.timer.Quiet) ∧
    (s.call = none → s.state = .running → s.started → s.wakeups → ¬s.timer.Quiet) ∧ s.elapsed ≤ s.expiries := by
  have sound := sound_of_reach reach
  refine ⟨sound.idle, ?_, ?_, Nat.le_trans (Nat.le_add_right _ _) sound.owed⟩
  · intro _ state
    exact Classical.byContradiction fun busy => state (running_of_busy sound busy)
  · intro idle state started wakeups
    have phase := sound.phase
    simp only [idle, Phase, state] at phase
    exact phase started wakeups

/-- A stream that runs is stopped, while the work item of its first period waits for the lock. -/
def stoppedSteps : List PeriodStep :=
  [.pcmOpen true, .triggerStart false, .call, .call, .expires, .callback, .callback, .callback, .workBegins, .work,
    .triggerStop, .call, .call, .work, .work]

theorem period_timer_follows_stopped : ∃ s, machine.Reachable s ∧ s.state = .idle ∧ s.expiries = 1 ∧
    s.timer.Quiet ∧ s.elapsed ≤ s.expiries := by
  have ran : ∃ s, machine.run (fresh 0) stoppedSteps = some s ∧ s.state = .idle ∧ s.call = none ∧ s.expiries = 1 :=
    ⟨_, rfl, rfl, rfl, rfl⟩
  obtain ⟨s, ran, state, idle, expiries⟩ := ran
  have reach : machine.Reachable s := .of_run (.start ⟨0, rfl⟩) stoppedSteps ran
  obtain ⟨-, quiet, -, owed⟩ := period_timer_follows reach
  exact ⟨s, reach, state, expiries, quiet idle (state ▸ nofun), owed⟩

/-- Whether the callback is going to arm the timer again, whether a start is about to arm it, and
whether the work item has seen that the stream runs. -/
def callbackArms : Option PeriodCallback → Nat
  | some .wanted | some .queued => 1
  | _ => 0

def callArms : Option PcmCall → Nat
  | some (.startTimer false) => 1
  | _ => 0

def workCalls : Option PeriodWork → Nat
  | some .passed => 1
  | _ => 0

/-- The expiries that are still to come while `started` is cleared. -/
def expiriesLeft (s : PeriodRun) : Nat :=
  s.timer.pending.toNat + callbackArms s.timer.running + callArms s.call

theorem callbackArms_le (c : Option PeriodCallback) : callbackArms c ≤ 1 := by
  unfold callbackArms
  split <;> decide

theorem workCalls_le (c : Option PeriodWork) : workCalls c ≤ 1 := by
  unfold workCalls
  split <;> decide

theorem Sound.expiriesLeft_le (sound : s.Sound) : s.expiriesLeft ≤ 1 := by
  have phase := sound.phase
  have arms := callbackArms_le s.timer.running
  unfold expiriesLeft
  cases busy : callArms s.call with
  | zero =>
    cases pending : s.timer.pending with
    | false =>
      rw [Bool.toNat_false]
      omega
    | true =>
      rw [sound.single pending]
      exact Nat.le_refl 1
  | succ n =>
    unfold callArms at busy
    split at busy
    · rename_i call
      rw [call] at phase
      rw [phase.2.1, phase.2.2, ← busy]
      exact Nat.le_refl 1
    · cases busy

/-- Neither the expiries nor the calls that have come and are to come get more. -/
structure UsesUp (s t : PeriodRun) : Prop where
  expiries : t.expiries + t.expiriesLeft ≤ s.expiries + s.expiriesLeft
  elapsed : t.elapsed + workCalls t.work.running ≤ s.elapsed + workCalls s.work.running

/-- ALSA's calls, but for the arming of the timer, leave the timer and the work item alone or delete them. -/
theorem usesUp_of_deleted (timer : t.timer = s.timer ∨ t.timer.Quiet) (work : t.work = s.work ∨ t.work.Quiet)
    (expiries : t.expiries = s.expiries) (elapsed : t.elapsed = s.elapsed) (call : callArms t.call = 0) :
    s.UsesUp t := by
  refine ⟨?_, ?_⟩
  · rw [expiries, expiriesLeft, call]
    rcases timer with same | quiet
    · rw [same, expiriesLeft]
      omega
    · rw [quiet.1, quiet.2]
      exact Nat.le_add_right _ _
  · rw [elapsed]
    rcases work with same | quiet
    · exact Nat.le_of_eq (by rw [same])
    · rw [quiet.2]
      exact Nat.le_add_right _ _

theorem trigger_usesUp {call : PcmCall} {state : PcmState} (idle : s.call = none)
    (arms : callArms (some call) = 0) :
    s.UsesUp (s.trigger call state) := by
  unfold PeriodRun.trigger
  split
  · exact usesUp_of_deleted (.inl rfl) (.inl rfl) rfl rfl arms
  · exact usesUp_of_deleted (.inl rfl) (.inl rfl) rfl rfl (congrArg callArms idle)

theorem Sound.callStep_usesUp (sound : s.Sound) (after : t.started = false) (run : s.callStep = some t) :
    s.UsesUp t := by
  have phase := sound.phase
  unfold PeriodRun.callStep at run
  split at run
  case h_1 => cases run
  case h_2 =>
    cases Option.some.inj run
    cases after
  case h_3 noWakeup call =>
    cases Option.some.inj run
    rw [call] at phase
    refine ⟨?_, Nat.le_refl _⟩
    simp only [expiriesLeft, call, phase.2.1, phase.2.2]
    cases noWakeup with
    | true =>
      simp only [if_true, phase.2.1, phase.2.2]
      exact Nat.le_refl _
    | false =>
      simp only [Bool.false_eq_true, if_false, Timer.arm, phase.2.2]
      exact Nat.le_refl _
  case h_4 =>
    cases Option.some.inj run
    exact usesUp_of_deleted (.inl rfl) (.inl rfl) rfl rfl rfl
  case h_5 | h_6 | h_7 =>
    obtain ⟨timer, deleted, rfl⟩ := Option.map_eq_some_iff.mp run
    exact usesUp_of_deleted (.inr (Timer.deleteSync_quiet deleted)) (.inl rfl) rfl rfl rfl
  case h_8 =>
    obtain ⟨work, deleted, rfl⟩ := Option.map_eq_some_iff.mp run
    exact usesUp_of_deleted (.inl rfl) (.inr (Timer.deleteSync_quiet deleted)) rfl rfl rfl

theorem callbackStep_usesUp (before : s.started = false) (run : s.callbackStep = some t) : s.UsesUp t := by
  unfold PeriodRun.callbackStep at run
  split at run
  case h_1 => cases run
  case h_2 running =>
    cases Option.some.inj run
    refine ⟨?_, Nat.le_refl _⟩
    simp only [expiriesLeft, running, before]
    exact Nat.le_refl _
  case h_3 running =>
    cases Option.some.inj run
    refine ⟨?_, Nat.le_refl _⟩
    simp only [expiriesLeft, running]
    exact Nat.le_refl _
  case h_4 running =>
    cases Option.some.inj run
    refine ⟨?_, Nat.le_refl _⟩
    simp only [expiriesLeft, running, Timer.finish, Timer.arm, callbackArms, Bool.toNat_true]
    omega

theorem workStep_usesUp (before : s.started = false) (run : s.workStep = some t) : s.UsesUp t := by
  unfold PeriodRun.workStep at run
  split at run
  case h_1 => cases run
  case h_2 running =>
    cases Option.some.inj run
    refine ⟨Nat.le_refl _, ?_⟩
    simp only [running, before]
    exact Nat.le_refl _
  case h_3 running =>
    obtain ⟨-, after⟩ := Option.ite_none_right_eq_some.mp run
    cases after
    refine ⟨Nat.le_refl _, ?_⟩
    rw [running]
    exact Nat.le_refl _
  case h_4 running =>
    obtain ⟨-, after⟩ := Option.ite_none_left_eq_some.mp run
    cases after
    refine ⟨Nat.le_refl _, ?_⟩
    rw [running]
    exact Nat.le_refl _

/-- While `started` is cleared, the expiries and the calls that are to come are used up. -/
theorem Sound.usesUp {a : PeriodStep} (sound : s.Sound) (before : s.started = false) (after : t.started = false)
    (run : s.step a = some t) : s.UsesUp t := by
  cases a with
  | pcmOpen described =>
    obtain ⟨⟨-, idle⟩, opened⟩ := Option.ite_none_right_eq_some.mp run
    cases opened
    split
    · exact usesUp_of_deleted (.inr Timer.idle_quiet) (.inr Timer.idle_quiet) rfl rfl (congrArg callArms idle)
    · exact ⟨Nat.le_refl _, Nat.le_refl _⟩
  | triggerStart noWakeup =>
    obtain ⟨⟨-, idle, -⟩, begun⟩ := Option.ite_none_right_eq_some.mp run
    cases begun
    exact trigger_usesUp idle rfl
  | triggerStop =>
    obtain ⟨⟨-, idle⟩, begun⟩ := Option.ite_none_right_eq_some.mp run
    cases begun
    exact trigger_usesUp idle rfl
  | triggerSuspend =>
    obtain ⟨⟨-, idle, -⟩, begun⟩ := Option.ite_none_right_eq_some.mp run
    cases begun
    exact trigger_usesUp idle rfl
  | suspendIdle | prepare =>
    obtain ⟨-, halted⟩ := Option.ite_none_right_eq_some.mp run
    cases halted
    exact ⟨Nat.le_refl _, Nat.le_refl _⟩
  | close =>
    obtain ⟨-, begun⟩ := Option.ite_none_right_eq_some.mp run
    cases begun
    exact usesUp_of_deleted (.inl rfl) (.inl rfl) rfl rfl rfl
  | call => exact sound.callStep_usesUp after run
  | quiesce =>
    cases Option.some.inj run
    exact ⟨Nat.le_refl _, Nat.le_refl _⟩
  | expires =>
    obtain ⟨timer, expired, rfl⟩ := Option.map_eq_some_iff.mp run
    obtain ⟨pending, waiting, rfl⟩ := Timer.expire_eq expired
    refine ⟨?_, Nat.le_refl _⟩
    simp only [expiriesLeft, pending, waiting, callbackArms, Bool.toNat_true, Bool.toNat_false]
    omega
  | callback => exact callbackStep_usesUp before run
  | workBegins =>
    obtain ⟨work, expired, rfl⟩ := Option.map_eq_some_iff.mp run
    obtain ⟨-, waiting, rfl⟩ := Timer.expire_eq expired
    refine ⟨Nat.le_refl _, ?_⟩
    rw [waiting]
    exact Nat.le_refl _
  | work => exact workStep_usesUp before run

theorem Sound.run_usesUp (sound : s.Sound) (before : s.started = false) (as : List PeriodStep)
    (along : machine.Along (fun _ _ r => r.started = false) s as) (ran : machine.run s as = some t) :
    s.UsesUp t := by
  induction as generalizing s with
  | nil =>
    cases Option.some.inj ran
    exact ⟨Nat.le_refl _, Nat.le_refl _⟩
  | cons a as ih =>
    obtain ⟨r, first, ran⟩ := Option.bind_eq_some_iff.mp ran
    obtain ⟨after, along⟩ := along r first
    have here := sound.usesUp before after first
    have later := ih (sound.step first) after along ran
    exact ⟨Nat.le_trans later.expiries here.expiries, Nat.le_trans later.elapsed here.elapsed⟩

/-- From when a stop or a suspend of the system has cleared `started`, and until a start sets it again, the
timer expires once more at most, and the work item reports one more period at most. -/
theorem stopped_period_timer (reach : machine.Reachable s) (stopped : s.started = false) (as : List PeriodStep)
    (along : machine.Along (fun _ _ r => r.started = false) s as) (ran : machine.run s as = some t) :
    t.expiries ≤ s.expiries + 1 ∧ t.elapsed ≤ s.elapsed + 1 := by
  have sound := sound_of_reach reach
  have used := sound.run_usesUp stopped as along ran
  refine ⟨?_, ?_⟩
  · exact Nat.le_trans (Nat.le_trans (Nat.le_add_right _ _) used.expiries)
      (Nat.add_le_add_left sound.expiriesLeft_le _)
  · exact Nat.le_trans (Nat.le_trans (Nat.le_add_right _ _) used.elapsed) (Nat.add_le_add_left (workCalls_le _) _)

/-- The system goes to sleep while the callback of the timer is about to queue the work item. -/
theorem stopped_period_timer_quiesced : ∃ s t, s.started = false ∧
    machine.run s [.callback, .callback, .workBegins, .work, .expires, .callback] = some t ∧ s.expiries = 1 ∧
    t.expiries = 2 ∧ t.expiries ≤ s.expiries + 1 ∧ t.elapsed ≤ s.elapsed + 1 := by
  have before : ∃ s, machine.run (fresh 0) [.pcmOpen true, .triggerStart false, .call, .call, .expires, .callback,
      .quiesce] = some s ∧ s.started = false ∧ s.expiries = 1 ∧
      (∃ t, machine.run s [.callback, .callback, .workBegins, .work, .expires, .callback] = some t ∧
        t.expiries = 2) ∧
      machine.Along (fun _ _ r => r.started = false) s
        [.callback, .callback, .workBegins, .work, .expires, .callback] := by
    refine ⟨_, rfl, rfl, rfl, ⟨_, rfl, rfl⟩, ?_⟩
    iterate 6
      intro _ run
      cases run
      refine ⟨rfl, ?_⟩
    trivial
  obtain ⟨s, ran, stopped, expiries, ⟨t, later, last⟩, along⟩ := before
  have reach : machine.Reachable s := .of_run (.start ⟨0, rfl⟩) _ ran
  exact ⟨s, t, stopped, later, expiries, last, stopped_period_timer reach stopped _ along later⟩

end PeriodRun

end AppleBce

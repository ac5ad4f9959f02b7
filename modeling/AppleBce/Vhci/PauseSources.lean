import AppleBce.Vhci.Stops

namespace AppleBce

open Basis

namespace BceVhciPauseSource

variable {src other : BceVhciPauseSource} {mask : BitVec 32}

theorem bit_ne_zero (src : BceVhciPauseSource) : src.bit ≠ 0 := by
  cases src <;> decide

theorem bit_eq_twoPow (src : BceVhciPauseSource) : ∃ i, src.bit = BitVec.twoPow 32 i := by
  cases src with
  | internalWq => exact ⟨0, by decide⟩
  | firmware => exact ⟨1, by decide⟩
  | suspend => exact ⟨2, by decide⟩
  | shutdown => exact ⟨3, by decide⟩

theorem or_bit_and_self (mask : BitVec 32) (src : BceVhciPauseSource) :
    (mask ||| src.bit) &&& src.bit = src.bit := by
  apply BitVec.eq_of_getLsbD_eq
  intro i _
  simp only [BitVec.getLsbD_and, BitVec.getLsbD_or]
  cases mask.getLsbD i <;> cases src.bit.getLsbD i <;> rfl

/-- The sources have bits of their own. -/
theorem bit_and_bit (differ : src ≠ other) : src.bit &&& other.bit = 0 := by
  cases src <;> cases other <;> first | decide | exact absurd rfl differ

theorem not_bit_and_bit (differ : src ≠ other) : ~~~src.bit &&& other.bit = other.bit := by
  cases src <;> cases other <;> first | decide | exact absurd rfl differ

theorem and_bit_of_held (held : mask &&& src.bit ≠ 0) : mask &&& src.bit = src.bit := by
  obtain ⟨i, single⟩ := src.bit_eq_twoPow
  rw [single, BitVec.and_twoPow] at held ⊢
  split
  · rfl
  · rename_i unset
    rw [if_neg unset] at held
    exact absurd rfl held

/-- A source that holds a pause alone is all there is in the mask. -/
theorem eq_bit_of_last (held : mask &&& src.bit ≠ 0) (last : mask &&& ~~~src.bit = 0) :
    mask = src.bit :=
  calc mask = mask &&& (src.bit ||| ~~~src.bit) := by rw [BitVec.or_not_self, BitVec.and_allOnes]
    _ = (mask &&& src.bit) ||| (mask &&& ~~~src.bit) := BitVec.and_or_distrib_left
    _ = src.bit := by rw [and_bit_of_held held, last]; simp

theorem or_bit_of_held (held : mask &&& src.bit ≠ 0) : mask ||| src.bit = mask := by
  rw [← and_bit_of_held held]
  apply BitVec.eq_of_getLsbD_eq
  intro i _
  simp only [BitVec.getLsbD_and, BitVec.getLsbD_or]
  cases mask.getLsbD i <;> rfl

end BceVhciPauseSource

/-- The source a call pauses or resumes for. -/
def PauseCall.source : PauseCall → BceVhciPauseSource
  | .pause src | .resume src => src
  | .reset => .internalWq
  | .suspend => .suspend

def PauseStage.source : PauseStage → BceVhciPauseSource
  | .removePending src | .pauseCommand src | .pauseCheck src _ | .pauseSet src => src
  | .resumeCommand src | .resumeCheck src | .resumeSection src | .resumeClear src => src
  | .resetMark | .resetRemove | .resetEnd => .internalWq
  | .suspendCommand | .suspendSet => .suspend

namespace BceVhciTransferQueue

variable {q : BceVhciTransferQueue} {src other : BceVhciPauseSource}

theorem pausedFor_iff : q.pausedFor src ↔ q.pausedBy &&& src.bit ≠ 0 :=
  bne_iff_ne

theorem setPaused_pausedFor (q : BceVhciTransferQueue) (src : BceVhciPauseSource) :
    (q.setPaused src).pausedFor src := by
  rw [pausedFor_iff, setPaused, BceVhciPauseSource.or_bit_and_self]
  exact src.bit_ne_zero

theorem setPaused_other (differ : src ≠ other) :
    (q.setPaused src).pausedFor other = q.pausedFor other := by
  rw [pausedFor, pausedFor, setPaused, BitVec.and_or_distrib_right,
    BceVhciPauseSource.bit_and_bit differ]
  simp

theorem clearPaused_other (differ : src ≠ other) :
    (q.clearPaused src).pausedFor other = q.pausedFor other := by
  rw [pausedFor, pausedFor, clearPaused, BitVec.and_assoc, BceVhciPauseSource.not_bit_and_bit differ]

theorem pausedBy_ne_zero (held : q.pausedFor src) : q.pausedBy ≠ 0 := by
  intro none
  rw [pausedFor_iff, none] at held
  simp at held

theorem clearPaused_last (alone : q.pausedBy = src.bit) : (q.clearPaused src).pausedBy = 0 := by
  simp [clearPaused, alone]

theorem setStateAnswered_flags (q : BceVhciTransferQueue) (env : PauseEnv) :
    (q.setStateAnswered env).active = q.active ∧ (q.setStateAnswered env).stalled = q.stalled ∧
      (q.setStateAnswered env).pausedBy = q.pausedBy := by
  unfold setStateAnswered
  split <;> exact ⟨rfl, rfl, rfl⟩

/-- What holds of the queue while a call is at a stage: it is inactive from where the call stops it
to where `do_resume` activates it, `do_pause` runs when no source holds the pause, and `do_resume`
when its own is the last. -/
def StageOk (q : BceVhciTransferQueue) : PauseStage → Prop
  | .removePending _ | .pauseCommand _ | .pauseCheck _ _ | .pauseSet _ | .suspendCommand | .suspendSet =>
    q.active = false ∧ q.pausedBy = 0
  | .resumeCommand src | .resumeCheck src | .resumeSection src => q.active = false ∧ q.pausedBy = src.bit
  | .resumeClear src => q.pausedBy = src.bit
  | .resetMark => q.active = false
  | .resetRemove | .resetEnd => q.active = false ∧ q.pausedFor .internalWq

end BceVhciTransferQueue

namespace TransferRun

variable {s t : TransferRun} {a : TransferStep}

/-- With `pause_lock` free an active queue is paused by nobody. -/
def Exclusive (s : TransferRun) : Prop :=
  match s.holder with
  | none => s.q.active → s.q.pausedBy = 0
  | some (_, stage) => s.q.StageOk stage

theorem exclusive_free (exclusive : s.Exclusive) (free : s.holder = none) (active : s.q.active) :
    s.q.pausedBy = 0 := by
  rw [Exclusive, free] at exclusive
  exact exclusive active

theorem exclusive_stage (exclusive : s.Exclusive) {onWorker : Bool} {stage : PauseStage}
    (held : s.holder = some (onWorker, stage)) : s.q.StageOk stage := by
  rw [Exclusive, held] at exclusive
  exact exclusive

/-- A queue that stays as it is or stops leaves the call that runs where it is. -/
theorem exclusive_of_stops (exclusive : s.Exclusive) (holder : t.holder = s.holder)
    (pausedBy : t.q.pausedBy = s.q.pausedBy) (active : t.q.active → s.q.active) : t.Exclusive := by
  have inactive : s.q.active = false → t.q.active = false := by
    intro before
    by_contra now
    rw [active (by simpa using now)] at before
    cases before
  unfold Exclusive at exclusive ⊢
  rw [holder]
  split
  · rename_i free
    rw [free] at exclusive
    intro now
    rw [pausedBy]
    exact exclusive (active now)
  · rename_i stage held
    rw [held] at exclusive
    cases stage with
    | resumeClear src => exact pausedBy.trans exclusive
    | resetMark => exact inactive exclusive
    | resetRemove | resetEnd =>
      refine ⟨inactive exclusive.1, ?_⟩
      rw [BceVhciTransferQueue.pausedFor, pausedBy]
      exact exclusive.2
    | _ => exact ⟨inactive exclusive.1, pausedBy.trans exclusive.2⟩

/-- Taking `pause_lock`. -/
theorem lockStep_exclusive {onWorker : Bool} {call : PauseCall} (exclusive : s.Exclusive)
    (free : s.holder = none) (run : s.lockStep onWorker call = some t) : t.Exclusive := by
  have idle := exclusive_free exclusive free
  cases call with
  | pause src =>
    simp only [lockStep] at run
    split at run
    · cases Option.some.inj run
      exact idle
    · split at run
      · rename_i paused
        cases Option.some.inj run
        exact fun active => absurd (idle active) paused
      · rename_i unpaused
        obtain ⟨-, after⟩ := Option.ite_none_right_eq_some.mp run
        cases after
        exact ⟨rfl, not_ne_iff.mp unpaused⟩
  | resume src =>
    simp only [lockStep] at run
    split at run
    · cases Option.some.inj run
      exact idle
    · rename_i held
      have held : s.q.pausedFor src := by simpa using held
      have paused := BceVhciTransferQueue.pausedBy_ne_zero held
      split at run
      · cases Option.some.inj run
        exact fun active => absurd (idle active) paused
      · rename_i last
        cases Option.some.inj run
        have inactive : s.q.active = false := by
          by_contra active
          exact paused (idle (by simpa using active))
        exact ⟨inactive, BceVhciPauseSource.eq_bit_of_last (BceVhciTransferQueue.pausedFor_iff.mp held)
          (not_ne_iff.mp last)⟩
  | reset =>
    simp only [lockStep] at run
    split at run
    · cases run
    · split at run
      · cases Option.some.inj run
        rw [Exclusive, free]
        exact idle
      · cases Option.some.inj run
        exact rfl
  | suspend =>
    simp only [lockStep] at run
    split at run
    · rename_i paused
      cases Option.some.inj run
      exact fun active => absurd (idle active) paused
    · rename_i unpaused
      obtain ⟨-, after⟩ := Option.ite_none_right_eq_some.mp run
      cases after
      exact ⟨rfl, not_ne_iff.mp unpaused⟩

/-- The holder goes on. -/
theorem advanceStep_exclusive {onWorker : Bool} {env : PauseEnv} {stage : PauseStage}
    (ok : s.q.StageOk stage) (run : s.advanceStep onWorker env stage = some t) : t.Exclusive := by
  obtain ⟨active, -, pausedBy⟩ := s.q.setStateAnswered_flags env
  have stopped : ∀ {q : BceVhciTransferQueue}, q.active = false → q.active → q.pausedBy = 0 := by
    intro q inactive now
    rw [inactive] at now
    cases now
  cases stage with
  | removePending src =>
    obtain ⟨-, after⟩ := Option.ite_none_right_eq_some.mp run
    cases after
    exact ok
  | pauseCommand src =>
    simp only [advanceStep] at run
    split at run <;> cases Option.some.inj run
    · exact ok
    · exact ⟨active.trans ok.1, pausedBy.trans ok.2⟩
  | pauseCheck src status =>
    simp only [advanceStep] at run
    split at run <;> cases Option.some.inj run
    · exact stopped ok.1
    · exact ok
  | pauseSet src | suspendSet =>
    cases Option.some.inj run
    exact stopped ok.1
  | resumeCommand src =>
    simp only [advanceStep] at run
    split at run <;> cases Option.some.inj run
    · exact stopped (active.trans ok.1)
    · exact ⟨active.trans ok.1, pausedBy.trans ok.2⟩
  | resumeCheck src =>
    simp only [advanceStep] at run
    split at run <;> cases Option.some.inj run
    · exact stopped ok.1
    · exact ok
  | resumeSection src =>
    obtain ⟨-, after⟩ := Option.ite_none_right_eq_some.mp run
    cases after
    exact (BceVhciTransferQueue.stops_relation.resumeSection s.q).pausedBy.trans ok.2
  | resumeClear src =>
    cases Option.some.inj run
    exact fun _ => BceVhciTransferQueue.clearPaused_last ok
  | resetMark =>
    cases Option.some.inj run
    exact ⟨ok, s.q.setPaused_pausedFor .internalWq⟩
  | resetRemove =>
    obtain ⟨-, after⟩ := Option.ite_none_right_eq_some.mp run
    cases after
    exact ok
  | resetEnd =>
    obtain ⟨-, after⟩ := Option.ite_none_right_eq_some.mp run
    cases after
    exact stopped ok.1
  | suspendCommand =>
    cases Option.some.inj run
    exact ⟨active.trans ok.1, pausedBy.trans ok.2⟩

theorem cancelAll_flags (q : BceVhciTransferQueue) :
    q.cancelAll.active = false ∧ q.cancelAll.pausedBy = q.pausedBy := by
  have stops := BceVhciTransferQueue.stops_relation.cancelLoop q.urbList { q with active := false }
  refine ⟨?_, stops.pausedBy⟩
  rcases stops.active with same | ⟨inactive, -⟩
  · exact same
  · exact inactive

theorem startWork_holder {item : WorkItem} (run : s.startWork item = some t) : t.holder = s.holder := by
  unfold startWork at run
  simp only at run
  split at run
  · cases run
  · cases item with
    | flush | reset | resume =>
      obtain ⟨-, after⟩ := Option.ite_none_right_eq_some.mp run
      cases after
      rfl
    | firmwareResume | firmwarePause | firmwareStall =>
      cases Option.some.inj run
      rfl

theorem startWork_flags {item : WorkItem} (run : s.startWork item = some t) :
    t.q.active = s.q.active ∧ t.q.stalled = s.q.stalled ∧ t.q.pausedBy = s.q.pausedBy := by
  unfold startWork at run
  simp only at run
  split at run
  · cases run
  · cases item with
    | flush | reset | resume =>
      obtain ⟨-, after⟩ := Option.ite_none_right_eq_some.mp run
      cases after
      exact ⟨rfl, rfl, rfl⟩
    | firmwareResume | firmwarePause | firmwareStall =>
      cases Option.some.inj run
      exact ⟨rfl, rfl, rfl⟩

theorem destroyStep_flags (run : s.destroyStep = some t) : t.holder = s.holder ∧
    t.q.active = s.q.active ∧ t.q.stalled = s.q.stalled ∧ t.q.pausedBy = s.q.pausedBy := by
  unfold destroyStep at run
  split at run
  · obtain ⟨-, after⟩ := Option.ite_none_left_eq_some.mp run
    cases after
    exact ⟨rfl, rfl, rfl, rfl⟩
  · obtain ⟨-, after⟩ := Option.ite_none_left_eq_some.mp run
    cases after
    exact ⟨rfl, rfl, rfl, rfl⟩
  · obtain ⟨-, after⟩ := Option.ite_none_left_eq_some.mp run
    cases after
    exact ⟨rfl, rfl, rfl, rfl⟩
  · obtain ⟨-, after⟩ := Option.ite_none_right_eq_some.mp run
    cases after
    exact ⟨rfl, rfl, rfl, rfl⟩
  · obtain ⟨-, after⟩ := Option.ite_none_right_eq_some.mp run
    cases after
    exact ⟨rfl, rfl, rfl, rfl⟩
  · cases run

/-- What a step is for the pause: a call takes `pause_lock`, its holder goes on, all URBs are
cancelled, or the queue stays as it is or stops with a stall. -/
inductive PauseEffect (s : TransferRun) (a : TransferStep) (t : TransferRun) : Prop
  | lock (onWorker : Bool) (call : PauseCall) (label : if onWorker then a = .work else a = .lock call)
      (ahead : onWorker → ∃ rest, s.worker = .lock call :: rest) (free : s.holder = none)
      (run : s.lockStep onWorker call = some t)
  | advance (onWorker : Bool) (env : PauseEnv) (stage : PauseStage) (label : a = .advance env)
      (held : s.holder = some (onWorker, stage)) (run : s.advanceStep onWorker env stage = some t)
  | cancelledAll (label : a = .cancelAll) (after : t = { s with q := s.q.cancelAll })
  | stops (holder : t.holder = s.holder) (stops : s.q.Stops t.q)

theorem stops_of_flags {q r : BceVhciTransferQueue}
    (flags : r.active = q.active ∧ r.stalled = q.stalled ∧ r.pausedBy = q.pausedBy) : q.Stops r :=
  BceVhciTransferQueue.stops_of_same flags.2.2 flags.1 flags.2.1

theorem step_pauseEffect (run : s.step a = some t) : PauseEffect s a t := by
  obtain ⟨-, run⟩ := Option.ite_none_left_eq_some.mp run
  cases a with
  | op op =>
    obtain ⟨stops, holder, -⟩ := opStep_stops run
    exact .stops holder stops
  | giveback =>
    simp only at run
    split at run
    · cases run
    · obtain ⟨-, after⟩ := Option.ite_none_right_eq_some.mp run
      cases after
      exact .stops rfl (stops_of_flags ⟨rfl, rfl, rfl⟩)
  | queueFlush =>
    obtain ⟨-, after⟩ := Option.ite_none_right_eq_some.mp run
    cases after
    exact .stops rfl (stops_of_flags ⟨rfl, rfl, rfl⟩)
  | endpointReset =>
    cases Option.some.inj run
    exact .stops rfl (stops_of_flags ⟨rfl, rfl, rfl⟩)
  | cancelAll =>
    obtain ⟨-, after⟩ := Option.ite_none_right_eq_some.mp run
    exact .cancelledAll rfl (Option.some.inj after).symm
  | startWork item => exact .stops (startWork_holder run) (stops_of_flags (startWork_flags run))
  | work =>
    simp only [workStep] at run
    split at run
    · cases run
    · rename_i call rest ahead
      obtain ⟨free, run⟩ := Option.ite_none_right_eq_some.mp run
      exact .lock true call rfl (fun _ => ⟨rest, ahead⟩) free run
    · obtain ⟨-, after⟩ := Option.ite_none_right_eq_some.mp run
      cases after
      exact .stops rfl (stops_of_flags ⟨rfl, rfl, rfl⟩)
    · cases Option.some.inj run
      exact .stops rfl (stops_of_flags ⟨rfl, rfl, rfl⟩)
    · obtain ⟨-, after⟩ := Option.ite_none_right_eq_some.mp run
      cases after
      exact .stops rfl ⟨rfl, .inr ⟨rfl, rfl⟩, fun _ => rfl⟩
    · cases Option.some.inj run
      exact .stops rfl (stops_of_flags ⟨rfl, rfl, rfl⟩)
  | lock call =>
    obtain ⟨⟨free, -⟩, run⟩ := Option.ite_none_right_eq_some.mp run
    exact .lock false call rfl nofun free run
  | advance env =>
    simp only at run
    split at run
    · cases run
    · rename_i onWorker stage held
      exact .advance onWorker env stage rfl held run
  | destroy =>
    obtain ⟨holder, flags⟩ := destroyStep_flags run
    exact .stops holder (stops_of_flags flags)

theorem active_of_stops {q r : BceVhciTransferQueue} (stops : q.Stops r) (active : r.active) : q.active := by
  rcases stops.active with same | ⟨inactive, -⟩
  · exact same.symm.trans active
  · rw [inactive] at active
    cases active

theorem step_exclusive (exclusive : s.Exclusive) (run : s.step a = some t) : t.Exclusive := by
  cases step_pauseEffect run with
  | lock onWorker call _ _ free run => exact lockStep_exclusive exclusive free run
  | advance onWorker env stage _ held run =>
    exact advanceStep_exclusive (exclusive_stage exclusive held) run
  | cancelledAll _ after =>
    subst after
    obtain ⟨inactive, pausedBy⟩ := cancelAll_flags s.q
    refine exclusive_of_stops exclusive rfl pausedBy ?_
    intro active
    rw [show s.q.cancelAll.active = false from inactive] at active
    cases active
  | stops holder stops =>
    exact exclusive_of_stops exclusive holder stops.pausedBy (active_of_stops stops)

theorem exclusive_of_reach (reach : machine.Reachable s) : s.Exclusive := by
  refine reach.invariant ?_ (fun s a t exclusive run => step_exclusive exclusive run)
  rintro s ⟨endp, devAddr, memory, reservations, q, create, rfl⟩
  exact fun _ => (createTransferQueue_unused create).pausedBy

/-- A step belongs to a call for a source: it takes `pause_lock` for it or is one of its holder. -/
def ActsFor (s : TransferRun) (src : BceVhciPauseSource) : TransferStep → Prop
  | .lock call => call.source = src
  | .work => ∃ call rest, s.worker = .lock call :: rest ∧ call.source = src
  | .advance _ => ∃ onWorker stage, s.holder = some (onWorker, stage) ∧ stage.source = src
  | _ => False

theorem lockStep_others {onWorker : Bool} {call : PauseCall} {src : BceVhciPauseSource}
    (run : s.lockStep onWorker call = some t) (other : call.source ≠ src) :
    t.q.pausedFor src = s.q.pausedFor src := by
  cases call with
  | pause own =>
    simp only [lockStep] at run
    split at run
    · cases Option.some.inj run
      rfl
    · split at run
      · cases Option.some.inj run
        exact BceVhciTransferQueue.setPaused_other other
      · obtain ⟨-, after⟩ := Option.ite_none_right_eq_some.mp run
        cases after
        rfl
  | resume own =>
    simp only [lockStep] at run
    split at run
    · cases Option.some.inj run
      rfl
    · split at run <;> cases Option.some.inj run
      · exact BceVhciTransferQueue.clearPaused_other other
      · rfl
  | reset =>
    simp only [lockStep] at run
    split at run
    · cases run
    · split at run <;> cases Option.some.inj run <;> rfl
  | suspend =>
    simp only [lockStep] at run
    split at run
    · cases Option.some.inj run
      exact BceVhciTransferQueue.setPaused_other other
    · obtain ⟨-, after⟩ := Option.ite_none_right_eq_some.mp run
      cases after
      rfl

theorem pausedFor_of_pausedBy {q r : BceVhciTransferQueue} (same : r.pausedBy = q.pausedBy)
    (src : BceVhciPauseSource) : r.pausedFor src = q.pausedFor src := by
  rw [BceVhciTransferQueue.pausedFor, BceVhciTransferQueue.pausedFor, same]

theorem advanceStep_others {onWorker : Bool} {env : PauseEnv} {stage : PauseStage}
    {src : BceVhciPauseSource} (run : s.advanceStep onWorker env stage = some t)
    (other : stage.source ≠ src) : t.q.pausedFor src = s.q.pausedFor src := by
  obtain ⟨-, -, pausedBy⟩ := s.q.setStateAnswered_flags env
  cases stage with
  | pauseSet own | suspendSet | resetMark =>
    cases Option.some.inj run
    exact BceVhciTransferQueue.setPaused_other other
  | resumeClear own =>
    cases Option.some.inj run
    exact BceVhciTransferQueue.clearPaused_other other
  | removePending own | resetRemove | resetEnd =>
    obtain ⟨-, after⟩ := Option.ite_none_right_eq_some.mp run
    cases after
    rfl
  | resumeSection own =>
    obtain ⟨-, after⟩ := Option.ite_none_right_eq_some.mp run
    cases after
    exact pausedFor_of_pausedBy (BceVhciTransferQueue.stops_relation.resumeSection s.q).pausedBy src
  | pauseCommand own =>
    simp only [advanceStep] at run
    split at run <;> cases Option.some.inj run
    · rfl
    · exact pausedFor_of_pausedBy pausedBy src
  | resumeCommand own =>
    simp only [advanceStep] at run
    split at run <;> cases Option.some.inj run <;> exact pausedFor_of_pausedBy pausedBy src
  | pauseCheck own status =>
    simp only [advanceStep] at run
    split at run <;> cases Option.some.inj run <;> rfl
  | resumeCheck own =>
    simp only [advanceStep] at run
    split at run <;> cases Option.some.inj run <;> rfl
  | suspendCommand =>
    cases Option.some.inj run
    exact pausedFor_of_pausedBy pausedBy src

/-- Only a call for a source sets or clears its bit. -/
theorem step_others {src : BceVhciPauseSource} (run : s.step a = some t) (others : ¬s.ActsFor src a) :
    t.q.pausedFor src = s.q.pausedFor src := by
  cases step_pauseEffect run with
  | lock onWorker call label ahead _ run =>
    refine lockStep_others run fun own => others ?_
    cases onWorker with
    | true =>
      obtain ⟨rest, ahead⟩ := ahead rfl
      rw [show a = .work from label]
      exact ⟨call, rest, ahead, own⟩
    | false =>
      rw [show a = .lock call from label]
      exact own
  | advance onWorker env stage label held run =>
    refine advanceStep_others run fun own => others ?_
    rw [label]
    exact ⟨onWorker, stage, held, own⟩
  | cancelledAll _ after =>
    subst after
    exact pausedFor_of_pausedBy (cancelAll_flags s.q).2 src
  | stops _ stops => exact pausedFor_of_pausedBy stops.pausedBy src

/-- The stages of `do_resume` from which it can return an error. -/
def Resuming (s : TransferRun) (src : BceVhciPauseSource) : Prop :=
  ∃ onWorker, s.holder = some (onWorker, .resumeCommand src) ∨ s.holder = some (onWorker, .resumeCheck src)

theorem step_resuming {src : BceVhciPauseSource} (exclusive : s.Exclusive) (run : s.step a = some t)
    (resuming : s.Resuming src) (ended : ¬t.Resuming src) :
    (∃ onWorker, t.holder = some (onWorker, .resumeSection src)) ∨
      (t.holder = none ∧ t.q.pausedBy = s.q.pausedBy ∧ t.q.active = false) := by
  obtain ⟨onWorker, held⟩ := resuming
  have still : t.holder = s.holder → False := by
    intro same
    exact ended ⟨onWorker, by rwa [same]⟩
  cases step_pauseEffect run with
  | lock _ _ _ _ free _ =>
    rw [free] at held
    rcases held with held | held <;> cases held
  | cancelledAll _ after =>
    subst after
    exact (still rfl).elim
  | stops holder _ => exact (still holder).elim
  | advance onWorker' env stage _ here run =>
    have ok := exclusive_stage exclusive here
    obtain ⟨active, -, pausedBy⟩ := s.q.setStateAnswered_flags env
    rcases held with held | held
    · cases here.symm.trans held
      simp only [advanceStep] at run
      split at run <;> cases Option.some.inj run
      · exact .inr ⟨rfl, pausedBy, active.trans ok.1⟩
      · exact (ended ⟨onWorker, .inr rfl⟩).elim
    · cases here.symm.trans held
      simp only [advanceStep] at run
      split at run <;> cases Option.some.inj run
      · exact .inr ⟨rfl, rfl, ok.1⟩
      · exact .inl ⟨onWorker, rfl⟩

/-- Whatever the T2 answers and in whatever order the sources ask: with `pause_lock` free an active
queue is paused by nobody, `do_resume` runs for a source only when it alone holds the pause, a step
changes the bit of a source only for that source, and where `do_resume` fails the mask is as it was
and the queue inactive. -/
theorem pause_sources_independent (reach : machine.Reachable s) :
    (s.holder = none → s.q.active → s.q.pausedBy = 0) ∧
      (∀ src, s.Resuming src → s.q.pausedBy = src.bit) ∧
      ∀ a t, s.step a = some t → ∀ src,
        (t.q.pausedFor src ≠ s.q.pausedFor src → s.ActsFor src a) ∧
        (s.Resuming src → ¬t.Resuming src →
          (∃ onWorker, t.holder = some (onWorker, .resumeSection src)) ∨
          (t.holder = none ∧ t.q.pausedBy = s.q.pausedBy ∧ t.q.active = false)) := by
  have exclusive := exclusive_of_reach reach
  refine ⟨exclusive_free exclusive, ?_, ?_⟩
  · rintro src ⟨onWorker, held | held⟩
    · exact (exclusive_stage exclusive held).2
    · exact (exclusive_stage exclusive held).2
  · intro a t run src
    refine ⟨?_, step_resuming exclusive run⟩
    intro changed
    by_contra others
    exact changed (step_others run others)

/-- The firmware and the shutdown pause an endpoint. The firmware is let go, and then the T2 refuses
the resume for the shutdown. -/
theorem pause_sources_independent_refused : ∃ s, machine.Reachable s ∧ s.Resuming .shutdown ∧
    s.q.pausedBy = 8 ∧ ∃ t, s.step (.advance ⟨false, 2, 1⟩) = some t ∧
      t.holder = none ∧ t.q.pausedBy = 8 ∧ t.q.active = false := by
  have ran : (ranUnder (fun _ _ => True) bulkIn []
      [.lock (.pause .firmware), .advance ⟨false, 0, 1⟩, .advance ⟨false, 0, 1⟩, .advance ⟨false, 0, 1⟩,
        .advance ⟨false, 0, 1⟩, .lock (.pause .shutdown), .lock (.resume .firmware),
        .lock (.resume .shutdown)]).map
      (fun s => (s.holder, (s.step (.advance ⟨false, 2, 1⟩)).map TransferRun.holder)) =
        some (some (false, .resumeCommand .shutdown), some none) := by
    decide
  obtain ⟨s, reach, seen⟩ := reachableUnder_of_ran ran
  simp only [Prod.mk.injEq] at seen
  obtain ⟨held, next⟩ := seen
  obtain ⟨t, step, released⟩ := Option.map_eq_some_iff.mp next
  obtain ⟨-, alone, steps⟩ := pause_sources_independent reach
  have resuming : s.Resuming .shutdown := ⟨false, .inl held⟩
  have ended : ¬t.Resuming .shutdown := by
    rintro ⟨_, held | held⟩ <;> rw [released] at held <;> cases held
  have mask : s.q.pausedBy = 8 := alone .shutdown resuming
  refine ⟨s, reach, resuming, mask, t, step, released, ?_⟩
  rcases (steps _ t step .shutdown).2 resuming ended with ⟨_, held⟩ | ⟨-, same, inactive⟩
  · rw [released] at held
    cases held
  · exact ⟨same.trans mask, inactive⟩

end TransferRun

end AppleBce

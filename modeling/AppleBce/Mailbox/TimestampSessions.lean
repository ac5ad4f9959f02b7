import AppleBce.Mailbox.Timestamp

namespace AppleBce

open Basis

/-- What the T2 has been told: a session is open between a start and the next stop. -/
structure TimestampSession where
  isOpen : Bool
  started : Bool
  time : Nat

namespace TimestampSession

def start : TimestampSession := ⟨false, false, 0⟩

/-- Only the first start is an initial one, and no session begins in another. Times are sent in a
session, and none is before the one sent last. -/
def step (x : TimestampSession) : TimestampMessage → Option TimestampSession
  | .start isInitial =>
    if x.isOpen = false ∧ isInitial = !x.started then some { x with isOpen := true, started := true } else none
  | .stop => if x.started then some { x with isOpen := false } else none
  | .sync bt => if x.isOpen ∧ x.time ≤ bt then some { x with time := bt } else none

def machine : Machine TimestampSession TimestampMessage where
  init x := x = start
  step := step

end TimestampSession

namespace TimestampRun

variable {s t : TimestampRun} {messages : List TimestampMessage} {x y : TimestampSession} {m : TimestampMessage}

/-- The message whose low word the running call has written, and not its high word. -/
def callHalf : Option TimestampCall → Option TimestampMessage
  | some (.startHigh isInitial) => some (.start isInitial)
  | some .stopHigh => some .stop
  | _ => none

/-- The same of the callback. -/
def timerHalf (timer : Timer TimestampCallback) : Option TimestampMessage :=
  match timer.running with
  | some (.halfWritten bt) => some (.sync bt)
  | _ => none

def halfSent (s : TimestampRun) : Option TimestampMessage :=
  (callHalf s.call).or (timerHalf s.timer)

/-- The time in the hand of the callback. -/
def stamp (timer : Timer TimestampCallback) : Option Nat :=
  match timer.running with
  | some (.stamped bt) | some (.halfWritten bt) => some bt
  | _ => none

/-- Where the session is, and whether the timer is left alone, at each point of the calls. -/
def Phase (s : TimestampRun) (x : TimestampSession) : Option TimestampCall → Prop
  | none =>
    match s.life with
    | .initialised => x.started = false ∧ x.isOpen = false ∧ s.pm.timestampStopped = false ∧ s.timer.Quiet
    | .bound =>
      x.started ∧ s.stopped = s.pm.timestampStopped ∧ (s.stopped → x.isOpen = false ∧ s.timer.Quiet) ∧
        (s.stopped = false → ¬s.timer.Quiet)
    | .leaving => x.isOpen = false ∧ s.timer.Quiet
  | some (.startLow isInitial) | some (.startHigh isInitial) =>
    x.isOpen = false ∧ isInitial = !x.started ∧ s.timer.Quiet ∧ s.life = .bound ∧ s.pm.timestampStopped = false
  | some .startAllow =>
    x.isOpen ∧ x.started ∧ s.timer.Quiet ∧ s.life = .bound ∧ s.pm.timestampStopped = false
  | some .startArm =>
    x.isOpen ∧ x.started ∧ s.stopped = false ∧ s.timer.Quiet ∧ s.life = .bound ∧ s.pm.timestampStopped = false
  | some .stopDeny =>
    x.started ∧ s.life ≠ .initialised ∧ (s.life = .bound → s.pm.timestampStopped)
  | some .stopDelete =>
    x.started ∧ s.life ≠ .initialised ∧ s.stopped ∧ (s.life = .bound → s.pm.timestampStopped)
  | some .stopLow | some .stopHigh =>
    x.started ∧ s.life ≠ .initialised ∧ s.stopped ∧ (s.life = .bound → s.pm.timestampStopped) ∧ s.timer.Quiet

/-- The messages that the writes make up, and the session they leave the T2 in. -/
structure Sends (s : TimestampRun) (messages : List TimestampMessage) (x : TimestampSession) : Prop where
  session : TimestampSession.machine.run .start messages = some x
  writes : s.writes = messages.flatMap TimestampMessage.writes ++ s.halfSent.toList.map TimestampMessage.low
  phase : s.Phase x s.call
  busy : ¬s.timer.Quiet → x.isOpen
  clock : x.time ≤ s.now
  stamped : ∀ bt, stamp s.timer = some bt → x.time ≤ bt ∧ bt ≤ s.now
  suspended : s.pm.stage ≠ .idle ∨ s.pm.last = some (.suspend, .ok ()) → s.pm.timestampStopped

theorem start_sends (now : Nat) : (start now).Sends [] .start where
  session := rfl
  writes := rfl
  phase := ⟨rfl, rfl, rfl, Timer.idle_quiet⟩
  busy busy := absurd Timer.idle_quiet busy
  clock := Nat.zero_le now
  stamped := by simp [stamp, start, Timer.idle]
  suspended := by simp [start, PmRun.start]

/-- A message that has been written as a whole. -/
theorem session_append (session : TimestampSession.machine.run .start messages = some x) (run : x.step m = some y) :
    TimestampSession.machine.run .start (messages ++ [m]) = some y := by
  rw [Machine.run_append, session, Option.bind_some]
  exact Machine.run_single run

theorem timerHalf_quiet {timer : Timer TimestampCallback} (quiet : timer.Quiet) : timerHalf timer = none := by
  rw [timerHalf, quiet.2]

theorem stamp_quiet {timer : Timer TimestampCallback} (quiet : timer.Quiet) : stamp timer = none := by
  rw [stamp, quiet.2]

/-- What the timer has written while no call has half of a message written. -/
theorem writes_free (sends : s.Sends messages x) (free : callHalf s.call = none) :
    s.writes = messages.flatMap TimestampMessage.writes ++ (timerHalf s.timer).toList.map TimestampMessage.low := by
  rw [sends.writes, halfSent, free, Option.none_or]

/-- What the driver has written while the timer is quiet. -/
theorem writes_quiet (sends : s.Sends messages x) (quiet : s.timer.Quiet) :
    s.writes = messages.flatMap TimestampMessage.writes ++ (callHalf s.call).toList.map TimestampMessage.low := by
  rw [sends.writes, halfSent, timerHalf_quiet quiet, Option.or_none]

/-- A word of a message is written by the call, with the timer quiet before and after. -/
theorem Sends.low {call : TimestampCall} (sends : s.Sends messages x) (quiet : s.timer.Quiet)
    (before : callHalf s.call = none) (after : callHalf (some call) = some m)
    (phase : Phase { s with writes := s.writes ++ [m.low], call := some call } x (some call)) :
    Sends { s with writes := s.writes ++ [m.low], call := some call } messages x where
  session := sends.session
  writes := by
    simp only [writes_quiet sends quiet, before, halfSent, after, Option.some_or]
    simp
  phase := phase
  busy := sends.busy
  clock := sends.clock
  stamped := sends.stamped
  suspended := sends.suspended

theorem Sends.high {call : Option TimestampCall} (sends : s.Sends messages x) (quiet : s.timer.Quiet)
    (before : callHalf s.call = some m) (after : callHalf call = none) (run : x.step m = some y)
    (time : y.time = x.time) (phase : Phase { s with writes := s.writes ++ [m.high], call } y call) :
    Sends { s with writes := s.writes ++ [m.high], call } (messages ++ [m]) y where
  session := session_append sends.session run
  writes := by
    simp only [writes_quiet sends quiet, before, halfSent, after, timerHalf_quiet quiet]
    simp [TimestampMessage.writes]
  phase := phase
  busy busy := absurd quiet busy
  clock := time ▸ sends.clock
  stamped bt stamp := by
    rw [stamp_quiet quiet] at stamp
    cases stamp
  suspended := sends.suspended

theorem Sends.callStep (sends : s.Sends messages x) (run : s.callStep = some t) :
    ∃ messages x, t.Sends messages x := by
  have phase := sends.phase
  unfold TimestampRun.callStep at run
  split at run
  case h_1 => cases run
  case h_2 isInitial call =>
    cases Option.some.inj run
    rw [call] at phase
    exact ⟨messages, x, sends.low phase.2.2.1 (by rw [call]; rfl) rfl phase⟩
  case h_3 isInitial call =>
    cases Option.some.inj run
    rw [call] at phase
    obtain ⟨closed, first, quiet, bound, stopped⟩ := phase
    refine ⟨_, { x with isOpen := true, started := true }, sends.high quiet (by rw [call]; rfl) rfl ?_ rfl ?_⟩
    · exact if_pos ⟨closed, first⟩
    · exact ⟨rfl, rfl, quiet, bound, stopped⟩
  case h_4 call =>
    cases Option.some.inj run
    rw [call] at phase
    obtain ⟨opened, started, quiet, bound, stopped⟩ := phase
    refine ⟨messages, x, sends.session, ?_, ⟨opened, started, rfl, quiet, bound, stopped⟩, sends.busy, sends.clock,
      sends.stamped, sends.suspended⟩
    simpa [halfSent, call, callHalf] using sends.writes
  case h_5 call =>
    cases Option.some.inj run
    rw [call] at phase
    obtain ⟨opened, started, allowed, quiet, bound, stopped⟩ := phase
    have armed : ¬s.timer.arm.Quiet := fun quiet => absurd quiet.1 (by simp [Timer.arm])
    refine ⟨messages, x, sends.session, ?_, ?_, fun _ => opened, sends.clock, sends.stamped, sends.suspended⟩
    · simpa [halfSent, call, callHalf, timerHalf, Timer.arm] using sends.writes
    · simp only [Phase, bound]
      exact ⟨started, by rw [allowed, stopped], fun denied => absurd (allowed.symm.trans denied) (by simp),
        fun _ => armed⟩
  case h_6 call =>
    cases Option.some.inj run
    rw [call] at phase
    obtain ⟨started, life, stopped⟩ := phase
    refine ⟨messages, x, sends.session, ?_, ⟨started, life, rfl, stopped⟩, sends.busy, sends.clock, sends.stamped,
      sends.suspended⟩
    simpa [halfSent, call, callHalf] using sends.writes
  case h_7 call =>
    obtain ⟨timer, deleted, rfl⟩ := Option.map_eq_some_iff.mp run
    rw [call] at phase
    obtain ⟨started, life, denied, stopped⟩ := phase
    have quiet := Timer.deleteSync_quiet deleted
    obtain ⟨waiting, -⟩ := Option.ite_none_right_eq_some.mp deleted
    have idle : timerHalf s.timer = none := by rw [timerHalf, Option.isNone_iff_eq_none.mp waiting]
    refine ⟨messages, x, sends.session, ?_, ⟨started, life, denied, stopped, quiet⟩, fun busy => absurd quiet busy,
      sends.clock, ?_, sends.suspended⟩
    · have writes := sends.writes
      rw [halfSent, call, idle] at writes
      simpa [halfSent, callHalf, timerHalf_quiet quiet] using writes
    · intro bt stamp
      rw [stamp_quiet quiet] at stamp
      cases stamp
  case h_8 call =>
    cases Option.some.inj run
    rw [call] at phase
    exact ⟨messages, x, sends.low phase.2.2.2.2 (by rw [call]; rfl) rfl phase⟩
  case h_9 call =>
    cases Option.some.inj run
    rw [call] at phase
    obtain ⟨started, life, denied, stopped, quiet⟩ := phase
    refine ⟨_, { x with isOpen := false }, sends.high quiet (by rw [call]; rfl) rfl (if_pos started) rfl ?_⟩
    cases here : s.life with
    | initialised => exact absurd here life
    | bound =>
      simp only [Phase]
      exact ⟨started, by rw [denied, stopped here], fun _ => ⟨trivial, quiet⟩,
        fun allowed => absurd (denied.symm.trans allowed) (by simp)⟩
    | leaving =>
      simp only [Phase]
      exact ⟨trivial, quiet⟩

/-- The timer changes while the callback may run: the phase does not ask for quiet, and does not get
it unless the callback has found `stopped`. -/
theorem Phase.timer {timer : Timer TimestampCallback} {writes : List (Nat × BitVec 32)} {now : Nat}
    {call : Option TimestampCall} (phase : s.Phase x call) (busy : ¬s.timer.Quiet)
    (ended : timer.Quiet → s.stopped) (started : y.started = x.started) :
    Phase { s with timer, writes, now } y call := by
  cases call with
  | none =>
    simp only [Phase] at phase ⊢
    split at phase
    next => exact absurd phase.2.2.2 busy
    next =>
      obtain ⟨begun, agree, stopped, -⟩ := phase
      refine ⟨started ▸ begun, agree, fun denied => absurd (stopped denied).2 busy, fun allowed quiet => ?_⟩
      rw [ended quiet] at allowed
      cases allowed
    next => exact absurd phase.2 busy
  | some call =>
    cases call with
    | startLow | startHigh => exact absurd phase.2.2.1 busy
    | startAllow => exact absurd phase.2.2.1 busy
    | startArm => exact absurd phase.2.2.2.1 busy
    | stopDeny => exact ⟨started ▸ phase.1, phase.2⟩
    | stopDelete => exact ⟨started ▸ phase.1, phase.2⟩
    | stopLow | stopHigh => exact absurd phase.2.2.2.2 busy

/-- No call has half of a message written while the callback may run. -/
theorem Phase.callHalf {call : Option TimestampCall} (phase : s.Phase x call) (busy : ¬s.timer.Quiet) :
    callHalf call = none := by
  cases call with
  | none => rfl
  | some call =>
    cases call with
    | startHigh => exact absurd phase.2.2.1 busy
    | stopHigh => exact absurd phase.2.2.2.2 busy
    | startLow | startAllow | startArm | stopDeny | stopDelete | stopLow => rfl

/-- The callback goes on without a word written. -/
theorem Sends.goOn {timer : Timer TimestampCallback} (sends : s.Sends messages x) (busy : ¬s.timer.Quiet)
    (before : timerHalf s.timer = none) (after : timerHalf timer = none) (ended : timer.Quiet → s.stopped)
    (stamped : ∀ bt, stamp timer = some bt → x.time ≤ bt ∧ bt ≤ s.now) :
    Sends { s with timer } messages x where
  session := sends.session
  writes := by
    simp only [writes_free sends (sends.phase.callHalf busy), before, halfSent, after, sends.phase.callHalf busy,
      Option.or_none]
  phase := sends.phase.timer busy ended rfl
  busy _ := sends.busy busy
  clock := sends.clock
  stamped := stamped
  suspended := sends.suspended

theorem Sends.callbackStep (sends : s.Sends messages x) (run : s.callbackStep = some t) :
    ∃ messages x, t.Sends messages x := by
  unfold TimestampRun.callbackStep at run
  split at run
  case h_1 => cases run
  case h_2 interval running =>
    cases Option.some.inj run
    have busy := Timer.not_quiet_of_running running
    have before : timerHalf s.timer = none := by rw [timerHalf, running]
    refine ⟨messages, x, ?_⟩
    split
    · exact sends.goOn busy before rfl (fun quiet => absurd quiet.2 (by simp [Timer.goOn])) fun bt stamp => by
        cases Option.some.inj stamp
        exact ⟨sends.clock, Nat.le_refl s.now⟩
    · refine sends.goOn busy before rfl (fun quiet => absurd quiet.2 (by simp [Timer.goOn])) ?_
      simp [stamp, Timer.goOn]
  case h_3 bt running =>
    cases Option.some.inj run
    have busy := Timer.not_quiet_of_running running
    have before : timerHalf s.timer = none := by rw [timerHalf, running]
    have held := sends.stamped bt (by rw [stamp, running])
    refine ⟨messages, x, sends.session, ?_, ?_, fun _ => sends.busy busy, sends.clock, ?_, sends.suspended⟩
    · simp only [writes_free sends (sends.phase.callHalf busy), before, halfSent, sends.phase.callHalf busy]
      simp [timerHalf, Timer.goOn]
    · exact sends.phase.timer busy (fun quiet => absurd quiet.2 (by simp [Timer.goOn])) rfl
    · intro time stamp
      cases Option.some.inj stamp
      exact held
  case h_4 bt running =>
    cases Option.some.inj run
    have busy := Timer.not_quiet_of_running running
    have before : timerHalf s.timer = some (.sync bt) := by rw [timerHalf, running]
    obtain ⟨least, most⟩ := sends.stamped bt (by rw [stamp, running])
    refine ⟨messages ++ [.sync bt], { x with time := bt }, ?_, ?_, ?_, fun _ => sends.busy busy, most, ?_,
      sends.suspended⟩
    · exact session_append sends.session (if_pos ⟨sends.busy busy, least⟩)
    · simp only [writes_free sends (sends.phase.callHalf busy), before, halfSent, sends.phase.callHalf busy]
      simp [timerHalf, Timer.goOn, TimestampMessage.writes]
    · exact sends.phase.timer busy (fun quiet => absurd quiet.2 (by simp [Timer.goOn])) rfl
    · simp [stamp, Timer.goOn]
  case h_5 running =>
    cases Option.some.inj run
    have busy := Timer.not_quiet_of_running running
    have before : timerHalf s.timer = none := by rw [timerHalf, running]
    refine ⟨messages, x, sends.goOn busy before ?_ ?_ ?_⟩
    · simp [timerHalf, Timer.finish]
    · intro quiet
      by_contra allowed
      simp [allowed, Timer.Quiet, Timer.finish, Timer.arm] at quiet
    · simp [stamp, Timer.finish]

theorem Sends.expires {interval : Int} {timer : Timer TimestampCallback} (sends : s.Sends messages x)
    (run : s.timer.expire (.begun interval) = some timer) : Sends { s with timer } messages x := by
  have busy := Timer.expire_not_quiet run
  obtain ⟨-, waiting, rfl⟩ := Timer.expire_eq run
  refine sends.goOn busy ?_ rfl (fun quiet => absurd quiet.2 (by simp)) (by simp [stamp])
  rw [timerHalf, waiting]

/-- The stage and the outcome of the calls as a pause of the timestamps: they are stopped from the
beginning of a suspend to the end of it or of the resume. -/
def Suspended (pm : PmRun) : Prop :=
  pm.stage ≠ .idle ∨ pm.last = some (.suspend, .ok ()) → pm.timestampStopped

/-- What the end of a suspend or of a resume asks of the timestamps. -/
structure Ends (pm pm' : PmRun) : Prop where
  asks : restarts pm' = some (.startLow false) ∧ pm'.timestampStopped = false ∨
    restarts pm' = none ∧ pm'.timestampStopped = pm.timestampStopped
  suspended : pm.timestampStopped → Suspended pm'

theorem suspendFails_ends (pm pm' : PmRun) (status : Errno) : Ends pm (pm'.suspendFails status) where
  asks := Or.inl ⟨rfl, rfl⟩
  suspended _ := by simp [Suspended, PmRun.suspendFails]

theorem resumeReturns_ends (pm pm' : PmRun) (same : pm'.timestampStopped = pm.timestampStopped)
    (status : Except Errno Unit) : Ends pm (pm'.resumeReturns status) where
  asks := by
    cases status with
    | error status => exact Or.inr ⟨rfl, by simp [PmRun.resumeReturns, Except.isOk, Except.toBool, same]⟩
    | ok => exact Or.inl ⟨rfl, by simp [PmRun.resumeReturns, Except.isOk, Except.toBool]⟩
  suspended _ := by simp [Suspended, PmRun.resumeReturns]

/-- The calls go on without an end. -/
theorem going_ends {pm pm' : PmRun} (asks : restarts pm' = none)
    (same : pm'.timestampStopped = pm.timestampStopped) : Ends pm pm' where
  asks := Or.inr ⟨asks, same⟩
  suspended stopped _ := same.trans stopped

theorem step_ends {pm pm' : PmRun} {a : PmStep} (run : pm.step a = some pm') (suspend : a ≠ .suspend) :
    Ends pm pm' := by
  cases PmRun.step_goes run with
  | suspends => exact absurd rfl suspend
  | unallocated | allocated | resumes | linked | polls => exact going_ends (by simp [restarts]) rfl
  | misaligned | sleepFails => exact suspendFails_ends pm _ _
  | sleeps => exact going_ends rfl rfl
  | unreached => exact resumeReturns_ends pm _ rfl _
  | @saveSent attempt buffer outcome stage =>
    cases outcome with
    | error status => exact suspendFails_ends pm _ _
    | ok resp =>
      simp only [PmRun.saveSent]
      split
      · exact going_ends rfl rfl
      · split
        · refine going_ends ?_ rfl
          unfold restarts
          split
          next stage _ => split at stage <;> cases stage
          next stage _ => split at stage <;> cases stage
          next => rfl
        · exact suspendFails_ends pm _ _
  | restoreSent =>
    simp only [PmRun.restoreSent]
    split
    · exact resumeReturns_ends pm _ rfl _
    · refine resumeReturns_ends pm _ ?_ _
      rfl

/-- Where a call goes on, it has not returned, or the resume of what is suspended begins. -/
theorem stopped_of_going {pm pm' : PmRun} {a : PmStep} (suspended : Suspended pm) (order : inOrder pm a)
    (run : pm.step a = some pm') (suspend : a ≠ .suspend) : pm.timestampStopped := by
  cases PmRun.step_goes run with
  | suspends => exact absurd rfl suspend
  | resumes => exact suspended (Or.inr (by simpa [inOrder] using order))
  | unallocated stage | misaligned buffer stage | allocated buffer stage | linked stage | polls stage
  | unreached stage | saveSent stage | sleepFails stage | sleeps stage | restoreSent stage =>
    exact suspended (Or.inl (by simp [stage]))

theorem Sends.pmStep {a : PmStep} (sends : s.Sends messages x) (run : s.pmStep a = some t) :
    t.Sends messages x := by
  obtain ⟨⟨bound, free, order⟩, run⟩ := Option.ite_none_right_eq_some.mp run
  obtain ⟨pm, ran, rfl⟩ := Option.map_eq_some_iff.mp run
  have phase := sends.phase
  simp only [free, Phase, bound] at phase
  obtain ⟨started, agree, stopped, armed⟩ := phase
  have half : callHalf s.call = none := by rw [free]; rfl
  by_cases suspend : a = .suspend
  · subst suspend
    obtain ⟨-, ran⟩ := Option.ite_none_right_eq_some.mp ran
    cases Option.some.inj ran
    refine ⟨sends.session, ?_, ⟨started, by simp [bound], fun _ => rfl⟩, sends.busy, sends.clock, sends.stamped,
      fun _ => rfl⟩
    simpa [halfSent, callHalf] using writes_free sends half
  · have denied := stopped_of_going sends.suspended order ran suspend
    obtain ⟨isOpen, quiet⟩ := stopped (agree.trans denied)
    obtain ⟨asks, suspended⟩ := step_ends ran suspend
    simp only [if_neg suspend]
    refine ⟨sends.session, ?_, ?_, sends.busy, sends.clock, sends.stamped, suspended denied⟩
    · obtain ⟨asks, -⟩ | ⟨asks, -⟩ := asks
      · simpa [halfSent, asks, callHalf] using writes_free sends half
      · simpa [halfSent, asks, callHalf] using writes_free sends half
    · obtain ⟨asks, allowed⟩ | ⟨asks, same⟩ := asks
      · simp only [asks]
        exact ⟨isOpen, by rw [started]; rfl, quiet, bound, allowed⟩
      · simp only [asks, Phase, bound]
        exact ⟨started, agree.trans same.symm, stopped, armed⟩

/-- No call is made before the probe. -/
theorem Phase.initialised {call : Option TimestampCall} (phase : s.Phase x call) (life : s.life = .initialised) :
    call = none ∧ x.started = false ∧ x.isOpen = false ∧ s.pm.timestampStopped = false ∧ s.timer.Quiet := by
  cases call with
  | none =>
    simp only [Phase, life] at phase
    exact ⟨rfl, phase⟩
  | some call =>
    cases call with
    | startLow | startHigh | startAllow =>
      obtain ⟨-, -, -, bound, -⟩ := phase
      cases life.symm.trans bound
    | startArm =>
      obtain ⟨-, -, -, -, bound, -⟩ := phase
      cases life.symm.trans bound
    | stopDeny | stopDelete | stopLow | stopHigh => exact absurd life phase.2.1

theorem Sends.step {label : TimestampStep} (sends : s.Sends messages x) (run : s.step label = some t) :
    ∃ messages x, t.Sends messages x := by
  cases label with
  | probe =>
    obtain ⟨life, run⟩ := Option.ite_none_right_eq_some.mp run
    cases Option.some.inj run
    obtain ⟨free, started, isOpen, allowed, quiet⟩ := sends.phase.initialised life
    have half : callHalf s.call = none := by rw [free]; rfl
    refine ⟨messages, x, sends.session, ?_, ⟨isOpen, by rw [started]; rfl, quiet, rfl, allowed⟩, sends.busy,
      sends.clock, sends.stamped, sends.suspended⟩
    simpa [halfSent, callHalf] using writes_free sends half
  | pm a => exact ⟨messages, x, sends.pmStep run⟩
  | leave =>
    obtain ⟨⟨bound, free, -⟩, run⟩ := Option.ite_none_right_eq_some.mp run
    cases Option.some.inj run
    have phase := sends.phase
    simp only [free, Phase, bound] at phase
    refine ⟨messages, x, sends.session, ?_, ⟨phase.1, by simp, by simp⟩, sends.busy, sends.clock, sends.stamped,
      sends.suspended⟩
    simpa [halfSent, free, callHalf] using sends.writes
  | call => exact sends.callStep run
  | expires interval =>
    obtain ⟨timer, expired, rfl⟩ := Option.map_eq_some_iff.mp run
    exact ⟨messages, x, sends.expires expired⟩
  | callback => exact sends.callbackStep run
  | tick time =>
    obtain ⟨later, run⟩ := Option.ite_none_right_eq_some.mp run
    cases Option.some.inj run
    refine ⟨messages, x, sends.session, sends.writes, sends.phase, sends.busy, Nat.le_trans sends.clock later, ?_,
      sends.suspended⟩
    intro bt stamp
    obtain ⟨least, most⟩ := sends.stamped bt stamp
    exact ⟨least, Nat.le_trans most later⟩

theorem sends_reachable (reach : machine.Reachable s) : ∃ messages x, s.Sends messages x := by
  refine Machine.Reachable.invariant (I := fun s => ∃ messages x, s.Sends messages x) ?_ ?_ reach
  · rintro _ ⟨now, rfl⟩
    exact ⟨[], .start, start_sends now⟩
  · rintro s label t ⟨messages, x, sends⟩ run
    exact sends.step run

/-- The message that is under way fits the session. -/
theorem Sends.halfSent_next (sends : s.Sends messages x) (half : s.halfSent = some m) :
    ∃ y, x.step m = some y := by
  have phase := sends.phase
  by_cases quiet : s.timer.Quiet
  · rw [halfSent, timerHalf_quiet quiet, Option.or_none] at half
    unfold TimestampRun.callHalf at half
    split at half
    next isInitial call =>
      rw [call] at phase
      cases Option.some.inj half
      exact ⟨_, if_pos ⟨phase.1, phase.2.1⟩⟩
    next call =>
      rw [call] at phase
      cases Option.some.inj half
      exact ⟨_, if_pos phase.1⟩
    next => cases half
  · rw [halfSent, phase.callHalf quiet, Option.none_or] at half
    unfold TimestampRun.timerHalf at half
    split at half
    next bt running =>
      cases Option.some.inj half
      obtain ⟨least, -⟩ := sends.stamped bt (by rw [stamp, running])
      exact ⟨_, if_pos ⟨sends.busy quiet, least⟩⟩
    next => cases half

/-- Over every order of the driver's calls with the expiries and the steps of the timer: the register
writes are whole messages, each low word directly before its high word, with at most the low word of a
next one. They make up sessions, of which only the first begins with the initial start, times are
sent in a session only, and never an earlier one after a later one. Outside a suspend, the sleep after
it and a resume that failed the timer is armed or its callback runs; in them, when no call runs, and
when the driver has left, neither is the case, and the session is closed. -/
theorem timestamp_sessions (reach : machine.Reachable s) : ∃ messages x,
    TimestampSession.machine.run .start messages = some x ∧
    (s.writes = messages.flatMap TimestampMessage.writes ∨
      ∃ m y, x.step m = some y ∧ s.writes = messages.flatMap TimestampMessage.writes ++ [m.low]) ∧
    (s.call = none → s.life = .bound → s.pm.timestampStopped = false → ¬s.timer.Quiet) ∧
    (s.call = none → s.life = .leaving ∨ s.pm.timestampStopped → s.timer.Quiet ∧ x.isOpen = false) := by
  obtain ⟨messages, x, sends⟩ := sends_reachable reach
  have phase := sends.phase
  refine ⟨messages, x, sends.session, ?_, ?_, ?_⟩
  · have writes := sends.writes
    cases half : s.halfSent with
    | none =>
      rw [half] at writes
      exact Or.inl (by simpa using writes)
    | some m =>
      obtain ⟨y, next⟩ := sends.halfSent_next half
      rw [half] at writes
      exact Or.inr ⟨m, y, next, writes⟩
  · intro free bound allowed
    rw [free, Phase, bound] at phase
    obtain ⟨-, agree, -, armed⟩ := phase
    exact armed (agree.trans allowed)
  · intro free ended
    rw [free, Phase] at phase
    cases life : s.life with
    | initialised =>
      rw [life] at phase
      obtain ⟨-, isOpen, -, quiet⟩ := phase
      exact ⟨quiet, isOpen⟩
    | bound =>
      rw [life] at phase
      obtain ⟨-, agree, stopped, -⟩ := phase
      have denied := ended.resolve_left (by simp [life])
      obtain ⟨isOpen, quiet⟩ := stopped (agree.trans denied)
      exact ⟨quiet, isOpen⟩
    | leaving =>
      rw [life] at phase
      exact ⟨phase.2, phase.1⟩

/-- A suspend that begins between the two words of a time. -/
theorem timestamp_sessions_suspend : ∃ s, machine.Reachable s ∧ s.call = none ∧ s.pm.stage ≠ .idle ∧
    s.writes = [(8, -4), (0, -1), (8, 5), (0, 1), (8, -2), (0, -1)] ∧ s.timer.Quiet := by
  obtain ⟨s, ran, free, stopped, going, writes⟩ : ∃ s, machine.run (start 0x100000005)
      [.probe, .call, .call, .call, .call, .expires 10000, .callback, .callback, .pm .suspend, .call, .callback,
        .callback, .call, .call, .call] = some s ∧ s.call = none ∧ s.pm.timestampStopped = true ∧
      s.pm.stage = .saveAlloc 0 pageSize ∧ s.writes = [(8, -4), (0, -1), (8, 5), (0, 1), (8, -2), (0, -1)] :=
    ⟨_, rfl, rfl, rfl, rfl, rfl⟩
  have reach : machine.Reachable s := Machine.Reachable.of_run (.start ⟨_, rfl⟩) _ ran
  obtain ⟨messages, x, -, -, -, quiet⟩ := timestamp_sessions reach
  exact ⟨s, reach, free, by simp [going], writes, (quiet free (Or.inr stopped)).1⟩

end TimestampRun

end AppleBce

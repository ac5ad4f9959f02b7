import AppleBce.Audio.Pcm
import AppleBce.Basis.Machine
import AppleBce.Basis.Timer
import Mathlib.Data.List.Nodup

namespace AppleBce

open Basis

/-- Where `aaudio_handle_cmd_timestamp` is, which only the thread of the interrupt calls: it has read the
clock, or has stored the time. -/
inductive TimestampHandler
  | stamped (timeOs : Int)
  | stored
  deriving DecidableEq, Repr

/-- Where `aaudio_ts_work` is: before it reads the time, before it takes the lock of the next substream,
or before `snd_pcm_period_elapsed` for the substream it was at. The substreams are those to come. -/
inductive TimestampStage
  | begun
  | handling (timeOs : Int) (substreams : List Bool)
  | elapsing (timeOs : Int) (substream : Bool) (substreams : List Bool)
  deriving DecidableEq, Repr

namespace TimestampStage

/-- The time that is being handled, and the substreams it is still to be handled for. -/
def time : TimestampStage → Option Int
  | .begun => none
  | .handling timeOs _ | .elapsing timeOs _ _ => some timeOs

def left : TimestampStage → List Bool
  | .begun => []
  | .handling _ rest | .elapsing _ _ rest => rest

/-- The calls of `snd_pcm_period_elapsed` for a substream that may still come. -/
def owes (p : Bool) : TimestampStage → Nat
  | .begun => 1
  | .handling _ rest => rest.count p
  | .elapsing _ q rest => (q :: rest).count p

end TimestampStage

/-- A subdevice and its PCM device. `true` is the playback substream, `false` that for capture, and
`runtime` whether ALSA has opened it. The records are of the times stored, of how many there were when a
substream was opened, of the times installed in each, and of the calls of `snd_pcm_period_elapsed`. -/
structure StreamTimestamps where
  substreams : List Bool
  now : Int
  handler : Option TimestampHandler
  tsTimeOs : Int
  work : Timer TimestampStage
  stream : Bool → AaudioStream
  runtime : Bool → Bool
  received : List Int
  opened : Bool → Nat
  installs : Bool → List Int
  elapsed : Bool → Nat

/-- `handler` is a step of `aaudio_handle_cmd_timestamp`, `work` one of the work item, and `quiesce` is
`aaudio_quiesce` at one of the streams. -/
inductive StreamTimestampStep
  | command
  | handler
  | workBegins
  | work
  | pcmOpen (substream : Bool)
  | pcmClose (substream : Bool)
  | prepare (substream : Bool) (runtime : SndPcmRuntime)
  | triggerStart (substream : Bool)
  | triggerStop (substream : Bool)
  | quiesce (substream : Bool)
  | pointer (substream : Bool) (bufferSize : Nat)
  | tick (time : Int)
  deriving DecidableEq, Repr

namespace StreamTimestamps

def fresh (substreams : List Bool) (now : Int) (stream : Bool → AaudioStream) : StreamTimestamps where
  substreams := substreams
  now := now
  handler := none
  tsTimeOs := 0
  work := .idle
  stream := stream
  runtime := fun _ => false
  received := []
  opened := fun _ => 0
  installs := fun _ => []
  elapsed := fun _ => 0

def setStream (s : StreamTimestamps) (p : Bool) (stream : AaudioStream) : StreamTimestamps :=
  { s with stream := Function.update s.stream p stream }

/-- The store under `ts_lock`, or `schedule_work`. -/
def handlerStep (s : StreamTimestamps) : Option StreamTimestamps :=
  match s.handler with
  | none => none
  | some (.stamped timeOs) =>
    some { s with tsTimeOs := timeOs, received := s.received ++ [timeOs], handler := some .stored }
  | some .stored => some { s with work := s.work.arm, handler := none }

/-- `aaudio_handle_stream_timestamp` up to where it gives the lock back. -/
def install (s : StreamTimestamps) (timeOs : Int) (p : Bool) (rest : List Bool) : StreamTimestamps :=
  if s.runtime p then
    let handled := aaudioHandleStreamTimestamp (s.stream p) timeOs
    { s.setStream p handled.1 with
      installs := Function.update s.installs p (s.installs p ++ [timeOs])
      work := s.work.goOn (if handled.2 then .elapsing timeOs p rest else .handling timeOs rest) }
  else { s with work := s.work.goOn (.handling timeOs rest) }

/-- `aaudio_ts_work`. -/
def workStep (s : StreamTimestamps) : Option StreamTimestamps :=
  match s.work.running with
  | none => none
  | some .begun => some { s with work := s.work.goOn (.handling s.tsTimeOs s.substreams) }
  | some (.handling _ []) => some { s with work := s.work.finish }
  | some (.handling timeOs (p :: rest)) => some (s.install timeOs p rest)
  | some (.elapsing timeOs p rest) =>
    some { s with
      elapsed := Function.update s.elapsed p (s.elapsed p + 1)
      work := s.work.goOn (.handling timeOs rest) }

def step (s : StreamTimestamps) : StreamTimestampStep → Option StreamTimestamps
  | .command => if s.handler = none then some { s with handler := some (.stamped s.now) } else none
  | .handler => s.handlerStep
  | .workBegins => (s.work.expire .begun).map fun work => { s with work }
  | .work => s.workStep
  | .pcmOpen p =>
    if s.runtime p then none
    else some { s with
      runtime := Function.update s.runtime p true
      opened := Function.update s.opened p s.received.length }
  | .pcmClose p => if s.runtime p then some { s with runtime := Function.update s.runtime p false } else none
  | .prepare p runtime =>
    if s.runtime p then some (s.setStream p (aaudioPcmPrepare (s.stream p) runtime).1) else none
  | .triggerStart p => if s.runtime p then some (s.setStream p (aaudioPcmTriggerStart (s.stream p))) else none
  | .triggerStop p => if s.runtime p then some (s.setStream p (aaudioPcmTriggerStop (s.stream p))) else none
  | .quiesce p => some (s.setStream p { s.stream p with started := false })
  | .pointer p bufferSize =>
    if s.runtime p then some (s.setStream p (aaudioPcmPointer (s.stream p) bufferSize s.now).2) else none
  | .tick time => if s.now ≤ time then some { s with now := time } else none

/-- A PCM device has a playback substream, one for capture, or both. -/
def machine : Machine StreamTimestamps StreamTimestampStep where
  init s := ∃ substreams now stream, substreams.Nodup ∧ s = fresh substreams now stream
  step := step

variable {s t : StreamTimestamps}

/-- The time the work item has in its hand. -/
def current (s : StreamTimestamps) : Option Int :=
  s.work.running.bind TimestampStage.time

/-- The calls of `snd_pcm_period_elapsed` for a substream that are on their way. -/
def owed (s : StreamTimestamps) (p : Bool) : Nat :=
  s.work.pending.toNat + (s.work.running.map (TimestampStage.owes p)).getD 0 +
    (if s.handler = some .stored then 1 else 0)

/-- An open substream has the newest of the times that were stored since it was opened. -/
def UpToDate (s : StreamTimestamps) (p : Bool) : Prop :=
  s.runtime p → s.opened p < s.received.length → (s.stream p).remoteTimestamp = s.tsTimeOs

/-- The newest time is on its way to the work item. -/
def Coming (s : StreamTimestamps) : Prop :=
  s.handler = some .stored ∨ s.work.pending

/-- The work item has the newest time in its hand, and the substream before it. -/
def Ahead (s : StreamTimestamps) (p : Bool) : Prop :=
  ∃ stage, s.work.running = some stage ∧ (stage = .begun ∨ stage.time = some s.tsTimeOs ∧ p ∈ stage.left)

structure Sound (s : StreamTimestamps) : Prop where
  nodup : s.substreams.Nodup
  clock : ∀ x ∈ s.received, x ≤ s.now
  stamped : ∀ x, s.handler = some (.stamped x) → x ≤ s.now ∧ ∀ y ∈ s.received, y ≤ x
  newest : ∀ x ∈ s.received, x ≤ s.tsTimeOs
  last : ∀ x, s.received.getLast? = some x → x = s.tsTimeOs
  known : s.handler = some .stored ∨ ¬s.work.Quiet → s.tsTimeOs ∈ s.received
  current : ∀ x, s.current = some x → x ∈ s.received ∧ (x = s.tsTimeOs ∨ s.Coming)
  installs : ∀ p, ∀ x ∈ s.installs p, x ∈ s.received ∧ ∀ y, s.current = some y → x ≤ y
  ordered : ∀ p, (s.installs p).Pairwise (· ≤ ·)
  delivered : ∀ p ∈ s.substreams, s.UpToDate p ∨ s.Coming ∨ s.Ahead p
  elapsed : ∀ p, s.elapsed p + s.owed p ≤ s.received.length

theorem fresh_sound {substreams : List Bool} (nodup : substreams.Nodup) (now : Int)
    (stream : Bool → AaudioStream) : (fresh substreams now stream).Sound where
  nodup := nodup
  clock := by simp [fresh]
  stamped := by simp [fresh]
  newest := by simp [fresh]
  last := by simp [fresh]
  known := by simp [fresh, Timer.idle, Timer.Quiet]
  current := by simp [fresh, StreamTimestamps.current, Timer.idle]
  installs := by simp [fresh]
  ordered := by simp [fresh]
  delivered := by simp [fresh, UpToDate]
  elapsed := by simp [fresh, owed, Timer.idle]

theorem Sound.handlerStep (sound : s.Sound) (run : s.handlerStep = some t) : t.Sound := by
  have owed := sound.elapsed
  unfold StreamTimestamps.handlerStep at run
  split at run
  case h_1 => cases run
  case h_2 timeOs handler =>
    cases Option.some.inj run
    obtain ⟨now, latest⟩ := sound.stamped timeOs handler
    have member : ∀ x, x ∈ s.received ++ [timeOs] ↔ x ∈ s.received ∨ x = timeOs := by
      simp
    refine ⟨sound.nodup, ?_, by simp, ?_, ?_, ?_, ?_, ?_, sound.ordered, fun _ _ => .inr (.inl (.inl rfl)), ?_⟩
    · intro x stored
      rcases (member x).mp stored with old | rfl
      · exact sound.clock x old
      · exact now
    · intro x stored
      rcases (member x).mp stored with old | rfl
      · exact latest x old
      · exact Int.le_refl x
    · intro x last
      rw [List.getLast?_concat] at last
      exact (Option.some.inj last).symm
    · exact fun _ => (member timeOs).mpr (.inr rfl)
    · exact fun x current => ⟨(member x).mpr (.inl (sound.current x current).1), .inr (.inl rfl)⟩
    · exact fun p x installed =>
        ⟨(member x).mpr (.inl (sound.installs p x installed).1), (sound.installs p x installed).2⟩
    · intro p
      have before := owed p
      simp only [StreamTimestamps.owed, handler, reduceCtorEq, Option.some.injEq, if_true, if_false,
        List.length_append, List.length_singleton] at before ⊢
      omega
  case h_3 handler =>
    cases Option.some.inj run
    refine ⟨sound.nodup, sound.clock, by simp, sound.newest, sound.last, fun _ => sound.known (.inl handler), ?_,
      sound.installs, sound.ordered, fun _ _ => .inr (.inl (.inr rfl)), ?_⟩
    · exact fun x current => ⟨(sound.current x current).1, .inr (.inr rfl)⟩
    · intro p
      have before := owed p
      simp only [StreamTimestamps.owed, handler, Timer.arm, Bool.toNat_true, if_true, reduceCtorEq,
        if_false] at before ⊢
      omega

/-- The work item goes from one stage to the next, with the substreams as they were. -/
theorem Sound.goOn {stage : TimestampStage} {running : Option TimestampStage} {elapsed : Bool → Nat}
    (sound : s.Sound) (here : s.work.running = some stage)
    (current : ∀ x, running.bind TimestampStage.time = some x →
      stage.time = some x ∨ stage = .begun ∧ x = s.tsTimeOs)
    (ahead : ∀ p ∈ s.substreams, stage = .begun ∨ p ∈ stage.left → s.UpToDate p ∨ s.Coming ∨
      ∃ next, running = some next ∧ next.time = stage.time.or (some s.tsTimeOs) ∧ p ∈ next.left)
    (owed : ∀ p, elapsed p + (running.map (TimestampStage.owes p)).getD 0 ≤ s.elapsed p + stage.owes p) :
    Sound { s with work := { s.work with running }, elapsed } := by
  have known : s.tsTimeOs ∈ s.received := sound.known (.inr (Timer.not_quiet_of_running here))
  have before : ∀ x, stage.time = some x → s.current = some x := by
    intro x time
    rw [StreamTimestamps.current, here, Option.bind_some, time]
  refine ⟨sound.nodup, sound.clock, sound.stamped, sound.newest, sound.last, fun _ => known, ?_, ?_,
    sound.ordered, ?_, ?_⟩
  · intro x next
    rcases current x next with same | ⟨-, rfl⟩
    · exact sound.current x (before x same)
    · exact ⟨known, .inl rfl⟩
  · intro p x installed
    obtain ⟨member, bound⟩ := sound.installs p x installed
    refine ⟨member, fun y next => ?_⟩
    rcases current y next with same | ⟨-, rfl⟩
    · exact bound y (before y same)
    · exact sound.newest x member
  · intro p substream
    rcases sound.delivered p substream with upToDate | coming | ⟨stage', running', toDo⟩
    · exact .inl upToDate
    · exact .inr (.inl coming)
    · cases here.symm.trans running'
      rcases ahead p substream (toDo.imp_right And.right) with upToDate | coming | ⟨next, goes, time, left⟩
      · exact .inl upToDate
      · exact .inr (.inl coming)
      · refine .inr (.inr ⟨next, goes, .inr ⟨?_, left⟩⟩)
        rcases toDo with rfl | ⟨same, -⟩
        · exact time
        · rw [time, same, Option.some_or]
  · intro p
    have counted := sound.elapsed p
    have steps := owed p
    simp only [StreamTimestamps.owed, here, Option.map_some, Option.getD_some] at counted ⊢
    omega

/-- A substream changes, but for its timestamp. -/
theorem Sound.setStream {p : Bool} {stream : AaudioStream} (sound : s.Sound)
    (same : stream.remoteTimestamp = (s.stream p).remoteTimestamp) : (s.setStream p stream).Sound := by
  refine ⟨sound.nodup, sound.clock, sound.stamped, sound.newest, sound.last, sound.known, sound.current,
    sound.installs, sound.ordered, ?_, sound.elapsed⟩
  intro q substream
  refine (sound.delivered q substream).imp_left fun upToDate runs later => ?_
  refine Eq.trans ?_ (upToDate runs later)
  show (Function.update s.stream p stream q).remoteTimestamp = _
  by_cases here : q = p
  · rw [here, Function.update_self, same]
  · rw [Function.update_of_ne here]

theorem handleStreamTimestamp_remote (stream : AaudioStream) (timestamp : Int) :
    (aaudioHandleStreamTimestamp stream timestamp).1.remoteTimestamp = timestamp := by
  unfold aaudioHandleStreamTimestamp
  dsimp only
  split <;> rfl

/-- The time in the hand of the work item is put into a substream. -/
theorem Sound.put {timeOs : Int} {p : Bool} {stream : AaudioStream} (sound : s.Sound)
    (here : s.current = some timeOs) (installed : stream.remoteTimestamp = timeOs) :
    Sound { s.setStream p stream with installs := Function.update s.installs p (s.installs p ++ [timeOs]) } := by
  obtain ⟨member, newest⟩ := sound.current timeOs here
  refine ⟨sound.nodup, sound.clock, sound.stamped, sound.newest, sound.last, sound.known, sound.current, ?_, ?_, ?_,
    sound.elapsed⟩
  · intro q x (there : x ∈ Function.update s.installs p (s.installs p ++ [timeOs]) q)
    by_cases same : q = p
    · subst same
      rw [Function.update_self, List.mem_append, List.mem_singleton] at there
      rcases there with old | rfl
      · exact sound.installs q x old
      · refine ⟨member, fun y now => ?_⟩
        cases here.symm.trans now
        exact Int.le_refl x
    · rw [Function.update_of_ne same] at there
      exact sound.installs q x there
  · intro q
    show (Function.update s.installs p (s.installs p ++ [timeOs]) q).Pairwise _
    by_cases same : q = p
    · subst same
      rw [Function.update_self, List.pairwise_append]
      refine ⟨sound.ordered q, List.pairwise_singleton _ _, fun x old y last => ?_⟩
      rw [List.mem_singleton.mp last]
      exact (sound.installs q x old).2 timeOs here
    · rw [Function.update_of_ne same]
      exact sound.ordered q
  · intro q substream
    by_cases same : q = p
    · subst same
      rcases newest with rfl | coming
      · refine .inl fun _ _ => ?_
        show (Function.update s.stream q stream q).remoteTimestamp = s.tsTimeOs
        rw [Function.update_self, installed]
      · exact .inr (.inl coming)
    · refine (sound.delivered q substream).imp_left fun upToDate runs later => ?_
      refine Eq.trans ?_ (upToDate runs later)
      show (Function.update s.stream p stream q).remoteTimestamp = _
      rw [Function.update_of_ne same]

theorem Sound.install {timeOs : Int} {p : Bool} {rest : List Bool} (sound : s.Sound)
    (here : s.work.running = some (.handling timeOs (p :: rest))) : (s.install timeOs p rest).Sound := by
  have current : s.current = some timeOs := by
    rw [StreamTimestamps.current, here]
    rfl
  have fewer : ∀ q, rest.count q ≤ (p :: rest).count q := fun q => List.count_le_count_cons
  unfold StreamTimestamps.install
  split
  · have remote := handleStreamTimestamp_remote (s.stream p) timeOs
    dsimp only
    generalize aaudioHandleStreamTimestamp (s.stream p) timeOs = handled at remote ⊢
    have put := sound.put (p := p) current remote
    refine put.goOn here ?_ ?_ ?_
    · intro x time
      refine .inl ?_
      rw [← time]
      cases handled.2 <;> rfl
    · rintro q - (begun | left)
      · cases begun
      · rcases List.mem_cons.mp left with rfl | left
        · rcases (sound.current timeOs current).2 with newest | coming
          · refine .inl fun _ _ => ?_
            show (Function.update s.stream q handled.1 q).remoteTimestamp = s.tsTimeOs
            rw [Function.update_self, remote, newest]
          · exact .inr (.inl coming)
        · refine .inr (.inr ⟨_, rfl, ?_, ?_⟩)
          · cases handled.2 <;> rfl
          · cases handled.2 <;> exact left
    · intro q
      cases handled.2
      · exact Nat.add_le_add_left (fewer q) _
      · exact Nat.le_refl _
  · rename_i closed
    refine sound.goOn here (fun x time => .inl time) ?_ (fun q => Nat.add_le_add_left (fewer q) _)
    rintro q - (begun | left)
    · cases begun
    · rcases List.mem_cons.mp left with rfl | left
      · exact .inl fun runs => absurd runs closed
      · exact .inr (.inr ⟨_, rfl, rfl, left⟩)

theorem Sound.workStep (sound : s.Sound) (run : s.workStep = some t) : t.Sound := by
  unfold StreamTimestamps.workStep at run
  split at run
  case h_1 => cases run
  case h_2 here =>
    cases Option.some.inj run
    refine sound.goOn here ?_ ?_ ?_
    · exact fun x time => .inr ⟨rfl, (Option.some.inj time).symm⟩
    · exact fun p substream _ => .inr (.inr ⟨_, rfl, rfl, substream⟩)
    · intro p
      have once := List.nodup_iff_count_le_one.mp sound.nodup p
      exact Nat.add_le_add_left once _
  case h_3 timeOs here =>
    cases Option.some.inj run
    refine sound.goOn here nofun ?_ (fun _ => Nat.le_refl _)
    rintro p - (begun | none)
    · cases begun
    · cases none
  case h_4 timeOs p rest here =>
    cases Option.some.inj run
    exact sound.install here
  case h_5 timeOs p rest here =>
    cases Option.some.inj run
    refine sound.goOn here ?_ ?_ ?_
    · exact fun x time => .inl time
    · rintro q - (begun | left)
      · cases begun
      · exact .inr (.inr ⟨_, rfl, rfl, left⟩)
    · intro q
      by_cases same : q = p
      · subst same
        simp only [Function.update_self, Option.map_some, Option.getD_some, TimestampStage.owes,
          List.count_cons_self]
        omega
      · simp only [Function.update_of_ne same, Option.map_some, Option.getD_some, TimestampStage.owes]
        exact Nat.add_le_add_left List.count_le_count_cons _

theorem pointer_remote (stream : AaudioStream) (bufferSize : Nat) (now : Int) :
    (aaudioPcmPointer stream bufferSize now).2.remoteTimestamp = stream.remoteTimestamp := by
  unfold aaudioPcmPointer
  dsimp only
  split
  · rfl
  split
  · rfl
  split <;> rfl

theorem prepare_remote (stream : AaudioStream) (runtime : SndPcmRuntime) :
    (aaudioPcmPrepare stream runtime).1.remoteTimestamp = stream.remoteTimestamp := by
  -- the times as variables: comparing the records would compute them
  have frame : ∃ bufferTimeNs periodTimeNs,
      (aaudioPcmPrepare stream runtime).1 = { stream with bufferTimeNs, periodTimeNs } := ⟨_, _, rfl⟩
  obtain ⟨_, _, frame⟩ := frame
  rw [frame]

/-- A substream is opened or closed. -/
theorem Sound.of_runtime {runtime : Bool → Bool} {opened : Bool → Nat} (sound : s.Sound)
    (kept : ∀ p, runtime p → s.UpToDate p → opened p < s.received.length →
      (s.stream p).remoteTimestamp = s.tsTimeOs) :
    Sound { s with runtime, opened } :=
  ⟨sound.nodup, sound.clock, sound.stamped, sound.newest, sound.last, sound.known, sound.current, sound.installs,
    sound.ordered, fun p substream => (sound.delivered p substream).imp_left fun upToDate runs later =>
      kept p runs upToDate later, sound.elapsed⟩

/-- A time that is on its way to the work item without the handler is so still. -/
theorem Coming.kept {handler : Option TimestampHandler} (coming : s.Coming) (idle : s.handler = none) :
    Coming { s with handler } := by
  refine .inr (coming.resolve_left fun stored => ?_)
  rw [idle] at stored
  cases stored

theorem Sound.step {a : StreamTimestampStep} (sound : s.Sound) (run : s.step a = some t) : t.Sound := by
  cases a with
  | command =>
    obtain ⟨idle, after⟩ := Option.ite_none_right_eq_some.mp run
    cases after
    refine ⟨sound.nodup, sound.clock, ?_, sound.newest, sound.last, ?_, ?_, sound.installs, sound.ordered, ?_, ?_⟩
    · intro x stamped
      cases stamped
      exact ⟨Int.le_refl _, sound.clock⟩
    · exact fun busy => sound.known (busy.imp_left nofun)
    · exact fun x current => (sound.current x current).imp_right (Or.imp_right (Coming.kept · idle))
    · exact fun p substream => (sound.delivered p substream).imp_right (Or.imp_left (Coming.kept · idle))
    · intro p
      have counted := sound.elapsed p
      simp only [StreamTimestamps.owed, idle, reduceCtorEq, Option.some.injEq, if_false] at counted ⊢
      exact counted
  | handler => exact sound.handlerStep run
  | workBegins =>
    obtain ⟨work, expired, rfl⟩ := Option.map_eq_some_iff.mp run
    obtain ⟨pending, waiting, rfl⟩ := Timer.expire_eq expired
    have known := sound.known (.inr (Timer.expire_not_quiet expired))
    refine ⟨sound.nodup, sound.clock, sound.stamped, sound.newest, sound.last, fun _ => known, nofun, ?_,
      sound.ordered, fun p _ => .inr (.inr ⟨.begun, rfl, .inl rfl⟩), ?_⟩
    · exact fun p x installed => ⟨(sound.installs p x installed).1, nofun⟩
    · intro p
      have counted := sound.elapsed p
      simp only [StreamTimestamps.owed, pending, waiting, Option.map_some, Option.map_none, Option.getD_some,
        Option.getD_none, Bool.toNat_true, Bool.toNat_false, TimestampStage.owes] at counted ⊢
      omega
  | work => exact sound.workStep run
  | pcmOpen p =>
    obtain ⟨-, after⟩ := Option.ite_none_left_eq_some.mp run
    cases after
    refine sound.of_runtime fun q runs upToDate later => ?_
    by_cases same : q = p
    · subst same
      rw [Function.update_self] at later
      exact absurd later (Nat.lt_irrefl _)
    · rw [Function.update_of_ne same] at runs later
      exact upToDate runs later
  | pcmClose p =>
    obtain ⟨-, after⟩ := Option.ite_none_right_eq_some.mp run
    cases after
    refine sound.of_runtime fun q runs upToDate later => upToDate ?_ later
    by_cases same : q = p
    · subst same
      rw [Function.update_self] at runs
      cases runs
    · rwa [Function.update_of_ne same] at runs
  | prepare p runtime =>
    obtain ⟨-, after⟩ := Option.ite_none_right_eq_some.mp run
    cases after
    exact sound.setStream (prepare_remote (s.stream p) runtime)
  | triggerStart p | triggerStop p =>
    obtain ⟨-, after⟩ := Option.ite_none_right_eq_some.mp run
    cases after
    exact sound.setStream rfl
  | quiesce p =>
    cases Option.some.inj run
    exact sound.setStream rfl
  | pointer p bufferSize =>
    obtain ⟨-, after⟩ := Option.ite_none_right_eq_some.mp run
    cases after
    exact sound.setStream (pointer_remote (s.stream p) bufferSize s.now)
  | tick time =>
    obtain ⟨later, after⟩ := Option.ite_none_right_eq_some.mp run
    cases after
    refine ⟨sound.nodup, fun x member => Int.le_trans (sound.clock x member) later, ?_, sound.newest, sound.last,
      sound.known, sound.current, sound.installs, sound.ordered, sound.delivered, sound.elapsed⟩
    exact fun x stamped => (sound.stamped x stamped).imp_left (Int.le_trans · later)

theorem sound_of_reach (reach : machine.Reachable s) : s.Sound := by
  refine reach.invariant (I := Sound) ?_ fun _ _ _ sound run => sound.step run
  rintro _ ⟨substreams, now, stream, nodup, rfl⟩
  exact fresh_sound nodup now stream

/-- Although the work item may run once for several timestamps of the T2, and twice for one, no update is
lost: as soon as it is idle, every open substream has the newest of the times since it was opened. Those a
substream is given are times of the T2's messages, in their order, and the periods they make elapse are
no more than the messages. -/
theorem timestamps_delivered (reach : machine.Reachable s) :
    (s.handler ≠ some .stored → s.work.Quiet → ∀ x, s.received.getLast? = some x → ∀ p ∈ s.substreams, s.runtime p →
      s.opened p < s.received.length → (s.stream p).remoteTimestamp = x) ∧
    ∀ p, (s.installs p).Pairwise (· ≤ ·) ∧ (∀ x ∈ s.installs p, x ∈ s.received) ∧
      s.elapsed p ≤ s.received.length := by
  have sound := sound_of_reach reach
  refine ⟨?_, ?_⟩
  · intro idle quiet x last p substream runs later
    rw [sound.last x last]
    rcases sound.delivered p substream with upToDate | (stored | pending) | ⟨stage, running, -⟩
    · exact upToDate runs later
    · exact absurd stored idle
    · cases quiet.1.symm.trans pending
    · cases quiet.2.symm.trans running
  · intro p
    exact ⟨sound.ordered p, fun x installed => (sound.installs p x installed).1,
      Nat.le_trans (Nat.le_add_right _ _) (sound.elapsed p)⟩

/-- A second timestamp comes between the start of the work item and its read of the time, which then
handles it twice. -/
def overtakenSteps : List StreamTimestampStep :=
  [.pcmOpen true, .triggerStart true, .tick 10, .command, .handler, .handler, .workBegins, .tick 20, .command,
    .handler, .work, .handler, .work, .work, .work, .workBegins, .work, .work, .work, .work, .work]

theorem timestamps_delivered_overtaken :
    ∃ s, machine.Reachable s ∧ s.received = [10, 20] ∧ s.installs true = [20, 20] ∧
    (s.stream true).remoteTimestamp = 20 := by
  have ran : ∃ s,
      machine.run (fresh [true, false] 0 fun _ => ⟨0, false, 0, 0, 0, false, 0⟩) overtakenSteps = some s ∧
      s.received = [10, 20] ∧ s.installs true = [20, 20] ∧ s.handler = none ∧ s.work.Quiet ∧
      s.substreams = [true, false] ∧ s.runtime true ∧ s.opened true = 0 :=
    ⟨_, rfl, rfl, rfl, rfl, ⟨rfl, rfl⟩, rfl, rfl, rfl⟩
  obtain ⟨s, ran, received, installs, idle, quiet, substreams, runs, opened⟩ := ran
  have reach : machine.Reachable s := .of_run (.start ⟨_, _, _, by decide, rfl⟩) overtakenSteps ran
  refine ⟨s, reach, received, installs, (timestamps_delivered reach).1 (by simp [idle]) quiet 20 ?_ true ?_ runs ?_⟩
  · rw [received]
    rfl
  · rw [substreams]
    decide
  · rw [received, opened]
    decide

end StreamTimestamps

end AppleBce

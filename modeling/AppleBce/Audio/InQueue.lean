import AppleBce.Audio.OutSlots

namespace AppleBce

open Basis

/-- Where `aaudio_bce_in_queue_completion` is: not running, about to take the next completion,
handling the message of one, or in `aaudio_bce_in_queue_submit_pending` with that many submissions
to make. The first two numbers are `cnt`. -/
inductive InQueuePhase
  | idle
  | reading (cnt : Nat)
  | handling (cnt : Nat)
  | submitting (count : Nat)
  deriving DecidableEq, Repr

/-- The in queue of `struct aaudio_bce` in use. The last fields record, in order, every submission
and every completion taken, each by its place in the ring and its data slot, and how many messages
were handled. -/
structure InQueueRun where
  sub : SubmissionRun
  dataHead : Nat
  dataTail : Nat
  phase : InQueuePhase
  given : List (Nat × Nat)
  read : List (Nat × Nat)
  handled : Nat

inductive InQueueStep
  | submitPending
  | deviceComplete (status dataSize result : Nat)
  | harvest
  | completion
  | nextCompletion
  | handleMsg

namespace InQueueRun

/-- `aaudio_bce_init` before it submits the whole in queue. -/
def init : InQueueRun where
  sub := .start (aaudioBceQueueElementCount + 1)
  dataHead := 0
  dataTail := 0
  phase := .submitting aaudioBceQueueElementCount
  given := []
  read := []
  handled := 0

def step (s : InQueueRun) : InQueueStep → Option InQueueRun
  -- one turn of the loop, which ends at `count` 0 or when no place can be reserved
  | .submitPending =>
    match s.phase with
    | .submitting 0 => some { s with phase := .idle }
    | .submitting (count + 1) =>
      match s.sub.step .reserve with
      | none => some { s with phase := .idle }
      | some reserved => (reserved.step .nextSubmission).map fun sub =>
        { s with
          sub
          dataTail := (s.dataTail + 1) % aaudioBceQueueElementCount
          phase := .submitting count
          given := s.given ++ [(reserved.sq.nextSubmission.1, s.dataTail)] }
    | _ => none
  | .deviceComplete status dataSize result =>
    (s.sub.step (.deviceComplete status dataSize result)).map fun sub => { s with sub }
  | .harvest => (s.sub.step .harvest).map fun sub => { s with sub }
  | .completion => if s.phase = .idle then some { s with phase := .reading 0 } else none
  | .nextCompletion =>
    match s.phase with
    | .reading cnt =>
      match s.sub.step .nextCompletion with
      | none => some { s with phase := .submitting cnt }
      | some sub => some { s with
        sub
        phase := .handling cnt
        read := s.read ++ [(s.sub.sq.completionCidx, s.dataHead)] }
    | _ => none
  | .handleMsg =>
    match s.phase with
    | .handling cnt => (s.sub.step .notify).map fun sub =>
      { s with
        sub
        dataHead := (s.dataHead + 1) % aaudioBceQueueElementCount
        phase := .reading (cnt + 1)
        handled := s.handled + 1 }
    | _ => none

/-- All uses of the in queue. -/
def machine : Machine InQueueRun InQueueStep where
  init s := s = init
  step := step

/-- The places in the ring and the data slots of the first `count` submissions. -/
def places (count : Nat) : List (Nat × Nat) :=
  (List.range count).map fun k => (k % (aaudioBceQueueElementCount + 1), k % aaudioBceQueueElementCount)

@[simp] theorem length_places (count : Nat) : (places count).length = count := by
  simp [places]

theorem places_succ (count : Nat) : places (count + 1) = places count ++
    [(count % (aaudioBceQueueElementCount + 1), count % aaudioBceQueueElementCount)] := by
  simp [places, List.range_succ]

theorem places_prefix {some all : Nat} (fewer : some ≤ all) : places some <+: places all := by
  have first : List.range some = (List.range all).take some := by
    rw [List.take_range, Nat.min_eq_left fewer]
  rw [places, first, List.map_take]
  exact List.take_prefix ..

theorem slots_drop (all some : Nat) : ((places all).drop some).map Prod.snd =
    slots aaudioBceQueueElementCount some (all - some) := by
  apply List.ext_getElem
  · simp
  · intro k left right
    simp [places]

/-- Completions are taken in the order of the submissions, so both numbers of the next of either
follow from how many there were. -/
structure Ok (s : InQueueRun) : Prop where
  sub : s.sub.Ok (aaudioBceQueueElementCount + 1)
  reservations : s.sub.reservations = 0
  head : s.sub.sq.head = s.handled % (aaudioBceQueueElementCount + 1)
  unnotified : s.sub.unnotified.length + s.handled = s.given.length
  consumed : s.sub.consumed + s.handled = s.read.length
  dataHead : s.dataHead = s.handled % aaudioBceQueueElementCount
  dataTail : s.dataTail = s.given.length % aaudioBceQueueElementCount
  given : s.given = places s.given.length
  read : s.read = places s.read.length
  phase : s.sub.consumed = match s.phase with | .handling _ => 1 | _ => 0

variable {s t : InQueueRun} {a : InQueueStep}

theorem init_ok : init.Ok where
  sub := SubmissionRun.ok_start (by decide)
  reservations := rfl
  head := rfl
  unnotified := rfl
  consumed := rfl
  dataHead := rfl
  dataTail := rfl
  given := rfl
  read := rfl
  phase := rfl

/-- The end of the ring where the next submission goes. -/
theorem Ok.tail (ok : s.Ok) :
    s.sub.sq.tail = s.given.length % (aaudioBceQueueElementCount + 1) := by
  have total := ok.unnotified
  rw [ok.sub.tail, ok.head, Nat.mod_add_mod]
  congr 1
  omega

/-- The place in the ring of the next completion to take. -/
theorem Ok.cidx (ok : s.Ok) :
    s.sub.sq.completionCidx = s.read.length % (aaudioBceQueueElementCount + 1) := by
  have total := ok.consumed
  rw [ok.sub.cidx, ok.head, Nat.mod_add_mod]
  congr 1
  omega

/-- Nothing is taken that was not given. -/
theorem Ok.read_le (ok : s.Ok) : s.read.length ≤ s.given.length := by
  have phases := ok.sub.phases
  have given := ok.unnotified
  have read := ok.consumed
  omega

theorem Ok.goIdle (ok : s.Ok) {count : Nat} (submitting : s.phase = .submitting count) :
    Ok { s with phase := .idle } := by
  have none : s.sub.consumed = 0 := ok.phase.trans (by rw [submitting])
  exact { ok with phase := none }

/-- A step of the device or of the interrupt. -/
theorem Ok.device (ok : s.Ok) {sub : SubmissionRun} {b : SubmissionStep}
    (run : s.sub.step b = some sub) (reservations : sub.reservations = s.sub.reservations)
    (unnotified : sub.unnotified = s.sub.unnotified) (head : sub.sq.head = s.sub.sq.head)
    (consumed : sub.consumed = s.sub.consumed) : Ok { s with sub } where
  sub := ok.sub.step run
  reservations := reservations.trans ok.reservations
  head := head.trans ok.head
  unnotified := by
    rw [unnotified]
    exact ok.unnotified
  consumed := by
    rw [consumed]
    exact ok.consumed
  dataHead := ok.dataHead
  dataTail := ok.dataTail
  given := ok.given
  read := ok.read
  phase := consumed.trans ok.phase

theorem Ok.submitPending (ok : s.Ok) {reserved sub : SubmissionRun} {count : Nat}
    (submitting : s.phase = .submitting (count + 1)) (first : s.sub.step .reserve = some reserved)
    (second : reserved.step .nextSubmission = some sub) :
    Ok { s with
      sub
      dataTail := (s.dataTail + 1) % aaudioBceQueueElementCount
      phase := .submitting count
      given := s.given ++ [(reserved.sq.nextSubmission.1, s.dataTail)] } := by
  obtain ⟨more, kept⟩ := SubmissionRun.step_counts first
  obtain ⟨-, fewer, longer⟩ := SubmissionRun.step_counts second
  obtain ⟨head, consumed⟩ := SubmissionRun.step_taken first
  obtain ⟨headAfter, consumedAfter⟩ := SubmissionRun.step_taken second
  have before := ok.reservations
  have total := ok.unnotified
  have tail : reserved.sq.tail = s.sub.sq.tail := by
    obtain ⟨sq, taken, rfl⟩ := Option.map_eq_some_iff.mp first
    obtain ⟨-, rfl⟩ := BceQueueSq.decIfPositive_some taken
    rfl
  constructor
  case sub => exact (ok.sub.step first).step second
  case reservations =>
    simp only
    omega
  case head => exact headAfter.trans (head.trans ok.head)
  case unnotified =>
    simp only [longer, kept, List.length_append, List.length_singleton]
    omega
  case consumed =>
    simp only [consumedAfter, consumed]
    exact ok.consumed
  case dataHead => exact ok.dataHead
  case dataTail =>
    simp only [List.length_append, List.length_singleton, ok.dataTail]
    rw [Nat.mod_add_mod]
  case given =>
    simp only [List.length_append, List.length_singleton]
    rw [places_succ, ← ok.given, BceQueueSq.nextSubmission, tail, ok.tail, ok.dataTail]
  case read => exact ok.read
  case phase =>
    have none : s.sub.consumed = 0 := ok.phase.trans (by rw [submitting])
    exact consumedAfter.trans (consumed.trans none)

theorem Ok.nextCompletion (ok : s.Ok) {sub : SubmissionRun} {cnt : Nat}
    (reading : s.phase = .reading cnt) (run : s.sub.step .nextCompletion = some sub) :
    Ok { s with
      sub
      phase := .handling cnt
      read := s.read ++ [(s.sub.sq.completionCidx, s.dataHead)] } := by
  obtain ⟨reservations, unnotified⟩ := SubmissionRun.step_counts run
  obtain ⟨head, consumed⟩ := SubmissionRun.step_taken run
  have none : s.sub.consumed = 0 := ok.phase.trans (by rw [reading])
  have total := ok.consumed
  have allHandled : s.handled = s.read.length := by omega
  constructor
  case sub => exact ok.sub.step run
  case reservations => exact reservations.trans ok.reservations
  case head => exact head.trans ok.head
  case unnotified =>
    simp only [unnotified]
    exact ok.unnotified
  case consumed =>
    simp only [consumed, List.length_append, List.length_singleton]
    omega
  case dataHead => exact ok.dataHead
  case dataTail => exact ok.dataTail
  case given => exact ok.given
  case read =>
    simp only [List.length_append, List.length_singleton]
    rw [places_succ, ← ok.read, ok.cidx, ok.dataHead, allHandled]
  case phase =>
    simp only
    omega

theorem Ok.handleMsg (ok : s.Ok) {sub : SubmissionRun} {cnt : Nat}
    (handling : s.phase = .handling cnt) (run : s.sub.step .notify = some sub) :
    Ok { s with
      sub
      dataHead := (s.dataHead + 1) % aaudioBceQueueElementCount
      phase := .reading (cnt + 1)
      handled := s.handled + 1 } := by
  obtain ⟨taken, reservations, unnotified⟩ := SubmissionRun.step_counts run
  obtain ⟨head, consumed⟩ := SubmissionRun.step_taken run
  have one : s.sub.consumed = 1 := ok.phase.trans (by rw [handling])
  have phases := ok.sub.phases
  have given := ok.unnotified
  have read := ok.consumed
  constructor
  case sub => exact ok.sub.step run
  case reservations => exact reservations.trans ok.reservations
  case head =>
    simp only [head, ok.head, ok.sub.elCount]
    rw [Nat.mod_add_mod]
  case unnotified =>
    simp only [unnotified, List.length_tail]
    omega
  case consumed =>
    simp only [consumed]
    omega
  case dataHead =>
    simp only [ok.dataHead]
    rw [Nat.mod_add_mod]
  case dataTail => exact ok.dataTail
  case given => exact ok.given
  case read => exact ok.read
  case phase =>
    simp only [consumed]
    omega

theorem Ok.step (ok : s.Ok) (run : s.step a = some t) : t.Ok := by
  cases a with
  | submitPending =>
    simp only [InQueueRun.step] at run
    split at run
    · rename_i submitting
      cases Option.some.inj run
      exact ok.goIdle submitting
    · rename_i count submitting
      split at run
      · cases Option.some.inj run
        exact ok.goIdle submitting
      · rename_i reserved first
        obtain ⟨sub, second, rfl⟩ := Option.map_eq_some_iff.mp run
        exact ok.submitPending submitting first second
    · cases run
  | deviceComplete _ _ _ | harvest =>
    obtain ⟨sub, moved, rfl⟩ := Option.map_eq_some_iff.mp run
    obtain ⟨reservations, unnotified⟩ := SubmissionRun.step_counts moved
    obtain ⟨head, consumed⟩ := SubmissionRun.step_taken moved
    exact ok.device moved reservations unnotified head consumed
  | completion =>
    obtain ⟨idle, run⟩ := Option.ite_none_right_eq_some.mp run
    cases Option.some.inj run
    have none : s.sub.consumed = 0 := ok.phase.trans (by rw [idle])
    exact { ok with phase := none }
  | nextCompletion =>
    simp only [InQueueRun.step] at run
    split at run
    · rename_i cnt reading
      split at run
      · cases Option.some.inj run
        have none : s.sub.consumed = 0 := ok.phase.trans (by rw [reading])
        exact { ok with phase := none }
      · rename_i sub taken
        cases Option.some.inj run
        exact ok.nextCompletion reading taken
    · cases run
  | handleMsg =>
    simp only [InQueueRun.step] at run
    split at run
    · rename_i cnt handling
      obtain ⟨sub, notified, rfl⟩ := Option.map_eq_some_iff.mp run
      exact ok.handleMsg handling notified
    · cases run

theorem ok (reach : machine.Reachable s) : s.Ok := by
  refine reach.invariant ?_ fun _ _ _ ok run => ok.step run
  rintro _ rfl
  exact init_ok

/-- The data slots of the submissions whose message was not handled yet. -/
theorem Ok.unhandled (ok : s.Ok) : (s.given.drop s.handled).map Prod.snd =
    slots aaudioBceQueueElementCount s.handled s.sub.unnotified.length := by
  have total := ok.unnotified
  have left : s.given.length - s.handled = s.sub.unnotified.length := by omega
  rw [ok.given, slots_drop, left]

/-- A submission is made only while a place is free in the ring, and then its data slot is behind
all those whose message was not handled. -/
theorem Ok.resubmit (ok : s.Ok) (run : s.step a = some t) : t.given = s.given ∨
    ∃ place slot, t.given = s.given ++ [(place, slot)] ∧
      slot ∉ (s.given.drop s.handled).map Prod.snd := by
  cases a with
  | submitPending =>
    simp only [InQueueRun.step] at run
    split at run
    · cases Option.some.inj run
      exact .inl rfl
    · split at run
      · cases Option.some.inj run
        exact .inl rfl
      · rename_i reserved first
        obtain ⟨sub, -, rfl⟩ := Option.map_eq_some_iff.mp run
        refine .inr ⟨_, _, rfl, ?_⟩
        -- the reservation that was just made is one of the 20 places
        obtain ⟨more, kept⟩ := SubmissionRun.step_counts first
        have after := ok.sub.step first
        have count := after.count
        have available := after.available
        have room : s.sub.unnotified.length < aaudioBceQueueElementCount := by
          simp only [aaudioBceQueueElementCount, kept] at *
          omega
        have total := ok.unnotified
        have behind : s.dataTail = (s.handled + s.sub.unnotified.length) %
            aaudioBceQueueElementCount := by
          rw [ok.dataTail, ← total, Nat.add_comm]
        rw [ok.unhandled, behind]
        exact next_slot_free room
    · cases run
  | deviceComplete _ _ _ | harvest =>
    obtain ⟨sub, -, rfl⟩ := Option.map_eq_some_iff.mp run
    exact .inl rfl
  | completion =>
    obtain ⟨-, run⟩ := Option.ite_none_right_eq_some.mp run
    cases Option.some.inj run
    exact .inl rfl
  | nextCompletion =>
    simp only [InQueueRun.step] at run
    split at run
    · split at run
      · cases Option.some.inj run
        exact .inl rfl
      · cases Option.some.inj run
        exact .inl rfl
    · cases run
  | handleMsg =>
    simp only [InQueueRun.step] at run
    split at run
    · obtain ⟨sub, -, rfl⟩ := Option.map_eq_some_iff.mp run
      exact .inl rfl
    · cases run

end InQueueRun

/-- A message is written into a data slot that no submission in flight refers to, each message is
read from the data slot that its submission was given, and a data slot is given to the device again
only when its message was handled. -/
theorem audio_buffers_kept {s : AudioRun} {q r : InQueueRun} {a : InQueueStep}
    (sends : AudioRun.machine.Reachable s) (receives : InQueueRun.machine.Reachable q)
    (run : q.step a = some r) :
    (∀ id, s.lock = .writer id →
      (s.calls id).slot = s.dataTail ∧ s.dataTail ∉ s.inFlight.map Prod.snd) ∧
    q.read <+: q.given ∧
    (r.given = q.given ∨ ∃ place slot, r.given = q.given ++ [(place, slot)] ∧
      slot ∉ (q.given.drop q.handled).map Prod.snd) := by
  have ok := InQueueRun.ok receives
  refine ⟨fun id held => (AudioRun.outOk sends).slot_free held, ?_, ok.resubmit run⟩
  rw [ok.read, ok.given]
  exact InQueueRun.places_prefix ok.read_le

/-- A second message while the first is in flight, and the first received one handled. -/
theorem audio_buffers_kept_second : ∃ s q r,
    AudioRun.machine.run .init [.reserve 0 .notification, .prepare 0, .send 0,
      .reserve 1 .notification, .prepare 1] = some s ∧
    InQueueRun.machine.run .init (List.replicate 21 .submitPending ++
      [.deviceComplete 0 16 0, .harvest, .completion, .nextCompletion, .handleMsg,
        .nextCompletion]) = some q ∧
    InQueueRun.machine.step q .submitPending = some r ∧
    s.lock = .writer 1 ∧ s.dataTail ∉ s.inFlight.map Prod.snd ∧
    q.read <+: q.given ∧ r.given ≠ q.given := by
  obtain ⟨s, ranS, held⟩ : ∃ s, AudioRun.machine.run .init [.reserve 0 .notification, .prepare 0,
      .send 0, .reserve 1 .notification, .prepare 1] = some s ∧ s.lock = .writer 1 :=
    ⟨_, rfl, rfl⟩
  obtain ⟨q, r, ranQ, step, more⟩ : ∃ q r, InQueueRun.machine.run .init
      (List.replicate 21 .submitPending ++ [.deviceComplete 0 16 0, .harvest, .completion,
        .nextCompletion, .handleMsg, .nextCompletion]) = some q ∧
      InQueueRun.machine.step q .submitPending = some r ∧ r.given ≠ q.given :=
    ⟨_, _, rfl, rfl, by decide⟩
  have sends := Machine.Reachable.of_run (.start rfl) _ ranS
  have receives := Machine.Reachable.of_run (.start rfl) _ ranQ
  obtain ⟨written, kept, -⟩ := audio_buffers_kept (a := .submitPending) sends receives step
  exact ⟨s, q, r, ranS, ranQ, step, held, (written 1 held).2, kept, more⟩

end AppleBce

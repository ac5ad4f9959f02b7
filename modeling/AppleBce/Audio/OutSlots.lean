import AppleBce.Audio.AudioRun

namespace AppleBce

open Basis

namespace AudioRun

variable {s t : AudioRun} {a : AudioStep} {id other : Nat} {call : AudioCall}

/-- The call has a place in the out queue that it has not used yet. -/
def HasPlace (call : AudioCall) : Prop :=
  call.phase = .reserved ∨ call.phase = .prepared

/-- The submissions in flight have consecutive data slots, the next of which is that of the call
that holds the spinlock, and each place reserved belongs to a call. -/
structure OutOk (s : AudioRun) : Prop where
  out : s.out.Ok (aaudioBceQueueElementCount + 1)
  length : s.inFlight.length = s.out.unnotified.length
  slots : ∃ base, s.inFlight.map Prod.snd =
      Basis.slots aaudioBceQueueElementCount base s.inFlight.length ∧
    s.dataTail = (base + s.inFlight.length) % aaudioBceQueueElementCount
  count : s.reserved.length = s.out.reservations
  distinct : s.reserved.Nodup
  places : ∀ id, id ∈ s.reserved ↔ HasPlace (s.calls id)
  writer : ∀ id, (s.calls id).phase = .prepared ↔ s.lock = .writer id
  slot : ∀ id, s.lock = .writer id → (s.calls id).slot = s.dataTail

theorem init_outOk : init.OutOk where
  out := SubmissionRun.ok_start (by decide)
  length := rfl
  slots := ⟨0, rfl, rfl⟩
  count := rfl
  distinct := List.nodup_nil
  places := by simp [init, HasPlace, AudioCall.start]
  writer := by simp [init, AudioCall.start]
  slot := by simp [init]

/-- A step that leaves the places and the data slots alone. -/
theorem OutOk.frame (ok : s.OutOk) (out : t.out.Ok (aaudioBceQueueElementCount + 1))
    (unnotified : t.out.unnotified = s.out.unnotified)
    (reservations : t.out.reservations = s.out.reservations) (inFlight : t.inFlight = s.inFlight)
    (dataTail : t.dataTail = s.dataTail) (reserved : t.reserved = s.reserved)
    (lock : ∀ id, t.lock = .writer id ↔ s.lock = .writer id)
    (calls : ∀ id, (HasPlace (t.calls id) ↔ HasPlace (s.calls id)) ∧
      ((t.calls id).phase = .prepared ↔ (s.calls id).phase = .prepared) ∧
      (t.calls id).slot = (s.calls id).slot) : t.OutOk where
  out := out
  length := by rw [inFlight, unnotified, ok.length]
  slots := by
    rw [inFlight, dataTail]
    exact ok.slots
  count := by rw [reserved, reservations, ok.count]
  distinct := by
    rw [reserved]
    exact ok.distinct
  places := by
    intro id
    rw [reserved, (calls id).1]
    exact ok.places id
  writer := by
    intro id
    rw [(calls id).2.1, lock]
    exact ok.writer id
  slot := by
    intro id held
    rw [(calls id).2.2, dataTail]
    exact ok.slot id ((lock id).mp held)

/-- A step of the device, or of the completion handler before it gives a place back. -/
theorem OutOk.queue (ok : s.OutOk) {out : SubmissionRun} {b : SubmissionStep}
    (run : s.out.step b = some out) (unnotified : out.unnotified = s.out.unnotified)
    (reservations : out.reservations = s.out.reservations) : OutOk { s with out } :=
  ok.frame (ok.out.step run) unnotified reservations rfl rfl rfl (fun _ => .rfl)
    fun _ => ⟨.rfl, .rfl, rfl⟩

/-- A call that neither has nor gets a place goes on. -/
theorem OutOk.onward (ok : s.OutOk) (before : ¬HasPlace (s.calls id)) {phase : AudioPhase}
    (after : phase ≠ .reserved ∧ phase ≠ .prepared) (pending : Nat → Option Nat) :
    OutOk ({ s with pending }.setCall id { s.calls id with phase }) := by
  refine ok.frame ok.out rfl rfl rfl rfl rfl (fun _ => .rfl) ?_
  intro other
  by_cases same : other = id
  · rw [same, setCall_self]
    have unprepared : (s.calls id).phase ≠ .prepared := fun phase => before (.inr phase)
    have without : ¬HasPlace { s.calls id with phase } := by
      simp only [HasPlace, after, or_self, not_false_eq_true]
    exact ⟨iff_of_false without before, iff_of_false after.2 unprepared, rfl⟩
  · rw [setCall_other _ same]
    exact ⟨.rfl, .rfl, rfl⟩

theorem OutOk.reserve (ok : s.OutOk) {out : SubmissionRun} (run : s.out.step .reserve = some out)
    (starting : (s.calls id).phase = .starting) (phase : call.phase = .reserved) :
    OutOk ({ s with out, reserved := s.reserved ++ [id] }.setCall id call) := by
  obtain ⟨more, unnotified⟩ := SubmissionRun.step_counts run
  have without : id ∉ s.reserved := by
    intro member
    rcases (ok.places id).mp member with reserved | prepared
    · simp [starting] at reserved
    · simp [starting] at prepared
  constructor
  case out => exact ok.out.step run
  case length => exact ok.length.trans (congrArg List.length unnotified).symm
  case slots => exact ok.slots
  case count =>
    have count := ok.count
    simp only [setCall, List.length_append, List.length_singleton]
    omega
  case distinct => exact List.nodup_append.mpr ⟨ok.distinct, by simp, by grind⟩
  case places =>
    intro other
    by_cases same : other = id
    · rw [same, setCall_self]
      exact iff_of_true (List.mem_append_right _ (List.mem_singleton_self id)) (.inl phase)
    · rw [setCall_other call same]
      have old := ok.places other
      simp only [setCall, List.mem_append, List.mem_singleton, same, or_false]
      exact old
  case writer =>
    intro other
    by_cases same : other = id
    · rw [same, setCall_self]
      have unlocked : s.lock ≠ .writer id := by
        rw [Ne, ← ok.writer id]
        simp [starting]
      exact iff_of_false (by simp [phase]) unlocked
    · rw [setCall_other call same]
      exact ok.writer other
  case slot =>
    intro other held
    have held : s.lock = .writer other := held
    by_cases same : other = id
    · have prepared := (ok.writer other).mpr held
      rw [same, starting] at prepared
      cases prepared
    · rw [setCall_other call same]
      exact ok.slot other held

/-- A call with a place takes the free spinlock and a data slot. -/
theorem OutOk.lockFor (ok : s.OutOk) (free : s.lock = .free) (reserved : (s.calls id).phase = .reserved)
    (phase : call.phase = .prepared) (slot : call.slot = s.dataTail) (headers : Nat → List Byte)
    (tagNum allocs : Nat) (commands : List Nat) :
    OutOk ({ s with headers, tagNum, lock := .writer id, allocs, commands }.setCall id call) := by
  have unprepared : ∀ other, (s.calls other).phase ≠ .prepared := by
    intro other prepared
    have held := (ok.writer other).mp prepared
    rw [free] at held
    cases held
  constructor
  case out => exact ok.out
  case length => exact ok.length
  case slots => exact ok.slots
  case count => exact ok.count
  case distinct => exact ok.distinct
  case places =>
    intro other
    have old := ok.places other
    by_cases same : other = id
    · rw [same] at old ⊢
      rw [setCall_self]
      exact iff_of_true (old.mpr (.inl reserved)) (.inr phase)
    · rw [setCall_other call same]
      exact old
  case writer =>
    intro other
    by_cases same : other = id
    · rw [same, setCall_self]
      exact iff_of_true phase rfl
    · rw [setCall_other call same]
      refine iff_of_false (unprepared other) ?_
      intro held
      exact same (AudioLock.writer.inj held).symm
  case slot =>
    intro other held
    rw [← AudioLock.writer.inj held, setCall_self]
    exact slot

theorem OutOk.prepare (ok : s.OutOk) (reserved : (s.calls id).phase = .reserved)
    (free : s.lock = .free) : (s.sendPrepare id).OutOk := by
  simp only [sendPrepare]
  split
  · exact ok.lockFor free reserved rfl rfl _ s.tagNum s.allocs s.commands
  · exact ok.lockFor free reserved rfl rfl _ _ _ _

/-- The call with the spinlock uses its place and its data slot. -/
theorem OutOk.submit (ok : s.OutOk) {out : SubmissionRun} (held : s.lock = .writer id)
    (run : s.out.step .nextSubmission = some out) : (s.submit id out).OutOk := by
  obtain ⟨some, fewer, unnotified⟩ := SubmissionRun.step_counts run
  have prepared := (ok.writer id).mpr held
  have member : id ∈ s.reserved := (ok.places id).mpr (.inr prepared)
  have sent : ∀ p, (if (s.calls id).command then AudioPhase.waiting else .returned none) = p →
      p ≠ .reserved ∧ p ≠ .prepared := by
    intro p phase
    split at phase <;> simp [← phase]
  constructor
  case out => exact ok.out.step run
  case length =>
    have length := ok.length
    simp only [AudioRun.submit, setCall, unnotified, List.length_append, List.length_singleton]
    omega
  case slots =>
    obtain ⟨base, window, tail⟩ := ok.slots
    refine ⟨base, ?_, ?_⟩
    · simp only [AudioRun.submit, setCall, List.map_append, List.length_append,
        List.length_singleton, List.map_singleton, window]
      rw [Basis.slots, Basis.slots, window_succ_last, ok.slot id held, tail]
      rfl
    · simp only [AudioRun.submit, setCall, List.length_append, List.length_singleton, tail]
      exact ring_succ
  case count =>
    have count := ok.count
    simp only [AudioRun.submit, setCall, List.length_erase_of_mem member]
    omega
  case distinct => exact ok.distinct.erase id
  case places =>
    intro other
    have old := ok.places other
    simp only [AudioRun.submit]
    by_cases same : other = id
    · rw [same, setCall_self]
      refine iff_of_false ok.distinct.not_mem_erase ?_
      rintro (reserved | prepared)
      · exact (sent _ reserved).1 rfl
      · exact (sent _ prepared).2 rfl
    · rw [setCall_other _ same, ← old]
      exact List.mem_erase_of_ne same
  case writer =>
    intro other
    refine iff_of_false ?_ (by simp [AudioRun.submit, setCall])
    simp only [AudioRun.submit]
    by_cases same : other = id
    · rw [same, setCall_self]
      exact fun prepared => (sent _ prepared).2 rfl
    · rw [setCall_other _ same]
      intro also
      have holder := (ok.writer other).mp also
      rw [held] at holder
      exact same (AudioLock.writer.inj holder).symm
  case slot =>
    intro other free
    simp [AudioRun.submit, setCall] at free

/-- The oldest submission in flight gives its place back. -/
theorem OutOk.notify (ok : s.OutOk) {out : SubmissionRun} (run : s.out.step .notify = some out) :
    OutOk { s with out, inFlight := s.inFlight.tail } := by
  obtain ⟨taken, reservations, unnotified⟩ := SubmissionRun.step_counts run
  have phases := ok.out.phases
  have length := ok.length
  obtain ⟨base, window, tail⟩ := ok.slots
  obtain ⟨len, more⟩ : ∃ len, s.inFlight.length = len + 1 := ⟨s.inFlight.length - 1, by omega⟩
  have shorter : s.inFlight.tail.length = len := by simp [more]
  constructor
  case out => exact ok.out.step run
  case length => simp only [unnotified, List.length_tail, length]
  case slots =>
    refine ⟨base + 1, ?_, ?_⟩
    · rw [more, Basis.slots, window_succ] at window
      simp only [shorter, List.map_tail, window, List.tail_cons]
    · simp only [shorter, tail, more]
      congr 1
      omega
  case count => exact ok.count.trans reservations.symm
  case distinct => exact ok.distinct
  case places => exact ok.places
  case writer => exact ok.writer
  case slot => exact ok.slot

/-- The reply handler neither takes nor uses a place. -/
theorem OutOk.deliver (ok : s.OutOk) (free : s.lock = .free) (tagn entry : Nat)
    (msg : AaudioMsg Byte) : (s.deliver tagn entry msg).OutOk := by
  refine ok.frame ok.out rfl rfl rfl rfl rfl ?_ ?_
  · intro other
    simp [AudioRun.deliver, setCall, free]
  · intro other
    simp only [AudioRun.deliver]
    by_cases same : other = entry
    · rw [same, setCall_self]
      exact ⟨.rfl, .rfl, rfl⟩
    · rw [setCall_other _ same]
      exact ⟨.rfl, .rfl, rfl⟩

/-- The record that a command is answered has nothing to do with the queue. -/
theorem OutOk.arrive (ok : s.OutOk) (id : Nat) :
    OutOk (s.setCall id { s.calls id with arrived := true }) := by
  refine ok.frame ok.out rfl rfl rfl rfl rfl (fun _ => .rfl) ?_
  intro other
  by_cases same : other = id
  · rw [same, setCall_self]
    exact ⟨.rfl, .rfl, rfl⟩
  · rw [setCall_other _ same]
    exact ⟨.rfl, .rfl, rfl⟩

theorem OutOk.clear (ok : s.OutOk) {tagn : Nat} (delivering : s.lock = .delivering tagn)
    (pending : Nat → Option Nat) : OutOk { s with pending, lock := .free } := by
  refine ok.frame ok.out rfl rfl rfl rfl rfl ?_ fun _ => ⟨.rfl, .rfl, rfl⟩
  intro other
  simp [delivering]

theorem OutOk.handleMsg (ok : s.OutOk) (free : s.lock = .free) (msg : AaudioMsg Byte) :
    (s.handleMsg msg).OutOk := by
  rcases s.handleMsg_cases msg with same | ⟨tagn, entry, -, -, delivered⟩
  · rw [same]
    exact ok
  · rw [delivered]
    exact ok.deliver free tagn entry msg

theorem OutOk.step (ok : s.OutOk) (run : s.step a = some t) : t.OutOk := by
  cases a with
  | reserve id kind =>
    obtain ⟨starting, run⟩ := Option.ite_none_right_eq_some.mp run
    obtain ⟨out, reserved, rfl⟩ := Option.map_eq_some_iff.mp run
    exact ok.reserve reserved starting rfl
  | giveUp id =>
    obtain ⟨starting, run⟩ := Option.ite_none_right_eq_some.mp run
    cases Option.some.inj run
    have before : ¬HasPlace (s.calls id) := by simp [HasPlace, starting]
    exact ok.onward before (by simp) s.pending
  | prepare id =>
    obtain ⟨⟨reserved, free⟩, run⟩ := Option.ite_none_right_eq_some.mp run
    cases Option.some.inj run
    exact ok.prepare reserved free
  | send id =>
    obtain ⟨held, run⟩ := Option.ite_none_right_eq_some.mp run
    obtain ⟨out, sent, rfl⟩ := Option.map_eq_some_iff.mp run
    exact ok.submit held sent
  | deviceComplete _ _ _ | harvest | nextCompletion =>
    obtain ⟨out, moved, rfl⟩ := Option.map_eq_some_iff.mp run
    obtain ⟨reservations, unnotified⟩ := SubmissionRun.step_counts moved
    exact ok.queue moved unnotified reservations
  | notify =>
    obtain ⟨out, notified, rfl⟩ := Option.map_eq_some_iff.mp run
    exact ok.notify notified
  | wake id | expire id =>
    obtain ⟨⟨waiting, -⟩, run⟩ := Option.ite_none_right_eq_some.mp run
    cases Option.some.inj run
    have before : ¬HasPlace (s.calls id) := by simp [HasPlace, waiting]
    exact ok.onward before (by simp) s.pending
  | cleanUp id =>
    obtain ⟨⟨expired, -⟩, run⟩ := Option.ite_none_right_eq_some.mp run
    cases Option.some.inj run
    have before : ¬HasPlace (s.calls id) := by simp [HasPlace, expired]
    exact ok.onward before (by simp) _
  | reply id msg =>
    obtain ⟨⟨free, -⟩, run⟩ := Option.ite_none_right_eq_some.mp run
    cases Option.some.inj run
    exact (ok.handleMsg free msg).arrive id
  | stray msg =>
    obtain ⟨free, run⟩ := Option.ite_none_right_eq_some.mp run
    cases Option.some.inj run
    exact ok.handleMsg free msg
  | clear =>
    simp only [AudioRun.step] at run
    split at run
    · rename_i tagn delivering
      cases Option.some.inj run
      exact ok.clear delivering _
    · cases run

theorem outOk (reach : machine.Reachable s) : s.OutOk := by
  refine reach.invariant ?_ fun _ _ _ ok run => ok.step run
  rintro _ rfl
  exact init_outOk

/-- A place is left for the call that holds the spinlock, so that its data slot is behind all those
in flight. -/
theorem OutOk.slot_free (ok : s.OutOk) (held : s.lock = .writer id) :
    (s.calls id).slot = s.dataTail ∧ s.dataTail ∉ s.inFlight.map Prod.snd := by
  have member : id ∈ s.reserved := (ok.places id).mpr (.inr ((ok.writer id).mpr held))
  have some : 0 < s.reserved.length := List.length_pos_of_mem member
  have count := ok.out.count
  have available := ok.out.available
  have reserved := ok.count
  have length := ok.length
  obtain ⟨base, window, tail⟩ := ok.slots
  have room : s.inFlight.length < aaudioBceQueueElementCount := by
    simp only [aaudioBceQueueElementCount] at *
    omega
  refine ⟨ok.slot id held, ?_⟩
  rw [window, tail]
  exact next_slot_free room

end AudioRun

end AppleBce

import AppleBce.Basis.BoundedFifo
import AppleBce.Basis.Ring
import AppleBce.Queue.Sq

namespace AppleBce

open Basis

/-- One submission queue in use. Next to the queue itself stand what its callers and
the device know: reservations not yet used, and how many submissions are with the
device, in entries the interrupt has not harvested, harvested but not taken, and
taken by the handler but not yet notified. `unnotified` lists the slots of the
submissions in all of these phases, oldest first. -/
structure SubmissionRun where
  sq : BceQueueSq
  reservations : Nat
  unnotified : List Nat
  atDevice : Nat
  deviceIndex : Nat
  cq : List BceQeCompletion
  harvested : Nat
  consumed : Nat

inductive SubmissionStep
  | reserve
  | cancelReservation
  | nextSubmission
  | deviceComplete (status dataSize result : Nat)
  | harvest
  | nextCompletion
  | notify

namespace SubmissionRun

def start (n : Nat) : SubmissionRun where
  sq := bceAllocSq 0 n
  reservations := 0
  unnotified := []
  atDevice := 0
  deviceIndex := 0
  cq := []
  harvested := 0
  consumed := 0

/-- Each label is one call of the source function, made when its caller is entitled to it. -/
def step (s : SubmissionRun) : SubmissionStep → Option SubmissionRun
  | .reserve => s.sq.decIfPositive.map fun sq => { s with sq, reservations := s.reservations + 1 }
  | .cancelReservation =>
    if 0 < s.reservations then
      some { s with sq := s.sq.cancelSubmissionReservation, reservations := s.reservations - 1 }
    else none
  | .nextSubmission =>
    if 0 < s.reservations then
      some { s with
        sq := s.sq.nextSubmission.2
        reservations := s.reservations - 1
        unnotified := s.unnotified ++ [s.sq.nextSubmission.1]
        atDevice := s.atDevice + 1 }
    else none
  | .deviceComplete status dataSize result =>
    if 0 < s.atDevice then
      some { s with
        atDevice := s.atDevice - 1
        deviceIndex := (s.deviceIndex + 1) % s.sq.elCount
        cq := s.cq ++ [⟨result, dataSize, s.sq.qid, s.deviceIndex, status, bceCompletionFlagPending⟩] }
    else none
  | .harvest =>
    match s.cq with
    | [] => none
    | e :: rest =>
      match s.sq.acceptCompletion e with
      | some sq => some { s with sq, cq := rest, harvested := s.harvested + 1 }
      | none => some { s with cq := rest }
  | .nextCompletion => s.sq.nextCompletion.map fun taken =>
    { s with sq := taken.2, harvested := s.harvested - 1, consumed := s.consumed + 1 }
  | .notify =>
    if 0 < s.consumed then
      some { s with
        sq := s.sq.notifySubmissionComplete
        unnotified := s.unnotified.tail
        consumed := s.consumed - 1 }
    else none

/-- All indices are fixed by the head and the number of submissions in each phase. -/
structure Ok (n : Nat) (s : SubmissionRun) : Prop where
  elCount : s.sq.elCount = n
  headBound : s.sq.head < n
  count : s.sq.availableCommands + s.reservations + s.unnotified.length = (n : Int) - 1
  available : 0 ≤ s.sq.availableCommands
  slots : s.unnotified = Basis.slots n s.sq.head s.unnotified.length
  tail : s.sq.tail = (s.sq.head + s.unnotified.length) % n
  phases : s.consumed + s.harvested + s.cq.length + s.atDevice = s.unnotified.length
  cidx : s.sq.completionCidx = (s.sq.head + s.consumed) % n
  completionTail : s.sq.completionTail = (s.sq.head + (s.consumed + s.harvested)) % n
  entries : s.cq.map BceQeCompletion.completionIndex =
    Basis.slots n (s.sq.head + (s.consumed + s.harvested)) s.cq.length
  deviceIndex : s.deviceIndex = (s.sq.head + (s.consumed + s.harvested + s.cq.length)) % n

theorem Ok.length_lt {n : Nat} {s : SubmissionRun} (ok : s.Ok n) : s.unnotified.length < n := by
  have := ok.count
  have := ok.available
  omega

/-- The slot that is handed out next is that of no submission. -/
theorem Ok.tail_free {n : Nat} {s : SubmissionRun} (ok : s.Ok n) : s.sq.tail ∉ s.unnotified := by
  rw [ok.slots, ok.tail]
  exact next_slot_free ok.length_lt

theorem ok_start {n : Nat} (large : 2 ≤ n) : (start n).Ok n := by
  constructor <;> simp [start, bceAllocSq]
  all_goals omega

/-- A step that only moves reservations keeps every index. -/
theorem Ok.reservations {n : Nat} {s : SubmissionRun} (ok : s.Ok n) {a : Int} {r : Nat}
    (total : a + r = s.sq.availableCommands + s.reservations) (nonneg : 0 ≤ a) :
    Ok n { s with sq := { s.sq with availableCommands := a }, reservations := r } := by
  have count := ok.count
  exact { ok with count := by simp only; omega, available := nonneg }

theorem Ok.nextSubmission {n : Nat} {s : SubmissionRun} (ok : s.Ok n) (held : 0 < s.reservations) :
    Ok n { s with
      sq := s.sq.nextSubmission.2
      reservations := s.reservations - 1
      unnotified := s.unnotified ++ [s.sq.nextSubmission.1]
      atDevice := s.atDevice + 1 } := by
  have count := ok.count
  have phases := ok.phases
  refine { ok with count := ?_, slots := ?_, tail := ?_, phases := ?_ }
  all_goals simp only [BceQueueSq.nextSubmission, List.length_append, List.length_singleton]
  · omega
  · rw [Basis.slots, window_succ_last, ← Basis.slots, ← ok.slots, ok.tail]
    rfl
  · rw [ok.tail, ok.elCount, ring_succ]
  · omega

theorem Ok.deviceComplete {n : Nat} {s : SubmissionRun} (ok : s.Ok n) (working : 0 < s.atDevice)
    (status dataSize result : Nat) :
    Ok n { s with
      atDevice := s.atDevice - 1
      deviceIndex := (s.deviceIndex + 1) % s.sq.elCount
      cq := s.cq ++ [⟨result, dataSize, s.sq.qid, s.deviceIndex, status, bceCompletionFlagPending⟩] } := by
  have phases := ok.phases
  refine { ok with phases := ?_, entries := ?_, deviceIndex := ?_ }
  all_goals simp only [List.length_append, List.length_singleton]
  · omega
  · rw [List.map_append, ok.entries, Basis.slots, Basis.slots, window_succ_last, ok.deviceIndex]
    simp only [List.map_cons, List.map_nil, id_eq, Nat.add_assoc]
  · rw [ok.deviceIndex, ok.elCount, ring_succ]
    simp only [Nat.add_assoc]

/-- The oldest unharvested entry carries the index the completion ring expects, so it is
never dropped. -/
theorem Ok.accepts {n : Nat} {s : SubmissionRun} (ok : s.Ok n) {e : BceQeCompletion}
    {rest : List BceQeCompletion} (oldest : s.cq = e :: rest) :
    s.sq.completionTail = e.completionIndex := by
  have entries := ok.entries
  rw [oldest, List.length_cons, Basis.slots, window_succ, List.map_cons] at entries
  rw [(List.cons.inj entries).1, ok.completionTail]
  rfl

theorem Ok.harvest {n : Nat} {s : SubmissionRun} (ok : s.Ok n) {e : BceQeCompletion}
    {rest : List BceQeCompletion} {sq : BceQueueSq} (oldest : s.cq = e :: rest)
    (accepted : s.sq.acceptCompletion e = some sq) :
    Ok n { s with sq, cq := rest, harvested := s.harvested + 1 } := by
  have phases := ok.phases
  have entries := ok.entries
  have index := ok.deviceIndex
  rw [oldest, List.length_cons] at phases index
  rw [oldest, List.length_cons, Basis.slots, window_succ, List.map_cons] at entries
  rw [BceQueueSq.acceptCompletion_of_index (ok.accepts oldest)] at accepted
  cases Option.some.inj accepted
  refine { ok with phases := ?_, completionTail := ?_, entries := ?_, deviceIndex := ?_ }
  · simp only
    omega
  · simp only [ok.completionTail, ok.elCount]
    rw [ring_succ]
    simp only [Nat.add_assoc]
  · rw [(List.cons.inj entries).2]
    simp only [Nat.add_assoc]
  · rw [index]
    congr 1
    simp only
    omega

theorem Ok.nextCompletion {n : Nat} {s : SubmissionRun} (ok : s.Ok n) {c : BceSqCompletionData}
    {sq : BceQueueSq} (taken : s.sq.nextCompletion = some (c, sq)) :
    Ok n { s with sq, harvested := s.harvested - 1, consumed := s.consumed + 1 } := by
  obtain ⟨unread, _, rfl⟩ := BceQueueSq.nextCompletion_some taken
  have phases := ok.phases
  -- the two indices differ only when a harvested completion is waiting
  have waiting : 0 < s.harvested := by
    by_contra none
    have zero : s.harvested = 0 := by omega
    exact unread (by rw [ok.cidx, ok.completionTail, zero, Nat.add_zero])
  have same : s.consumed + 1 + (s.harvested - 1) = s.consumed + s.harvested := by omega
  refine { ok with
    phases := ?_, cidx := ?_, completionTail := ?_, entries := ?_, deviceIndex := ?_ }
  · simp only
    omega
  · simp only [ok.cidx, ok.elCount]
    exact ring_succ
  all_goals simp only [same]
  · exact ok.completionTail
  · exact ok.entries
  · exact ok.deviceIndex

theorem Ok.notify {n : Nat} {s : SubmissionRun} (ok : s.Ok n) (taken : 0 < s.consumed) :
    Ok n { s with
      sq := s.sq.notifySubmissionComplete
      unnotified := s.unnotified.tail
      consumed := s.consumed - 1 } := by
  have phases := ok.phases
  have count := ok.count
  have available := ok.available
  have headBound := ok.headBound
  have slots := ok.slots
  obtain ⟨len, length⟩ : ∃ len, s.unnotified.length = len + 1 :=
    ⟨s.unnotified.length - 1, by omega⟩
  have shorter : s.unnotified.tail.length = len := by simp [length]
  -- advancing the head by one and dropping one taken completion leaves each sum as it was
  have moved : ∀ k, ((s.sq.head + 1) % n + (s.consumed - 1 + k)) % n =
      (s.sq.head + (s.consumed + k)) % n := by
    intro k
    rw [Nat.mod_add_mod]
    congr 1
    omega
  constructor
  all_goals simp only [BceQueueSq.notifySubmissionComplete, shorter, ok.elCount, Nat.add_assoc, moved]
  case headBound => exact Nat.mod_lt _ (by omega)
  case count => omega
  case available => omega
  case slots =>
    rw [length, Basis.slots, window_succ] at slots
    rw [slots, List.tail_cons, Basis.slots, window_mod]
  case tail =>
    rw [ok.tail, length, Nat.mod_add_mod]
    congr 1
    omega
  case phases => omega
  case cidx => simpa only [Nat.add_zero] using ok.cidx.trans (moved 0).symm
  case completionTail => exact ok.completionTail
  case entries =>
    rw [ok.entries, Basis.slots, Basis.slots, ← window_mod n id (s.sq.head + _), ← moved, window_mod]
  case deviceIndex =>
    rw [ok.deviceIndex]
    simp only [Nat.add_assoc]

theorem Ok.step {n : Nat} {s t : SubmissionRun} (ok : s.Ok n) {a : SubmissionStep}
    (run : s.step a = some t) : t.Ok n := by
  cases a with
  | reserve =>
    obtain ⟨sq, taken, rfl⟩ := Option.map_eq_some_iff.mp run
    obtain ⟨positive, rfl⟩ := BceQueueSq.decIfPositive_some taken
    exact ok.reservations (by push_cast; omega) (by omega)
  | cancelReservation =>
    obtain ⟨held, run⟩ := Option.ite_none_right_eq_some.mp run
    cases Option.some.inj run
    have available := ok.available
    exact ok.reservations (by omega) (by omega)
  | nextSubmission =>
    obtain ⟨held, run⟩ := Option.ite_none_right_eq_some.mp run
    cases Option.some.inj run
    exact ok.nextSubmission held
  | deviceComplete status dataSize result =>
    obtain ⟨working, run⟩ := Option.ite_none_right_eq_some.mp run
    cases Option.some.inj run
    exact ok.deviceComplete working status dataSize result
  | harvest =>
    simp only [SubmissionRun.step] at run
    split at run
    · simp at run
    · rename_i e rest oldest
      rw [BceQueueSq.acceptCompletion_of_index (ok.accepts oldest)] at run
      cases Option.some.inj run
      exact ok.harvest oldest (BceQueueSq.acceptCompletion_of_index (ok.accepts oldest))
  | nextCompletion =>
    obtain ⟨⟨c, sq⟩, taken, rfl⟩ := Option.map_eq_some_iff.mp run
    exact ok.nextCompletion taken
  | notify =>
    obtain ⟨taken, run⟩ := Option.ite_none_right_eq_some.mp run
    cases Option.some.inj run
    exact ok.notify taken

/-- What a step does to the reservations and to the submissions not yet notified. -/
theorem step_counts {s t : SubmissionRun} {a : SubmissionStep} (run : s.step a = some t) :
    match a with
    | .reserve => t.reservations = s.reservations + 1 ∧ t.unnotified = s.unnotified
    | .cancelReservation => 0 < s.reservations ∧ t.reservations = s.reservations - 1 ∧
        t.unnotified = s.unnotified
    | .nextSubmission => 0 < s.reservations ∧ t.reservations = s.reservations - 1 ∧
        t.unnotified = s.unnotified ++ [s.sq.nextSubmission.1]
    | .notify => 0 < s.consumed ∧ t.reservations = s.reservations ∧ t.unnotified = s.unnotified.tail
    | _ => t.reservations = s.reservations ∧ t.unnotified = s.unnotified := by
  cases a with
  | reserve | nextCompletion =>
    obtain ⟨taken, -, rfl⟩ := Option.map_eq_some_iff.mp run
    exact ⟨rfl, rfl⟩
  | cancelReservation | nextSubmission | notify =>
    obtain ⟨held, run⟩ := Option.ite_none_right_eq_some.mp run
    cases Option.some.inj run
    exact ⟨held, rfl, rfl⟩
  | deviceComplete status dataSize result =>
    obtain ⟨-, run⟩ := Option.ite_none_right_eq_some.mp run
    cases Option.some.inj run
    exact ⟨rfl, rfl⟩
  | harvest =>
    simp only [SubmissionRun.step] at run
    split at run
    · cases run
    · split at run
      · cases Option.some.inj run
        exact ⟨rfl, rfl⟩
      · cases Option.some.inj run
        exact ⟨rfl, rfl⟩

/-- What a step does to the head and to the completions taken. -/
theorem step_taken {s t : SubmissionRun} {a : SubmissionStep} (run : s.step a = some t) :
    match a with
    | .nextCompletion => t.sq.head = s.sq.head ∧ t.consumed = s.consumed + 1
    | .notify => t.sq.head = (s.sq.head + 1) % s.sq.elCount ∧ t.consumed = s.consumed - 1
    | _ => t.sq.head = s.sq.head ∧ t.consumed = s.consumed := by
  cases a with
  | reserve =>
    obtain ⟨sq, taken, rfl⟩ := Option.map_eq_some_iff.mp run
    obtain ⟨-, rfl⟩ := BceQueueSq.decIfPositive_some taken
    exact ⟨rfl, rfl⟩
  | nextCompletion =>
    obtain ⟨⟨c, sq⟩, taken, rfl⟩ := Option.map_eq_some_iff.mp run
    obtain ⟨-, -, rfl⟩ := BceQueueSq.nextCompletion_some taken
    exact ⟨rfl, rfl⟩
  | cancelReservation | nextSubmission | notify | deviceComplete _ _ _ =>
    obtain ⟨-, run⟩ := Option.ite_none_right_eq_some.mp run
    cases Option.some.inj run
    exact ⟨rfl, rfl⟩
  | harvest =>
    simp only [SubmissionRun.step, BceQueueSq.acceptCompletion] at run
    split at run
    · cases run
    · split at run
      · rename_i accepted
        split at accepted
        · cases accepted
        · cases Option.some.inj accepted
          cases Option.some.inj run
          exact ⟨rfl, rfl⟩
      · cases Option.some.inj run
        exact ⟨rfl, rfl⟩

end SubmissionRun

/-- All uses of a submission queue of `n` elements. -/
def submissionMachine (n : Nat) : Machine SubmissionRun SubmissionStep where
  init s := s = SubmissionRun.start n
  step := SubmissionRun.step

theorem submission_ok {n : Nat} (large : 2 ≤ n) {s : SubmissionRun}
    (reach : (submissionMachine n).Reachable s) : s.Ok n := by
  refine reach.invariant ?_ (fun _ _ _ ok run => ok.step run)
  rintro _ rfl
  exact SubmissionRun.ok_start large

/-- Seen from its callers the ring is a FIFO of `n - 1` places: a slot is reserved before it
is filled and becomes free again when its completion is notified. -/
theorem submission_refines_fifo {n : Nat} (large : 2 ≤ n) :
    Machine.Refines (submissionMachine n) (BoundedFifo.machine Nat (n - 1)) fun s f =>
      s.Ok n ∧ f.capacity = n - 1 ∧ f.reserved = s.reservations ∧ f.items = s.unnotified where
  start := by
    rintro _ rfl
    exact ⟨_, rfl, SubmissionRun.ok_start large, rfl, rfl, rfl⟩
  step := by
    rintro s a t f ⟨ok, capacity, reserved, items⟩ run
    have after := ok.step run
    have count := ok.count
    have available := ok.available
    cases a with
    | reserve =>
      obtain ⟨sq, taken, rfl⟩ := Option.map_eq_some_iff.mp run
      obtain ⟨positive, rfl⟩ := BceQueueSq.decIfPositive_some taken
      have free : f.items.length + f.reserved < f.capacity := by
        rw [items, reserved, capacity]
        omega
      obtain ⟨g, made, sameCapacity, oneMore, sameItems⟩ := BoundedFifo.reserve_exists free
      exact ⟨[.reserve], g, Machine.run_single made, after, sameCapacity.trans capacity,
        oneMore.trans (by rw [reserved]), sameItems.trans items⟩
    | cancelReservation =>
      obtain ⟨held, run⟩ := Option.ite_none_right_eq_some.mp run
      cases Option.some.inj run
      obtain ⟨g, made, sameCapacity, oneLess, sameItems⟩ :=
        BoundedFifo.release_exists (f := f) (by rwa [reserved])
      exact ⟨[.release], g, Machine.run_single made, after, sameCapacity.trans capacity,
        oneLess.trans (by rw [reserved]), sameItems.trans items⟩
    | nextSubmission =>
      obtain ⟨held, run⟩ := Option.ite_none_right_eq_some.mp run
      cases Option.some.inj run
      obtain ⟨g, made, sameCapacity, oneLess, more⟩ :=
        BoundedFifo.push_exists (f := f) (by rwa [reserved]) s.sq.nextSubmission.1
      exact ⟨[.push s.sq.nextSubmission.1], g, Machine.run_single made, after,
        sameCapacity.trans capacity, oneLess.trans (by rw [reserved]), more.trans (by rw [items])⟩
    | deviceComplete status dataSize result =>
      obtain ⟨working, run⟩ := Option.ite_none_right_eq_some.mp run
      cases Option.some.inj run
      exact ⟨[], f, rfl, after, capacity, reserved, items⟩
    | harvest =>
      simp only [submissionMachine, SubmissionRun.step] at run
      split at run
      · simp at run
      · split at run <;> cases Option.some.inj run <;>
          exact ⟨[], f, rfl, after, capacity, reserved, items⟩
    | nextCompletion =>
      obtain ⟨⟨c, sq⟩, taken, rfl⟩ := Option.map_eq_some_iff.mp run
      exact ⟨[], f, rfl, after, capacity, reserved, items⟩
    | notify =>
      obtain ⟨taken, run⟩ := Option.ite_none_right_eq_some.mp run
      cases Option.some.inj run
      refine ⟨[.pop], f.pop, rfl, after, capacity, reserved, ?_⟩
      simp only [BoundedFifo.pop, items]

/-- The ring of a VHCI queue holds 255 submissions. -/
theorem submission_refines_fifo_vhci :
    Machine.Refines (submissionMachine 256) (BoundedFifo.machine Nat 255) fun s f =>
      s.Ok 256 ∧ f.capacity = 255 ∧ f.reserved = s.reservations ∧ f.items = s.unnotified :=
  submission_refines_fifo (by decide)

/-- Safety of the submission ring over every run: the three uses of a slot add up to its
capacity, the indices count the submissions not yet notified, and a slot is handed out
again only after the notification of its earlier submission. -/
theorem submission_ring_safe {n : Nat} (large : 2 ≤ n) {s : SubmissionRun}
    (reach : (submissionMachine n).Reachable s) :
    s.sq.availableCommands + s.reservations + s.unnotified.length = (n : Int) - 1 ∧
      ((s.sq.tail : Int) - s.sq.head) % n = s.unnotified.length ∧
      ∀ t, s.step .nextSubmission = some t → s.sq.nextSubmission.1 ∉ s.unnotified := by
  have ok := submission_ok large reach
  refine ⟨ok.count, ?_, ?_⟩
  · have head : s.sq.head % n = s.sq.head := Nat.mod_eq_of_lt ok.headBound
    rw [ok.tail]
    simpa only [head] using ring_distance s.sq.head ok.length_lt
  · intro _ _
    exact ok.tail_free

/-- In a ring of two elements the second submission waits for the first notification and
then reuses the other slot. -/
theorem submission_ring_safe_two :
    ∃ s : SubmissionRun, (submissionMachine 2).run (SubmissionRun.start 2)
        [.reserve, .nextSubmission, .deviceComplete 0 8 0, .harvest, .nextCompletion, .notify,
          .reserve] = some s ∧
      s.sq.availableCommands + s.reservations + s.unnotified.length = (2 : Nat) - 1 ∧
      ((s.sq.tail : Int) - s.sq.head) % (2 : Nat) = s.unnotified.length ∧
      ∀ t, s.step .nextSubmission = some t → s.sq.nextSubmission.1 ∉ s.unnotified := by
  refine ⟨_, rfl, ?_⟩
  exact submission_ring_safe (by decide) ((Machine.Reachable.start rfl).of_run
    [.reserve, .nextSubmission, .deviceComplete 0 8 0, .harvest, .nextCompletion, .notify,
      .reserve] rfl)

end AppleBce

import AppleBce.Basis.Machine
import AppleBce.Queue.Irq
import AppleBce.Vhci.FirmwareEvents

namespace AppleBce

open Basis

/-- `VHCI_EVENT_PENDING_COUNT`. -/
def vhciEventPendingCount : Nat := 32

/-- The number of entries of `ev_cq`, which the five event queues share. -/
def vhciEventCqElCount : Nat := 0x100

/-- The part of `struct bce_vhci_event_queue` that its submissions depend on. -/
structure BceVhciEventQueue where
  sq : BceQueueSq
  draining : Bool

namespace BceVhciEventQueue

/-- Whether every submission has been notified, as pause, resume and the handlers ask it. -/
def drained (q : BceVhciEventQueue) : Bool :=
  q.sq.availableCommands = (q.sq.elCount : Int) - 1

def submitPending (count : Nat) (q : BceVhciEventQueue) : BceVhciEventQueue :=
  { q with sq := eventQueueSubmitPending count q.sq }

/-- `__bce_vhci_event_queue_create` when its allocations succeed. -/
def create (qid : Nat) : BceVhciEventQueue :=
  submitPending vhciEventPendingCount ⟨bceAllocSq qid vhciEventQueueElCount, false⟩

/-- The loop of `bce_vhci_event_queue_completion`: the slots whose message it hands to the
callback, one for each count of `cnt`. One round per completion, so `elCount` rounds are enough. -/
def completionLoop : Nat → BceQueueSq → List Nat × BceQueueSq
  | 0, sq => ([], sq)
  | rounds + 1, sq =>
    match sq.nextCompletion with
    | none => ([], sq)
    | some (cd, taken) =>
      if cd.status = bceCompletionAborted then completionLoop rounds taken.notifySubmissionComplete
      else
        let rest := completionLoop rounds taken.notifySubmissionComplete
        (taken.head :: rest.1, rest.2)

/-- `bce_vhci_event_queue_completion`: the slots it handed over, the queue it leaves and whether
it completes `queue_empty_completion`. -/
def completion (q : BceVhciEventQueue) : List Nat × BceVhciEventQueue × Bool :=
  let looped := completionLoop q.sq.elCount q.sq
  let taken := { q with sq := looped.2 }
  let refilled := if q.draining then taken else taken.submitPending looped.1.length
  (looped.1, refilled, refilled.drained)

/-- The firmware-command worker's run on `ev_commands`. -/
def firmwareEventsW (env : FirmwareEnv) (q : BceVhciEventQueue) : BceVhciEventQueue :=
  { q with sq := (handleFirmwareEventsW env q.sq).2.1 }

/-- What `bce_vhci_event_queue_pause` writes before it asks for the flush and waits. -/
def pause (q : BceVhciEventQueue) : BceVhciEventQueue :=
  { q with draining := true }

/-- `bce_vhci_event_queue_resume` up to its flush, and whether it goes there. -/
def resume (q : BceVhciEventQueue) : BceVhciEventQueue × Bool :=
  let resumed := { q with draining := false }
  if resumed.drained then (resumed.submitPending vhciEventPendingCount, false) else (resumed, true)

/-- The rest of it, behind the flush and the sleep. -/
def resumeFlushed (q : BceVhciEventQueue) : BceVhciEventQueue :=
  if q.drained then q.submitPending vhciEventPendingCount else q

/-- The submissions a check of resume makes. -/
def resubmits (q : BceVhciEventQueue) : Nat :=
  if q.drained then vhciEventPendingCount else 0

@[simp] theorem resume_sq (q : BceVhciEventQueue) :
    q.resume.1.sq = eventQueueSubmitPending q.resubmits q.sq := by
  have same : ({ q with draining := false } : BceVhciEventQueue).drained = q.drained := rfl
  simp only [resume, same, resubmits]
  split <;> rfl

@[simp] theorem resumeFlushed_sq (q : BceVhciEventQueue) :
    q.resumeFlushed.sq = eventQueueSubmitPending q.resubmits q.sq := by
  simp only [resumeFlushed, resubmits]
  split <;> rfl

end BceVhciEventQueue

/-- The event queues of `struct bce_vhci`. -/
inductive EventQueueName
  | commands
  | system
  | isochronous
  | interrupt
  | asynchronous
  deriving DecidableEq, Repr

/-- An event queue in use: with the index of the submission the device completes next, and the
number of callers of resume that are asleep behind their flush. -/
structure EventQueueRun extends BceVhciEventQueue where
  next : Nat
  resuming : Nat

/-- What the driver does with one event queue. Runs of a handler or of the worker, and the check
of a resume with the submissions it makes, take place at once; a caller of resume that has
flushed sleeps while anything else may happen. A caller of pause only waits. -/
inductive EventQueueOp
  | handler
  | worker (env : FirmwareEnv)
  | pause
  | resume
  | resumeFlushed

namespace EventQueueRun

def create (qid : Nat) : EventQueueRun :=
  ⟨BceVhciEventQueue.create qid, 0, 0⟩

/-- The firmware-command queue is served by the worker, the others by the generic handler. -/
def op (name : EventQueueName) (r : EventQueueRun) : EventQueueOp → Option EventQueueRun
  | .handler =>
    if name = .commands then none else some { r with toBceVhciEventQueue := r.completion.2.1 }
  | .worker env =>
    if name = .commands then some { r with toBceVhciEventQueue := r.firmwareEventsW env } else none
  | .pause => some { r with toBceVhciEventQueue := r.pause }
  | .resume => some { r with
      toBceVhciEventQueue := r.toBceVhciEventQueue.resume.1
      resuming := if r.toBceVhciEventQueue.resume.2 then r.resuming + 1 else r.resuming }
  | .resumeFlushed =>
    if 0 < r.resuming then
      some { r with
        toBceVhciEventQueue := r.toBceVhciEventQueue.resumeFlushed
        resuming := r.resuming - 1 }
    else none

end EventQueueRun

/-- The five event queues and the entries of the completion queue they share that are not
harvested, oldest first. -/
structure EventQueues where
  queues : EventQueueName → Option EventQueueRun
  cq : List (EventQueueName × BceQeCompletion)

inductive EventStep
  | create (q : EventQueueName) (qid : Nat)
  | complete (q : EventQueueName) (status dataSize result : Nat)
  | harvest
  | op (q : EventQueueName) (o : EventQueueOp)

namespace EventQueues

def set (s : EventQueues) (q : EventQueueName) (r : EventQueueRun) : EventQueues :=
  { s with queues := Function.update s.queues q (some r) }

/-- The device completes the submissions of a queue in order, with any status; it sees those
before `sq->tail`, since each run that makes submissions ends with the doorbell. An entry that
does not fit its queue is dropped when it is harvested. -/
def step (s : EventQueues) : EventStep → Option EventQueues
  | .create q qid =>
    match s.queues q with
    | none => some (s.set q (EventQueueRun.create qid))
    | some _ => none
  | .complete q status dataSize result =>
    match s.queues q with
    | none => none
    | some r =>
      if r.next = r.sq.tail then none
      else some { s.set q { r with next := (r.next + 1) % r.sq.elCount } with
        cq := s.cq ++ [(q, ⟨result, dataSize, r.sq.qid, r.next, status, bceCompletionFlagPending⟩)] }
  | .harvest =>
    match s.cq with
    | [] => none
    | (q, e) :: rest =>
      match s.queues q with
      | none => some { s with cq := rest }
      | some r =>
        match r.sq.acceptCompletion e with
        | none => some { s with cq := rest }
        | some sq => some { s.set q { r with sq } with cq := rest }
  | .op q o => (s.queues q).bind fun r => (r.op q o).map (s.set q)

end EventQueues

def eventMachine : Machine EventQueues EventStep where
  init := fun s => s = ⟨fun _ => none, []⟩
  step := EventQueues.step

/-- Making submissions while there is room for them. -/
theorem eventQueueSubmitPending_eq {n pos count : Nat} {sq : BceQueueSq} (size : sq.elCount = n)
    (tail : sq.tail = pos % n) (room : (count : Int) ≤ sq.availableCommands) :
    eventQueueSubmitPending count sq = { sq with
      tail := (pos + count) % n
      availableCommands := sq.availableCommands - count } := by
  induction count generalizing sq pos with
  | zero =>
    simp [eventQueueSubmitPending, ← tail]
  | succ count ih =>
    have positive : 0 < sq.availableCommands := by omega
    have reserved : sq.reserveSubmission [] none =
        some { sq with availableCommands := sq.availableCommands - 1 } := by
      simp [BceQueueSq.reserveSubmission, BceQueueSq.decIfPositive, positive]
    let next := ({ sq with availableCommands := sq.availableCommands - 1 } : BceQueueSq).nextSubmission.2
    have nextTail : next.tail = (pos + 1) % n := by
      simp only [next, BceQueueSq.nextSubmission, tail, size, Nat.mod_add_mod]
    have rest := ih (show next.elCount = n from size) nextTail
      (show (count : Int) ≤ sq.availableCommands - 1 by omega)
    rw [eventQueueSubmitPending, reserved]
    refine rest.trans ?_
    simp only [next, BceQueueSq.nextSubmission, BceQueueSq.mk.injEq, true_and, and_true]
    constructor
    · omega
    · congr 1
      omega

/-- The handler takes the completions that draining takes, and hands over those that are not
aborted. -/
theorem completionLoop_eq (rounds : Nat) (sq : BceQueueSq) :
    BceVhciEventQueue.completionLoop rounds sq =
      (((drainCompletions rounds sq).1.filter fun c => c.2.status ≠ bceCompletionAborted).map Prod.fst,
        (drainCompletions rounds sq).2) := by
  induction rounds generalizing sq with
  | zero => rfl
  | succ rounds ih =>
    rw [BceVhciEventQueue.completionLoop, drainCompletions]
    cases next : sq.nextCompletion with
    | none => rfl
    | some found =>
      obtain ⟨cd, taken⟩ := found
      dsimp only
      by_cases aborted : cd.status = bceCompletionAborted
      · rw [if_pos aborted, ih]
        simp [aborted]
      · rw [if_neg aborted, ih]
        simp [aborted]

/-- An event queue's ring, from position `pos` on: `h` completions harvested and not notified,
then the entries `es` in the completion queue, then `d` submissions with the device. -/
structure EventRing (sq : BceQueueSq) (next : Nat) (es : List BceQeCompletion) (pos h d : Nat) : Prop where
  size : sq.elCount = vhciEventQueueElCount
  head : sq.head = pos % vhciEventQueueElCount
  cidx : sq.completionCidx = pos % vhciEventQueueElCount
  completionTail : sq.completionTail = (pos + h) % vhciEventQueueElCount
  entries : es.map BceQeCompletion.completionIndex = slots vhciEventQueueElCount (pos + h) es.length
  next : next = (pos + h + es.length) % vhciEventQueueElCount
  tail : sq.tail = (pos + h + es.length + d) % vhciEventQueueElCount
  available : sq.availableCommands = vhciEventQueueElCount - 1 - ((h + es.length + d : Nat) : Int)
  bound : h + es.length + d ≤ vhciEventPendingCount

/-- The submissions not yet notified, by the indices of the queue. -/
def BceQueueSq.submitted (sq : BceQueueSq) : Nat :=
  (sq.tail + sq.elCount - sq.head) % sq.elCount

namespace EventRing

variable {sq : BceQueueSq} {next pos h d : Nat} {es : List BceQeCompletion}

theorem submitted (ring : EventRing sq next es pos h d) : sq.submitted = h + es.length + d := by
  have bound := ring.bound
  have small : h + es.length + d < vhciEventQueueElCount := lt_of_le_of_lt bound (by decide)
  have tail : sq.tail = (pos + (h + es.length + d)) % vhciEventQueueElCount := by
    rw [ring.tail]
    congr 1
    omega
  rw [BceQueueSq.submitted, ring.size, tail, ring.head, ring_distance_nat pos small]

theorem available_eq (ring : EventRing sq next es pos h d) :
    sq.availableCommands = (vhciEventQueueElCount : Int) - 1 - sq.submitted := by
  rw [ring.submitted, ring.available]

theorem drained_iff (ring : EventRing sq next es pos h d) :
    sq.availableCommands = (sq.elCount : Int) - 1 ↔ h + es.length + d = 0 := by
  rw [ring.available, ring.size]
  omega

/-- Submissions up to the bound are handed to the device. -/
theorem submit {count : Nat} (ring : EventRing sq next es pos h d)
    (room : h + es.length + (d + count) ≤ vhciEventPendingCount) :
    EventRing (eventQueueSubmitPending count sq) next es pos h (d + count) := by
  have available := ring.available
  have el : vhciEventQueueElCount = 256 := rfl
  have pending : vhciEventPendingCount = 32 := rfl
  rw [eventQueueSubmitPending_eq ring.size ring.tail (by omega)]
  refine { ring with tail := ?_, available := ?_, bound := room }
  · simp only
    congr 1
    omega
  · simp only
    omega

/-- The handler or the worker notifies all that is harvested. -/
theorem notified {sq' : BceQueueSq} (ring : EventRing sq next es pos h d) (size : sq'.elCount = sq.elCount)
    (head : sq'.head = (pos + h) % vhciEventQueueElCount)
    (cidx : sq'.completionCidx = (pos + h) % vhciEventQueueElCount)
    (completionTail : sq'.completionTail = (pos + h) % vhciEventQueueElCount) (tail : sq'.tail = sq.tail)
    (available : sq'.availableCommands = sq.availableCommands + h) :
    EventRing sq' next es (pos + h) 0 d := by
  have before := ring.available
  have bound := ring.bound
  refine ⟨size.trans ring.size, head, cidx, completionTail, ring.entries, ring.next, tail.trans ring.tail, ?_,
    by omega⟩
  rw [available, before]
  omega

/-- A run of the generic handler: it makes a submission for each message it handed over, unless
the queue is draining. -/
theorem completion {q : BceVhciEventQueue} (ring : EventRing q.sq next es pos h d) :
    ∃ cnt ≤ h, EventRing q.completion.2.1.sq next es (pos + h) 0 (d + cnt) ∧
      q.completion.2.1.draining = q.draining ∧ (q.draining = true → cnt = 0) := by
  have bound := ring.bound
  have pending : vhciEventPendingCount = 32 := rfl
  have small : h < vhciEventQueueElCount := lt_of_le_of_lt (by omega : h ≤ vhciEventPendingCount) (by decide)
  have looped := completionLoop_eq q.sq.elCount q.sq
  have drained := drainCompletions_eq q.sq.elCount ring.size small ring.cidx ring.completionTail ring.head
    (by rw [ring.size]; exact small.le)
  have taken : EventRing (BceVhciEventQueue.completionLoop q.sq.elCount q.sq).2 next es (pos + h) 0 d := by
    rw [looped, drained]
    exact ring.notified rfl rfl rfl ring.completionTail rfl rfl
  have fewer : (BceVhciEventQueue.completionLoop q.sq.elCount q.sq).1.length ≤ h := by
    rw [looped, drained, List.length_map]
    exact (List.length_filter_le ..).trans (by simp)
  cases draining : q.draining with
  | true =>
    refine ⟨0, Nat.zero_le _, ?_, ?_, fun _ => rfl⟩
    · simpa only [BceVhciEventQueue.completion, draining, ↓reduceIte, Nat.add_zero] using taken
    · simp only [BceVhciEventQueue.completion, draining, ↓reduceIte]
  | false =>
    refine ⟨_, fewer, ?_, ?_, fun drains => absurd drains Bool.false_ne_true⟩
    · simpa only [BceVhciEventQueue.completion, draining, Bool.false_eq_true, ↓reduceIte,
        BceVhciEventQueue.submitPending] using taken.submit (by omega)
    · simp only [BceVhciEventQueue.completion, draining, Bool.false_eq_true, ↓reduceIte,
        BceVhciEventQueue.submitPending]

theorem firmwareCompletions (ring : EventRing sq next es pos h d) :
    sq.firmwareCompletions = sq.completionsFrom pos h := by
  have bound := ring.bound
  have small : h < vhciEventQueueElCount :=
    lt_of_le_of_lt (by omega : h ≤ vhciEventPendingCount) (by decide)
  rw [BceQueueSq.firmwareCompletions, BceQueueSq.completionsFrom, ring.size, ring.cidx, ring.completionTail,
    ring_distance_nat pos small, window_mod]

/-- A run of the worker: it makes a submission for each message it handled, draining or not, and
handles none exactly if it finds none that is not aborted. -/
theorem firmwareEventsW {q : BceVhciEventQueue} (ring : EventRing q.sq next es pos h d) (env : FirmwareEnv) :
    ∃ cnt ≤ h, EventRing (q.firmwareEventsW env).sq next es (pos + h) 0 (d + cnt) ∧
      (cnt = 0 ↔ ∀ c ∈ q.sq.firmwareCompletions, c.aborted = true) := by
  have bound := ring.bound
  have small : h < vhciEventQueueElCount :=
    lt_of_le_of_lt (by omega : h ≤ vhciEventPendingCount) (by decide)
  obtain ⟨events, at_, counted⟩ := firmware_worker_loop env ring.size small ring.head ring.cidx
    ring.completionTail
  have end_ := at_.ring
  have taken : EventRing (FirmwareWorker.loop env q.sq.elCount ⟨q.sq, none, 0, []⟩).sq next es (pos + h) 0 d := by
    have size := ring.size
    refine ring.notified end_.size ?_ ?_ ?_ counted.submitted counted.available
    · rw [← size]
      exact end_.head
    · rw [← size]
      exact end_.cidx
    · rw [← size]
      exact end_.tail
  have cnt := counted.cnt
  refine ⟨_, cnt, taken.submit (by omega), ?_⟩
  rw [counted.idle, events, ring.firmwareCompletions, workerEvents_eq_nil]

/-- The device completes the oldest submission it has. -/
theorem complete {e : BceQeCompletion} (ring : EventRing sq next es pos h d) (some_left : next ≠ sq.tail)
    (index : e.completionIndex = next) :
    ∃ d', d = d' + 1 ∧ EventRing sq ((next + 1) % sq.elCount) (es ++ [e]) pos h d' := by
  have available := ring.available
  have bound := ring.bound
  cases d with
  | zero => exact absurd (ring.next.trans ring.tail.symm) some_left
  | succ d' =>
    refine ⟨d', rfl, ?_⟩
    refine { ring with entries := ?_, next := ?_, tail := ?_, available := ?_, bound := ?_ }
    · rw [List.map_append, ring.entries, List.length_append, List.length_singleton]
      refine Eq.trans ?_ (window_succ_last ..).symm
      simp [index, ring.next]
    · rw [ring.next, ring.size, List.length_append, List.length_singleton, ring_succ]
    · rw [ring.tail, List.length_append, List.length_singleton]
      congr 1
      omega
    · rw [available, List.length_append, List.length_singleton]
      omega
    · rw [List.length_append, List.length_singleton]
      omega

/-- The oldest entry of a queue is accepted when it is harvested. -/
theorem harvest {e : BceQeCompletion} (ring : EventRing sq next (e :: es) pos h d) :
    ∃ sq', sq.acceptCompletion e = some sq' ∧ EventRing sq' next es pos (h + 1) d ∧
      sq'.head = sq.head ∧ sq'.tail = sq.tail ∧ sq'.availableCommands = sq.availableCommands := by
  have entries := ring.entries
  rw [List.length_cons, slots, window_succ, List.map_cons, id] at entries
  obtain ⟨first, rest⟩ := List.cons.inj entries
  refine ⟨_, BceQueueSq.acceptCompletion_of_index (ring.completionTail.trans first.symm), ?_, rfl, rfl, rfl⟩
  have next' := ring.next
  have tail := ring.tail
  have available := ring.available
  have bound := ring.bound
  simp only [List.length_cons] at next' tail available bound
  refine ⟨ring.size, ring.head, ring.cidx, ?_, rest, next'.trans ?_, tail.trans ?_, available.trans ?_, ?_⟩
  · simp only [ring.completionTail, ring.size, ring_succ]
  · congr 1
    omega
  · congr 1
    omega
  · omega
  · omega

end EventRing

/-- What an operation says about the number of submissions it makes. -/
def EventQueueRun.Makes (r : EventQueueRun) (count : Nat) : EventQueueOp → Prop
  | .handler => r.draining = true → count = 0
  | .worker _ => count = 0 ↔ ∀ c ∈ r.sq.firmwareCompletions, c.aborted = true
  | .pause => count = 0
  | .resume => count = r.resubmits
  | .resumeFlushed => count = r.resubmits

/-- An operation notifies some of the harvested completions and makes some submissions. -/
theorem EventQueueRun.op_ring {name : EventQueueName} {r r' : EventQueueRun} {o : EventQueueOp} {pos h d : Nat}
    {es : List BceQeCompletion} (ring : EventRing r.sq r.next es pos h d) (run : r.op name o = some r') :
    ∃ pos' h' count, EventRing r'.sq r'.next es pos' h' (d + count) ∧ h' ≤ h ∧ pos' + h' = pos + h ∧
      r.Makes count o := by
  have room : h + es.length + (d + r.resubmits) ≤ vhciEventPendingCount := by
    have bound := ring.bound
    unfold BceVhciEventQueue.resubmits
    split
    · rename_i drained
      have empty := ring.drained_iff.mp (of_decide_eq_true drained)
      omega
    · exact bound
  cases o with
  | handler =>
    simp only [op, Option.ite_none_left_eq_some, Option.some.injEq] at run
    obtain ⟨-, rfl⟩ := run
    obtain ⟨count, -, ring', -, idle⟩ := ring.completion
    exact ⟨pos + h, 0, count, ring', Nat.zero_le _, rfl, idle⟩
  | worker env =>
    simp only [op, Option.ite_none_right_eq_some, Option.some.injEq] at run
    obtain ⟨-, rfl⟩ := run
    obtain ⟨count, -, ring', idle⟩ := ring.firmwareEventsW env
    exact ⟨pos + h, 0, count, ring', Nat.zero_le _, rfl, idle⟩
  | pause =>
    simp only [op, Option.some.injEq] at run
    subst run
    exact ⟨pos, h, 0, ring, le_rfl, rfl, rfl⟩
  | resume =>
    simp only [op, Option.some.injEq] at run
    subst run
    refine ⟨pos, h, r.resubmits, ?_, le_rfl, rfl, rfl⟩
    simpa only [BceVhciEventQueue.resume_sq] using ring.submit room
  | resumeFlushed =>
    simp only [op, Option.ite_none_right_eq_some, Option.some.injEq] at run
    obtain ⟨-, rfl⟩ := run
    refine ⟨pos, h, r.resubmits, ?_, le_rfl, rfl, rfl⟩
    simpa only [BceVhciEventQueue.resumeFlushed_sq] using ring.submit room

/-- A queue that is just created has all its buffers with the device. -/
theorem EventRing.create (qid : Nat) :
    EventRing (EventQueueRun.create qid).sq (EventQueueRun.create qid).next [] 0 0 vhciEventPendingCount := by
  have fresh : EventRing (bceAllocSq qid vhciEventQueueElCount) 0 [] 0 0 0 := by
    constructor <;> simp [bceAllocSq]
  have filled := fresh.submit (show 0 + 0 + (0 + vhciEventPendingCount) ≤ _ by simp)
  rwa [Nat.zero_add] at filled

namespace EventQueues

/-- The entries of one queue that are not harvested. -/
def unharvested (s : EventQueues) (q : EventQueueName) : List BceQeCompletion :=
  (s.cq.filter fun e => e.1 = q).map Prod.snd

/-- A queue that is not created has no entries; one that is has its ring. -/
inductive QueueRing : Option EventQueueRun → List BceQeCompletion → Prop
  | absent : QueueRing none []
  | present {r : EventQueueRun} {es : List BceQeCompletion} {pos h d : Nat} :
      EventRing r.sq r.next es pos h d → QueueRing (some r) es

/-- The invariant of the five queues. -/
def Rings (s : EventQueues) : Prop :=
  ∀ q, QueueRing (s.queues q) (s.unharvested q)

variable {s t : EventQueues} {q : EventQueueName} {r : EventQueueRun}

theorem Rings.ring (rings : s.Rings) (here : s.queues q = some r) :
    ∃ pos h d, EventRing r.sq r.next (s.unharvested q) pos h d := by
  have ring := rings q
  rw [here] at ring
  cases ring with
  | present ring => exact ⟨_, _, _, ring⟩

/-- A step that changes one queue and its entries only. -/
theorem Rings.set (rings : s.Rings) (cq : List (EventQueueName × BceQeCompletion))
    (others : ∀ q' ≠ q, (cq.filter fun e => e.1 = q') = s.cq.filter fun e => e.1 = q')
    (ring : QueueRing (some r) ((cq.filter fun e => e.1 = q).map Prod.snd)) :
    Rings { s.set q r with cq } := by
  intro q'
  by_cases same : q' = q
  · subst same
    simpa only [EventQueues.set, unharvested, Function.update_self] using ring
  · have old := rings q'
    simp only [EventQueues.set, unharvested, Function.update_of_ne same, others q' same]
    exact old

theorem filter_cons_of_ne {q' : EventQueueName} (e : BceQeCompletion) (cq : List (EventQueueName × BceQeCompletion))
    (other : q' ≠ q) : ((q, e) :: cq).filter (fun e => e.1 = q') = cq.filter fun e => e.1 = q' :=
  List.filter_cons_of_neg (by simpa using Ne.symm other)

/-- The first entry of the completion queue is accepted by its queue. -/
theorem Rings.head (rings : s.Rings) {e : BceQeCompletion} {rest : List (EventQueueName × BceQeCompletion)}
    (first : s.cq = (q, e) :: rest) :
    ∃ r sq, s.queues q = some r ∧ r.sq.acceptCompletion e = some sq ∧ sq.head = r.sq.head ∧
      sq.tail = r.sq.tail ∧ sq.availableCommands = r.sq.availableCommands ∧
      Rings { s.set q { r with sq } with cq := rest } := by
  have entries : s.unharvested q = e :: (rest.filter fun e => e.1 = q).map Prod.snd := by
    rw [unharvested, first, List.filter_cons_of_pos (by simp), List.map_cons]
  have ring := rings q
  cases here : s.queues q with
  | none =>
    rw [here, entries] at ring
    cases ring
  | some r =>
    obtain ⟨pos, h, d, ring⟩ := rings.ring here
    rw [entries] at ring
    obtain ⟨sq, accepted, ring', head, tail, available⟩ := ring.harvest
    refine ⟨r, sq, rfl, accepted, head, tail, available, rings.set rest ?_ (.present ring')⟩
    intro q' other
    rw [first, filter_cons_of_ne e rest other]

theorem Rings.step {l : EventStep} (rings : s.Rings) (run : s.step l = some t) : t.Rings := by
  cases l with
  | create q qid =>
    have ring := rings q
    simp only [EventQueues.step] at run
    split at run
    · rename_i absent
      cases Option.some.inj run
      rw [absent] at ring
      generalize entries : s.unharvested q = es at ring
      cases ring with
      | absent =>
        refine rings.set s.cq (fun _ _ => rfl) ?_
        rw [← unharvested, entries]
        exact .present (.create qid)
    · simp at run
  | complete q status dataSize result =>
    simp only [EventQueues.step] at run
    split at run
    · simp at run
    · rename_i r here
      obtain ⟨pos, h, d, ring⟩ := rings.ring here
      split at run
      · simp at run
      · rename_i some_left
        cases Option.some.inj run
        obtain ⟨d', -, ring'⟩ := ring.complete (e := ⟨result, dataSize, r.sq.qid, r.next, status,
          bceCompletionFlagPending⟩) some_left rfl
        refine rings.set _ ?_ ?_
        · intro q' other
          rw [List.filter_append, filter_cons_of_ne _ [] other, List.filter_nil, List.append_nil]
        · rw [List.filter_append, List.map_append, ← unharvested]
          simpa using QueueRing.present ring'
  | harvest =>
    simp only [EventQueues.step] at run
    split at run
    · simp at run
    · rename_i q e rest first
      obtain ⟨r, sq, here, accepted, -, -, -, rings'⟩ := rings.head first
      rw [here] at run
      simp only [accepted, Option.some.injEq] at run
      rwa [← run]
  | op q o =>
    obtain ⟨r, here, run⟩ := Option.bind_eq_some_iff.mp run
    obtain ⟨r', ran, rfl⟩ := Option.map_eq_some_iff.mp run
    obtain ⟨pos, h, d, ring⟩ := rings.ring here
    obtain ⟨pos', h', count, ring', -⟩ := EventQueueRun.op_ring ring ran
    exact rings.set s.cq (fun _ _ => rfl) (.present ring')

/-- What a step does to a queue that is there: an operation on it, or nothing but moving its
completions on. -/
theorem Rings.step_queue {l : EventStep} (rings : s.Rings) (run : s.step l = some t)
    (before : s.queues q = some r) :
    ∃ r', t.queues q = some r' ∧
      ((∃ o, l = .op q o ∧ r.op q o = some r') ∨
        (∀ o, l ≠ .op q o) ∧ r'.draining = r.draining ∧ r'.sq.tail = r.sq.tail ∧
          r'.sq.availableCommands = r.sq.availableCommands) := by
  -- a step on another queue, or one that is no operation
  have untouched : t.queues q = s.queues q → (∀ o, l ≠ .op q o) → ∃ r', t.queues q = some r' ∧
      ((∃ o, l = .op q o ∧ r.op q o = some r') ∨
        (∀ o, l ≠ .op q o) ∧ r'.draining = r.draining ∧ r'.sq.tail = r.sq.tail ∧
          r'.sq.availableCommands = r.sq.availableCommands) := by
    intro same other
    exact ⟨r, same.trans before, Or.inr ⟨other, rfl, rfl, rfl⟩⟩
  cases l with
  | create q' qid =>
    simp only [EventQueues.step] at run
    split at run
    · rename_i absent
      cases Option.some.inj run
      have other : q ≠ q' := by
        rintro rfl
        rw [absent] at before
        cases before
      exact untouched (Function.update_of_ne other ..) (by simp)
    · simp at run
  | complete q' status dataSize result =>
    simp only [EventQueues.step] at run
    split at run
    · simp at run
    · rename_i x here
      split at run
      · simp at run
      · cases Option.some.inj run
        by_cases same : q = q'
        · subst same
          rw [before] at here
          cases here
          exact ⟨_, Function.update_self .., Or.inr ⟨by simp, rfl, rfl, rfl⟩⟩
        · exact untouched (Function.update_of_ne same ..) (by simp)
  | harvest =>
    simp only [EventQueues.step] at run
    split at run
    · simp at run
    · rename_i q' e rest first
      obtain ⟨x, sq, here, accepted, -, tail, available, -⟩ := rings.head first
      rw [here] at run
      simp only [accepted, Option.some.injEq] at run
      cases run
      by_cases same : q = q'
      · subst same
        rw [before] at here
        cases here
        exact ⟨_, Function.update_self .., Or.inr ⟨by simp, rfl, tail, available⟩⟩
      · exact untouched (Function.update_of_ne same ..) (by simp)
  | op q' o =>
    obtain ⟨x, here, run⟩ := Option.bind_eq_some_iff.mp run
    obtain ⟨x', ran, rfl⟩ := Option.map_eq_some_iff.mp run
    by_cases same : q = q'
    · subst same
      rw [before] at here
      cases here
      exact ⟨x', Function.update_self .., Or.inl ⟨o, rfl, ran⟩⟩
    · refine untouched (Function.update_of_ne same ..) ?_
      rintro o' ⟨⟩
      exact same rfl

theorem rings_reachable (reach : eventMachine.Reachable s) : s.Rings := by
  refine reach.invariant ?_ (fun _ _ _ rings run => rings.step run)
  rintro s rfl q
  exact .absent

/-- The queues after a run in which every step is enabled. -/
def after (s : EventQueues) (ls : List EventStep) (enabled : (eventMachine.run s ls).isSome) : EventQueues :=
  (eventMachine.run s ls).get enabled

theorem run_after {s : EventQueues} {ls : List EventStep} {enabled : (eventMachine.run s ls).isSome} :
    eventMachine.run s ls = some (s.after ls enabled) :=
  (Option.some_get enabled).symm

end EventQueues

end AppleBce

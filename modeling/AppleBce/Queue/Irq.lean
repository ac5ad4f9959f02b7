import AppleBce.Basis.Ring
import AppleBce.Queue.Sq

namespace AppleBce

open Basis

def bceMaxQueueCount : Nat := 0x100

structure BceQueueCq where
  qid : Nat
  elCount : Nat
  data : Nat → BceQeCompletion
  index : Nat

inductive BceQueueType
  | cq
  | sq
  deriving DecidableEq, Repr

/-- The part of `struct apple_bce_device` that the DMA interrupt works on. `queues` gives
the type of the queue a table entry points to; the queues themselves are found by their
qid. `doorbell` is the last index written for a queue. -/
structure AppleBceDevice where
  queues : Nat → Option BceQueueType
  sqs : Nat → BceQueueSq
  cqs : Nat → BceQueueCq
  cqList : List Nat
  doorbell : Nat → Nat

/-- `bce_handle_cq_completion` on the queue table, the submission queues and the filled part
of `int_sq_list`, which is all it looks at. -/
def handleCqCompletion (queues : Nat → Option BceQueueType) (e : BceQeCompletion)
    (acc : (Nat → BceQueueSq) × List Nat) : (Nat → BceQueueSq) × List Nat :=
  if bceMaxQueueCount ≤ e.qid then acc
  else if queues e.qid ≠ some .sq then acc
  else
    match (acc.1 e.qid).acceptCompletion e with
    | none => acc
    | some sq =>
      (Function.update acc.1 e.qid sq,
        if (acc.1 e.qid).hasPendingCompletions then acc.2 else acc.2 ++ [e.qid])

namespace AppleBceDevice

/-- The entry the completion queue looks at next. -/
def cqElement (dev : AppleBceDevice) (cq : Nat) : BceQeCompletion :=
  (dev.cqs cq).data (dev.cqs cq).index

/-- One round of the loop in `bce_poll_cq`: handle the entry, clear its flags and advance. -/
def pollRound (dev : AppleBceDevice) (cq : Nat) (ce : List Nat) : AppleBceDevice × List Nat :=
  let handled := handleCqCompletion dev.queues (dev.cqElement cq) (dev.sqs, ce)
  ({ dev with
    sqs := handled.1
    cqs := Function.update dev.cqs cq
      { dev.cqs cq with
        data := Function.update (dev.cqs cq).data (dev.cqs cq).index
          { dev.cqElement cq with flags := 0 }
        index := ((dev.cqs cq).index + 1) % (dev.cqs cq).elCount } }, handled.2)

/-- The loop of `bce_poll_cq`. Each round clears one flag, so `elCount` rounds are enough. -/
def pollLoop (cq : Nat) : Nat → AppleBceDevice → List Nat → AppleBceDevice × List Nat
  | 0, dev, ce => (dev, ce)
  | rounds + 1, dev, ce =>
    if (dev.cqElement cq).pending then
      pollLoop cq rounds (dev.pollRound cq ce).1 (dev.pollRound cq ce).2
    else (dev, ce)

/-- `bce_poll_cq`. -/
def pollCq (dev : AppleBceDevice) (cq : Nat) (ce : List Nat) : AppleBceDevice × List Nat :=
  if (dev.cqElement cq).pending then
    let polled := pollLoop cq (dev.cqs cq).elCount dev ce
    ({ polled.1 with
      doorbell := Function.update polled.1.doorbell cq (polled.1.cqs cq).index }, polled.2)
  else (dev, ce)

end AppleBceDevice

/-- What a handler that notifies once per completion does with the ring: it takes every
completion, with `sq->head` as the slot it belongs to. One round per completion, so
`elCount` rounds are enough. -/
def drainCompletions : Nat → BceQueueSq → List (Nat × BceSqCompletionData) × BceQueueSq
  | 0, sq => ([], sq)
  | rounds + 1, sq =>
    match sq.nextCompletion with
    | none => ([], sq)
    | some (c, taken) =>
      let rest := drainCompletions rounds taken.notifySubmissionComplete
      ((taken.head, c) :: rest.1, rest.2)

/-- The completions a queue has harvested and its handler has not taken, oldest first. -/
def BceQueueSq.unread (sq : BceQueueSq) : List BceSqCompletionData :=
  window sq.elCount sq.completionData sq.completionCidx
    ((sq.completionTail + sq.elCount - sq.completionCidx) % sq.elCount)

theorem BceQueueSq.unread_eq {sq : BceQueueSq} {n pos h : Nat} (size : sq.elCount = n) (bound : h < n)
    (cidx : sq.completionCidx = pos % n) (tail : sq.completionTail = (pos + h) % n) :
    sq.unread = window n sq.completionData pos h := by
  rw [unread, size, cidx, tail, ring_distance_nat pos bound, window_mod]

/-- Draining takes every unread completion, each with the slot the head stands at. -/
theorem drainCompletions_eq {sq : BceQueueSq} {n pos head h : Nat} (rounds : Nat) (size : sq.elCount = n)
    (bound : h < n) (cidx : sq.completionCidx = pos % n) (tail : sq.completionTail = (pos + h) % n)
    (atHead : sq.head = head % n) (enough : h ≤ rounds) :
    drainCompletions rounds sq =
      ((slots n head h).zip (window n sq.completionData pos h),
        { sq with
          completionCidx := (pos + h) % n
          head := (head + h) % n
          availableCommands := sq.availableCommands + h }) := by
  induction h generalizing sq pos head rounds with
  | zero =>
    have none : sq.nextCompletion = none :=
      BceQueueSq.nextCompletion_of_distance size bound cidx tail
    have same : sq = { sq with
        completionCidx := (pos + 0) % n
        head := (head + 0) % n
        availableCommands := sq.availableCommands + (0 : Nat) } := by
      simp [← cidx, ← atHead]
    rw [← same]
    cases rounds with
    | zero => rfl
    | succ rounds =>
      rw [drainCompletions, none]
      rfl
  | succ h ih =>
    obtain ⟨rounds, rfl⟩ : ∃ k, rounds = k + 1 := ⟨rounds - 1, by omega⟩
    have taken : sq.nextCompletion = some (sq.completionData (pos % n),
        { sq with completionCidx := (pos + 1) % n }) :=
      BceQueueSq.nextCompletion_of_distance size bound cidx tail
    let next := BceQueueSq.notifySubmissionComplete { sq with completionCidx := (pos + 1) % n }
    have nextTail : next.completionTail = (pos + 1 + h) % n := tail.trans (by congr 1; omega)
    have nextHead : next.head = (head + 1) % n := by
      simp only [next, BceQueueSq.notifySubmissionComplete, atHead, size, Nat.mod_add_mod]
    have rest := ih rounds (show next.elCount = n from size) (by omega) rfl nextTail nextHead (by omega)
    simp only [next] at rest
    rw [drainCompletions, taken]
    simp only [rest]
    have shift : ∀ k, k + 1 + h = k + (h + 1) := fun k => by omega
    have count : sq.availableCommands + 1 + (h : Int) = sq.availableCommands + ((h + 1 : Nat) : Int) := by
      omega
    simp only [BceQueueSq.notifySubmissionComplete, slots, window_succ, List.zip_cons_cons, id_eq,
      atHead, shift, count]

namespace AppleBceDevice

/-- One round of `bce_dispatch_sq_completions`. A handler that runs inline drains its
queue; one that queues work leaves the completions to its worker. -/
def dispatchSq (dev : AppleBceDevice) (inline : Bool) (qid : Nat) :
    AppleBceDevice × List (Nat × BceSqCompletionData) :=
  let drained := if inline then drainCompletions (dev.sqs qid).elCount (dev.sqs qid)
    else ([], dev.sqs qid)
  ({ dev with
    sqs := Function.update dev.sqs qid { drained.2 with hasPendingCompletions := false } }, drained.1)

end AppleBceDevice

/-- A completion queue whose unharvested entries are `es`: they lie behind the index in
order, and no other entry is flagged. -/
structure BceQueueCq.Holds (cq : BceQueueCq) (es : List BceQeCompletion) : Prop where
  index : cq.index < cq.elCount
  length : es.length ≤ cq.elCount
  entries : window cq.elCount cq.data cq.index es.length = es
  flagged : ∀ e ∈ es, e.pending
  clear : ∀ k, es.length ≤ k → k < cq.elCount → ¬(cq.data ((cq.index + k) % cq.elCount)).pending

namespace BceQueueCq.Holds

theorem element_cons {cq : BceQueueCq} {e : BceQeCompletion} {es : List BceQeCompletion}
    (holds : cq.Holds (e :: es)) : cq.data cq.index = e := by
  have entries := holds.entries
  rw [List.length_cons, window_succ, Nat.mod_eq_of_lt holds.index] at entries
  exact (List.cons.inj entries).1

theorem element_nil {cq : BceQueueCq} (holds : cq.Holds []) : ¬(cq.data cq.index).pending := by
  have clear := holds.clear 0 (by simp) (by have := holds.index; omega)
  rwa [Nat.add_zero, Nat.mod_eq_of_lt holds.index] at clear

theorem cleared_not_pending (e : BceQeCompletion) : ¬({ e with flags := 0 } : BceQeCompletion).pending := by
  simp [BceQeCompletion.pending]

/-- Clearing the oldest entry and advancing the index removes it. -/
theorem pop {cq : BceQueueCq} {e : BceQeCompletion} {es : List BceQeCompletion}
    (holds : cq.Holds (e :: es)) :
    Holds { cq with
      data := Function.update cq.data cq.index { cq.data cq.index with flags := 0 }
      index := (cq.index + 1) % cq.elCount } es := by
  have index := holds.index
  have length := holds.length
  rw [List.length_cons] at length
  -- the cleared cell is not among the next `elCount - 1` cells
  have other : ∀ k, k + 1 < cq.elCount → (cq.index + (k + 1)) % cq.elCount ≠ cq.index := by
    intro k bound same
    have zero : (cq.index + (k + 1)) % cq.elCount = (cq.index + 0) % cq.elCount := by
      rw [same, Nat.add_zero, Nat.mod_eq_of_lt index]
    exact ring_index_ne bound (by omega) (by omega) zero
  have moved : ∀ k, ((cq.index + 1) % cq.elCount + k) % cq.elCount =
      (cq.index + (k + 1)) % cq.elCount := by
    intro k
    rw [Nat.mod_add_mod]
    congr 1
    omega
  constructor
  case index => exact Nat.mod_lt _ (by omega : 0 < cq.elCount)
  case length => exact Nat.le_of_succ_le length
  case entries =>
    have entries := holds.entries
    rw [List.length_cons, window_succ] at entries
    rw [window_mod]
    refine Eq.trans (window_congr ?_) (List.cons.inj entries).2
    intro k before
    refine Function.update_of_ne ?_ ..
    have := other k (by omega)
    rwa [show cq.index + 1 + k = cq.index + (k + 1) by omega]
  case flagged => exact fun x member => holds.flagged x (List.mem_cons_of_mem _ member)
  case clear =>
    intro k lower upper
    simp only [moved] at upper ⊢
    by_cases last : k + 1 = cq.elCount
    · -- the cell just cleared is now the farthest one
      rw [last, Nat.add_mod_right, Nat.mod_eq_of_lt index, Function.update_self]
      exact cleared_not_pending _
    · rw [Function.update_of_ne (other k (by omega))]
      exact holds.clear (k + 1) (by simp only [List.length_cons]; omega) (by omega)

/-- The device writes the next entry behind the unharvested ones. -/
theorem push {cq : BceQueueCq} {es : List BceQeCompletion} (holds : cq.Holds es)
    (room : es.length < cq.elCount) {e : BceQeCompletion} (pending : e.pending) :
    Holds { cq with data := Function.update cq.data ((cq.index + es.length) % cq.elCount) e }
      (es ++ [e]) := by
  constructor
  case index => exact holds.index
  case length => simp only [List.length_append, List.length_singleton]; omega
  case entries =>
    simp only [List.length_append, List.length_singleton]
    rw [window_push _ _ room, holds.entries]
  case flagged =>
    intro x member
    rcases List.mem_append.mp member with old | new
    · exact holds.flagged x old
    · rw [List.mem_singleton.mp new]
      exact pending
  case clear =>
    intro k lower upper
    simp only [List.length_append, List.length_singleton] at lower
    simp only
    rw [Function.update_of_ne (ring_index_ne upper room (by omega))]
    exact holds.clear k (by omega) upper

end BceQueueCq.Holds

/-- Handling a list of entries, oldest first. -/
def handleCqCompletions (queues : Nat → Option BceQueueType) (es : List BceQeCompletion)
    (acc : (Nat → BceQueueSq) × List Nat) : (Nat → BceQueueSq) × List Nat :=
  es.foldl (fun acc e => handleCqCompletion queues e acc) acc

namespace AppleBceDevice

/-- The loop handles exactly the unharvested entries, in order, and leaves an empty
completion queue whose index has advanced by their number. -/
theorem pollLoop_eq {dev : AppleBceDevice} {cq rounds : Nat} {es : List BceQeCompletion}
    (ce : List Nat) (holds : (dev.cqs cq).Holds es) (enough : es.length ≤ rounds) :
    ∃ q : BceQueueCq, q.Holds [] ∧ q.elCount = (dev.cqs cq).elCount ∧
      q.index = ((dev.cqs cq).index + es.length) % (dev.cqs cq).elCount ∧
      pollLoop cq rounds dev ce =
        ({ dev with
          sqs := (handleCqCompletions dev.queues es (dev.sqs, ce)).1
          cqs := Function.update dev.cqs cq q }, (handleCqCompletions dev.queues es (dev.sqs, ce)).2) := by
  induction es generalizing dev rounds ce with
  | nil =>
    have quiet : (dev.cqElement cq).pending = false := by
      simpa only [cqElement, Bool.not_eq_true] using holds.element_nil
    refine ⟨dev.cqs cq, holds, rfl, ?_, ?_⟩
    · rw [List.length_nil, Nat.add_zero, Nat.mod_eq_of_lt holds.index]
    · rw [Function.update_eq_self]
      cases rounds with
      | zero => rfl
      | succ rounds => simp [pollLoop, quiet, handleCqCompletions]
  | cons e es ih =>
    obtain ⟨rounds, rfl⟩ : ∃ k, rounds = k + 1 := ⟨rounds - 1, by simp at enough; omega⟩
    have first : dev.cqElement cq = e := holds.element_cons
    have pending : (dev.cqElement cq).pending := by
      rw [first]
      exact holds.flagged e (List.mem_cons_self ..)
    have rest : ((dev.pollRound cq ce).1.cqs cq).Holds es := by
      simp only [pollRound, Function.update_self]
      exact holds.pop
    obtain ⟨q, empty, elCount, index, looped⟩ :=
      ih (dev.pollRound cq ce).2 rest (by simpa using enough)
    refine ⟨q, empty, ?_, ?_, ?_⟩
    · simpa only [pollRound, Function.update_self] using elCount
    · simp only [pollRound, Function.update_self, Nat.mod_add_mod] at index
      rw [index, List.length_cons]
      congr 1
      omega
    · rw [pollLoop, if_pos pending, looped]
      simp only [pollRound, Function.update_idem, handleCqCompletions, List.foldl_cons, first]

/-- The effect of `bce_poll_cq` on a completion queue with unharvested entries `es`. -/
theorem pollCq_eq {dev : AppleBceDevice} {cq : Nat} {es : List BceQeCompletion}
    (ce : List Nat) (holds : (dev.cqs cq).Holds es) :
    ∃ (q : BceQueueCq) (doorbell : Nat → Nat), q.Holds [] ∧ q.elCount = (dev.cqs cq).elCount ∧
      q.index = ((dev.cqs cq).index + es.length) % (dev.cqs cq).elCount ∧
      dev.pollCq cq ce =
        ({ dev with
          sqs := (handleCqCompletions dev.queues es (dev.sqs, ce)).1
          cqs := Function.update dev.cqs cq q
          doorbell }, (handleCqCompletions dev.queues es (dev.sqs, ce)).2) := by
  obtain ⟨q, empty, elCount, index, looped⟩ := pollLoop_eq ce holds holds.length
  by_cases pending : (dev.cqElement cq).pending
  · refine ⟨q, Function.update dev.doorbell cq q.index, empty, elCount, index, ?_⟩
    rw [pollCq, if_pos pending]
    simp only [looped, Function.update_self]
  · -- nothing is unharvested, so neither the loop nor the doorbell write takes place
    obtain rfl : es = [] := by
      cases es with
      | nil => rfl
      | cons e es =>
        rw [cqElement, holds.element_cons] at pending
        exact absurd (holds.flagged e (List.mem_cons_self ..)) pending
    refine ⟨dev.cqs cq, dev.doorbell, holds, rfl, ?_, ?_⟩
    · rw [List.length_nil, Nat.add_zero, Nat.mod_eq_of_lt holds.index]
    · rw [pollCq, if_neg pending, Function.update_eq_self, handleCqCompletions, List.foldl_nil]

end AppleBceDevice

end AppleBce

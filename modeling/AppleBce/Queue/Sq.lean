import AppleBce.Basis.Ring
import Mathlib.Tactic.Common

namespace AppleBce

open Basis

/-- `enum bce_qe_completion_status`, as the numbers the device writes. -/
def bceCompletionSuccess : Nat := 0
def bceCompletionAborted : Nat := 2

/-- `BCE_COMPLETION_FLAG_PENDING`. -/
def bceCompletionFlagPending : BitVec 16 := 0x8000

structure BceSqCompletionData where
  status : Nat
  dataSize : Nat
  result : Nat
  deriving DecidableEq, Repr

instance : Inhabited BceSqCompletionData :=
  ⟨⟨0, 0, 0⟩⟩

structure BceQeCompletion where
  result : Nat
  dataSize : Nat
  qid : Nat
  completionIndex : Nat
  status : Nat
  flags : BitVec 16
  deriving DecidableEq, Repr

/-- The fields an entry leaves in the completion ring of its queue. -/
def BceQeCompletion.data (e : BceQeCompletion) : BceSqCompletionData :=
  ⟨e.status, e.dataSize, e.result⟩

def BceQeCompletion.pending (e : BceQeCompletion) : Bool :=
  e.flags &&& bceCompletionFlagPending != 0

/-- `struct bce_queue_sq`. The indices are `u32` values below `elCount`, so the successor
taken before each reduction cannot wrap. -/
structure BceQueueSq where
  qid : Nat
  elCount : Nat
  availableCommands : Int
  head : Nat
  tail : Nat
  completionCidx : Nat
  completionTail : Nat
  completionData : Nat → BceSqCompletionData
  hasPendingCompletions : Bool

/-- `bce_alloc_sq` when its allocations succeed. The zeroed completion table of `elCount`
entries has to fit one allocation, which keeps `elCount - 1` inside `atomic_t`. -/
def bceAllocSq (qid elCount : Nat) : BceQueueSq where
  qid := qid
  elCount := elCount
  availableCommands := (elCount : Int) - 1
  head := 0
  tail := 0
  completionCidx := 0
  completionTail := 0
  completionData := fun _ => default
  hasPendingCompletions := false

namespace BceQueueSq

/-- `atomic_dec_if_positive` on `available_commands`; `none` is its negative result. -/
def decIfPositive (sq : BceQueueSq) : Option BceQueueSq :=
  if 0 < sq.availableCommands then some { sq with availableCommands := sq.availableCommands - 1 }
  else none

/-- `bce_reserve_submission`. Each wait that a blocked caller makes returns the time left
and finds the queue as the other parties left it; `none` is `-EAGAIN`. -/
def reserveSubmission : List (Nat × BceQueueSq) → Option Nat → BceQueueSq → Option BceQueueSq
  | [], _, sq => sq.decIfPositive
  | (left, found) :: waits, timeout, sq =>
    match sq.decIfPositive with
    | some taken => some taken
    | none => if timeout.getD 0 = 0 then none else reserveSubmission waits (some left) found

/-- `bce_cancel_submission_reservation`. -/
def cancelSubmissionReservation (sq : BceQueueSq) : BceQueueSq :=
  { sq with availableCommands := sq.availableCommands + 1 }

/-- `bce_next_submission`, with the slot of the element it returns. -/
def nextSubmission (sq : BceQueueSq) : Nat × BceQueueSq :=
  (sq.tail, { sq with tail := (sq.tail + 1) % sq.elCount })

/-- `bce_notify_submission_complete`. -/
def notifySubmissionComplete (sq : BceQueueSq) : BceQueueSq :=
  { sq with
    head := (sq.head + 1) % sq.elCount
    availableCommands := sq.availableCommands + 1 }

/-- `bce_next_completion`. -/
def nextCompletion (sq : BceQueueSq) : Option (BceSqCompletionData × BceQueueSq) :=
  if sq.completionCidx = sq.completionTail then none
  else some (sq.completionData sq.completionCidx,
    { sq with completionCidx := (sq.completionCidx + 1) % sq.elCount })

/-- The part of `bce_handle_cq_completion` behind the lookup of the target queue; `none`
is the completion index mismatch, which drops the entry. -/
def acceptCompletion (sq : BceQueueSq) (e : BceQeCompletion) : Option BceQueueSq :=
  if sq.completionTail ≠ e.completionIndex then none
  else some { sq with
    hasPendingCompletions := true
    completionData := Function.update sq.completionData e.completionIndex e.data
    completionTail := (sq.completionTail + 1) % sq.elCount }

theorem decIfPositive_some {sq taken : BceQueueSq} (run : sq.decIfPositive = some taken) :
    0 < sq.availableCommands ∧
      taken = { sq with availableCommands := sq.availableCommands - 1 } := by
  unfold decIfPositive at run
  split at run
  · rename_i positive
    exact ⟨positive, (Option.some.inj run).symm⟩
  · simp at run

theorem nextCompletion_some {sq after : BceQueueSq} {c : BceSqCompletionData}
    (run : sq.nextCompletion = some (c, after)) :
    sq.completionCidx ≠ sq.completionTail ∧ c = sq.completionData sq.completionCidx ∧
      after = { sq with completionCidx := (sq.completionCidx + 1) % sq.elCount } := by
  unfold nextCompletion at run
  split at run
  · simp at run
  · rename_i unread
    cases Option.some.inj run
    exact ⟨unread, rfl, rfl⟩

/-- A ring whose indices are `h` apart gives the completion at the older index first. -/
theorem nextCompletion_of_distance {sq : BceQueueSq} {n pos h : Nat} (size : sq.elCount = n)
    (bound : h < n) (cidx : sq.completionCidx = pos % n) (tail : sq.completionTail = (pos + h) % n) :
    sq.nextCompletion =
      if h = 0 then none
      else some (sq.completionData (pos % n), { sq with completionCidx := (pos + 1) % n }) := by
  by_cases empty : h = 0
  · rw [if_pos empty, nextCompletion, if_pos (by rw [cidx, tail, empty, Nat.add_zero])]
  · have differ : pos % n ≠ (pos + h) % n :=
      ring_index_ne (i := 0) (by omega) bound (Ne.symm empty)
    simp only [nextCompletion, cidx, tail, differ, empty, ↓reduceIte, size, Nat.mod_add_mod]

theorem acceptCompletion_of_index {sq : BceQueueSq} {e : BceQeCompletion}
    (same : sq.completionTail = e.completionIndex) :
    sq.acceptCompletion e = some { sq with
      hasPendingCompletions := true
      completionData := Function.update sq.completionData e.completionIndex e.data
      completionTail := (sq.completionTail + 1) % sq.elCount } := by
  simp [acceptCompletion, same]

end BceQueueSq

end AppleBce

import AppleBce.Queue.Irq

namespace AppleBce

open Basis

namespace BceQueueCq

variable {cq : BceQueueCq} {e : BceQeCompletion} {es : List BceQeCompletion}

/-- The pending entries from the index on, up to the first that is not pending. -/
def pendingRun (cq : BceQueueCq) : List BceQeCompletion :=
  (window cq.elCount cq.data cq.index cq.elCount).takeWhile BceQeCompletion.pending

/-- The queue when the next `n` entries are consumed and cleared. -/
def consumed (cq : BceQueueCq) (n : Nat) : BceQueueCq :=
  { cq with
    data := fun i =>
      if i ∈ slots cq.elCount cq.index n then { cq.data i with flags := 0 } else cq.data i
    index := (cq.index + n) % cq.elCount }

/-- The queue when its next entry is consumed and cleared. -/
def popped (cq : BceQueueCq) : BceQueueCq :=
  { cq with
    data := Function.update cq.data cq.index { cq.data cq.index with flags := 0 }
    index := (cq.index + 1) % cq.elCount }

theorem length_pendingRun (cq : BceQueueCq) : cq.pendingRun.length ≤ cq.elCount := by
  have sub : cq.pendingRun.length ≤ (window cq.elCount cq.data cq.index cq.elCount).length :=
    (List.takeWhile_prefix _).length_le
  rwa [length_window] at sub

theorem window_index (index : cq.index < cq.elCount) :
    window cq.elCount cq.data cq.index cq.elCount =
      cq.data cq.index :: window cq.elCount cq.data (cq.index + 1) (cq.elCount - 1) := by
  obtain ⟨m, size⟩ : ∃ m, cq.elCount = m + 1 := ⟨cq.elCount - 1, by omega⟩
  have split := window_succ cq.elCount cq.data cq.index m
  rw [Nat.mod_eq_of_lt index, ← size] at split
  rw [split, size, Nat.add_sub_cancel]

theorem not_pending_of_nil (index : cq.index < cq.elCount) (run : cq.pendingRun = []) :
    (cq.data cq.index).pending = false := by
  rw [pendingRun, window_index index] at run
  by_contra pending
  rw [List.takeWhile_cons_of_pos (by simpa using pending)] at run
  cases run

theorem takeWhile_append_singleton {p : BceQeCompletion → Bool} {l : List BceQeCompletion}
    {x : BceQeCompletion} (stops : p x = false) : (l ++ [x]).takeWhile p = l.takeWhile p := by
  induction l with
  | nil => simp [stops]
  | cons y l ih => simp only [List.cons_append, List.takeWhile_cons, ih]

/-- Consuming the first entry of the run leaves the rest of the run. -/
theorem pendingRun_popped (index : cq.index < cq.elCount) (run : cq.pendingRun = e :: es) :
    cq.data cq.index = e ∧ e.pending ∧ cq.popped.pendingRun = es := by
  rw [pendingRun, window_index index] at run
  have pending : (cq.data cq.index).pending := by
    by_contra stops
    rw [List.takeWhile_cons_of_neg stops] at run
    cases run
  rw [List.takeWhile_cons_of_pos pending] at run
  obtain ⟨rfl, rfl⟩ := List.cons.inj run
  refine ⟨rfl, pending, ?_⟩
  -- the cell cleared is the last of the ring now, and the others are as they were
  obtain ⟨m, size⟩ : ∃ m, cq.elCount = m + 1 := ⟨cq.elCount - 1, by omega⟩
  have last : (cq.index + 1 + m) % cq.elCount = cq.index := by
    rw [show cq.index + 1 + m = cq.index + cq.elCount by omega, Nat.add_mod_right, Nat.mod_eq_of_lt index]
  have same : window cq.elCount (Function.update cq.data cq.index { cq.data cq.index with flags := 0 })
      (cq.index + 1) m = window cq.elCount cq.data (cq.index + 1) m := by
    refine window_congr ?_
    intro k before
    refine Function.update_of_ne ?_ ..
    have apart : (cq.index + (k + 1)) % cq.elCount ≠ (cq.index + 0) % cq.elCount :=
      ring_index_ne (by omega) (by omega) (Nat.succ_ne_zero k)
    rwa [show cq.index + 0 = cq.index from rfl, Nat.mod_eq_of_lt index,
      show cq.index + (k + 1) = cq.index + 1 + k by omega] at apart
  have cells : window cq.elCount cq.popped.data cq.popped.index cq.elCount =
      window cq.elCount cq.data (cq.index + 1) m ++ [{ cq.data cq.index with flags := 0 }] := by
    have split := window_succ_last cq.elCount cq.popped.data (cq.index + 1) m
    rw [← size, last] at split
    simp only [popped, window_mod] at split ⊢
    rw [split, same, Function.update_self]
  have runs : cq.popped.pendingRun = (window cq.elCount cq.popped.data cq.popped.index cq.elCount).takeWhile
      BceQeCompletion.pending := rfl
  rw [runs, cells, takeWhile_append_singleton (by simp [BceQeCompletion.pending]), size, Nat.add_sub_cancel]

theorem consumed_zero (index : cq.index < cq.elCount) : cq.consumed 0 = cq := by
  simp [consumed, Nat.mod_eq_of_lt index]

theorem consumed_popped (index : cq.index < cq.elCount) (n : Nat) :
    cq.popped.consumed n = cq.consumed (n + 1) := by
  have split := window_succ cq.elCount id cq.index n
  rw [Nat.mod_eq_of_lt index] at split
  have cells : ∀ i, (cq.popped.consumed n).data i = (cq.consumed (n + 1)).data i := by
    intro i
    simp only [consumed, popped, slots, window_mod, split, id_eq, List.mem_cons]
    by_cases here : i = cq.index
    · subst here
      simp
    · simp [here]
  have moved : (cq.popped.consumed n).index = (cq.consumed (n + 1)).index := by
    simp only [consumed, popped, Nat.mod_add_mod]
    congr 1
    omega
  calc cq.popped.consumed n
      = { cq with data := (cq.popped.consumed n).data, index := (cq.popped.consumed n).index } := rfl
    _ = { cq with data := (cq.consumed (n + 1)).data, index := (cq.consumed (n + 1)).index } := by
        rw [funext cells, moved]

/-- The entry behind the run is not pending, even when the run was the whole ring. -/
theorem consumed_not_pending (index : cq.index < cq.elCount) :
    ((cq.consumed cq.pendingRun.length).data (cq.consumed cq.pendingRun.length).index).pending = false := by
  induction run : cq.pendingRun generalizing cq with
  | nil =>
    rw [List.length_nil, consumed_zero index]
    exact not_pending_of_nil index run
  | cons e es ih =>
    obtain ⟨-, -, rest⟩ := pendingRun_popped index run
    have inside : cq.popped.index < cq.popped.elCount := Nat.mod_lt _ (by omega)
    have ended := ih inside rest
    rwa [consumed_popped index] at ended

end BceQueueCq

namespace AppleBceDevice

theorem pollRound_popped (dev : AppleBceDevice) (cq : Nat) (ce : List Nat) :
    (dev.pollRound cq ce).1.cqs cq = (dev.cqs cq).popped := by
  rw [pollRound]
  exact Function.update_self ..

/-- The loop of `bce_poll_cq` ends within `el_count` rounds, whatever the ring holds: it handles the
entries of the pending run in order and consumes just these. -/
theorem pollLoop_run {dev : AppleBceDevice} {cq rounds : Nat} (ce : List Nat)
    (index : (dev.cqs cq).index < (dev.cqs cq).elCount) (enough : (dev.cqs cq).pendingRun.length ≤ rounds) :
    pollLoop cq rounds dev ce =
      ({ dev with
        sqs := (handleCqCompletions dev.queues (dev.cqs cq).pendingRun (dev.sqs, ce)).1
        cqs := Function.update dev.cqs cq ((dev.cqs cq).consumed (dev.cqs cq).pendingRun.length) },
        (handleCqCompletions dev.queues (dev.cqs cq).pendingRun (dev.sqs, ce)).2) := by
  induction run : (dev.cqs cq).pendingRun generalizing dev rounds ce with
  | nil =>
    have quiet : (dev.cqElement cq).pending = false := BceQueueCq.not_pending_of_nil index run
    rw [List.length_nil, BceQueueCq.consumed_zero index, Function.update_eq_self]
    cases rounds with
    | zero => rfl
    | succ rounds => simp [pollLoop, quiet, handleCqCompletions]
  | cons e es ih =>
    rw [run] at enough
    obtain ⟨rounds, rfl⟩ : ∃ k, rounds = k + 1 := ⟨rounds - 1, by simp at enough; omega⟩
    obtain ⟨first, pending, rest⟩ := BceQueueCq.pendingRun_popped index run
    have first : dev.cqElement cq = e := first
    have inside : (dev.cqs cq).popped.index < (dev.cqs cq).popped.elCount := Nat.mod_lt _ (by omega)
    have next := dev.pollRound_popped cq ce
    have looped : pollLoop cq rounds (dev.pollRound cq ce).1 (dev.pollRound cq ce).2 = _ :=
      ih (dev.pollRound cq ce).2 (by rw [next]; exact inside) (by rw [next, rest]; simpa using enough)
        (by rw [next, rest])
    rw [pollLoop, if_pos (by rw [first]; exact pending), looped, next, BceQueueCq.consumed_popped index]
    simp only [pollRound, Function.update_idem, handleCqCompletions, List.foldl_cons, first, List.length_cons]

theorem pollCq_run {dev : AppleBceDevice} {cq : Nat} (ce : List Nat)
    (index : (dev.cqs cq).index < (dev.cqs cq).elCount) :
    ∃ doorbell : Nat → Nat, dev.pollCq cq ce =
      ({ dev with
        sqs := (handleCqCompletions dev.queues (dev.cqs cq).pendingRun (dev.sqs, ce)).1
        cqs := Function.update dev.cqs cq ((dev.cqs cq).consumed (dev.cqs cq).pendingRun.length)
        doorbell }, (handleCqCompletions dev.queues (dev.cqs cq).pendingRun (dev.sqs, ce)).2) := by
  have looped := pollLoop_run ce index (dev.cqs cq).length_pendingRun
  by_cases pending : (dev.cqElement cq).pending
  · refine ⟨Function.update dev.doorbell cq ((dev.cqs cq).consumed (dev.cqs cq).pendingRun.length).index, ?_⟩
    rw [pollCq, if_pos pending]
    simp only [looped, Function.update_self]
  · -- without a pending entry neither the loop nor the doorbell write takes place
    obtain run : (dev.cqs cq).pendingRun = [] := by
      rw [BceQueueCq.pendingRun, BceQueueCq.window_index index]
      exact List.takeWhile_cons_of_neg pending
    refine ⟨dev.doorbell, ?_⟩
    rw [pollCq, if_neg pending, run, List.length_nil, BceQueueCq.consumed_zero index, Function.update_eq_self,
      handleCqCompletions, List.foldl_nil]

/-- The first phase of `bce_handle_dma_irq`: polling the completion queues one after the other. -/
def harvest : List Nat → AppleBceDevice → List Nat → AppleBceDevice × List Nat
  | [], dev, ce => (dev, ce)
  | cq :: cqs, dev, ce => harvest cqs (dev.pollCq cq ce).1 (dev.pollCq cq ce).2

/-- The entries that polling the queues finds. -/
def pendingRuns (dev : AppleBceDevice) (cqs : List Nat) : List BceQeCompletion :=
  cqs.flatMap fun cq => (dev.cqs cq).pendingRun

theorem harvest_run (cqs : List Nat) (dev : AppleBceDevice) (ce : List Nat) (distinct : cqs.Nodup)
    (index : ∀ cq ∈ cqs, (dev.cqs cq).index < (dev.cqs cq).elCount) :
    ∃ doorbell : Nat → Nat, harvest cqs dev ce =
      ({ dev with
        sqs := (handleCqCompletions dev.queues (dev.pendingRuns cqs) (dev.sqs, ce)).1
        cqs := fun cq =>
          if cq ∈ cqs then (dev.cqs cq).consumed (dev.cqs cq).pendingRun.length else dev.cqs cq
        doorbell }, (handleCqCompletions dev.queues (dev.pendingRuns cqs) (dev.sqs, ce)).2) := by
  induction cqs generalizing dev ce with
  | nil => exact ⟨dev.doorbell, by simp [harvest, pendingRuns, handleCqCompletions]⟩
  | cons cq cqs ih =>
    obtain ⟨fresh, distinct⟩ := List.nodup_cons.mp distinct
    obtain ⟨rung, polled⟩ := pollCq_run ce (index cq (List.mem_cons_self ..))
    have others : ∀ x ∈ cqs, (dev.pollCq cq ce).1.cqs x = dev.cqs x := by
      intro x member
      have apart : x ≠ cq := by
        rintro rfl
        exact fresh member
      rw [polled]
      exact Function.update_of_ne apart ..
    obtain ⟨doorbell, harvested⟩ := ih (dev.pollCq cq ce).1 (dev.pollCq cq ce).2 distinct fun x member => by
      rw [others x member]
      exact index x (List.mem_cons_of_mem _ member)
    have runs : (dev.pollCq cq ce).1.pendingRuns cqs = dev.pendingRuns cqs :=
      List.flatMap_congr fun x member => by rw [others x member]
    have cells : (fun x => if x ∈ cqs then ((dev.pollCq cq ce).1.cqs x).consumed
          ((dev.pollCq cq ce).1.cqs x).pendingRun.length else (dev.pollCq cq ce).1.cqs x) =
        fun x => if x ∈ cq :: cqs then (dev.cqs x).consumed (dev.cqs x).pendingRun.length else dev.cqs x := by
      funext x
      by_cases later : x ∈ cqs
      · rw [if_pos later, if_pos (List.mem_cons_of_mem _ later), others x later]
      · rw [if_neg later, polled]
        by_cases here : x = cq
        · subst here
          simp
        · simp [here, later]
    refine ⟨doorbell, ?_⟩
    rw [harvest, harvested, runs, cells, polled]
    simp only [pendingRuns, List.flatMap_cons, handleCqCompletions, List.foldl_append]

end AppleBceDevice

section Listing

variable {queues : Nat → Option BceQueueType} {sqs : Nat → BceQueueSq} {e : BceQeCompletion}
  {es : List BceQeCompletion} {ce : List Nat}

/-- `bce_handle_cq_completion` takes the entry: its qid is that of a submission queue whose next
completion it is. -/
def Accepted (queues : Nat → Option BceQueueType) (sqs : Nat → BceQueueSq) (e : BceQeCompletion) : Prop :=
  e.qid < bceMaxQueueCount ∧ queues e.qid = some .sq ∧ (sqs e.qid).completionTail = e.completionIndex

instance (queues : Nat → Option BceQueueType) (sqs : Nat → BceQueueSq) (e : BceQeCompletion) :
    Decidable (Accepted queues sqs e) :=
  inferInstanceAs (Decidable (_ ∧ _ ∧ _))

/-- The queues of the entries that are accepted, in order. -/
def acceptedQids (queues : Nat → Option BceQueueType) : List BceQeCompletion → (Nat → BceQueueSq) → List Nat
  | [], _ => []
  | e :: es, sqs =>
    if Accepted queues sqs e then
      e.qid :: acceptedQids queues es (handleCqCompletion queues e (sqs, [])).1
    else acceptedQids queues es sqs

theorem handleCqCompletion_dropped (dropped : ¬Accepted queues sqs e) :
    handleCqCompletion queues e (sqs, ce) = (sqs, ce) := by
  unfold handleCqCompletion
  split
  · rfl
  · rename_i range
    split
    · rfl
    · rename_i live
      have differs : (sqs e.qid).completionTail ≠ e.completionIndex :=
        fun same => dropped ⟨by omega, by simpa using live, same⟩
      simp [BceQueueSq.acceptCompletion, differs]

/-- A queue that takes an entry. -/
def accepting (sq : BceQueueSq) (e : BceQeCompletion) : BceQueueSq :=
  { sq with
    hasPendingCompletions := true
    completionData := Function.update sq.completionData e.completionIndex e.data
    completionTail := (sq.completionTail + 1) % sq.elCount }

theorem handleCqCompletion_accepted (accepted : Accepted queues sqs e) (ce : List Nat) :
    handleCqCompletion queues e (sqs, ce) = (Function.update sqs e.qid (accepting (sqs e.qid) e),
      if (sqs e.qid).hasPendingCompletions then ce else ce ++ [e.qid]) := by
  obtain ⟨range, live, same⟩ := accepted
  unfold handleCqCompletion
  rw [if_neg (by omega), if_neg (by simp [live])]
  simp only [BceQueueSq.acceptCompletion_of_index same, accepting]

/-- `int_sq_list` holds just the live queues that are flagged, each once. -/
structure Lists (queues : Nat → Option BceQueueType) (sqs : Nat → BceQueueSq) (ce : List Nat) : Prop where
  nodup : ce.Nodup
  live : ∀ q ∈ ce, q < bceMaxQueueCount ∧ queues q = some .sq
  flagged : ∀ q, queues q = some .sq → ((sqs q).hasPendingCompletions = true ↔ q ∈ ce)

theorem Lists.accepted (lists : Lists queues sqs ce) (accepted : Accepted queues sqs e) :
    Lists queues (Function.update sqs e.qid (accepting (sqs e.qid) e))
        (if (sqs e.qid).hasPendingCompletions then ce else ce ++ [e.qid]) ∧
      ∀ q, q ∈ (if (sqs e.qid).hasPendingCompletions then ce else ce ++ [e.qid]) ↔ q ∈ ce ∨ q = e.qid := by
  obtain ⟨range, live, -⟩ := accepted
  have here := lists.flagged e.qid live
  have members : ∀ q, q ∈ (if (sqs e.qid).hasPendingCompletions then ce else ce ++ [e.qid]) ↔
      q ∈ ce ∨ q = e.qid := by
    intro q
    split
    · rename_i listed
      have listed := here.mp listed
      constructor
      · exact .inl
      · rintro (member | rfl)
        · exact member
        · exact listed
    · rw [List.mem_append, List.mem_singleton]
  refine ⟨⟨?_, ?_, ?_⟩, members⟩
  · split
    · exact lists.nodup
    · rename_i fresh
      exact List.nodup_append.mpr ⟨lists.nodup, List.nodup_singleton _, fun q member x same => by
        rw [List.mem_singleton.mp same]
        rintro rfl
        exact fresh (here.mpr member)⟩
  · intro q member
    rcases (members q).mp member with old | rfl
    · exact lists.live q old
    · exact ⟨range, live⟩
  · intro q alive
    rw [members]
    by_cases same : q = e.qid
    · subst same
      simp [accepting]
    · rw [Function.update_of_ne same, lists.flagged q alive]
      simp [same]

/-- Handling entries lists the queues of those that are accepted. -/
theorem Lists.handled (lists : Lists queues sqs ce) (es : List BceQeCompletion) :
    Lists queues (handleCqCompletions queues es (sqs, ce)).1 (handleCqCompletions queues es (sqs, ce)).2 ∧
      ∀ q, q ∈ (handleCqCompletions queues es (sqs, ce)).2 ↔ q ∈ ce ∨ q ∈ acceptedQids queues es sqs := by
  induction es generalizing sqs ce with
  | nil => exact ⟨lists, fun q => by simp [handleCqCompletions, acceptedQids]⟩
  | cons e es ih =>
    rw [handleCqCompletions, List.foldl_cons]
    by_cases accepted : Accepted queues sqs e
    · obtain ⟨next, members⟩ := lists.accepted accepted
      obtain ⟨last, all⟩ := ih next
      rw [handleCqCompletion_accepted accepted]
      refine ⟨last, ?_⟩
      intro q
      rw [acceptedQids, if_pos accepted, handleCqCompletion_accepted accepted, List.mem_cons, ← or_assoc, ← members]
      exact all q
    · rw [handleCqCompletion_dropped accepted, acceptedQids, if_neg accepted]
      exact ih lists

theorem Lists.length_le (lists : Lists queues sqs ce) : ce.length ≤ bceMaxQueueCount := by
  have inside : ce ⊆ List.range bceMaxQueueCount :=
    fun q member => List.mem_range.mpr (lists.live q member).1
  have few := lists.nodup.length_le_of_subset inside
  rwa [List.length_range] at few

end Listing

/-- The completion handler of a queue: whatever it does to the device, the flags that tell which
queues are in `int_sq_list` are not its business. -/
structure SqCompletion where
  run : AppleBceDevice → AppleBceDevice
  flags : ∀ dev q, ((run dev).sqs q).hasPendingCompletions = (dev.sqs q).hasPendingCompletions

/-- A pass of the interrupt: the device and `int_sq_list` when the first handler is called, the queues
whose handlers are called, in order, and the device at the end. -/
structure IrqPass where
  harvested : AppleBceDevice
  intSqList : List Nat
  called : List Nat
  after : AppleBceDevice

namespace AppleBceDevice

variable {dev : AppleBceDevice}

/-- `bce_dispatch_sq_completions`: the queues whose handlers it calls and the device it leaves. -/
def dispatchSqCompletions (completion : Nat → SqCompletion) : List Nat → AppleBceDevice → List Nat × AppleBceDevice
  | [], dev => ([], dev)
  | q :: ce, dev =>
    let handled := (completion q).run dev
    let cleared := { handled with
      sqs := Function.update handled.sqs q { handled.sqs q with hasPendingCompletions := false } }
    let rest := dispatchSqCompletions completion ce cleared
    (q :: rest.1, rest.2)

/-- `bce_handle_dma_irq`. -/
def handleDmaIrq (completion : Nat → SqCompletion) (dev : AppleBceDevice) : IrqPass :=
  let polled := harvest dev.cqList dev []
  let dispatched := dispatchSqCompletions completion polled.2 polled.1
  { harvested := polled.1, intSqList := polled.2, called := dispatched.1, after := dispatched.2 }

/-- The device between two passes: every completion queue is listed once and stands at one of its
entries, and no queue is flagged. -/
structure Idle (dev : AppleBceDevice) : Prop where
  distinct : dev.cqList.Nodup
  index : ∀ cq ∈ dev.cqList, (dev.cqs cq).index < (dev.cqs cq).elCount
  flags : ∀ q, dev.queues q = some .sq → (dev.sqs q).hasPendingCompletions = false

theorem dispatch_called (completion : Nat → SqCompletion) (ce : List Nat) (dev : AppleBceDevice) :
    (dispatchSqCompletions completion ce dev).1 = ce := by
  induction ce generalizing dev with
  | nil => rfl
  | cons q ce ih => rw [dispatchSqCompletions, ih]

/-- After the handlers no queue is flagged that was not flagged without being listed. -/
theorem dispatch_flags {q : Nat} (completion : Nat → SqCompletion) (ce : List Nat) (dev : AppleBceDevice)
    (flag : q ∉ ce → (dev.sqs q).hasPendingCompletions = false) :
    ((dispatchSqCompletions completion ce dev).2.sqs q).hasPendingCompletions = false := by
  induction ce generalizing dev with
  | nil => exact flag List.not_mem_nil
  | cons x ce ih =>
    rw [dispatchSqCompletions]
    refine ih _ ?_
    intro fresh
    by_cases here : q = x
    · subst here
      simp
    · simp only [Function.update_of_ne here, (completion x).flags]
      exact flag (by simp [here, fresh])

/-- When the interrupt gets to a completion queue, its loop ends by itself within `el_count` rounds. -/
theorem pollLoop_ends {before after : List Nat} {cq : Nat} (idle : dev.Idle)
    (listed : dev.cqList = before ++ cq :: after) :
    let reached := harvest before dev []
    ((pollLoop cq (dev.cqs cq).elCount reached.1 reached.2).1.cqElement cq).pending = false := by
  intro reached
  have distinct := idle.distinct
  have index := idle.index
  rw [listed] at distinct index
  have fresh : cq ∉ before := fun member => (List.nodup_middle.mp distinct).notMem (List.mem_append_left _ member)
  obtain ⟨doorbell, harvested⟩ := harvest_run before dev [] (List.nodup_append.mp distinct).1
    fun x member => index x (List.mem_append_left _ member)
  have same : reached.1.cqs cq = dev.cqs cq := by
    simp only [reached, harvested, if_neg fresh]
  have inside := index cq (by simp)
  rw [← same] at inside
  have looped := pollLoop_run reached.2 inside (reached.1.cqs cq).length_pendingRun
  rw [← same, looped]
  simp only [cqElement, Function.update_self]
  exact BceQueueCq.consumed_not_pending inside

/-- One pass of the interrupt while the device does not write, whatever the rings hold. Each loop over a
completion queue ends within `el_count` rounds, having consumed just the run of pending entries; the
queues with an accepted entry are in `int_sq_list`, each once; then the handler of each of these is
called once, and at the end no queue is flagged. -/
theorem dma_irq_pass (idle : dev.Idle) (completion : Nat → SqCompletion) :
    let pass := dev.handleDmaIrq completion
    (∀ before cq after, dev.cqList = before ++ cq :: after →
      let reached := harvest before dev []
      ((pollLoop cq (dev.cqs cq).elCount reached.1 reached.2).1.cqElement cq).pending = false) ∧
    (∀ cq ∈ dev.cqList, (dev.cqs cq).pendingRun.length ≤ (dev.cqs cq).elCount ∧
      pass.harvested.cqs cq = (dev.cqs cq).consumed (dev.cqs cq).pendingRun.length) ∧
    pass.intSqList.Nodup ∧ pass.intSqList.length ≤ bceMaxQueueCount ∧
    (∀ q, q ∈ pass.intSqList ↔ q ∈ acceptedQids dev.queues (dev.pendingRuns dev.cqList) dev.sqs) ∧
    pass.called = pass.intSqList ∧
    ∀ q, dev.queues q = some .sq → (pass.after.sqs q).hasPendingCompletions = false := by
  intro pass
  obtain ⟨doorbell, harvested⟩ := harvest_run dev.cqList dev [] idle.distinct idle.index
  have begins : Lists dev.queues dev.sqs [] :=
    ⟨.nil, nofun, fun q live => by simp [idle.flags q live]⟩
  obtain ⟨lists, members⟩ := begins.handled (dev.pendingRuns dev.cqList)
  have list : pass.intSqList = (handleCqCompletions dev.queues (dev.pendingRuns dev.cqList) (dev.sqs, [])).2 := by
    simp only [pass, handleDmaIrq, harvested]
  refine ⟨fun before cq after listed => pollLoop_ends idle listed, ?_, ?_, ?_, ?_, ?_, ?_⟩
  · intro cq member
    refine ⟨(dev.cqs cq).length_pendingRun, ?_⟩
    simp only [pass, handleDmaIrq, harvested, if_pos member]
  · rw [list]
    exact lists.nodup
  · rw [list]
    exact lists.length_le
  · intro q
    rw [list, members]
    simp
  · exact dispatch_called ..
  · intro q live
    refine dispatch_flags completion _ _ ?_
    simp only [harvested]
    intro fresh
    have flagged := lists.flagged q live
    simpa [fresh] using flagged

end AppleBceDevice

/-- A device with a submission queue 5 whose completions come in the rings of two completion queues.
One ring is full and holds an entry for a queue that is not there, the other one with a wrong index. -/
def twoRings : AppleBceDevice where
  queues := fun q => if q = 5 then some .sq else if q = 2 ∨ q = 3 then some .cq else none
  sqs := fun q => bceAllocSq q 8
  cqs := fun q =>
    if q = 2 then ⟨2, 4, fun i => ⟨0, 16, if i = 0 then 9 else 5, if i = 3 then 0 else i, 0, 0x8000⟩, 3⟩
    else ⟨3, 4, fun i => ⟨0, 16, 5, i + 1, 0, if i = 0 then 0x8000 else 0⟩, 0⟩
  cqList := [2, 3]
  doorbell := fun _ => 0

/-- A handler that takes all completions of its queue. -/
def drainingCompletion (q : Nat) : SqCompletion where
  run := fun dev => { dev with
    sqs := Function.update dev.sqs q
      { (drainCompletions (dev.sqs q).elCount (dev.sqs q)).2 with
        hasPendingCompletions := (dev.sqs q).hasPendingCompletions } }
  flags := by
    intro dev x
    by_cases same : x = q
    · subst same
      simp
    · simp [Function.update_of_ne same]

theorem dma_irq_pass_two_rings : (twoRings.handleDmaIrq drainingCompletion).called = [5] ∧
    ((twoRings.handleDmaIrq drainingCompletion).after.sqs 5).hasPendingCompletions = false := by
  have idle : twoRings.Idle := by
    refine ⟨by decide, by decide, ?_⟩
    intro q _
    rfl
  obtain ⟨-, -, -, -, -, -, flags⟩ := AppleBceDevice.dma_irq_pass idle drainingCompletion
  exact ⟨by decide, flags 5 rfl⟩

end AppleBce

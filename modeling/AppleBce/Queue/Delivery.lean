import AppleBce.Basis.Machine
import AppleBce.Queue.Flow

namespace AppleBce

open Basis

/-- What is fixed while completions are delivered: the completion queue each submission queue
was registered with, and which handlers drain their queue inline. The others queue work. -/
structure DeliveryConfig where
  cqOf : Nat → Nat
  inline : Nat → Bool

/-- Where `bce_handle_dma_irq` is: not running, or with completion queues still to poll and
the filled part of `int_sq_list`. Dispatching begins when nothing is left to poll. -/
inductive IrqPhase
  | idle
  | running (todo ce : List Nat)

def IrqPhase.todo : IrqPhase → List Nat
  | .idle => []
  | .running todo _ => todo

def IrqPhase.listed : IrqPhase → List Nat
  | .idle => []
  | .running _ ce => ce

/-- What a handler sees when it gets a completion: the slot `sq->head` it reads the data of,
and how many earlier completions it has not notified yet. -/
structure ObtainedCompletion where
  slot : Nat
  owed : Nat
  data : BceSqCompletionData
  deriving DecidableEq, Repr

structure WorkState where
  queued : Bool
  running : Bool
  deriving DecidableEq, Repr

/-- The entries of a stream that belong to queue `q`. -/
def entriesOf (q : Nat) (stream : List BceQeCompletion) : List BceQeCompletion :=
  stream.filter (·.qid = q)

/-- The device next to the interrupt and the workers. `inCq` are the unharvested entries of
each completion queue; `stream` is all the device wrote, and `obtained` what the handler of
each queue got from `bce_next_completion`. -/
structure DeliveryRun where
  dev : AppleBceDevice
  irq : IrqPhase
  work : Nat → WorkState
  owed : Nat → Nat
  inCq : Nat → List BceQeCompletion
  stream : List BceQeCompletion
  obtained : Nat → List ObtainedCompletion

inductive DeliveryStep
  | write (e : BceQeCompletion)
  | irqEnter
  | irqPoll
  | irqDispatch
  | irqLeave
  | workStart (q : Nat)
  | workNext (q : Nat)
  | workNotify (q : Nat)
  | workDone (q : Nat)
  deriving DecidableEq

namespace DeliveryRun

/-- When the device may write `e`: its queue is live, the completion index is the next one,
at most `elCount - 1` completions of the queue stay unread, and the completion queue has a
free entry. -/
def mayWrite (cfg : DeliveryConfig) (s : DeliveryRun) (e : BceQeCompletion) : Prop :=
  e.qid < bceMaxQueueCount ∧ s.dev.queues e.qid = some .sq ∧ e.pending ∧
    e.completionIndex = (entriesOf e.qid s.stream).length % (s.dev.sqs e.qid).elCount ∧
    (entriesOf e.qid s.stream).length + 1 < (s.obtained e.qid).length + (s.dev.sqs e.qid).elCount ∧
    (s.inCq (cfg.cqOf e.qid)).length < (s.dev.cqs (cfg.cqOf e.qid)).elCount

instance (cfg : DeliveryConfig) (s : DeliveryRun) (e : BceQeCompletion) : Decidable (s.mayWrite cfg e) :=
  inferInstanceAs (Decidable (_ ∧ _ ∧ _ ∧ _ ∧ _ ∧ _))

/-- The completion queue after the device wrote `e` behind the unharvested entries. -/
def cqWith (cfg : DeliveryConfig) (s : DeliveryRun) (e : BceQeCompletion) : BceQueueCq :=
  let cq := s.dev.cqs (cfg.cqOf e.qid)
  { cq with
    data := Function.update cq.data ((cq.index + (s.inCq (cfg.cqOf e.qid)).length) % cq.elCount) e }

/-- After the device wrote `e`. -/
def write (cfg : DeliveryConfig) (s : DeliveryRun) (e : BceQeCompletion) : DeliveryRun :=
  { s with
    dev := { s.dev with cqs := Function.update s.dev.cqs (cfg.cqOf e.qid) (s.cqWith cfg e) }
    inCq := Function.update s.inCq (cfg.cqOf e.qid) (s.inCq (cfg.cqOf e.qid) ++ [e])
    stream := s.stream ++ [e] }

/-- After the interrupt polled `cq`, with `todo` still to poll. -/
def poll (s : DeliveryRun) (cq : Nat) (todo ce : List Nat) : DeliveryRun :=
  { s with
    dev := (s.dev.pollCq cq ce).1
    irq := .running todo (s.dev.pollCq cq ce).2
    inCq := Function.update s.inCq cq [] }

/-- After the interrupt called the handler of `q`, with `ce` still to dispatch. -/
def dispatch (cfg : DeliveryConfig) (s : DeliveryRun) (q : Nat) (ce : List Nat) : DeliveryRun :=
  { s with
    dev := (s.dev.dispatchSq (cfg.inline q) q).1
    irq := .running [] ce
    work := if cfg.inline q then s.work
      else Function.update s.work q { s.work q with queued := true }
    obtained := Function.update s.obtained q (s.obtained q ++
      (s.dev.dispatchSq (cfg.inline q) q).2.map fun got => ⟨got.1, 0, got.2⟩) }

/-- One step of the device, of the interrupt or of a worker. A handler that queues work has
its worker take completions until it finds none; when it notifies is left open. -/
def step (cfg : DeliveryConfig) (s : DeliveryRun) : DeliveryStep → Option DeliveryRun
  | .write e => if s.mayWrite cfg e then some (s.write cfg e) else none
  | .irqEnter =>
    match s.irq with
    | .idle => some { s with irq := .running s.dev.cqList [] }
    | .running .. => none
  | .irqPoll =>
    match s.irq with
    | .running (cq :: todo) ce => some (s.poll cq todo ce)
    | _ => none
  | .irqDispatch =>
    match s.irq with
    | .running [] (q :: ce) => some (s.dispatch cfg q ce)
    | _ => none
  | .irqLeave =>
    match s.irq with
    | .running [] [] => some { s with irq := .idle }
    | _ => none
  | .workStart q =>
    if (s.work q).queued ∧ ¬(s.work q).running then
      some { s with work := Function.update s.work q ⟨false, true⟩ }
    else none
  | .workNext q =>
    if (s.work q).running then
      (s.dev.sqs q).nextCompletion.map fun taken =>
        { s with
          dev := { s.dev with sqs := Function.update s.dev.sqs q taken.2 }
          obtained := Function.update s.obtained q
            (s.obtained q ++ [⟨(s.dev.sqs q).head, s.owed q, taken.1⟩])
          owed := Function.update s.owed q (s.owed q + 1) }
    else none
  | .workNotify q =>
    if (s.work q).running ∧ 0 < s.owed q then
      some { s with
        dev := { s.dev with
          sqs := Function.update s.dev.sqs q (s.dev.sqs q).notifySubmissionComplete }
        owed := Function.update s.owed q (s.owed q - 1) }
    else none
  | .workDone q =>
    if (s.work q).running ∧ (s.dev.sqs q).nextCompletion.isNone then
      some { s with work := Function.update s.work q { s.work q with running := false } }
    else none

/-- The device before its first completion: queues as `bce_alloc_sq` and `bce_alloc_cq` make
them, with submissions outstanding as the callers like. -/
structure Init (cfg : DeliveryConfig) (s : DeliveryRun) : Prop where
  irq : s.irq = .idle
  work : s.work = fun _ => ⟨false, false⟩
  owed : s.owed = fun _ => 0
  inCq : s.inCq = fun _ => []
  stream : s.stream = []
  obtained : s.obtained = fun _ => []
  sq : ∀ q, s.dev.queues q = some .sq → 2 ≤ (s.dev.sqs q).elCount ∧ (s.dev.sqs q).head = 0 ∧
    (s.dev.sqs q).completionCidx = 0 ∧ (s.dev.sqs q).completionTail = 0 ∧
    (s.dev.sqs q).hasPendingCompletions = false ∧ cfg.cqOf q ∈ s.dev.cqList
  cq : ∀ cq ∈ s.dev.cqList, (s.dev.cqs cq).Holds []

end DeliveryRun

def deliveryMachine (cfg : DeliveryConfig) : Machine DeliveryRun DeliveryStep where
  init := DeliveryRun.Init cfg
  step := DeliveryRun.step cfg

/-- The entries of queue `q` that are written and not harvested. -/
def unharvested (cfg : DeliveryConfig) (inCq : Nat → List BceQeCompletion) (q : Nat) :
    List BceQeCompletion :=
  entriesOf q (inCq (cfg.cqOf q))

/-- How the parts of one live queue fit together. -/
structure QueueDelivers (inline : Bool) (sq : BceQueueSq) (listed : Prop) (work : WorkState)
    (owed : Nat) (obtained : List ObtainedCompletion) (written behind : List BceQeCompletion)
    (before harvested : List BceQeCompletion) : Prop where
  flow : SqFlow sq before harvested behind
  written : written = before ++ harvested ++ behind
  taken : obtained.map ObtainedCompletion.data = before.map BceQeCompletion.data
  head : sq.completionCidx = (sq.head + owed) % sq.elCount
  inRing : sq.head < sq.elCount
  slot : ∀ k o, obtained[k]? = some o → o.slot < sq.elCount ∧ (o.slot + o.owed) % sq.elCount = k % sq.elCount
  prompt : inline → owed = 0 ∧ ∀ o ∈ obtained, o.owed = 0
  pending : sq.hasPendingCompletions = true ↔ listed
  waiting : harvested ≠ [] → listed ∨ (¬inline ∧ (work.queued ∨ work.running))

/-- Every live queue, for queues `sqs` and a list `ce` of those with new completions. -/
structure Delivers (cfg : DeliveryConfig) (s : DeliveryRun) (sqs : Nat → BceQueueSq) (ce : List Nat)
    (inCq : Nat → List BceQeCompletion) : Prop where
  nodup : ce.Nodup
  live : ∀ q ∈ ce, s.dev.queues q = some .sq
  queue : ∀ q, s.dev.queues q = some .sq → ∃ before harvested,
    QueueDelivers (cfg.inline q) (sqs q) (q ∈ ce) (s.work q) (s.owed q) (s.obtained q) (entriesOf q s.stream)
      (unharvested cfg inCq q) before harvested

/-- The invariant of the run. -/
structure DeliveryInvariant (cfg : DeliveryConfig) (s : DeliveryRun) : Prop where
  delivers : Delivers cfg s s.dev.sqs s.irq.listed s.inCq
  polled : ∀ q, s.dev.queues q = some .sq → cfg.cqOf q ∈ s.dev.cqList
  todo : ∀ cq ∈ s.irq.todo, cq ∈ s.dev.cqList
  holds : ∀ cq ∈ s.dev.cqList, (s.dev.cqs cq).Holds (s.inCq cq)
  entries : ∀ cq, ∀ e ∈ s.inCq cq,
    e.qid < bceMaxQueueCount ∧ s.dev.queues e.qid = some .sq ∧ cfg.cqOf e.qid = cq
  worker : ∀ q, (s.work q).queued ∨ (s.work q).running → s.dev.queues q = some .sq ∧ ¬cfg.inline q

section Unharvested

@[simp] theorem entriesOf_append (q : Nat) (es fs : List BceQeCompletion) :
    entriesOf q (es ++ fs) = entriesOf q es ++ entriesOf q fs :=
  List.filter_append ..

@[simp] theorem entriesOf_nil (q : Nat) : entriesOf q [] = [] := rfl

theorem entriesOf_cons (e : BceQeCompletion) (es : List BceQeCompletion) :
    entriesOf e.qid (e :: es) = e :: entriesOf e.qid es := by
  simp [entriesOf]

theorem entriesOf_cons_of_ne {q : Nat} {e : BceQeCompletion} (es : List BceQeCompletion)
    (other : q ≠ e.qid) : entriesOf q (e :: es) = entriesOf q es := by
  simp [entriesOf, other.symm]

variable {cfg : DeliveryConfig} {inCq : Nat → List BceQeCompletion} {e : BceQeCompletion}
  {es : List BceQeCompletion} {q : Nat}

/-- Handling an entry takes it from its own queue. -/
theorem unharvested_cons (first : inCq (cfg.cqOf e.qid) = e :: es) :
    unharvested cfg inCq e.qid =
      e :: unharvested cfg (Function.update inCq (cfg.cqOf e.qid) es) e.qid := by
  simp only [unharvested, first, Function.update_self, entriesOf_cons]

theorem unharvested_cons_of_ne (first : inCq (cfg.cqOf e.qid) = e :: es) (other : q ≠ e.qid) :
    unharvested cfg (Function.update inCq (cfg.cqOf e.qid) es) q = unharvested cfg inCq q := by
  by_cases shared : cfg.cqOf q = cfg.cqOf e.qid
  · simp only [unharvested, shared, first, Function.update_self, entriesOf_cons_of_ne es other]
  · simp only [unharvested, Function.update_of_ne shared]

theorem unharvested_write :
    unharvested cfg (Function.update inCq (cfg.cqOf e.qid) (inCq (cfg.cqOf e.qid) ++ [e])) e.qid =
      unharvested cfg inCq e.qid ++ [e] := by
  simp only [unharvested, Function.update_self, entriesOf_append, entriesOf_cons, entriesOf_nil]

theorem unharvested_write_of_ne (other : q ≠ e.qid) :
    unharvested cfg (Function.update inCq (cfg.cqOf e.qid) (inCq (cfg.cqOf e.qid) ++ [e])) q =
      unharvested cfg inCq q := by
  by_cases shared : cfg.cqOf q = cfg.cqOf e.qid
  · simp only [unharvested, shared, Function.update_self, entriesOf_append,
      entriesOf_cons_of_ne [] other, entriesOf_nil, List.append_nil]
  · simp only [unharvested, Function.update_of_ne shared]

end Unharvested

namespace QueueDelivers

variable {inline : Bool} {sq : BceQueueSq} {listed : Prop} {work : WorkState} {owed : Nat}
  {obtained : List ObtainedCompletion} {written behind before harvested : List BceQeCompletion}

theorem length_obtained
    (queue : QueueDelivers inline sq listed work owed obtained written behind before harvested) :
    obtained.length = before.length := by
  simpa using congrArg List.length queue.taken

/-- What has been written is what was obtained, what is unread and what is unharvested. -/
theorem data_eq
    (queue : QueueDelivers inline sq listed work owed obtained written behind before harvested) :
    written.map BceQeCompletion.data =
      obtained.map ObtainedCompletion.data ++ sq.unread ++ behind.map BceQeCompletion.data := by
  rw [queue.written, queue.flow.unread_eq, queue.taken, List.map_append, List.map_append]

theorem write {e : BceQeCompletion}
    (queue : QueueDelivers inline sq listed work owed obtained written behind before harvested)
    (index : e.completionIndex = written.length % sq.elCount)
    (room : written.length + 1 < obtained.length + sq.elCount) :
    QueueDelivers inline sq listed work owed obtained (written ++ [e]) (behind ++ [e]) before
      harvested := by
  have length : written.length = before.length + harvested.length + behind.length := by
    rw [queue.written, List.length_append, List.length_append]
  rw [queue.length_obtained] at room
  refine { queue with flow := queue.flow.write ?_ ?_, written := ?_ }
  · rw [List.length_append]
    omega
  · rw [index, queue.written]
  · rw [queue.written, List.append_assoc]

/-- Harvesting the oldest entry lists the queue. -/
theorem accept {e : BceQeCompletion}
    (queue : QueueDelivers inline sq listed work owed obtained written (e :: behind) before harvested) :
    ∃ after, sq.acceptCompletion e = some after ∧ QueueDelivers inline after True work owed obtained
      written behind before (harvested ++ [e]) := by
  obtain ⟨after, accepted, pending, head, cidx, size, flow⟩ := queue.flow.accept
  refine ⟨after, accepted, ?_⟩
  constructor
  case flow => exact flow
  case written => rw [queue.written, List.append_assoc, List.append_assoc, List.append_assoc,
    List.singleton_append]
  case taken => exact queue.taken
  case head => rw [cidx, head, size]; exact queue.head
  case inRing => rw [head, size]; exact queue.inRing
  case slot => rw [size]; exact queue.slot
  case prompt => exact queue.prompt
  case pending => exact iff_of_true pending trivial
  case waiting => exact fun _ => Or.inl trivial

/-- A round of the dispatch loop whose handler drains the queue. -/
theorem dispatch_inline
    (queue : QueueDelivers true sq listed work owed obtained written behind before harvested) :
    QueueDelivers true { (drainCompletions sq.elCount sq).2 with hasPendingCompletions := false } False
      work owed
      (obtained ++ (drainCompletions sq.elCount sq).1.map fun got => ⟨got.1, 0, got.2⟩)
      written behind (before ++ harvested) [] := by
  obtain ⟨notOwed, notOwedBefore⟩ := queue.prompt rfl
  have atHead : sq.head = sq.completionCidx := by
    rw [queue.head, notOwed, Nat.add_zero, Nat.mod_eq_of_lt queue.inRing]
  have room := queue.flow.room
  rw [List.length_append] at room
  obtain ⟨after, drained, head, size, flow⟩ := queue.flow.drain atHead
  have cidx := flow.cidx
  rw [size] at cidx
  have positive := flow.size
  rw [drained]
  constructor
  case flow => exact flow.congr rfl rfl rfl rfl
  case written => rw [queue.written, List.append_nil]
  case taken =>
    rw [List.map_append, queue.taken, List.map_append, List.map_map]
    congr 1
    exact List.map_snd_zip (by simp)
  case head =>
    simp only [notOwed, Nat.add_zero, head, size, cidx, Nat.mod_mod]
  case inRing =>
    simp only [head, size, cidx]
    exact Nat.mod_lt _ (by omega)
  case slot =>
    simp only [size]
    intro k o at_k
    rcases Nat.lt_or_ge k obtained.length with old | new
    · exact queue.slot k o (by rwa [List.getElem?_append_left old] at at_k)
    · -- the slots of the drained part are consecutive and begin at the number of earlier ones
      rw [List.getElem?_append_right new, List.getElem?_map] at at_k
      obtain ⟨got, zipped, rfl⟩ := Option.map_eq_some_iff.mp at_k
      have slot := (List.getElem?_zip_eq_some.mp zipped).1
      obtain ⟨bound, same⟩ := List.getElem?_eq_some_iff.mp slot
      rw [getElem_window, id_eq] at same
      rw [← same, queue.length_obtained]
      rw [queue.length_obtained] at new
      refine ⟨Nat.mod_lt _ (by omega), ?_⟩
      rw [Nat.add_zero, Nat.mod_mod, Nat.add_sub_cancel' new]
  case prompt =>
    refine fun _ => ⟨notOwed, ?_⟩
    intro o member
    rcases List.mem_append.mp member with old | new
    · exact notOwedBefore o old
    · obtain ⟨got, _, rfl⟩ := List.mem_map.mp new
      rfl
  case pending => simp
  case waiting => exact fun nonempty => absurd rfl nonempty

/-- A round of the dispatch loop whose handler queues its worker. -/
theorem dispatch_work
    (queue : QueueDelivers false sq listed work owed obtained written behind before harvested) :
    QueueDelivers false { sq with hasPendingCompletions := false } False { work with queued := true }
      owed obtained written behind before harvested where
  flow := queue.flow.congr rfl rfl rfl rfl
  written := queue.written
  taken := queue.taken
  head := queue.head
  inRing := queue.inRing
  slot := queue.slot
  prompt := queue.prompt
  pending := by simp
  waiting := fun _ => Or.inr ⟨by simp, Or.inl rfl⟩

/-- Work that starts or ends leaves nothing waiting without a reason. -/
theorem setWork {work' : WorkState}
    (queue : QueueDelivers inline sq listed work owed obtained written behind before harvested)
    (still : harvested ≠ [] → (work.queued ∨ work.running) → (work'.queued ∨ work'.running)) :
    QueueDelivers inline sq listed work' owed obtained written behind before harvested := by
  refine { queue with waiting := fun nonempty => ?_ }
  rcases queue.waiting nonempty with inList | ⟨deferred, active⟩
  · exact Or.inl inList
  · exact Or.inr ⟨deferred, still nonempty active⟩

theorem workNext {c : BceSqCompletionData} {after : BceQueueSq}
    (queue : QueueDelivers false sq listed work owed obtained written behind before harvested)
    (taken : sq.nextCompletion = some (c, after)) :
    ∃ e rest, QueueDelivers false after listed work (owed + 1)
      (obtained ++ [⟨sq.head, owed, c⟩]) written behind (before ++ [e]) rest := by
  obtain ⟨e, rest, rfl, data, flow⟩ := queue.flow.next taken
  obtain ⟨-, -, rfl⟩ := BceQueueSq.nextCompletion_some taken
  refine ⟨e, rest, ?_⟩
  constructor
  case flow => exact flow
  case written => rw [queue.written]; simp
  case taken => simp only [List.map_append, queue.taken, List.map_cons, List.map_nil, data]
  case head => simp only [queue.head, Nat.mod_add_mod, Nat.add_assoc]
  case inRing => exact queue.inRing
  case slot =>
    intro k o at_k
    rcases Nat.lt_or_ge k obtained.length with old | new
    · exact queue.slot k o (by rwa [List.getElem?_append_left old] at at_k)
    · rw [List.getElem?_append_right new] at at_k
      obtain ⟨here, same⟩ := List.getElem?_eq_some_iff.mp at_k
      rw [List.length_singleton] at here
      have last : k = before.length := by
        have := queue.length_obtained
        omega
      rw [List.getElem_singleton] at same
      rw [← same, last]
      exact ⟨queue.inRing, queue.head.symm.trans queue.flow.cidx⟩
  case prompt => simp
  case pending => exact queue.pending
  case waiting => exact fun _ => queue.waiting (List.cons_ne_nil _ _)

theorem workNotify
    (queue : QueueDelivers false sq listed work owed obtained written behind before harvested)
    (owes : 0 < owed) :
    QueueDelivers false sq.notifySubmissionComplete listed work (owed - 1) obtained written behind before
      harvested := by
  have size := queue.flow.size
  refine { queue with flow := queue.flow.congr rfl rfl rfl rfl, head := ?_, inRing := ?_, prompt := ?_ }
  · simp only [BceQueueSq.notifySubmissionComplete, Nat.mod_add_mod]
    rw [queue.head, show sq.head + 1 + (owed - 1) = sq.head + owed by omega]
  · exact Nat.mod_lt _ (by omega)
  · simp

end QueueDelivers

namespace Delivers

variable {cfg : DeliveryConfig} {s : DeliveryRun} {sqs : Nat → BceQueueSq} {ce : List Nat}
  {inCq : Nat → List BceQeCompletion}

/-- Handling one entry. -/
theorem handle {e : BceQeCompletion} {es : List BceQeCompletion} (delivers : Delivers cfg s sqs ce inCq)
    (inTable : e.qid < bceMaxQueueCount) (live : s.dev.queues e.qid = some .sq)
    (first : inCq (cfg.cqOf e.qid) = e :: es) :
    Delivers cfg s (handleCqCompletion s.dev.queues e (sqs, ce)).1
      (handleCqCompletion s.dev.queues e (sqs, ce)).2 (Function.update inCq (cfg.cqOf e.qid) es) := by
  obtain ⟨before, harvested, queue⟩ := delivers.queue e.qid live
  rw [unharvested_cons first] at queue
  obtain ⟨after, accepted, grown⟩ := queue.accept
  have handled : handleCqCompletion s.dev.queues e (sqs, ce) =
      (Function.update sqs e.qid after,
        if (sqs e.qid).hasPendingCompletions then ce else ce ++ [e.qid]) := by
    simp only [handleCqCompletion, inTable.not_ge, live, ne_eq, not_true_eq_false, ↓reduceIte, accepted]
  -- the queue of the entry is listed afterwards, and nothing else changes about the list
  have member : ∀ q, q ∈ (if (sqs e.qid).hasPendingCompletions then ce else ce ++ [e.qid]) ↔
      q ∈ ce ∨ q = e.qid := by
    intro q
    split
    · rename_i pending
      have listed := queue.pending.mp pending
      exact ⟨Or.inl, fun either => either.elim id fun same => same ▸ listed⟩
    · simp
  rw [handled]
  constructor
  case nodup =>
    by_cases pending : (sqs e.qid).hasPendingCompletions
    · rw [if_pos pending]
      exact delivers.nodup
    · rw [if_neg pending]
      have fresh : e.qid ∉ ce := fun listed => pending (queue.pending.mpr listed)
      exact List.nodup_append_comm.mp (List.nodup_cons.mpr ⟨fresh, delivers.nodup⟩)
  case live =>
    intro q listed
    rcases (member q).mp listed with old | rfl
    · exact delivers.live q old
    · exact live
  case queue =>
    intro q liveQ
    simp only [member]
    by_cases same : q = e.qid
    · subst same
      refine ⟨before, harvested ++ [e], ?_⟩
      rw [Function.update_self]
      simpa only [or_true] using grown
    · obtain ⟨beforeQ, harvestedQ, queueQ⟩ := delivers.queue q liveQ
      refine ⟨beforeQ, harvestedQ, ?_⟩
      rw [Function.update_of_ne same, unharvested_cons_of_ne first same]
      simpa only [same, or_false] using queueQ

/-- Polling a completion queue handles its entries one by one. -/
theorem poll {cq : Nat} {es : List BceQeCompletion} (delivers : Delivers cfg s sqs ce inCq)
    (contents : inCq cq = es)
    (entries : ∀ e ∈ es, e.qid < bceMaxQueueCount ∧ s.dev.queues e.qid = some .sq ∧ cfg.cqOf e.qid = cq) :
    Delivers cfg s (handleCqCompletions s.dev.queues es (sqs, ce)).1
      (handleCqCompletions s.dev.queues es (sqs, ce)).2 (Function.update inCq cq []) := by
  induction es generalizing sqs ce inCq with
  | nil =>
    have same : Function.update inCq cq [] = inCq := by
      rw [← contents, Function.update_eq_self]
    rw [same]
    exact delivers
  | cons e es ih =>
    obtain ⟨inTable, live, rfl⟩ := entries e (List.mem_cons_self ..)
    have rest := ih (delivers.handle inTable live contents) (Function.update_self ..)
      fun x member => entries x (List.mem_cons_of_mem _ member)
    rwa [Function.update_idem] at rest

/-- A step that touches one live queue and leaves the list alone. -/
theorem update {s' : DeliveryRun} {sqs' : Nat → BceQueueSq} {q : Nat}
    (delivers : Delivers cfg s sqs ce inCq) (queues : s'.dev.queues = s.dev.queues)
    (others : ∀ p, p ≠ q → sqs' p = sqs p ∧ s'.work p = s.work p ∧ s'.owed p = s.owed p ∧
      s'.obtained p = s.obtained p)
    (stream : s'.stream = s.stream)
    (changed : s.dev.queues q = some .sq → ∃ before harvested,
      QueueDelivers (cfg.inline q) (sqs' q) (q ∈ ce) (s'.work q) (s'.owed q) (s'.obtained q)
        (entriesOf q s.stream) (unharvested cfg inCq q) before harvested) :
    Delivers cfg s' sqs' ce inCq where
  nodup := delivers.nodup
  live := by rw [queues]; exact delivers.live
  queue := by
    intro p live
    rw [queues] at live
    rw [stream]
    by_cases same : p = q
    · subst same
      exact changed live
    · obtain ⟨sq, work, owed, obtained⟩ := others p same
      rw [sq, work, owed, obtained]
      exact delivers.queue p live

end Delivers

theorem delivery_initial {cfg : DeliveryConfig} {s : DeliveryRun} (init : DeliveryRun.Init cfg s) :
    DeliveryInvariant cfg s := by
  constructor
  case delivers =>
    rw [init.irq]
    refine ⟨List.nodup_nil, fun q none => absurd none (List.not_mem_nil), fun q live => ⟨[], [], ?_⟩⟩
    obtain ⟨size, head, cidx, tail, pending, -⟩ := init.sq q live
    have behind : unharvested cfg s.inCq q = [] := by
      simp only [unharvested, init.inCq, entriesOf_nil]
    rw [behind, init.owed, init.obtained, init.stream, init.work]
    constructor
    case flow =>
      refine ⟨size, by simp only [List.append_nil, List.length_nil]; omega, ?_, ?_, rfl, by simp⟩
      · rw [cidx, List.length_nil, Nat.zero_mod]
      · rw [tail, List.length_nil, Nat.add_zero, Nat.zero_mod]
    case written => rfl
    case taken => rfl
    case head => rw [cidx, head, Nat.add_zero, Nat.zero_mod]
    case inRing => rw [head]; omega
    case slot => simp
    case prompt => simp
    case pending => simp [pending, IrqPhase.listed]
    case waiting => exact fun nonempty => absurd rfl nonempty
  case polled => exact fun q live => (init.sq q live).2.2.2.2.2
  case todo => simp [init.irq, IrqPhase.todo]
  case holds =>
    intro cq member
    rw [init.inCq]
    exact init.cq cq member
  case entries => simp [init.inCq]
  case worker => simp [init.work]

namespace DeliveryInvariant

variable {cfg : DeliveryConfig} {s : DeliveryRun}

theorem write {e : BceQeCompletion} (inv : DeliveryInvariant cfg s) (allowed : s.mayWrite cfg e) :
    DeliveryInvariant cfg (s.write cfg e) := by
  obtain ⟨inTable, live, pending, index, unread, free⟩ := allowed
  rw [DeliveryRun.write]
  constructor
  case delivers =>
    refine ⟨inv.delivers.nodup, inv.delivers.live, fun q liveQ => ?_⟩
    obtain ⟨before, harvested, queue⟩ := inv.delivers.queue q liveQ
    refine ⟨before, harvested, ?_⟩
    by_cases same : q = e.qid
    · subst same
      simp only [unharvested_write, entriesOf_append, entriesOf_cons, entriesOf_nil]
      exact queue.write index unread
    · simp only [unharvested_write_of_ne same, entriesOf_append, entriesOf_cons_of_ne [] same,
        entriesOf_nil, List.append_nil]
      exact queue
  case polled => exact inv.polled
  case todo => exact inv.todo
  case holds =>
    intro cq member
    by_cases same : cq = cfg.cqOf e.qid
    · subst same
      simp only [Function.update_self]
      exact (inv.holds _ member).push free pending
    · simp only [Function.update_of_ne same]
      exact inv.holds cq member
  case entries =>
    intro cq x member
    by_cases same : cq = cfg.cqOf e.qid
    · subst same
      simp only [Function.update_self] at member
      rcases List.mem_append.mp member with old | new
      · exact inv.entries _ x old
      · obtain rfl := List.mem_singleton.mp new
        exact ⟨inTable, live, rfl⟩
    · simp only [Function.update_of_ne same] at member
      exact inv.entries cq x member
  case worker => exact inv.worker

theorem poll {cq : Nat} {todo ce : List Nat} (inv : DeliveryInvariant cfg s)
    (phase : s.irq = .running (cq :: todo) ce) : DeliveryInvariant cfg (s.poll cq todo ce) := by
  have inList : ∀ x ∈ cq :: todo, x ∈ s.dev.cqList := by
    simpa only [phase, IrqPhase.todo] using inv.todo
  have delivers := inv.delivers
  simp only [phase, IrqPhase.listed] at delivers
  obtain ⟨after, doorbell, empty, -, -, polled⟩ :=
    AppleBceDevice.pollCq_eq ce (inv.holds cq (inList cq (List.mem_cons_self ..)))
  rw [DeliveryRun.poll, polled]
  constructor
  case delivers =>
    have handled := delivers.poll rfl (inv.entries cq)
    exact ⟨handled.nodup, handled.live, handled.queue⟩
  case polled => exact inv.polled
  case todo => exact fun x member => inList x (List.mem_cons_of_mem _ member)
  case holds =>
    intro x member
    by_cases same : x = cq
    · subst same
      simpa only [Function.update_self] using empty
    · simp only [Function.update_of_ne same]
      exact inv.holds x member
  case entries =>
    intro x e member
    by_cases same : x = cq
    · subst same
      simp at member
    · simp only [Function.update_of_ne same] at member
      exact inv.entries x e member
  case worker => exact inv.worker

theorem dispatch {q : Nat} {ce : List Nat} (inv : DeliveryInvariant cfg s)
    (phase : s.irq = .running [] (q :: ce)) :
    DeliveryInvariant cfg (s.dispatch cfg q ce) := by
  have delivers := inv.delivers
  simp only [phase, IrqPhase.listed] at delivers
  have fresh := (List.nodup_cons.mp delivers.nodup).1
  have live : s.dev.queues q = some .sq := delivers.live q (List.mem_cons_self ..)
  rw [DeliveryRun.dispatch]
  constructor
  case delivers =>
    refine ⟨(List.nodup_cons.mp delivers.nodup).2,
      fun p listed => delivers.live p (List.mem_cons_of_mem _ listed), fun p liveP => ?_⟩
    obtain ⟨before, harvested, queue⟩ := delivers.queue p liveP
    simp only [IrqPhase.listed]
    by_cases same : p = q
    · subst same
      simp only [AppleBceDevice.dispatchSq, Function.update_self, fresh]
      cases inline : cfg.inline p
      case false =>
        rw [inline] at queue
        refine ⟨before, harvested, ?_⟩
        simpa using queue.dispatch_work
      case true =>
        rw [inline] at queue
        refine ⟨before ++ harvested, [], ?_⟩
        simpa using queue.dispatch_inline
    · refine ⟨before, harvested, ?_⟩
      have work : (if cfg.inline q then s.work
          else Function.update s.work q { s.work q with queued := true }) p = s.work p := by
        split
        · rfl
        · rw [Function.update_of_ne same]
      simp only [AppleBceDevice.dispatchSq, Function.update_of_ne same, work]
      simpa only [List.mem_cons, same, false_or] using queue
  case polled => exact inv.polled
  case todo => simp [IrqPhase.todo]
  case holds => exact inv.holds
  case entries => exact inv.entries
  case worker =>
    intro p active
    simp only at active
    split at active
    · exact inv.worker p active
    · rename_i deferred
      by_cases same : p = q
      · subst same
        exact ⟨live, deferred⟩
      · rw [Function.update_of_ne same] at active
        exact inv.worker p active

/-- A step of one worker. -/
theorem work {s' : DeliveryRun} {q : Nat} (inv : DeliveryInvariant cfg s)
    (dev : s'.dev = { s.dev with sqs := s'.dev.sqs }) (irq : s'.irq = s.irq) (inCq : s'.inCq = s.inCq)
    (others : ∀ p, p ≠ q → s'.dev.sqs p = s.dev.sqs p ∧ s'.work p = s.work p ∧ s'.owed p = s.owed p ∧
      s'.obtained p = s.obtained p)
    (stream : s'.stream = s.stream) (active : (s.work q).queued ∨ (s.work q).running)
    (changed : ∀ before harvested,
      QueueDelivers false (s.dev.sqs q) (q ∈ s.irq.listed) (s.work q) (s.owed q) (s.obtained q)
        (entriesOf q s.stream) (unharvested cfg s.inCq q) before harvested →
      ∃ before harvested, QueueDelivers false (s'.dev.sqs q) (q ∈ s.irq.listed) (s'.work q) (s'.owed q)
        (s'.obtained q) (entriesOf q s.stream) (unharvested cfg s.inCq q) before harvested) :
    DeliveryInvariant cfg s' := by
  obtain ⟨live, deferred⟩ := inv.worker q active
  have queues : s'.dev.queues = s.dev.queues := by rw [dev]
  have cqs : s'.dev.cqs = s.dev.cqs := by rw [dev]
  have cqList : s'.dev.cqList = s.dev.cqList := by rw [dev]
  constructor
  case delivers =>
    rw [irq, inCq]
    refine inv.delivers.update queues others stream fun _ => ?_
    obtain ⟨before, harvested, queue⟩ := inv.delivers.queue q live
    rw [Bool.eq_false_iff.mpr deferred] at queue ⊢
    exact changed before harvested queue
  case polled => rw [queues, cqList]; exact inv.polled
  case todo => rw [irq, cqList]; exact inv.todo
  case holds => rw [cqs, cqList, inCq]; exact inv.holds
  case entries => rw [queues, inCq]; exact inv.entries
  case worker =>
    intro p activeP
    rw [queues]
    by_cases same : p = q
    · subst same
      exact ⟨live, deferred⟩
    · rw [(others p same).2.1] at activeP
      exact inv.worker p activeP

end DeliveryInvariant

theorem delivery_step {cfg : DeliveryConfig} {s t : DeliveryRun} {a : DeliveryStep}
    (inv : DeliveryInvariant cfg s) (run : s.step cfg a = some t) : DeliveryInvariant cfg t := by
  cases a with
  | write e =>
    simp only [DeliveryRun.step, Option.ite_none_right_eq_some, Option.some.injEq] at run
    obtain ⟨allowed, rfl⟩ := run
    exact inv.write allowed
  | irqEnter =>
    simp only [DeliveryRun.step] at run
    split at run
    · rename_i idle
      obtain rfl := Option.some.inj run
      have delivers := inv.delivers
      simp only [idle, IrqPhase.listed] at delivers
      exact { inv with delivers := ⟨delivers.nodup, delivers.live, delivers.queue⟩, todo := fun _ member => member }
    · cases run
  | irqPoll =>
    simp only [DeliveryRun.step] at run
    split at run
    · rename_i phase
      obtain rfl := Option.some.inj run
      exact inv.poll phase
    · cases run
  | irqDispatch =>
    simp only [DeliveryRun.step] at run
    split at run
    · rename_i phase
      obtain rfl := Option.some.inj run
      exact inv.dispatch phase
    · cases run
  | irqLeave =>
    simp only [DeliveryRun.step] at run
    split at run
    · rename_i phase
      obtain rfl := Option.some.inj run
      have delivers := inv.delivers
      simp only [phase, IrqPhase.listed] at delivers
      exact { inv with
        delivers := ⟨delivers.nodup, delivers.live, delivers.queue⟩, todo := by simp [IrqPhase.todo] }
    · cases run
  | workStart q =>
    simp only [DeliveryRun.step, Option.ite_none_right_eq_some, Option.some.injEq] at run
    obtain ⟨⟨queued, -⟩, rfl⟩ := run
    refine inv.work (q := q) rfl rfl rfl ?_ rfl (Or.inl queued) ?_
    · intro p other
      simp only [Function.update_of_ne other, and_self]
    · intro before harvested queue
      refine ⟨before, harvested, queue.setWork fun _ _ => ?_⟩
      simp
  | workNext q =>
    simp only [DeliveryRun.step, Option.ite_none_right_eq_some] at run
    obtain ⟨running, run⟩ := run
    obtain ⟨⟨c, after⟩, taken, rfl⟩ := Option.map_eq_some_iff.mp run
    refine inv.work (q := q) rfl rfl rfl ?_ rfl (Or.inr running) ?_
    · intro p other
      simp only [Function.update_of_ne other, and_self]
    · intro before harvested queue
      obtain ⟨e, rest, queue⟩ := queue.workNext taken
      refine ⟨before ++ [e], rest, ?_⟩
      simpa only [Function.update_self] using queue
  | workNotify q =>
    simp only [DeliveryRun.step, Option.ite_none_right_eq_some, Option.some.injEq] at run
    obtain ⟨⟨running, owes⟩, rfl⟩ := run
    refine inv.work (q := q) rfl rfl rfl ?_ rfl (Or.inr running) ?_
    · intro p other
      simp only [Function.update_of_ne other, and_self]
    · intro before harvested queue
      refine ⟨before, harvested, ?_⟩
      simpa only [Function.update_self] using queue.workNotify owes
  | workDone q =>
    simp only [DeliveryRun.step, Option.ite_none_right_eq_some, Option.some.injEq] at run
    obtain ⟨⟨running, empty⟩, rfl⟩ := run
    refine inv.work (q := q) rfl rfl rfl ?_ rfl (Or.inr running) ?_
    · intro p other
      simp only [Function.update_of_ne other, and_self]
    · intro before harvested queue
      refine ⟨before, harvested, queue.setWork fun nonempty _ => ?_⟩
      exact absurd (queue.flow.next_none (Option.isNone_iff_eq_none.mp empty)) nonempty

theorem delivery_invariant {cfg : DeliveryConfig} {s : DeliveryRun}
    (reach : (deliveryMachine cfg).Reachable s) : DeliveryInvariant cfg s :=
  reach.invariant (fun _ => delivery_initial) fun _ _ _ => delivery_step

end AppleBce

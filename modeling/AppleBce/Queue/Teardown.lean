import AppleBce.Basis.GracePeriod
import AppleBce.Basis.LinkedNodes
import AppleBce.Queue.IrqPass
import AppleBce.Queue.RegistryRuns

namespace AppleBce

open Basis

/-- The readers of `queues_srcu`: one interrupt thread. -/
inductive QueuesReader
  | dmaIrq
  deriving DecidableEq, Repr

/-- Who has `queues_lock` and has a store left to make: a create call its `list_add_tail_rcu`, a
destroy call its `list_del_rcu`, or `bce_free_command_queues` its stores to `queues`. -/
inductive QueuesLock
  | adding (q : BceQueueRef)
  | deleting (q : BceQueueRef)
  | commands
  deriving DecidableEq, Repr

/-- The stores `bce_free_command_queues` has made: none, `list_del_rcu`, that to `queues[0]` and that
to `queues[1]`. -/
inductive CommandStores
  | live
  | unlinked
  | unentered
  | withdrawn
  deriving DecidableEq, Repr

/-- `queues` has the command queue. -/
def CommandStores.entered : CommandStores → BceQueueType → Bool
  | .live, _ | .unlinked, _ | .unentered, .sq => true
  | .unentered, .cq | .withdrawn, _ => false

/-- The memory of a queue: in use, waiting for these readers in `synchronize_srcu` or with none left,
or freed. -/
inductive QueueMemory
  | kept
  | synchronizing (readers : Finset QueuesReader)
  | freed

/-- `synchronize_srcu` returns when the readers it waits for have left. -/
def QueueMemory.elapsed : QueueMemory → Prop
  | .synchronizing readers => readers = ∅
  | .kept | .freed => False

instance : (memory : QueueMemory) → Decidable memory.elapsed
  | .synchronizing readers => inferInstanceAs (Decidable (readers = ∅))
  | .kept | .freed => .isFalse id

/-- The interrupt thread leaves. -/
def QueueMemory.leave : QueueMemory → QueueMemory
  | .synchronizing readers => .synchronizing (readers.erase .dmaIrq)
  | .kept => .kept
  | .freed => .freed

/-- Where `bce_handle_dma_irq` is: before it follows the link of a list position, in `bce_poll_cq`,
behind the lookup of the target queue of an entry, or in `bce_dispatch_sq_completions`. -/
inductive DmaIrqStage
  | walking (pos : Option BceQueuePtr)
  | polling (cq : BceQueuePtr)
  | handling (cq : BceQueuePtr) (e : BceQeCompletion) (target : Option BceQueuePtr)
  | dispatching

/-- A pass of the interrupt thread. `ce` is the filled part of `int_sq_list` that is not dispatched,
and `polled` has the CQs that the walk came to. -/
structure DmaIrqPass where
  stage : DmaIrqStage
  ce : List BceQueuePtr
  polled : List BceQueuePtr

/-- The list position. -/
def DmaIrqStage.cursor : DmaIrqStage → Option BceQueuePtr
  | .walking pos => pos
  | .polling cq | .handling cq .. => some cq
  | .dispatching => none

/-- The target queue that was looked up. -/
def DmaIrqStage.target : DmaIrqStage → Option BceQueuePtr
  | .handling _ _ target => target
  | .walking _ | .polling _ | .dispatching => none

/-- The queues that the pass has pointers to, and reads or writes. -/
def DmaIrqPass.Holds (pass : DmaIrqPass) (p : BceQueuePtr) : Prop :=
  p ∈ pass.ce ∨ pass.stage.cursor = some p ∨ pass.stage.target = some p

/-- The create and destroy calls, `bce_free_command_queues` and the passes of the interrupt thread, a
load or store of the tables at a time. `links` are the list nodes behind `cq_list`. -/
structure TeardownRun where
  calls : RegistryRun
  commands : CommandStores
  lock : Option QueuesLock
  links : Links BceQueuePtr
  memory : BceQueuePtr → QueueMemory
  cqs : BceQueuePtr → BceQueueCq
  sqs : BceQueuePtr → BceQueueSq
  irq : Option DmaIrqPass

/-- `store` makes the next store of the section under `queues_lock`. `irq` is a step of the interrupt
thread, and `completion` the call of a handler, which leaves the queue as given. With `rings` the
device and the owners of the queues change what the rings hold. -/
inductive TeardownStep
  | call (a : RegistryStep)
  | store
  | synchronize (q : BceQueueRef)
  | free (q : BceQueueRef)
  | freeCommandQueues
  | synchronizeCommands
  | freeCommands
  | irq
  | completion (after : BceQueueSq)
  | rings (cqs : BceQueuePtr → BceQueueCq) (sqs : BceQueuePtr → BceQueueSq)

namespace TeardownRun

def commandCq : BceQueuePtr := .command .cq
def commandSq : BceQueuePtr := .command .sq

def start (cqs : BceQueuePtr → BceQueueCq) (sqs : BceQueuePtr → BceQueueSq) : TeardownRun where
  calls := .start
  commands := .live
  lock := none
  links := Links.empty.addTail commandCq
  memory := fun _ => .kept
  cqs := cqs
  sqs := sqs
  irq := none

/-- The readers that are inside. -/
def inside (s : TeardownRun) : Finset QueuesReader :=
  if s.irq.isSome then {.dmaIrq} else ∅

/-- `bce->queues`. -/
def queues (s : TeardownRun) (qid : Nat) : Option BceQueuePtr :=
  match s.calls.registry.queues qid with
  | some (.command type) => if s.commands.entered type then some (.command type) else none
  | entry => entry

/-- The step of a call may be taken: the lock is free where it takes it, the create call has
returned, and `synchronize_srcu` returns. -/
def allows (s : TeardownRun) : RegistryStep → Prop
  | .publish _ | .unpublish _ => s.lock = none
  | .destroy q => s.lock ≠ some (.adding q)
  | .synchronized q => (s.memory (.user q)).elapsed
  | _ => True

/-- What the step of a call leaves to be stored under the lock. A create call that fails frees the
queue. -/
def called (s : TeardownRun) (calls : RegistryRun) : RegistryStep → TeardownRun
  | .publish q => { s with calls, lock := if q.type = .cq then some (.adding q) else none }
  | .unpublish q => { s with calls, lock := if q.type = .cq then some (.deleting q) else none }
  | .abandon q => { s with calls, memory := Function.update s.memory (.user q) .freed }
  | _ => { s with calls }

/-- The next store under `queues_lock`, and with the last one its release. -/
def storeStep (s : TeardownRun) : Option TeardownRun :=
  match s.lock with
  | none => none
  | some (.adding q) => some { s with links := s.links.addTail (.user q), lock := none }
  | some (.deleting q) => some { s with links := s.links.remove (.user q), lock := none }
  | some .commands =>
    match s.commands with
    | .unlinked => some { s with commands := .unentered }
    | .unentered => some { s with commands := .withdrawn, lock := none }
    | _ => none

/-- What `bce_handle_cq_completion` does behind the lookup of the target queue. -/
def accept (s : TeardownRun) (e : BceQeCompletion) (target : Option BceQueuePtr) (ce : List BceQueuePtr) :
    (BceQueuePtr → BceQueueSq) × List BceQueuePtr :=
  match target with
  | none => (s.sqs, ce)
  | some p =>
    if p.type ≠ .sq then (s.sqs, ce)
    else
      match (s.sqs p).acceptCompletion e with
      | none => (s.sqs, ce)
      | some sq =>
        (Function.update s.sqs p sq, if (s.sqs p).hasPendingCompletions then ce else ce ++ [p])

/-- `srcu_read_unlock`. -/
def leave (s : TeardownRun) : TeardownRun :=
  { s with
    irq := none
    memory := fun p => (s.memory p).leave }

def irqStep (s : TeardownRun) : Option TeardownRun :=
  match s.irq with
  | none => some { s with irq := some ⟨.walking none, [], []⟩ }
  | some pass =>
    match pass.stage with
    | .walking pos =>
      match s.links.next pos with
      | none => some { s with irq := some { pass with stage := .dispatching } }
      | some cq =>
        some { s with irq := some { pass with stage := .polling cq, polled := pass.polled ++ [cq] } }
    | .polling cq =>
      let e := (s.cqs cq).data (s.cqs cq).index
      if e.pending then
        let target := if bceMaxQueueCount ≤ e.qid then none else s.queues e.qid
        some { s with irq := some { pass with stage := .handling cq e target } }
      else some { s with irq := some { pass with stage := .walking (some cq) } }
    | .handling cq e target =>
      let accepted := s.accept e target pass.ce
      some { s with
        sqs := accepted.1
        cqs := Function.update s.cqs cq (s.cqs cq).popped
        irq := some { pass with stage := .polling cq, ce := accepted.2 } }
    | .dispatching => if pass.ce = [] then some s.leave else none

/-- A round of `bce_dispatch_sq_completions`. -/
def completionStep (s : TeardownRun) (after : BceQueueSq) : Option TeardownRun :=
  match s.irq with
  | some ⟨.dispatching, q :: ce, polled⟩ =>
    some { s with
      sqs := Function.update s.sqs q { after with hasPendingCompletions := false }
      irq := some ⟨.dispatching, ce, polled⟩ }
  | _ => none

instance (s : TeardownRun) : (a : RegistryStep) → Decidable (s.allows a)
  | .publish _ | .unpublish _ => inferInstanceAs (Decidable (s.lock = none))
  | .destroy q => inferInstanceAs (Decidable (s.lock ≠ some (.adding q)))
  | .synchronized q => inferInstanceAs (Decidable (s.memory (.user q)).elapsed)
  | .createCq .. | .createSq .. | .createSqWithFlags .. | .qidAlloc .. | .allocated .. | .registered ..
  | .abandon _ | .unregistered .. | .release _ | .remove => .isTrue trivial

def step (s : TeardownRun) : TeardownStep → Option TeardownRun
  | .call a => if s.allows a then (s.calls.step a).map fun calls => s.called calls a else none
  | .store => s.storeStep
  | .synchronize q =>
    match s.calls.life q, s.memory (.user q) with
    | .holding _ .synchronizing, .kept =>
      if s.lock = some (.deleting q) then none
      else some { s with memory := Function.update s.memory (.user q) (.synchronizing s.inside) }
    | _, _ => none
  | .free q =>
    if s.calls.life q = .destroyed ∧ (s.memory (.user q)).elapsed then
      some { s with memory := Function.update s.memory (.user q) .freed }
    else none
  | .freeCommandQueues =>
    if s.commands = .live ∧ s.lock = none then
      some { s with links := s.links.remove commandCq, commands := .unlinked, lock := some .commands }
    else none
  | .synchronizeCommands =>
    match s.commands, s.memory commandCq with
    | .withdrawn, .kept =>
      some { s with
        memory := Function.update (Function.update s.memory commandCq (.synchronizing s.inside)) commandSq
          (.synchronizing s.inside) }
    | _, _ => none
  | .freeCommands =>
    if (s.memory commandCq).elapsed then
      some { s with memory := Function.update (Function.update s.memory commandCq .freed) commandSq .freed }
    else none
  | .irq => s.irqStep
  | .completion after => s.completionStep after
  | .rings cqs sqs => some { s with cqs, sqs }

/-- All orders of the loads and stores of the calls and of the passes. -/
def machine : Machine TeardownRun TeardownStep where
  init s := ∃ cqs sqs, s = start cqs sqs
  step := step

end TeardownRun

end AppleBce

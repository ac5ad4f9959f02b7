import AppleBce.Basis.Allotment
import AppleBce.Basis.Machine
import AppleBce.Queue.Irq

namespace AppleBce

open Basis

def bceQueueUserMin : Nat := 2
def bceQueueUserMax : Nat := bceMaxQueueCount - 1

def dmaToDevice : Nat := 1
def dmaFromDevice : Nat := 2

/-- A queue made by a create call, named by its type and the number of the call. -/
structure BceQueueRef where
  type : BceQueueType
  number : Nat
  deriving DecidableEq, Repr

/-- What the tables point to: a command queue, or a queue made by a create call. -/
inductive BceQueuePtr
  | command (type : BceQueueType)
  | user (q : BceQueueRef)
  deriving DecidableEq, Repr

def BceQueuePtr.type : BceQueuePtr → BceQueueType
  | .command type => type
  | .user q => q.type

/-- `struct bce_queue_memcfg`, without the padding. -/
structure BceQueueMemcfg where
  qid : BitVec 16
  elCount : BitVec 16
  vectorOrCq : BitVec 16
  addr : BitVec 64
  length : BitVec 64
  deriving DecidableEq, Repr

/-- `bce_get_cq_memcfg`, with the 24 bytes of a `struct bce_qe_completion`. -/
def bceGetCqMemcfg (qid : Nat) (elCount : BitVec 32) (dmaHandle : BitVec 64) : BceQueueMemcfg where
  qid := BitVec.ofNat 16 qid
  elCount := elCount.setWidth 16
  vectorOrCq := 0
  addr := dmaHandle
  length := elCount.setWidth 64 * 24

/-- `bce_get_sq_memcfg`, with the 32 bytes of a `struct bce_qe_submission`. -/
def bceGetSqMemcfg (qid cqQid : Nat) (elCount : BitVec 32) (dmaHandle : BitVec 64) :
    BceQueueMemcfg where
  qid := BitVec.ofNat 16 qid
  elCount := elCount.setWidth 16
  vectorOrCq := BitVec.ofNat 16 cqQid
  addr := dmaHandle
  length := (elCount * 32).setWidth 64

/-- The arguments of `bce_create_sq_with_flags` that a CQ does not have; `cq` stands for its qid. -/
structure SqArgs where
  cq : Nat
  name : String
  flags : BitVec 16
  deriving DecidableEq, Repr

/-- The call of `bce_cmd_register_queue` or `bce_cmd_unregister_memory_queue` that runs. -/
inductive QueueCmd
  | register (cfg : BceQueueMemcfg) (name : Option String) (flags : BitVec 16)
  | unregister (qid : BitVec 16)
  deriving DecidableEq, Repr

def bceRegisterCmd (qid : Nat) (elCount : BitVec 32) (dmaHandle : BitVec 64) : Option SqArgs → QueueCmd
  | none => .register (bceGetCqMemcfg qid elCount dmaHandle) none 0
  | some args =>
    .register (bceGetSqMemcfg qid args.cq elCount dmaHandle) (some args.name) args.flags

/-- Where the call that has the qid is, or that none runs. A create is before its memory
allocation, in its command, before its turn to publish the queue or, having failed, before
`bce_qid_free`; a destroy is in its command, before its turn to take the queue out of the tables, in
`synchronize_srcu` or before `bce_qid_free`. -/
inductive QidStage
  | allocating (elCount : BitVec 32) (sq : Option SqArgs)
  | registering (cmd : QueueCmd)
  | publishing
  | abandoning
  | live
  | unregistering (cmd : QueueCmd)
  | unpublishing
  | synchronizing
  | releasing
  deriving DecidableEq, Repr

/-- The tables point to the queue. -/
def QidStage.published : QidStage → Bool
  | .live | .unregistering _ | .unpublishing => true
  | _ => false

/-- The life of a queue: its create call has not begun, is before `bce_qid_alloc`, the queue has a
qid, the create call returned `NULL`, or the destroy call returned. -/
inductive QueueLife
  | unborn
  | starting (elCount : BitVec 32) (sq : Option SqArgs)
  | holding (qid : Nat) (stage : QidStage)
  | failed
  | destroyed
  deriving DecidableEq, Repr

namespace QueueLife

def qid : QueueLife → Option Nat
  | .holding qid _ => some qid
  | _ => none

/-- The qid at which the tables have the queue. -/
def published : QueueLife → Option Nat
  | .holding qid stage => if stage.published then some qid else none
  | _ => none

/-- No call for the queue runs. -/
def settled : QueueLife → Bool
  | .unborn | .holding _ .live | .failed | .destroyed => true
  | _ => false

end QueueLife

/-- The three tables of `struct apple_bce_device` that the queues are entered in. -/
structure QueueRegistry where
  queueIda : Finset Nat
  queues : Nat → Option BceQueuePtr
  cqList : List BceQueuePtr

namespace QueueRegistry

/-- After `bce_create_command_queues`. -/
def start : QueueRegistry where
  queueIda := ∅
  queues qid := if qid = 0 then some (.command .cq) else if qid = 1 then some (.command .sq) else none
  cqList := [.command .cq]

/-- `ida_alloc_range` gives `qid`. -/
def qidAlloc (r : QueueRegistry) (qid : Nat) : QueueRegistry :=
  { r with queueIda := insert qid r.queueIda }

def qidFree (r : QueueRegistry) (qid : Nat) : QueueRegistry :=
  { r with queueIda := r.queueIda.erase qid }

/-- The end of a create call under `queues_lock`. -/
def publish (r : QueueRegistry) (q : BceQueueRef) (qid : Nat) : QueueRegistry :=
  { r with
    queues := Function.update r.queues qid (some (.user q))
    cqList := if q.type = .cq then r.cqList ++ [.user q] else r.cqList }

/-- The part of a destroy call under `queues_lock`. -/
def unpublish (r : QueueRegistry) (q : BceQueueRef) (qid : Nat) : QueueRegistry :=
  { r with
    queues := Function.update r.queues qid none
    cqList := if q.type = .cq then r.cqList.erase (.user q) else r.cqList }

end QueueRegistry

/-- The device and the queues that calls make and destroy, in any number of calls at a time. -/
structure RegistryRun where
  registry : QueueRegistry
  isBeingRemoved : Bool
  life : BceQueueRef → QueueLife

/-- The calls begin, with a number for each create, and go on with what the ida and the allocator
give and the command returns. A queue that is destroyed is one that a create returned, and it is
destroyed once. -/
inductive RegistryStep
  | createCq (number : Nat) (elCount : BitVec 32)
  | createSq (number : Nat) (cq : Option Nat) (name : Option String) (elCount : BitVec 32)
      (direction : Nat)
  | createSqWithFlags (number : Nat) (cq : Option Nat) (name : Option String) (elCount : BitVec 32)
      (flags : BitVec 16)
  | qidAlloc (q : BceQueueRef) (result : Option Nat)
  | allocated (q : BceQueueRef) (dmaHandle : Option (BitVec 64))
  | registered (q : BceQueueRef) (status : Int)
  | publish (q : BceQueueRef)
  | abandon (q : BceQueueRef)
  | destroy (q : BceQueueRef)
  | unregistered (q : BceQueueRef) (status : Int)
  | unpublish (q : BceQueueRef)
  | synchronized (q : BceQueueRef)
  | release (q : BceQueueRef)
  | remove
  deriving DecidableEq

/-- The queue whose call makes the step. -/
def RegistryStep.queue : RegistryStep → Option BceQueueRef
  | .createCq number _ => some ⟨.cq, number⟩
  | .createSq number .. | .createSqWithFlags number .. => some ⟨.sq, number⟩
  | .qidAlloc q _ | .allocated q _ | .registered q _ | .publish q | .abandon q | .destroy q
  | .unregistered q _ | .unpublish q | .synchronized q | .release q => some q
  | .remove => none

namespace RegistryRun

def start : RegistryRun where
  registry := .start
  isBeingRemoved := false
  life := fun _ => .unborn

def setLife (s : RegistryRun) (q : BceQueueRef) (life : QueueLife) : RegistryRun :=
  { s with life := Function.update s.life q life }

def createSqWithFlags (s : RegistryRun) (number : Nat) (cq : Option Nat) (name : Option String)
    (elCount : BitVec 32) (flags : BitVec 16) : RegistryRun :=
  match cq, name with
  | some cq, some name => s.setLife ⟨.sq, number⟩ (.starting elCount (some ⟨cq, name, flags⟩))
  | _, _ => s.setLife ⟨.sq, number⟩ .failed

def createSq (s : RegistryRun) (number : Nat) (cq : Option Nat) (name : Option String)
    (elCount : BitVec 32) (direction : Nat) : RegistryRun :=
  if direction ≠ dmaToDevice ∧ direction ≠ dmaFromDevice then s.setLife ⟨.sq, number⟩ .failed
  else s.createSqWithFlags number cq name elCount (2 ||| if direction ≠ dmaFromDevice then 1 else 0)

/-- The step of a call for a queue that has a qid. -/
def holdingStep (s : RegistryRun) (q : BceQueueRef) (qid : Nat) : QidStage → RegistryStep → Option RegistryRun
  -- `bce_alloc_cq` or `bce_alloc_sq`, which frees what it has when a part is missing
  | .allocating _ _, .allocated _ none => some (s.setLife q (.holding qid .abandoning))
  | .allocating elCount sq, .allocated _ (some dmaHandle) =>
    some (s.setLife q (.holding qid (.registering (bceRegisterCmd qid elCount dmaHandle sq))))
  | .registering _, .registered _ status =>
    some (s.setLife q (.holding qid (if status ≠ 0 then .abandoning else .publishing)))
  | .publishing, .publish _ =>
    some { s.setLife q (.holding qid .live) with registry := s.registry.publish q qid }
  | .abandoning, .abandon _ =>
    some { s.setLife q .failed with registry := s.registry.qidFree qid }
  | .live, .destroy _ =>
    some (s.setLife q (.holding qid
      (if s.isBeingRemoved then .unpublishing else .unregistering (.unregister (BitVec.ofNat 16 qid)))))
  -- a failed command is reported and changes nothing
  | .unregistering _, .unregistered _ _ => some (s.setLife q (.holding qid .unpublishing))
  | .unpublishing, .unpublish _ =>
    some { s.setLife q (.holding qid .synchronizing) with registry := s.registry.unpublish q qid }
  | .synchronizing, .synchronized _ => some (s.setLife q (.holding qid .releasing))
  | .releasing, .release _ =>
    some { s.setLife q .destroyed with registry := s.registry.qidFree qid }
  | _, _ => none

def step (s : RegistryRun) (a : RegistryStep) : Option RegistryRun :=
  match a with
  | .createCq number elCount =>
    if s.life ⟨.cq, number⟩ = .unborn then some (s.setLife ⟨.cq, number⟩ (.starting elCount none))
    else none
  | .createSq number cq name elCount direction =>
    if s.life ⟨.sq, number⟩ = .unborn then some (s.createSq number cq name elCount direction)
    else none
  | .createSqWithFlags number cq name elCount flags =>
    if s.life ⟨.sq, number⟩ = .unborn then some (s.createSqWithFlags number cq name elCount flags)
    else none
  | .qidAlloc q result =>
    match s.life q with
    | .starting elCount sq =>
      match result with
      | none => some (s.setLife q .failed)
      | some qid =>
        if bceQueueUserMin ≤ qid ∧ qid ≤ bceQueueUserMax - 1 ∧ qid ∉ s.registry.queueIda then
          some { s.setLife q (.holding qid (.allocating elCount sq)) with
            registry := s.registry.qidAlloc qid }
        else none
    | _ => none
  | .remove => some { s with isBeingRemoved := true }
  | .allocated q _ | .registered q _ | .publish q | .abandon q | .destroy q | .unregistered q _
  | .unpublish q | .synchronized q | .release q =>
    match s.life q with
    | .holding qid stage => s.holdingStep q qid stage a
    | _ => none

/-- All orders of the calls, and of the steps of those that run at a time. -/
def machine : Machine RegistryRun RegistryStep where
  init s := s = start
  step := step

/-- The create call returned the queue and no destroy call has begun. -/
def Live (s : RegistryRun) (q : BceQueueRef) (qid : Nat) : Prop :=
  s.life q = .holding qid .live

/-- No call runs. -/
def Idle (s : RegistryRun) : Prop :=
  ∀ q, (s.life q).settled

end RegistryRun

namespace QueueRegistry

/-- What a step of a call for `q` does to the tables and to the life of the queue. -/
inductive Moves (q : BceQueueRef) : QueueRegistry → QueueLife → QueueRegistry → QueueLife → Prop
  | stays {r : QueueRegistry} {l m : QueueLife} (qid : m.qid = l.qid)
      (published : m.published = l.published) : Moves q r l r m
  | takes {r : QueueRegistry} {l : QueueLife} {qid : Nat} {stage : QidStage} (free : l.qid = none)
      (least : bceQueueUserMin ≤ qid) (most : qid ≤ bceQueueUserMax - 1) (fresh : qid ∉ r.queueIda)
      (hidden : stage.published = false) : Moves q r l (r.qidAlloc qid) (.holding qid stage)
  | shows {r : QueueRegistry} {qid : Nat} {stage next : QidStage} (hidden : stage.published = false)
      (shown : next.published = true) :
      Moves q r (.holding qid stage) (r.publish q qid) (.holding qid next)
  | hides {r : QueueRegistry} {qid : Nat} {stage next : QidStage} (shown : stage.published = true)
      (hidden : next.published = false) :
      Moves q r (.holding qid stage) (r.unpublish q qid) (.holding qid next)
  | releases {r : QueueRegistry} {qid : Nat} {stage : QidStage} {m : QueueLife}
      (hidden : stage.published = false) (free : m.qid = none) :
      Moves q r (.holding qid stage) (r.qidFree qid) m

end QueueRegistry

namespace RegistryRun

variable {s t : RegistryRun} {a : RegistryStep} {q : BceQueueRef} {qid : Nat}

/-- A step changes one life, and the tables with it. -/
structure Changes (s : RegistryRun) (q : BceQueueRef) (t : RegistryRun) : Prop where
  others : ∀ p, p ≠ q → t.life p = s.life p
  moves : QueueRegistry.Moves q s.registry (s.life q) t.registry (t.life q)

theorem setLife_changes {life : QueueLife} (qid : life.qid = (s.life q).qid)
    (published : life.published = (s.life q).published) : s.Changes q (s.setLife q life) where
  others p differ := Function.update_of_ne differ _ _
  moves := by
    have new : (s.setLife q life).life q = life := Function.update_self ..
    rw [new]
    exact .stays qid published

/-- A step that also changes the tables. -/
theorem setLife_with_changes {life : QueueLife} {registry : QueueRegistry}
    (moves : QueueRegistry.Moves q s.registry (s.life q) registry life) :
    s.Changes q { s.setLife q life with registry } where
  others p differ := Function.update_of_ne differ _ _
  moves := by
    have new : (s.setLife q life).life q = life := Function.update_self ..
    simp only [new]
    exact moves

theorem createSqWithFlags_changes {number : Nat} {cq : Option Nat} {name : Option String}
    {elCount : BitVec 32} {flags : BitVec 16} (unborn : s.life ⟨.sq, number⟩ = .unborn) :
    s.Changes ⟨.sq, number⟩ (s.createSqWithFlags number cq name elCount flags) := by
  unfold createSqWithFlags
  split
  · exact setLife_changes (by rw [unborn]; rfl) (by rw [unborn]; rfl)
  · exact setLife_changes (by rw [unborn]; rfl) (by rw [unborn]; rfl)

theorem createSq_changes {number : Nat} {cq : Option Nat} {name : Option String}
    {elCount : BitVec 32} {direction : Nat} (unborn : s.life ⟨.sq, number⟩ = .unborn) :
    s.Changes ⟨.sq, number⟩ (s.createSq number cq name elCount direction) := by
  unfold createSq
  split
  · exact setLife_changes (by rw [unborn]; rfl) (by rw [unborn]; rfl)
  · exact createSqWithFlags_changes unborn

/-- A step of a call between two stages at which the tables have the queue, or have it not. -/
theorem stage_changes {stage next : QidStage} (life : s.life q = .holding qid stage)
    (published : next.published = stage.published) :
    s.Changes q (s.setLife q (.holding qid next)) := by
  refine setLife_changes ?_ ?_
  · rw [life, QueueLife.qid, QueueLife.qid]
  · rw [life, QueueLife.published, QueueLife.published, published]

theorem holdingStep_changes {stage : QidStage} (life : s.life q = .holding qid stage)
    (run : s.holdingStep q qid stage a = some t) : s.Changes q t := by
  unfold holdingStep at run
  split at run
  next =>
    cases Option.some.inj run
    exact stage_changes life rfl
  next =>
    cases Option.some.inj run
    exact stage_changes life rfl
  next status =>
    cases Option.some.inj run
    refine stage_changes life ?_
    split <;> rfl
  next =>
    cases Option.some.inj run
    exact setLife_with_changes (by rw [life]; exact .shows rfl rfl)
  next =>
    cases Option.some.inj run
    exact setLife_with_changes (by rw [life]; exact .releases rfl rfl)
  next =>
    cases Option.some.inj run
    refine stage_changes life ?_
    split <;> rfl
  next =>
    cases Option.some.inj run
    exact stage_changes life rfl
  next =>
    cases Option.some.inj run
    exact setLife_with_changes (by rw [life]; exact .hides rfl rfl)
  next =>
    cases Option.some.inj run
    exact stage_changes life rfl
  next =>
    cases Option.some.inj run
    exact setLife_with_changes (by rw [life]; exact .releases rfl rfl)
  next => cases run

theorem qidAlloc_changes {result : Option Nat} (run : s.step (.qidAlloc q result) = some t) :
    s.Changes q t := by
  simp only [step] at run
  split at run
  next elCount sq life =>
    cases result with
    | none =>
      cases Option.some.inj run
      exact setLife_changes (by rw [life]; rfl) (by rw [life]; rfl)
    | some qid =>
      obtain ⟨⟨least, most, fresh⟩, run⟩ := Option.ite_none_right_eq_some.mp run
      cases Option.some.inj run
      exact setLife_with_changes (by rw [life]; exact .takes rfl least most fresh rfl)
  next => cases run

/-- Every step of a call is one of the intended changes, for its queue. -/
theorem step_changes (run : s.step a = some t) :
    (t.registry = s.registry ∧ t.life = s.life) ∨ ∃ q, a.queue = some q ∧ s.Changes q t := by
  cases a with
  | createCq number elCount =>
    obtain ⟨unborn, run⟩ := Option.ite_none_right_eq_some.mp run
    cases Option.some.inj run
    exact Or.inr ⟨_, rfl, setLife_changes (by rw [unborn]; rfl) (by rw [unborn]; rfl)⟩
  | createSq number cq name elCount direction =>
    obtain ⟨unborn, run⟩ := Option.ite_none_right_eq_some.mp run
    cases Option.some.inj run
    exact Or.inr ⟨_, rfl, createSq_changes unborn⟩
  | createSqWithFlags number cq name elCount flags =>
    obtain ⟨unborn, run⟩ := Option.ite_none_right_eq_some.mp run
    cases Option.some.inj run
    exact Or.inr ⟨_, rfl, createSqWithFlags_changes unborn⟩
  | qidAlloc q result => exact Or.inr ⟨q, rfl, qidAlloc_changes run⟩
  | remove =>
    cases Option.some.inj run
    exact Or.inl ⟨rfl, rfl⟩
  | allocated q | registered q | publish q | abandon q | destroy q | unregistered q | unpublish q
  | synchronized q | release q =>
    simp only [step] at run
    split at run
    next qid stage life => exact Or.inr ⟨q, rfl, holdingStep_changes life run⟩
    next => cases run

end RegistryRun

end AppleBce

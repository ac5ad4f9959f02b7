import AppleBce.Driver.Probe

namespace AppleBce

open Basis Ledger

/-- What goes wrong in a remove, and in a probe that fails. The event queues outlive the workqueue and the
recovery that their handlers queue. The recovery is cancelled before the watchdog and the workqueue, whose
commands may schedule it again. The elements of each message and event queue are freed before the T2 is told
that the queue is gone. -/
def removeFault : LedgerFault BceResource → Bool
  | .inUse .recovery user => user = .entry (.evSq .system) ∨ user = .watchdog ∨ user = .tqStateWq
  | .inUse .tqStateWq user => user = .entry (.evSq .commands)
  | .inUse (.elements (.msgSq q)) user => user = .entry (.msgSq q)
  | .inUse (.elements (.evSq q)) user => user = .entry (.evSq q)
  | _ => false

/-- What goes wrong in a probe only. The regions and the interrupt vectors are given back also when they
could not be had, and so is the command queue when the message queues could not all be created. The event
queues are there before the workqueue and the recovery, the workqueue before the recovery, and this before
the watchdog and the HCD. A probe that fails later never cancels the recovery and the watchdog, so that
whatever they work on goes while they may be pending, and puts the HCD while the system events may use it. -/
def probeFault : LedgerFault BceResource → Bool
  | .inUse r user => user = .recovery ∨ user = .watchdog ∨ r = .hcd ∧ user = .entry (.evSq .system)
  | .absent r => r = .regions ∨ r = .irqVectors ∨ r = .commandQueue
  | .missing (.entry (.evSq .commands)) needed => needed = .tqStateWq
  | .missing (.entry (.evSq .system)) needed => needed = .recovery
  | .missing .tqStateWq needed => needed = .recovery
  | .missing .recovery needed => needed = .watchdog ∨ needed = .hcd
  | _ => false

def knownFault (probing : Bool) (fault : LedgerFault BceResource) : Bool :=
  removeFault fault || probing && probeFault fault

namespace BceProbe

variable {env : ProbeEnv} {probing : Bool} {A B H : Multiset BceResource} {α : Type} {r u : BceResource}
  {q : BceQueueRole}

/-- With the known faults only. -/
abbrev Runs (probing : Bool) (H : Multiset BceResource) (m : ProbeM α) (post : α → Multiset BceResource → Prop) :
    Prop :=
  Turns (fun fault => knownFault probing fault) H m post

def uses (u : BceResource) : List BceResource :=
  BceResource.needs u ++ BceResource.mayUse u

/-- What is held uses it in no way but those that are known. -/
def Unused (probing : Bool) (r : BceResource) (H : Multiset BceResource) : Prop :=
  ∀ u ∈ H, r ∈ uses u → knownFault probing (.inUse r u)

instance : Decidable (Unused probing r H) :=
  inferInstanceAs (Decidable (∀ u ∈ H, r ∈ uses u → knownFault probing (.inUse r u)))

/-- The one is neither held with the other nor used by it. -/
def Apart (probing : Bool) (A H : Multiset BceResource) : Prop :=
  ∀ r ∈ A, r ∉ H ∧ Unused probing r H

instance : Decidable (Apart probing A H) :=
  inferInstanceAs (Decidable (∀ r ∈ A, r ∉ H ∧ Unused probing r H))

/-- What the resource needs is there, or known not to be. -/
def Ready (probing : Bool) (r : BceResource) (H : Multiset BceResource) : Prop :=
  ∀ n ∈ BceResource.needs r, n ∈ H ∨ knownFault probing (.missing r n)

instance : Decidable (Ready probing r H) :=
  inferInstanceAs (Decidable (∀ n ∈ BceResource.needs r, n ∈ H ∨ knownFault probing (.missing r n)))

theorem Ready.of_free (free : BceResource.needs r = []) : Ready probing r H := by
  intro n needed
  rw [free] at needed
  cases needed

theorem notMem_add (left : r ∉ A) (right : r ∉ B) : r ∉ A + B :=
  fun held => (Multiset.mem_add.mp held).elim left right

theorem Unused.over (other : r ∉ uses u) (unused : Unused probing r H) : Unused probing r (u ::ₘ H) := by
  intro user member used
  obtain rfl | inside := Multiset.mem_cons.mp member
  · exact absurd used other
  · exact unused user inside used

/-- What works on nothing leaves unused what was. -/
theorem Unused.cons (quiet : uses u = []) (unused : Unused probing r H) : Unused probing r (u ::ₘ H) := by
  refine unused.over ?_
  rw [quiet]
  exact List.not_mem_nil

theorem Unused.add (left : Unused probing r A) (right : Unused probing r B) : Unused probing r (A + B) := by
  intro u member used
  obtain first | second := Multiset.mem_add.mp member
  · exact left u first used
  · exact right u second used

theorem Apart.add (left : Apart probing H A) (right : Apart probing H B) : Apart probing H (A + B) := by
  intro r member
  refine ⟨fun held => ?_, (left r member).2.add (right r member).2⟩
  obtain first | second := Multiset.mem_add.mp held
  · exact (left r member).1 first
  · exact (right r member).1 second

theorem Apart.cons (quiet : uses u = []) (new : u ∉ A) (apart : Apart probing A H) : Apart probing A (u ::ₘ H) := by
  intro r member
  refine ⟨fun held => ?_, (apart r member).2.cons quiet⟩
  obtain rfl | inside := Multiset.mem_cons.mp held
  · exact new member
  · exact (apart r member).1 inside

theorem Apart.zero : Apart probing A 0 :=
  fun r _ => ⟨Multiset.notMem_zero r, fun u member => absurd member (Multiset.notMem_zero u)⟩

/-- What is apart from each of the parts is apart from all of them. -/
theorem Apart.sum {κ : Type} {parts : κ → Multiset BceResource} {ks : List κ}
    (apart : ∀ k ∈ ks, Apart probing A (parts k)) : Apart probing A (ks.map parts).sum := by
  induction ks with
  | nil => exact Apart.zero
  | cons k rest ih =>
    rw [List.map_cons, List.sum_cons]
    exact (apart k List.mem_cons_self).add (ih fun other inside => apart other (List.mem_cons_of_mem k inside))

/-- A resource that is held and not used is given back without a fault. -/
theorem giveBack_runs {rest : Multiset BceResource} (here : H = r ::ₘ rest) (unused : Unused probing r rest) :
    Runs probing H (giveBack r) fun _ G => G = rest :=
  Turns.giveBack here unused

/-- Giving back a resource that is not held is a known fault, and changes nothing. -/
theorem absent_runs (gone : r ∉ H) (known : knownFault probing (.absent r)) (unused : Unused probing r H) :
    Runs probing H (giveBack r) fun _ G => G = H :=
  Turns.giveBack_absent gone known unused

theorem take_runs (new : r ∉ H) (ready : Ready probing r H) : Runs probing H (take r) fun _ G => G = r ::ₘ H :=
  Turns.take new ready

/-- An attempt either fails and takes nothing, or adds a resource that was not held and finds what it
needs. -/
theorem attempt_runs {next : Option Errno → ProbeM α} {last : α → Multiset BceResource → Prop} (new : r ∉ H)
    (ready : Ready probing r H) (failed : ∀ e, Runs probing H (next (some e)) last)
    (succeeded : Runs probing (r ::ₘ H) (next none) last) :
    Runs probing H (attempt env r >>= next) last :=
  Turns.attempt new ready failed succeeded

/-- The memory of a queue that `bce_alloc_cq` or `bce_alloc_sq` allocates, newest first. -/
def cqMemory (q : BceQueueRole) : Multiset BceResource :=
  .ring q ::ₘ .queue q ::ₘ 0

def sqMemory (q : BceQueueRole) : Multiset BceResource :=
  .completionData q ::ₘ .ring q ::ₘ .queue q ::ₘ 0

/-- `bce_alloc_cq` has the memory of the CQ if it succeeds, and nothing if it fails. -/
theorem bceAllocCq_runs (apart : Apart probing (cqMemory q) H) :
    Runs probing H (bceAllocCq env q) (Adds (cqMemory q) H) := by
  have queue := apart (.queue q) (by simp [cqMemory])
  have ring := apart (.ring q) (by simp [cqMemory])
  refine attempt_runs queue.1 (Ready.of_free rfl) (fun _ => Turns.pure rfl) ?_
  refine attempt_runs (by simpa using ring.1) (Ready.of_free rfl) (fun _ => ?_) ?_
  · exact (giveBack_runs rfl queue.2).bind fun _ G same => Turns.pure same
  · refine Turns.pure ?_
    simp [Adds, cqMemory]

/-- `bce_free_cq` gives back what `bce_alloc_cq` has allocated. -/
theorem bceFreeCq_runs (apart : Apart probing (cqMemory q) H) :
    Runs probing (cqMemory q + H) (bceFreeCq q) fun _ G => G = H := by
  have queue := apart (.queue q) (by simp [cqMemory])
  have ring := apart (.ring q) (by simp [cqMemory])
  have start : cqMemory q + H = .ring q ::ₘ .queue q ::ₘ H := by simp [cqMemory]
  refine (giveBack_runs start (ring.2.cons rfl)).bind fun _ G same => ?_
  exact giveBack_runs same queue.2

/-- `bce_alloc_sq` frees what it has, whichever of its allocations fails. -/
theorem bceAllocSq_runs (apart : Apart probing (sqMemory q) H) :
    Runs probing H (bceAllocSq env q) (Adds (sqMemory q) H) := by
  have queue := apart (.queue q) (by simp [sqMemory])
  have ring := apart (.ring q) (by simp [sqMemory])
  have completions := apart (.completionData q) (by simp [sqMemory])
  refine attempt_runs queue.1 (Ready.of_free rfl) (fun _ => Turns.pure rfl) ?_
  refine attempt_runs (by simpa using ring.1) (Ready.of_free rfl) (fun _ => ?_) ?_
  · refine attempt_runs (by simpa using completions.1) (Ready.of_free rfl) (fun _ => ?_) ?_
    · refine (Turns.pure rfl : Runs probing _ _ fun _ G => G = _).bind fun _ G same => ?_
      refine (Turns.pure same : Runs probing _ _ fun _ G => G = _).bind fun _ G same => ?_
      exact (giveBack_runs same queue.2).bind fun _ G same => Turns.pure same
    · refine (Turns.pure rfl : Runs probing _ _ fun _ G => G = _).bind fun _ G same => ?_
      refine (giveBack_runs same (completions.2.cons rfl)).bind fun _ G same => ?_
      exact (giveBack_runs same queue.2).bind fun _ G same => Turns.pure same
  · refine attempt_runs (by simpa using completions.1) (Ready.of_free rfl) (fun _ => ?_) ?_
    · refine (giveBack_runs rfl (ring.2.cons rfl)).bind fun _ G same => ?_
      refine (Turns.pure same : Runs probing _ _ fun _ G => G = _).bind fun _ G same => ?_
      exact (giveBack_runs same queue.2).bind fun _ G same => Turns.pure same
    · refine Turns.pure ?_
      simp [Adds, sqMemory]

theorem bceFreeSq_runs (apart : Apart probing (sqMemory q) H) :
    Runs probing (sqMemory q + H) (bceFreeSq q) fun _ G => G = H := by
  have queue := apart (.queue q) (by simp [sqMemory])
  have ring := apart (.ring q) (by simp [sqMemory])
  have completions := apart (.completionData q) (by simp [sqMemory])
  have start : sqMemory q + H = .ring q ::ₘ .completionData q ::ₘ .queue q ::ₘ H := by
    simp only [sqMemory, Multiset.cons_add, zero_add, Multiset.cons_swap (BceResource.completionData q)]
  refine (giveBack_runs start ((ring.2.cons rfl).cons rfl)).bind fun _ G same => ?_
  refine (giveBack_runs same (completions.2.cons rfl)).bind fun _ G same => ?_
  exact giveBack_runs same queue.2

/-- A queue with a qid and an entry, and the memory it has. -/
def parts (q : BceQueueRole) (memory : Multiset BceResource) : Multiset BceResource :=
  .entry q ::ₘ (memory + .qid q ::ₘ 0)

theorem Unused.of_quiet (quiet : ∀ u ∈ A, uses u = []) : Unused probing r A := by
  intro u member used
  rw [quiet u member] at used
  cases used

section Queue

variable {memory : Multiset BceResource} {alloc : ProbeM Bool} {free : ProbeM Unit} {isBeingRemoved : Bool}

theorem parts_add : parts q memory + H = .entry q ::ₘ (memory + .qid q ::ₘ H) := by
  rw [parts, Multiset.cons_add, add_assoc, Multiset.cons_add, zero_add]

theorem entry_notMem (quiet : ∀ u ∈ memory, uses u = []) : .entry q ∉ memory :=
  fun member => List.cons_ne_nil _ _ (quiet (.entry q) member)

/-- The creation of a queue has its qid, its memory and its entry, or nothing: when the T2 does not take
the queue, both are given back. -/
theorem createQueue_runs (quiet : ∀ u ∈ memory, uses u = []) (apart : Apart probing (parts q memory) H)
    (command : .entry .cmdSq ∈ H) (ready : Ready probing (.entry q) (memory + .qid q ::ₘ H))
    (allocates : Runs probing (.qid q ::ₘ H) alloc (Adds memory (.qid q ::ₘ H)))
    (frees : Runs probing (memory + .qid q ::ₘ H) free fun _ G => G = .qid q ::ₘ H) :
    Runs probing H (createQueue env q alloc free) (Adds (parts q memory) H) := by
  have qid := apart (.qid q) (by simp [parts])
  have entry := apart (.entry q) (by simp [parts])
  refine attempt_runs qid.1 (Ready.of_free rfl) (fun _ => Turns.pure rfl) ?_
  refine allocates.bind fun allocated G adds => ?_
  cases allocated with
  | false =>
    exact (giveBack_runs adds qid.2).bind fun _ G same => Turns.pure same
  | true =>
    have here : G = memory + .qid q ::ₘ H := adds
    subst here
    have registers : Runs probing (memory + .qid q ::ₘ H) (bceCmdRegisterQueue env) fun _ G =>
        G = memory + .qid q ::ₘ H := by
      have live : .entry .cmdSq ∈ memory + .qid q ::ₘ H :=
        Multiset.mem_add.mpr (.inr (Multiset.mem_cons_of_mem command))
      refine (Turns.access (.inl live)).bind fun _ G same => ?_
      exact Turns.ask.bind fun _ G also => Turns.pure (also.trans same)
    refine registers.bind fun registered G same => ?_
    subst same
    cases registered with
    | false =>
      refine frees.bind fun _ G same => ?_
      exact (giveBack_runs same qid.2).bind fun _ G same => Turns.pure same
    | true =>
      have new : .entry q ∉ memory + .qid q ::ₘ H := by
        intro held
        obtain inside | outside := Multiset.mem_add.mp held
        · exact entry_notMem quiet inside
        · obtain other | outside := Multiset.mem_cons.mp outside
          · cases other
          · exact entry.1 outside
      exact (take_runs new ready).bind fun _ G same => Turns.pure (same.trans parts_add.symm)

/-- The destruction gives all of it back, the entry first, so that nothing uses the memory. -/
theorem destroyQueue_runs (quiet : ∀ u ∈ memory, uses u = []) (apart : Apart probing (parts q memory) H)
    (command : isBeingRemoved = false → .entry .cmdSq ∈ H)
    (frees : Runs probing (memory + H) free fun _ G => G = H) :
    Runs probing (parts q memory + H) (destroyQueue env isBeingRemoved q free) fun _ G => G = H := by
  have qid := apart (.qid q) (by simp [parts])
  have entry := apart (.entry q) (by simp [parts])
  have unregisters : Runs probing (parts q memory + H) (bceCmdUnregisterMemoryQueue env isBeingRemoved) fun _ G =>
      G = parts q memory + H := by
    cases isBeingRemoved with
    | true => exact Turns.pure rfl
    | false =>
      have live : .entry .cmdSq ∈ parts q memory + H := Multiset.mem_add.mpr (.inr (command rfl))
      refine (Turns.access (.inl live)).bind fun _ G same => ?_
      exact Turns.ask.bind fun _ G also => Turns.pure (also.trans same)
  refine unregisters.bind fun _ G same => ?_
  refine (giveBack_runs (same.trans parts_add) ?_).bind fun _ G same => ?_
  · exact (Unused.of_quiet quiet).add (entry.2.cons rfl)
  · refine (giveBack_runs (same.trans (Multiset.add_cons ..)) ?_).bind fun _ G same => ?_
    · exact (Unused.of_quiet quiet).add qid.2
    · subst same
      exact frees

end Queue

def cqParts (q : BceQueueRole) : Multiset BceResource :=
  parts q (cqMemory q)

def sqParts (q : BceQueueRole) : Multiset BceResource :=
  parts q (sqMemory q)

theorem Apart.mono (within : ∀ r ∈ A, r ∈ B) (apart : Apart probing B H) : Apart probing A H :=
  fun r member => apart r (within r member)

theorem quiet_cqMemory : ∀ u ∈ cqMemory q, uses u = [] := by
  simp [cqMemory, uses, BceResource.needs, BceResource.mayUse]

theorem quiet_sqMemory : ∀ u ∈ sqMemory q, uses u = [] := by
  simp [sqMemory, uses, BceResource.needs, BceResource.mayUse]

theorem memory_apart {memory : Multiset BceResource} (apart : Apart probing (parts q memory) H) :
    Apart probing memory H := by
  refine apart.mono fun r member => ?_
  exact Multiset.mem_cons_of_mem (Multiset.mem_add.mpr (.inl member))

section Queues

variable {isBeingRemoved : Bool}

/-- Over a queue for commands, and with what its handler needs but for the known faults. -/
theorem bceCreateCq_runs (apart : Apart probing (cqParts q) H) (command : .entry .cmdSq ∈ H)
    (ready : Ready probing (.entry q) (cqMemory q + .qid q ::ₘ H)) :
    Runs probing H (bceCreateCq env q) (Adds (cqParts q) H) := by
  have behind : Apart probing (cqMemory q) (.qid q ::ₘ H) := (memory_apart apart).cons rfl (by simp [cqMemory])
  exact createQueue_runs quiet_cqMemory apart command ready (bceAllocCq_runs behind) (bceFreeCq_runs behind)

theorem bceCreateSq_runs (apart : Apart probing (sqParts q) H) (command : .entry .cmdSq ∈ H)
    (ready : Ready probing (.entry q) (sqMemory q + .qid q ::ₘ H)) :
    Runs probing H (bceCreateSq env q) (Adds (sqParts q) H) := by
  have behind : Apart probing (sqMemory q) (.qid q ::ₘ H) := (memory_apart apart).cons rfl (by simp [sqMemory])
  exact createQueue_runs quiet_sqMemory apart command ready (bceAllocSq_runs behind) (bceFreeSq_runs behind)

theorem bceDestroyCq_runs (apart : Apart probing (cqParts q) H)
    (command : isBeingRemoved = false → .entry .cmdSq ∈ H) :
    Runs probing (cqParts q + H) (bceDestroyCq env isBeingRemoved q) fun _ G => G = H :=
  destroyQueue_runs quiet_cqMemory apart command (bceFreeCq_runs (memory_apart apart))

theorem bceDestroySq_runs (apart : Apart probing (sqParts q) H)
    (command : isBeingRemoved = false → .entry .cmdSq ∈ H) :
    Runs probing (sqParts q + H) (bceDestroySq env isBeingRemoved q) fun _ G => G = H :=
  destroyQueue_runs quiet_sqMemory apart command (bceFreeSq_runs (memory_apart apart))

end Queues

end BceProbe

end AppleBce

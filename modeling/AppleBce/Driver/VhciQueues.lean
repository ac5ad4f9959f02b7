import AppleBce.Driver.QueueParts

namespace AppleBce

open Basis Ledger

namespace BceProbe

variable {env : ProbeEnv} {probing : Bool} {H : Multiset BceResource} {isBeingRemoved : Bool} {q : EventQueueName}

/-- A message queue with its elements and its CQ. -/
def msgParts (q : EventQueueName) : Multiset BceResource :=
  .elements (.msgSq q) ::ₘ (sqParts (.msgSq q) + cqParts (.msgCq q))

def evParts (q : EventQueueName) : Multiset BceResource :=
  .elements (.evSq q) ::ₘ sqParts (.evSq q)

theorem entry_mem (q : BceQueueRole) : .entry q ∈ cqParts q := by
  simp [cqParts, parts]

theorem msgSq_apart_msgCq (q : EventQueueName) : Apart probing (sqParts (.msgSq q)) (cqParts (.msgCq q)) := by
  cases q <;> cases probing <;> decide

/-- No message queue uses another. -/
theorem msgParts_apart {p : EventQueueName} (other : p ≠ q) : Apart probing (msgParts q) (msgParts p) := by
  cases q <;> cases p <;> first | exact absurd rfl other | (cases probing <;> decide)

theorem evParts_apart {p : EventQueueName} (other : p ≠ q) : Apart probing (evParts q) (evParts p) := by
  cases q <;> cases p <;> first | exact absurd rfl other | (cases probing <;> decide)

theorem msgParts_add :
    msgParts q + H = .elements (.msgSq q) ::ₘ (sqParts (.msgSq q) + (cqParts (.msgCq q) + H)) := by
  rw [msgParts, Multiset.cons_add, add_assoc]

theorem evParts_add : evParts q + H = .elements (.evSq q) ::ₘ (sqParts (.evSq q) + H) := by
  rw [evParts, Multiset.cons_add]

theorem msgSq_apart (apart : Apart probing (msgParts q) H) :
    Apart probing (sqParts (.msgSq q)) (cqParts (.msgCq q) + H) := by
  refine (msgSq_apart_msgCq q).add (apart.mono fun r member => ?_)
  exact Multiset.mem_cons_of_mem (Multiset.mem_add.mpr (.inl member))

theorem msgCq_apart (apart : Apart probing (msgParts q) H) : Apart probing (cqParts (.msgCq q)) H :=
  apart.mono fun _ member => Multiset.mem_cons_of_mem (Multiset.mem_add.mpr (.inr member))

theorem evSq_apart (apart : Apart probing (evParts q) H) : Apart probing (sqParts (.evSq q)) H :=
  apart.mono fun _ member => Multiset.mem_cons_of_mem member

/-- The CQ of a message queue and that of the events have the submission queue of the commands alone to work
on, apart from their own memory. -/
theorem cq_ready {c : BceQueueRole} (handler : BceResource.handlerNeeds c = [.entry .cmdSq]) (bce : .bce ∈ H)
    (command : .entry .cmdSq ∈ H) : Ready true (.entry c) (cqMemory c + .qid c ::ₘ H) := by
  intro n needed
  refine .inl ?_
  simp only [BceResource.needs, handler, List.cons_append, List.nil_append, List.mem_cons, List.not_mem_nil,
    or_false] at needed
  obtain rfl | rfl | rfl | rfl := needed
  · simp [bce]
  · simp [cqMemory]
  · simp [cqMemory]
  · simp [command]

theorem msgSq_ready (bce : .bce ∈ H) (command : .entry .cmdSq ∈ H) (cq : .entry (.msgCq q) ∈ H) :
    Ready true (.entry (.msgSq q)) (sqMemory (.msgSq q) + .qid (.msgSq q) ::ₘ H) := by
  intro n needed
  refine .inl ?_
  simp only [BceResource.needs, BceResource.handlerNeeds, List.cons_append, List.nil_append, List.mem_cons,
    List.not_mem_nil, or_false] at needed
  obtain rfl | rfl | rfl | rfl | rfl | rfl := needed
  · simp [bce]
  · simp [sqMemory]
  · simp [sqMemory]
  · simp [sqMemory]
  · simp [cq]
  · simp [command]

/-- What the handler of an event queue needs is there, but for the workqueue and the recovery, which come
later. -/
theorem evSq_ready (bce : .bce ∈ H) (command : .entry .cmdSq ∈ H) (replies : .commandQueue ∈ H)
    (cq : .entry .evCq ∈ H) : Ready true (.entry (.evSq q)) (sqMemory (.evSq q) + .qid (.evSq q) ::ₘ H) := by
  intro n needed
  by_cases own : n = .tqStateWq ∨ n = .recovery
  · cases q <;> obtain rfl | rfl := own <;> first | exact .inr rfl | exact absurd needed (by decide)
  refine .inl ?_
  cases q <;> simp [BceResource.needs, BceResource.handlerNeeds] at needed
  case commands =>
    obtain rfl | rfl | rfl | rfl | rfl | rfl | rfl := needed <;> simp [sqMemory, bce, command, cq] at own ⊢
  case system =>
    obtain rfl | rfl | rfl | rfl | rfl | rfl | rfl | rfl := needed <;>
      simp [sqMemory, bce, command, replies, cq] at own ⊢
  all_goals obtain rfl | rfl | rfl | rfl | rfl | rfl | rfl := needed <;> simp [sqMemory, bce, command, replies, cq]

/-- A message queue is created with its CQ and its elements, or leaves nothing. -/
theorem bceVhciMessageQueueCreate_runs (apart : Apart true (msgParts q) H) (bce : .bce ∈ H)
    (command : .entry .cmdSq ∈ H) : Runs true H (bceVhciMessageQueueCreate env q) (Adds (msgParts q) H) := by
  have live : .entry .cmdSq ∈ cqParts (.msgCq q) + H := Multiset.mem_add.mpr (.inr command)
  have device : .bce ∈ cqParts (.msgCq q) + H := Multiset.mem_add.mpr (.inr bce)
  have cq : .entry (.msgCq q) ∈ cqParts (.msgCq q) + H :=
    Multiset.mem_add.mpr (.inl (entry_mem _))
  refine (bceCreateCq_runs (msgCq_apart apart) command (cq_ready rfl bce command)).bind fun created G adds => ?_
  cases created with
  | false => exact Turns.pure adds
  | true =>
    have here : G = cqParts (.msgCq q) + H := adds
    subst here
    refine (bceCreateSq_runs (msgSq_apart apart) live (msgSq_ready device live cq)).bind fun created G adds => ?_
    cases created with
    | false =>
      have here : G = cqParts (.msgCq q) + H := adds
      subst here
      exact (bceDestroyCq_runs (msgCq_apart apart) fun _ => command).bind fun _ G same => Turns.pure same
    | true =>
      have here : G = sqParts (.msgSq q) + (cqParts (.msgCq q) + H) := adds
      subst here
      have new : .elements (.msgSq q) ∉ sqParts (.msgSq q) + (cqParts (.msgCq q) + H) := by
        rw [← add_assoc]
        exact notMem_add (by cases q <;> decide) (apart _ (Multiset.mem_cons_self ..)).1
      refine attempt_runs new (Ready.of_free rfl) (fun _ => ?_) (Turns.pure msgParts_add.symm)
      refine (bceDestroySq_runs (msgSq_apart apart) fun _ => live).bind fun _ G same => ?_
      subst same
      exact (bceDestroyCq_runs (msgCq_apart apart) fun _ => command).bind fun _ G same => Turns.pure same

/-- The elements are given back while the T2 still has the queue, which is known. -/
theorem bceVhciMessageQueueDestroy_runs (apart : Apart probing (msgParts q) H) (command : .entry .cmdSq ∈ H) :
    Runs probing (msgParts q + H) (bceVhciMessageQueueDestroy env isBeingRemoved q) fun _ G => G = H := by
  have live : .entry .cmdSq ∈ cqParts (.msgCq q) + H := Multiset.mem_add.mpr (.inr command)
  have elements : Unused probing (.elements (.msgSq q)) (sqParts (.msgSq q) + (cqParts (.msgCq q) + H)) := by
    rw [← add_assoc]
    exact Unused.add (by cases q <;> cases probing <;> decide) (apart _ (Multiset.mem_cons_self ..)).2
  refine (giveBack_runs msgParts_add elements).bind fun _ G same => ?_
  subst same
  refine (bceDestroySq_runs (msgSq_apart apart) fun _ => live).bind fun _ G same => ?_
  subst same
  exact bceDestroyCq_runs (msgCq_apart apart) fun _ => command

/-- An event queue is created with its elements, or leaves nothing. -/
theorem bceVhciEventQueueCreate_runs (apart : Apart true (evParts q) H) (bce : .bce ∈ H)
    (command : .entry .cmdSq ∈ H) (replies : .commandQueue ∈ H) (cq : .entry .evCq ∈ H) :
    Runs true H (bceVhciEventQueueCreate env q) (Adds (evParts q) H) := by
  refine (bceCreateSq_runs (evSq_apart apart) command (evSq_ready bce command replies cq)).bind
    fun created G adds => ?_
  cases created with
  | false => exact Turns.pure adds
  | true =>
    have here : G = sqParts (.evSq q) + H := adds
    subst here
    have new : .elements (.evSq q) ∉ sqParts (.evSq q) + H :=
      notMem_add (by cases q <;> decide) (apart _ (Multiset.mem_cons_self ..)).1
    refine attempt_runs new (Ready.of_free rfl) (fun _ => ?_) (Turns.pure evParts_add.symm)
    exact (bceDestroySq_runs (evSq_apart apart) fun _ => command).bind fun _ G same => Turns.pure same

theorem bceVhciEventQueueDestroy_runs (apart : Apart probing (evParts q) H) (command : .entry .cmdSq ∈ H) :
    Runs probing (evParts q + H) (bceVhciEventQueueDestroy env isBeingRemoved q) fun _ G => G = H := by
  have elements : Unused probing (.elements (.evSq q)) (sqParts (.evSq q) + H) :=
    Unused.add (by cases q <;> cases probing <;> decide) (apart _ (Multiset.mem_cons_self ..)).2
  refine (giveBack_runs evParts_add elements).bind fun _ G same => ?_
  subst same
  exact bceDestroySq_runs (evSq_apart apart) fun _ => command

theorem names_nodup : vhciQueueNames.Nodup := by
  decide

/-- The message queues that were created, a front of all of them, are destroyed. -/
theorem messageQueues_unchain {made : List EventQueueName} (command : .entry .cmdSq ∈ H)
    (apart : ∀ q, Apart probing (msgParts q) H) (front : made <+: vhciQueueNames) :
    Runs probing ((made.map msgParts).sum + H)
      (unchain (bceVhciMessageQueueDestroy env isBeingRemoved) made vhciQueueNames) fun _ G => G = H := by
  refine Turns.unchain_made names_nodup front fun q rest _ others => ?_
  have behind : Apart probing (msgParts q) ((rest.map msgParts).sum + H) :=
    (Apart.sum fun p member => msgParts_apart (others p member).2).add (apart q)
  exact bceVhciMessageQueueDestroy_runs behind (Multiset.mem_add.mpr (.inr command))

/-- All message queues, with the command queue behind that of the commands. -/
def msgAll : Multiset BceResource :=
  .commandQueue ::ₘ (vhciQueueNames.map msgParts).sum

theorem commandQueue_apart (made : List EventQueueName) (replies : Apart probing (.commandQueue ::ₘ 0) H) :
    .commandQueue ∉ (made.map msgParts).sum + H ∧ Unused probing .commandQueue ((made.map msgParts).sum + H) := by
  have queues : Apart probing (.commandQueue ::ₘ 0) (made.map msgParts).sum := by
    refine Apart.sum fun q _ => ?_
    cases q <;> cases probing <;> decide
  exact queues.add replies _ (Multiset.mem_cons_self ..)

/-- The command queue goes first, and then the queues that it sends its commands over. -/
theorem bceVhciDestroyMessageQueues_runs (command : .entry .cmdSq ∈ H) (apart : ∀ q, Apart probing (msgParts q) H)
    (replies : Apart probing (.commandQueue ::ₘ 0) H) :
    Runs probing (msgAll + H) (bceVhciDestroyMessageQueues env isBeingRemoved vhciQueueNames) fun _ G => G = H := by
  refine (giveBack_runs (Multiset.cons_add ..) (commandQueue_apart _ replies).2).bind fun _ G same => ?_
  subst same
  exact messageQueues_unchain command apart (List.prefix_refl _)

/-- When they cannot all be created, the command queue is destroyed although there is none. -/
theorem bceVhciCreateMessageQueues_runs (bce : .bce ∈ H) (command : .entry .cmdSq ∈ H)
    (apart : ∀ q, Apart true (msgParts q) H) (replies : Apart true (.commandQueue ::ₘ 0) H) :
    Runs true H (bceVhciCreateMessageQueues env) fun status G => Adds msgAll H status.isNone G := by
  have start : Runs true H (chain (bceVhciMessageQueueCreate env) [] vhciQueueNames) fun result G =>
      G = (result.2.map msgParts).sum + H ∧ result.2 <+: vhciQueueNames ∧
      (result.1 = true → result.2 = vhciQueueNames) := by
    refine Turns.chain_distinct names_nodup fun done q others => ?_
    have behind : Apart true (msgParts q) ((done.map msgParts).sum + H) :=
      (Apart.sum fun p member => msgParts_apart (others p member)).add (apart q)
    exact bceVhciMessageQueueCreate_runs behind (Multiset.mem_add.mpr (.inr bce))
      (Multiset.mem_add.mpr (.inr command))
  refine start.bind fun result G made => ?_
  obtain ⟨ok, created⟩ := result
  obtain ⟨rfl, front, whole⟩ := made
  obtain ⟨new, unused⟩ := commandQueue_apart created replies
  cases ok with
  | true =>
    rw [show created = vhciQueueNames from whole rfl] at new ⊢
    have ready : Ready true .commandQueue ((vhciQueueNames.map msgParts).sum + H) := by
      intro n needed
      refine .inl (Multiset.mem_add.mpr ?_)
      obtain rfl | queue := List.mem_cons.mp needed
      · exact .inr bce
      · rw [List.mem_singleton.mp queue]
        exact .inl (by decide)
    exact (take_runs new ready).bind fun _ G same => Turns.pure (same.trans (Multiset.cons_add ..).symm)
  | false =>
    have destroys : Runs true ((created.map msgParts).sum + H) (bceVhciDestroyMessageQueues env false created)
        fun _ G => G = H := by
      refine (absent_runs new rfl unused).bind fun _ G same => ?_
      subst same
      exact messageQueues_unchain command apart front
    exact destroys.bind fun _ G same => Turns.pure same

/-- The event queues that were created are destroyed, and then their CQ. -/
theorem bceVhciDestroyEventQueues_runs {made : List EventQueueName} (command : .entry .cmdSq ∈ H)
    (apart : ∀ q, Apart probing (evParts q) (cqParts .evCq + H)) (cq : Apart probing (cqParts .evCq) H)
    (front : made <+: vhciQueueNames) :
    Runs probing ((made.map evParts).sum + (cqParts .evCq + H)) (bceVhciDestroyEventQueues env isBeingRemoved made)
      fun _ G => G = H := by
  have live : .entry .cmdSq ∈ cqParts .evCq + H := Multiset.mem_add.mpr (.inr command)
  have queues : Runs probing ((made.map evParts).sum + (cqParts .evCq + H))
      (unchain (bceVhciEventQueueDestroy env isBeingRemoved) made vhciQueueNames)
      fun _ G => G = cqParts .evCq + H := by
    refine Turns.unchain_made names_nodup front fun q rest _ others => ?_
    have behind : Apart probing (evParts q) ((rest.map evParts).sum + (cqParts .evCq + H)) :=
      (Apart.sum fun p member => evParts_apart (others p member).2).add (apart q)
    exact bceVhciEventQueueDestroy_runs behind (Multiset.mem_add.mpr (.inr live))
  refine queues.bind fun _ G same => ?_
  subst same
  exact bceDestroyCq_runs cq fun _ => command

/-- All event queues are created with their CQ, or none is left. -/
theorem bceVhciCreateEventQueues_runs (bce : .bce ∈ H) (command : .entry .cmdSq ∈ H) (replies : .commandQueue ∈ H)
    (apart : ∀ q, Apart true (evParts q) (cqParts .evCq + H)) (cq : Apart true (cqParts .evCq) H) :
    Runs true H (bceVhciCreateEventQueues env) fun status G =>
      Adds ((vhciQueueNames.map evParts).sum + cqParts .evCq) H status.isNone G := by
  refine (bceCreateCq_runs cq command (cq_ready rfl bce command)).bind fun created G adds => ?_
  cases created with
  | false => exact Turns.pure adds
  | true =>
    have here : G = cqParts .evCq + H := adds
    subst here
    have start : Runs true (cqParts .evCq + H) (chain (bceVhciEventQueueCreate env) [] vhciQueueNames)
        fun result G =>
        G = (result.2.map evParts).sum + (cqParts .evCq + H) ∧ result.2 <+: vhciQueueNames ∧
        (result.1 = true → result.2 = vhciQueueNames) := by
      refine Turns.chain_distinct names_nodup fun done q others => ?_
      have behind : Apart true (evParts q) ((done.map evParts).sum + (cqParts .evCq + H)) :=
        (Apart.sum fun p member => evParts_apart (others p member)).add (apart q)
      exact bceVhciEventQueueCreate_runs behind
        (Multiset.mem_add.mpr (.inr (Multiset.mem_add.mpr (.inr bce))))
        (Multiset.mem_add.mpr (.inr (Multiset.mem_add.mpr (.inr command))))
        (Multiset.mem_add.mpr (.inr (Multiset.mem_add.mpr (.inr replies))))
        (Multiset.mem_add.mpr (.inr (Multiset.mem_add.mpr (.inl (entry_mem _)))))
    refine start.bind fun result G made => ?_
    obtain ⟨ok, created⟩ := result
    obtain ⟨rfl, front, whole⟩ := made
    cases ok with
    | true =>
      rw [show created = vhciQueueNames from whole rfl]
      exact Turns.pure (add_assoc ..).symm
    | false =>
      refine (bceVhciDestroyEventQueues_runs command apart cq front).bind fun _ G same => ?_
      exact Turns.pure same

end BceProbe

end AppleBce

import AppleBce.Driver.VhciQueues
import AppleBce.Driver.CommandQueueLedger

namespace AppleBce

open Basis Ledger

namespace BceProbe

variable {env : ProbeEnv} {probing : Bool} {A H X : Multiset BceResource} {r : BceResource}

/-- What the probe has when it comes to the virtual controller. -/
def probeParts : Multiset BceResource :=
  cmdParts + t2Parts

def evAll : Multiset BceResource :=
  (vhciQueueNames.map evParts).sum

/-- The rest of `fail` of the probe, once the virtual controller has failed and left `X`. -/
theorem failVhci_runs (left : Leftover X) : Runs true (probeParts + X) failVhci fun _ G => G = X := by
  have start : probeParts + X = cmdParts + (t2Parts + X) := add_assoc ..
  have apart : Apart true cmdParts (t2Parts + X) := Apart.add (by decide) (left.apart (by decide))
  rw [start]
  refine (bceFreeCommandQueues_runs apart).bind fun _ G same => ?_
  subst same
  exact failTs_runs left

/-- What may be held beside the queues uses `pci0` at most, apart from the works that a probe leaves. -/
def Beside (probing : Bool) (X : Multiset BceResource) : Prop :=
  ∀ r ∈ X, probing ∧ (r = .recovery ∨ r = .watchdog) ∨ r = .pci0Link ∨ r = .hcd

/-- Nothing but `pci0` is used from beside, or it is known. -/
theorem Beside.unused (beside : Beside probing X) (other : r ≠ .pci0) : Unused probing r X := by
  intro u member used
  obtain ⟨rfl, works⟩ | rfl | rfl := beside u member
  · obtain rfl | rfl := works <;> simp [knownFault, probeFault]
  · exact absurd (List.mem_singleton.mp used) other
  · cases used

theorem Beside.apart (beside : Beside probing X)
    (other : .recovery ∉ A ∧ .watchdog ∉ A ∧ .pci0Link ∉ A ∧ .hcd ∉ A ∧ .pci0 ∉ A) : Apart probing A X := by
  obtain ⟨recovery, watchdog, link, hcd, pci0⟩ := other
  refine fun r member => ⟨fun held => ?_, beside.unused fun same => pci0 (same ▸ member)⟩
  obtain ⟨-, rfl | rfl⟩ | rfl | rfl := beside r held
  · exact recovery member
  · exact watchdog member
  · exact link member
  · exact hcd member

theorem Leftover.beside (left : Leftover X) : Beside true X :=
  fun r member => .inl ⟨rfl, left.works r member⟩

/-- What the message queues are created over. -/
def vdevParts (X : Multiset BceResource) : Multiset BceResource :=
  .vdev ::ₘ probeParts + X

theorem msg_apart (beside : Beside probing X) (q : EventQueueName) : Apart probing (msgParts q) (vdevParts X) := by
  refine Apart.add ?_ (beside.apart ?_)
  · cases q <;> cases probing <;> decide
  · cases q <;> decide

theorem replies_apart (beside : Beside probing X) : Apart probing (.commandQueue ::ₘ 0) (vdevParts X) :=
  Apart.add (by cases probing <;> decide) (beside.apart (by decide))

theorem failMq_runs (left : Leftover X) : Runs true (vdevParts X) failMq fun _ G => G = probeParts + X := by
  exact giveBack_runs (Multiset.cons_add ..) (Unused.add (by decide) left.unused)

/-- From `fail_eq` on nothing is left of the virtual controller but what was left before. -/
theorem failEq_runs (left : Leftover X) :
    Runs true (msgAll + vdevParts X) (failEq env) fun _ G => G = probeParts + X := by
  have command : .entry .cmdSq ∈ vdevParts X := Multiset.mem_add.mpr (.inl (by decide))
  refine (bceVhciDestroyMessageQueues_runs command (msg_apart left.beside) (replies_apart left.beside)).bind
    fun _ G same => ?_
  subst same
  exact failMq_runs left

/-- What is apart from each message queue and from the command queue is apart from them all. -/
theorem msgAll_apart (replies : Apart probing A (.commandQueue ::ₘ 0))
    (queues : ∀ q, Apart probing A (msgParts q)) :
    Apart probing A msgAll := by
  have split : msgAll = .commandQueue ::ₘ 0 + (vhciQueueNames.map msgParts).sum := by
    rw [msgAll, Multiset.cons_add, zero_add]
  rw [split]
  exact replies.add (Apart.sum fun q _ => queues q)

theorem evCq_apart (beside : Beside probing X) : Apart probing (cqParts .evCq) (msgAll + vdevParts X) := by
  refine (msgAll_apart ?_ fun q => ?_).add (Apart.add ?_ (beside.apart (by decide)))
  · cases probing <;> decide
  · cases q <;> cases probing <;> decide
  · cases probing <;> decide

theorem ev_apart (beside : Beside probing X) (q : EventQueueName) :
    Apart probing (evParts q) (cqParts .evCq + (msgAll + vdevParts X)) := by
  have messages : Apart probing (evParts q) msgAll := by
    refine msgAll_apart ?_ fun p => ?_
    · cases q <;> cases probing <;> decide
    · cases q <;> cases p <;> cases probing <;> decide
  refine Apart.add ?_ (messages.add (Apart.add ?_ (beside.apart ?_)))
  · cases q <;> cases probing <;> decide
  · cases q <;> cases probing <;> decide
  · cases q <;> decide

/-- What there is when the virtual controller has its queues. -/
def queueParts (X : Multiset BceResource) : Multiset BceResource :=
  evAll + (cqParts .evCq + (msgAll + vdevParts X))

theorem queueParts_cons : queueParts (r ::ₘ X) = r ::ₘ queueParts X := by
  simp only [queueParts, vdevParts, Multiset.add_cons]

/-- From `fail_wq` on all the queues are destroyed. -/
theorem failWq_runs (left : Leftover X) : Runs true (queueParts X) (failWq env) fun _ G => G = probeParts + X := by
  refine (bceVhciDestroyEventQueues_runs ?_ (ev_apart left.beside) (evCq_apart left.beside)
    (List.prefix_refl _)).bind fun _ G same => ?_
  · exact Multiset.mem_add.mpr (.inr (Multiset.mem_add.mpr (.inl (by decide))))
  · subst same
    exact failEq_runs left

theorem queueParts_apart (queues : ∀ q, Apart probing A (evParts q) ∧ Apart probing A (msgParts q))
    (others : Apart probing A (.commandQueue ::ₘ 0) ∧ Apart probing A (cqParts .evCq) ∧
      Apart probing A (.vdev ::ₘ probeParts)) (behind : Apart probing A X) : Apart probing A (queueParts X) := by
  obtain ⟨replies, evCq, device⟩ := others
  have messages : Apart probing A (msgAll + vdevParts X) :=
    (msgAll_apart replies fun q => (queues q).2).add (device.add behind)
  exact (Apart.sum fun q _ => (queues q).1).add (evCq.add messages)

/-- What is taken once the queues are there, apart from the HCD and the link. -/
def lateParts : Multiset BceResource :=
  .globalBce ::ₘ .hcdAdded ::ₘ .watchdog ::ₘ .recovery ::ₘ .tqStateWq ::ₘ 0

/-- The queues use nothing of it but in the known ways. -/
theorem late_apart (late : r ∈ lateParts) (behind : Apart probing (r ::ₘ 0) X) :
    r ∉ queueParts X ∧ Unused probing r (queueParts X) := by
  have queues (q : EventQueueName) :
      Apart probing lateParts (evParts q) ∧ Apart probing lateParts (msgParts q) := by
    cases q <;> cases probing <;> decide
  have others : Apart probing lateParts (.commandQueue ::ₘ 0) ∧ Apart probing lateParts (cqParts .evCq) ∧
      Apart probing lateParts (.vdev ::ₘ probeParts) := by
    cases probing <;> decide
  have within : ∀ x ∈ r ::ₘ 0, x ∈ lateParts := by
    intro x member
    rw [Multiset.mem_singleton.mp member]
    exact late
  refine queueParts_apart (fun q => ?_) ?_ behind r (Multiset.mem_cons_self ..)
  · exact ⟨(queues q).1.mono within, (queues q).2.mono within⟩
  · exact ⟨others.1.mono within, others.2.1.mono within, others.2.2.mono within⟩

/-- The handler of the system events uses the HCD, which is known of a probe that fails. -/
theorem hcd_apart (behind : Apart true (.hcd ::ₘ 0) X) :
    .hcd ∉ queueParts X ∧ Unused true .hcd (queueParts X) := by
  refine queueParts_apart (fun q => ?_) (by decide) behind _ (Multiset.mem_cons_self ..)
  cases q <;> decide

theorem failHcd_runs (left : Leftover X) :
    Runs true (.tqStateWq ::ₘ queueParts X) (failHcd env) fun _ G => G = probeParts + X := by
  refine (giveBack_runs rfl (late_apart (by decide) (left.apart (by decide))).2).bind fun _ G same => ?_
  subst same
  exact failWq_runs left

/-- The HCD is put while the handler of the system events may use it. -/
theorem failAddHcd_runs (left : Leftover X) :
    Runs true (.hcd ::ₘ .tqStateWq ::ₘ queueParts X) (failAddHcd env) fun _ G => G = probeParts + X := by
  refine (giveBack_runs rfl ((hcd_apart (left.apart (by decide))).2.over (by decide))).bind fun _ G same => ?_
  subst same
  exact failHcd_runs left

/-- What a whole `bce_vhci_create` has. -/
def vhciParts (X : Multiset BceResource) : Multiset BceResource :=
  .hcdAdded ::ₘ .hcd ::ₘ .watchdog ::ₘ .recovery ::ₘ .tqStateWq ::ₘ 0 + queueParts X

/-- Once it has succeeded or failed, over `H`. -/
def Created (parts H : Multiset BceResource) (status : Option Errno) (G : Multiset BceResource) : Prop :=
  match status with
  | none => G = parts
  | some _ => ∃ X, Leftover X ∧ G = H + X

theorem created_failed {m : ProbeM Unit} {e : Errno} (left : Leftover X)
    (run : Runs true H m fun _ G => G = probeParts + X) :
    Runs true H (do m; pure (some e)) (Created (vhciParts 0) probeParts) :=
  run.bind fun _ _ same => Turns.pure ⟨X, left, same⟩

theorem msgSq_mem (q : EventQueueName) : .entry (.msgSq q) ∈ queueParts X := by
  have inside : .entry (.msgSq q) ∈ msgAll := by
    cases q <;> decide
  exact Multiset.mem_add.mpr (.inr (Multiset.mem_add.mpr (.inr (Multiset.mem_add.mpr (.inl inside)))))

theorem evSq_mem (q : EventQueueName) : .entry (.evSq q) ∈ queueParts X := by
  have inside : .entry (.evSq q) ∈ evAll := by
    cases q <;> decide
  exact Multiset.mem_add.mpr (.inl inside)

theorem probe_mem (here : r ∈ .vdev ::ₘ probeParts) : r ∈ queueParts X :=
  Multiset.mem_add.mpr (.inr (Multiset.mem_add.mpr (.inr (Multiset.mem_add.mpr (.inr
    (Multiset.mem_add.mpr (.inl here)))))))

theorem commandQueue_mem : .commandQueue ∈ queueParts X :=
  Multiset.mem_add.mpr (.inr (Multiset.mem_add.mpr (.inr
    (Multiset.mem_add.mpr (.inl (Multiset.mem_cons_self ..))))))

/-- The workqueue comes before the recovery that its commands schedule. -/
theorem tqStateWq_ready : Ready true .tqStateWq (queueParts X) := by
  intro n needed
  simp only [BceResource.needs, List.mem_cons, List.not_mem_nil, or_false] at needed
  obtain rfl | rfl | rfl | rfl | rfl | rfl := needed
  · exact .inl (probe_mem (by decide))
  · exact .inl commandQueue_mem
  · exact .inr rfl
  · exact .inl (probe_mem (by decide))
  · exact .inl (evSq_mem _)
  · exact .inl (msgSq_mem _)

/-- The recovery comes before the watchdog that it arms and the HCD that it polls. -/
theorem recovery_ready : Ready true .recovery (.tqStateWq ::ₘ queueParts X) := by
  intro n needed
  obtain named | events := List.mem_append.mp (needed : n ∈ BceResource.recoveryNeeds)
  · simp only [List.mem_cons, List.not_mem_nil, or_false] at named
    obtain rfl | rfl | rfl | rfl | rfl | rfl | rfl | rfl | rfl := named
    · exact .inl (Multiset.mem_cons_of_mem (probe_mem (by decide)))
    · exact .inl (Multiset.mem_cons_self ..)
    · exact .inl (Multiset.mem_cons_of_mem commandQueue_mem)
    · exact .inr rfl
    · exact .inr rfl
    · exact .inl (Multiset.mem_cons_of_mem (probe_mem (by decide)))
    all_goals exact .inl (Multiset.mem_cons_of_mem (msgSq_mem _))
  · obtain ⟨q, _, rfl⟩ := List.mem_map.mp events
    exact .inl (Multiset.mem_cons_of_mem (evSq_mem q))

theorem watchdog_ready : Ready true .watchdog (.recovery ::ₘ .tqStateWq ::ₘ queueParts X) := by
  intro n needed
  simp only [BceResource.needs, List.mem_cons, List.not_mem_nil, or_false] at needed
  refine .inl ?_
  obtain rfl | rfl | rfl := needed
  · exact Multiset.mem_cons_of_mem (Multiset.mem_cons_of_mem (probe_mem (by decide)))
  · exact Multiset.mem_cons_of_mem (Multiset.mem_cons_of_mem commandQueue_mem)
  · exact Multiset.mem_cons_self ..

/-- When the HCD is added, all that the USB core can reach is there. -/
theorem hcdAdded_ready :
    Ready true .hcdAdded (.hcd ::ₘ .watchdog ::ₘ .recovery ::ₘ .tqStateWq ::ₘ queueParts X) := by
  intro n needed
  refine .inl ?_
  have queues (inside : n ∈ queueParts X) :
      n ∈ .hcd ::ₘ .watchdog ::ₘ .recovery ::ₘ .tqStateWq ::ₘ queueParts X := by
    simp only [Multiset.mem_cons, inside, or_true]
  obtain first | events := List.mem_append.mp needed
  · obtain named | messages := List.mem_append.mp first
    · simp only [List.mem_cons, List.not_mem_nil, or_false] at named
      obtain rfl | rfl | rfl | rfl | rfl | rfl | rfl := named
      · exact queues (probe_mem (by decide))
      · exact queues (probe_mem (by decide))
      · exact Multiset.mem_cons_self ..
      · exact queues commandQueue_mem
      all_goals simp only [Multiset.mem_cons, true_or, or_true]
    · obtain ⟨q, _, rfl⟩ := List.mem_map.mp messages
      exact queues (msgSq_mem q)
  · obtain ⟨q, _, rfl⟩ := List.mem_map.mp events
    exact queues (evSq_mem q)

/-- The works that are left go behind the queues. -/
theorem works_moved : .watchdog ::ₘ .recovery ::ₘ .tqStateWq ::ₘ queueParts 0 =
    .tqStateWq ::ₘ queueParts (.watchdog ::ₘ .recovery ::ₘ 0) := by
  rw [queueParts_cons, queueParts_cons, Multiset.cons_swap BceResource.recovery BceResource.tqStateWq,
    Multiset.cons_swap BceResource.watchdog BceResource.tqStateWq]

/-- A `bce_vhci_create` that fails behind the works leaves them. -/
theorem createHcd_runs : Runs true (queueParts 0) (createHcd env) (Created (vhciParts 0) probeParts) := by
  have new (r : BceResource) (late : r ∈ lateParts) : r ∉ queueParts 0 :=
    (late_apart late (Apart.zero : Apart true _ 0)).1
  have hcd : .hcd ∉ queueParts 0 := (hcd_apart Apart.zero).1
  refine attempt_runs (new .tqStateWq (by decide)) tqStateWq_ready (fun _ => ?_) ?_
  · exact created_failed (.inl rfl) (failWq_runs (.inl rfl))
  refine (take_runs ?_ recovery_ready).bind fun _ G same => ?_
  · simpa only [Multiset.mem_cons, reduceCtorEq, false_or] using new .recovery (by decide)
  subst same
  refine (take_runs ?_ watchdog_ready).bind fun _ G same => ?_
  · simpa only [Multiset.mem_cons, reduceCtorEq, false_or] using new .watchdog (by decide)
  subst same
  refine attempt_runs ?_ (Ready.of_free rfl) (fun _ => ?_) ?_
  · simpa only [Multiset.mem_cons, reduceCtorEq, false_or] using hcd
  · rw [works_moved]
    exact created_failed (.inr rfl) (failHcd_runs (.inr rfl))
  refine attempt_runs ?_ hcdAdded_ready (fun _ => ?_) (Turns.pure ?_)
  · simpa only [Multiset.mem_cons, reduceCtorEq, false_or] using new .hcdAdded (by decide)
  · rw [works_moved]
    exact created_failed (.inr rfl) (failAddHcd_runs (.inr rfl))
  · simp only [Created, vhciParts, Multiset.cons_add, zero_add]

/-- Over what the probe has, `bce_vhci_create` has its parts, or leaves at most the two works. -/
theorem bceVhciCreate_runs : Runs true probeParts (bceVhciCreate env) (Created (vhciParts 0) probeParts) := by
  have left : Leftover 0 := .inl rfl
  have beside : Beside true 0 := left.beside
  have nothing : probeParts = probeParts + 0 := (add_zero probeParts).symm
  refine attempt_runs (by decide) (by decide) (fun _ => Turns.pure ⟨0, left, nothing⟩) ?_
  have start : .vdev ::ₘ probeParts = vdevParts 0 := (add_zero _).symm
  rw [start]
  have device (r : BceResource) (here : r ∈ .vdev ::ₘ probeParts) : r ∈ vdevParts 0 := start ▸ here
  refine (bceVhciCreateMessageQueues_runs (device _ (by decide)) (device _ (by decide)) (msg_apart beside)
    (replies_apart beside)).bind fun mq G adds => ?_
  cases mq with
  | some e =>
    have here : G = vdevParts 0 := adds
    subst here
    exact created_failed left (failMq_runs left)
  | none =>
    have here : G = msgAll + vdevParts 0 := adds
    subst here
    have behind (r : BceResource) (here : r ∈ .vdev ::ₘ probeParts) : r ∈ msgAll + vdevParts 0 :=
      Multiset.mem_add.mpr (.inr (device r here))
    have replies : .commandQueue ∈ msgAll + vdevParts 0 := Multiset.mem_add.mpr (.inl (Multiset.mem_cons_self ..))
    refine (bceVhciCreateEventQueues_runs (behind _ (by decide)) (behind _ (by decide)) replies (ev_apart beside)
      (evCq_apart beside)).bind fun eq G adds => ?_
    cases eq with
    | some e =>
      have here : G = msgAll + vdevParts 0 := adds
      subst here
      exact created_failed left (failEq_runs left)
    | none =>
      have here : G = queueParts 0 := Eq.trans adds (add_assoc ..)
      subst here
      exact createHcd_runs

/-- The link of the two devices, if there is one. -/
def linkParts (link : Bool) : Multiset BceResource :=
  mapped link .pci0Link 0

/-- In the remove the works are cancelled before what they work on goes. -/
theorem bceVhciDestroy_runs (link : Bool) :
    Runs false (vhciParts (linkParts link)) (bceVhciDestroy env) fun _ G => G = probeParts + linkParts link := by
  have late (r : BceResource) (inside : r ∈ lateParts) (behind : Apart false (r ::ₘ 0) (linkParts link)) :
      Unused false r (queueParts (linkParts link)) := (late_apart inside behind).2
  have beside : Beside false (.hcd ::ₘ linkParts link) := by
    unfold Beside
    cases link <;> decide
  refine free_runs (by decide) (late .hcdAdded (by decide) (by cases link <;> decide)) ?_
  refine free_runs (by decide) (late .recovery (by decide) (by cases link <;> decide)) ?_
  refine free_runs (by decide) (late .watchdog (by decide) (by cases link <;> decide)) ?_
  refine free_runs (by decide) (late .tqStateWq (by decide) (by cases link <;> decide)) ?_
  change Runs false (.hcd ::ₘ 0 + queueParts (linkParts link)) _ _
  rw [Multiset.cons_add, zero_add, ← queueParts_cons]
  refine (bceVhciDestroyEventQueues_runs ?_ (ev_apart beside) (evCq_apart beside) (List.prefix_refl _)).bind
    fun _ G same => ?_
  · exact Multiset.mem_add.mpr (.inr (Multiset.mem_add.mpr (.inl (by decide))))
  subst same
  refine (bceVhciDestroyMessageQueues_runs ?_ (msg_apart beside) (replies_apart beside)).bind fun _ G same => ?_
  · exact Multiset.mem_add.mpr (.inl (by decide))
  subst same
  refine free_runs (by decide) (beside.unused BceResource.noConfusion) ?_
  refine giveBack_runs (Multiset.add_cons ..) (Unused.add (by decide) ?_)
  cases link <;> decide

end BceProbe

end AppleBce

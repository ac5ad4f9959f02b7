import AppleBce.Driver.FailLabels

namespace AppleBce

open Basis Ledger

namespace BceProbe

variable {env : ProbeEnv} {probing : Bool} {A B H : Multiset BceResource}

/-- The command queue with its SQ, whose `completion_data` and ring it owns. -/
def cmdqParts : Multiset BceResource :=
  .tres ::ₘ (sqMemory .cmdSq + .cmdq ::ₘ 0)

/-- Both command queues, once they are published. -/
def cmdParts : Multiset BceResource :=
  .entry .cmdSq ::ₘ .entry .cmdCq ::ₘ (cmdqParts + cqMemory .cmdCq)

theorem bceFreeCmdq_runs (apart : Apart probing cmdqParts B) :
    Runs probing (cmdqParts + B) bceFreeCmdq fun _ G => G = B := by
  have start : cmdqParts + B = sqMemory .cmdSq + (.tres ::ₘ .cmdq ::ₘ B) := by
    simp only [cmdqParts, sqMemory, Multiset.cons_add, Multiset.add_cons, zero_add]
  have memory : Apart probing (sqMemory .cmdSq) (.tres ::ₘ .cmdq ::ₘ B) := by
    refine Apart.cons rfl (by decide) (Apart.cons rfl (by decide) (apart.mono ?_))
    decide
  rw [start]
  refine (bceFreeSq_runs memory).bind fun _ G same => ?_
  refine (giveBack_runs same ((apart .tres (by decide)).2.cons rfl)).bind fun _ G same => ?_
  exact giveBack_runs same (apart .cmdq (by decide)).2

theorem bceFreeCommandQueues_runs (apart : Apart probing cmdParts B) :
    Runs probing (cmdParts + B) bceFreeCommandQueues fun _ G => G = B := by
  have others (r : BceResource) (member : r ∈ cmdParts) : Unused probing r B := (apart r member).2
  refine free_runs (by cases probing <;> decide) (others _ (by decide)) ?_
  refine free_runs (by cases probing <;> decide) (others _ (by decide)) ?_
  have start : (cmdParts.erase (.entry .cmdCq)).erase (.entry .cmdSq) + B = cqMemory .cmdCq + (cmdqParts + B) := by
    have left : (cmdParts.erase (.entry .cmdCq)).erase (.entry .cmdSq) = cqMemory .cmdCq + cmdqParts := by
      decide
    rw [left, add_assoc]
  have behind : Apart probing (cqMemory .cmdCq) (cmdqParts + B) :=
    Apart.add (by cases probing <;> decide) (apart.mono (by decide))
  rw [start]
  refine (bceFreeCq_runs behind).bind fun _ G same => ?_
  subst same
  exact bceFreeCmdq_runs (apart.mono (by decide))

theorem bceAllocCmdq_runs (apart : Apart true cmdqParts H) : Runs true H (bceAllocCmdq env) (Adds cmdqParts H) := by
  have memory : Apart true (sqMemory .cmdSq) (.cmdq ::ₘ H) := Apart.cons rfl (by decide) (apart.mono (by decide))
  refine attempt_runs (apart .cmdq (by decide)).1 (Ready.of_free rfl) (fun _ => Turns.pure rfl) ?_
  refine (bceAllocSq_runs memory).bind fun allocated G adds => ?_
  cases allocated with
  | false => exact (giveBack_runs adds (apart .cmdq (by decide)).2).bind fun _ G same => Turns.pure same
  | true =>
    have here : G = sqMemory .cmdSq + .cmdq ::ₘ H := adds
    subst here
    have new : .tres ∉ sqMemory .cmdSq + .cmdq ::ₘ H := by
      refine notMem_add (by decide) fun held => ?_
      obtain other | outside := Multiset.mem_cons.mp held
      · cases other
      · exact (apart .tres (by decide)).1 outside
    refine attempt_runs new (Ready.of_free rfl) (fun _ => ?_) ?_
    · refine (bceFreeSq_runs memory).bind fun _ G same => ?_
      exact (giveBack_runs same (apart .cmdq (by decide)).2).bind fun _ G same => Turns.pure same
    · refine Turns.pure ?_
      simp only [Adds, cmdqParts, Multiset.cons_add, add_assoc, zero_add, if_true]

theorem bceMailboxSend_runs (irq : .mbIrq ∈ H) (reg : .regMemMb ∈ H) :
    Runs true H (bceMailboxSend env) fun _ G => G = H := by
  refine (Turns.access (.inl irq)).bind fun _ G same => ?_
  subst same
  refine (Turns.access (.inl reg)).bind fun _ G same => ?_
  subst same
  exact Turns.ask

theorem bceFwVersionHandshake_runs (irq : .mbIrq ∈ H) (reg : .regMemMb ∈ H) :
    Runs true H (bceFwVersionHandshake env) fun _ G => G = H := by
  refine (bceMailboxSend_runs irq reg).bind fun result G same => ?_
  cases result with
  | error e => exact Turns.pure same
  | ok result =>
    dsimp only
    split <;> exact Turns.pure same

/-- What a registration leaves is what it had. -/
theorem bceRegisterCommandQueue_runs (new : .cfgMapping ∉ H) (cfg : .cfg ∈ H) (unused : Unused true .cfgMapping H)
    (irq : .mbIrq ∈ H) (reg : .regMemMb ∈ H) : Runs true H (bceRegisterCommandQueue env) fun _ G => G = H := by
  have ready : Ready true .cfgMapping H := by
    intro n needed
    rw [List.mem_singleton.mp needed]
    exact .inl cfg
  refine attempt_runs new ready (fun _ => Turns.pure rfl) ?_
  refine (bceMailboxSend_runs (Multiset.mem_cons_of_mem irq) (Multiset.mem_cons_of_mem reg)).bind
    fun result G same => ?_
  refine (giveBack_runs same unused).bind fun _ G same => ?_
  cases result with
  | error e => exact Turns.pure same
  | ok result =>
    dsimp only
    split <;> exact Turns.pure same

theorem errCfg_runs : Runs true (.cfg ::ₘ (cmdParts + t2Parts)) errCfg fun _ G => G = t2Parts := by
  refine (giveBack_runs rfl (by decide)).bind fun _ G same => ?_
  subst same
  exact (bceFreeCommandQueues_runs (by decide) : Runs true (cmdParts + t2Parts) bceFreeCommandQueues _)

theorem registerCommandQueues_runs : Runs true (cmdParts + t2Parts) (registerCommandQueues env) fun status G =>
    Adds cmdParts t2Parts status.isNone G := by
  have register : Runs true (.cfg ::ₘ (cmdParts + t2Parts)) (bceRegisterCommandQueue env) fun _ G =>
      G = .cfg ::ₘ (cmdParts + t2Parts) :=
    bceRegisterCommandQueue_runs (by decide) (by decide) (by decide) (by decide) (by decide)
  refine attempt_runs (by decide) (Ready.of_free rfl) (fun e => ?_) ?_
  · refine (bceFreeCommandQueues_runs (by decide) : Runs true (cmdParts + t2Parts) bceFreeCommandQueues _).bind
      fun _ G same => ?_
    exact Turns.pure same
  · refine register.bind fun cq G same => ?_
    subst same
    cases cq with
    | some e => exact errCfg_runs.bind fun _ G same => Turns.pure same
    | none =>
      refine register.bind fun sq G same => ?_
      subst same
      cases sq with
      | some e => exact errCfg_runs.bind fun _ G same => Turns.pure same
      | none => exact (giveBack_runs rfl (by decide)).bind fun _ G same => Turns.pure same

/-- The label `err` before the queues are published. -/
theorem err_runs {cq cmdq : Bool} (start : Adds (cqMemory .cmdCq) t2Parts cq A) (also : Adds cmdqParts A cmdq H) :
    Runs true H (err false cq cmdq) fun _ G => G = t2Parts := by
  have skip {K : Multiset BceResource} {r : BceResource} :
      Runs true K (onlyIf false (giveBack r)) fun _ G => G = K :=
    Turns.pure rfl
  refine skip.bind fun _ G same => ?_
  subst same
  refine skip.bind fun _ G same => ?_
  subst same start also
  have free : Runs true (if cmdq then cmdqParts + (if cq then cqMemory .cmdCq + t2Parts else t2Parts)
      else if cq then cqMemory .cmdCq + t2Parts else t2Parts) (onlyIf cq (bceFreeCq .cmdCq)) fun _ G =>
        G = if cmdq then cmdqParts + t2Parts else t2Parts := by
    cases cq with
    | false => exact Turns.pure rfl
    | true =>
      have swapped : (if cmdq then cmdqParts + (cqMemory .cmdCq + t2Parts) else cqMemory .cmdCq + t2Parts) =
          cqMemory .cmdCq + if cmdq then cmdqParts + t2Parts else t2Parts := by
        cases cmdq <;> decide
      rw [if_pos rfl, swapped]
      exact bceFreeCq_runs (by cases cmdq <;> decide)
  refine free.bind fun _ G same => ?_
  subst same
  cases cmdq with
  | false => exact Turns.pure rfl
  | true => exact bceFreeCmdq_runs (by decide)

theorem bceCreateCommandQueues_runs : Runs true t2Parts (bceCreateCommandQueues env) fun status G =>
    Adds cmdParts t2Parts status.isNone G := by
  refine (bceAllocCq_runs (by decide)).bind fun cq G first => ?_
  have behind : Apart true cmdqParts G := by
    subst first
    cases cq <;> decide
  refine (bceAllocCmdq_runs behind).bind fun cmdq K second => ?_
  cases both : cq && cmdq with
  | false =>
    rw [if_neg Bool.false_ne_true]
    exact (err_runs first second).bind fun _ G same => Turns.pure same
  | true =>
    obtain ⟨rfl, rfl⟩ := Bool.and_eq_true_iff.mp both
    subst first second
    refine (take_runs (by decide) (by decide)).bind fun _ G same => ?_
    subst same
    refine (take_runs (by decide) (by decide)).bind fun _ G same => ?_
    have here : G = cmdParts + t2Parts := same.trans (by decide)
    subst here
    exact registerCommandQueues_runs

end BceProbe

end AppleBce

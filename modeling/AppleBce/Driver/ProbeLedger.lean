import AppleBce.Driver.VhciLedger

namespace AppleBce

open Basis Ledger

namespace BceProbe

variable {env : ProbeEnv} {H X : Multiset BceResource}

/-- A remove gives back what a whole probe has, in an order with the known faults. -/
theorem appleBceRemove_runs (link : Bool) :
    Runs false (.globalBce ::ₘ vhciParts (linkParts link)) (appleBceRemove env link) fun _ G => G = 0 := by
  have behind : Apart false (.globalBce ::ₘ 0) (linkParts link) := by
    cases link <;> decide
  have late : Unused false .globalBce (queueParts (linkParts link)) := (late_apart (by decide) behind).2
  have unlink : Runs false (probeParts + linkParts link) (onlyIf link (giveBack .pci0Link))
      fun _ G => G = probeParts + 0 := by
    cases link with
    | false => exact Turns.pure rfl
    | true => exact giveBack_runs (Multiset.add_cons BceResource.pci0Link probeParts 0) (by decide)
  refine (giveBack_runs rfl (Unused.add (by decide) late)).bind fun _ G same => ?_
  subst same
  refine (bceVhciDestroy_runs link).bind fun _ G same => ?_
  subst same
  refine unlink.bind fun _ G same => ?_
  subst same
  refine free_runs (by decide) (by decide) ?_
  refine free_runs (by decide) (by decide) ?_
  refine free_runs (by decide) (by decide) ?_
  refine free_runs (by decide) (by decide) ?_
  refine free_runs (by decide) (by decide) ?_
  refine (bceFreeCommandQueues_runs (by decide) : Runs false (cmdParts + devParts ⟨true, true, true⟩) _ _).bind
    fun _ G same => ?_
  subst same
  change Runs false (devParts ⟨true, true, true⟩ + 0) _ _
  refine free_runs (by decide) (by decide) ?_
  refine free_runs (by decide) (by decide) ?_
  refine free_runs (by decide) (by decide) ?_
  refine free_runs (by decide) (by decide) ?_
  refine free_runs (by decide) (by decide) ?_
  refine free_runs (by decide) (by decide) ?_
  refine free_runs (by decide) (by decide) ?_
  exact free_last (by decide) (by decide)

/-- What a probe that is over has. -/
def Probed : Except Errno Bool → Multiset BceResource → Prop
  | .ok link, G => G = .globalBce ::ₘ vhciParts (linkParts link)
  | .error _, G => Leftover G

theorem failed_runs {m : ProbeM Unit} {e : Errno} (left : Leftover X) (run : Runs true H m fun _ G => G = X) :
    Runs true H (do m; pure (.error e)) Probed :=
  run.bind fun _ _ same => Turns.pure (same ▸ left)

theorem link_new : .pci0Link ∉ vhciParts (linkParts false) := by
  have apart : Apart true (.pci0Link ::ₘ 0) (queueParts (linkParts false)) := by
    refine queueParts_apart (fun q => ?_) (by decide) (by decide)
    cases q <;> decide
  exact notMem_add (by decide) (apart _ (Multiset.mem_cons_self ..)).1

theorem link_ready : Ready true .pci0Link (vhciParts (linkParts false)) := by
  intro n needed
  rw [List.mem_singleton.mp needed]
  exact .inl (Multiset.mem_add.mpr (.inr (probe_mem (by decide))))

theorem link_add : .pci0Link ::ₘ vhciParts (linkParts false) = vhciParts (linkParts true) := by
  simp only [vhciParts, queueParts, vdevParts, linkParts, mapped, Multiset.add_cons, if_true,
    if_neg Bool.false_ne_true]

/-- With or without the link, `global_bce` is the last. -/
theorem publish_runs (link : Bool) : Runs true (vhciParts (linkParts link)) (do
    take .globalBce
    pure (.ok link)) Probed := by
  have behind : Apart true (.globalBce ::ₘ 0) (linkParts link) := by
    cases link <;> decide
  have ready : Ready true .globalBce (vhciParts (linkParts link)) := by
    intro n needed
    refine .inl (Multiset.mem_add.mpr (.inr (probe_mem ?_)))
    revert n
    decide
  exact (take_runs (notMem_add (by decide) (late_apart (by decide) behind).1) ready).bind fun _ _ same =>
    Turns.pure same

/-- The T2 is there: the handshake, the command queues and the virtual controller, each with its label. -/
theorem probeT2_runs : Runs true (.pci0Mem ::ₘ .pci0 ::ₘ irqParts) (probeT2 env) Probed := by
  have clean : Leftover 0 := .inl rfl
  refine (take_runs (by decide) (by decide)).bind fun _ G same => ?_
  have here : G = t2Parts := same
  subst here
  refine (bceFwVersionHandshake_runs (by decide) (by decide)).bind fun handshake G same => ?_
  subst same
  cases handshake with
  | some e => exact failed_runs clean (failTs_runs clean)
  | none =>
    refine bceCreateCommandQueues_runs.bind fun queues G adds => ?_
    cases queues with
    | some e =>
      have here : G = t2Parts + 0 := adds
      subst here
      exact failed_runs clean (failTs_runs clean)
    | none =>
      have here : G = probeParts := adds
      subst here
      refine bceVhciCreate_runs.bind fun vhci G created => ?_
      cases vhci with
      | some e =>
        obtain ⟨X, left, rfl⟩ := created
        exact failed_runs left (failVhci_runs left)
      | none =>
        have here : G = vhciParts (linkParts false) := created
        subst here
        exact attempt_runs link_new link_ready (fun _ => publish_runs false) (link_add ▸ publish_runs true)

theorem probePci0_runs : Runs true irqParts (probePci0 env) Probed := by
  have clean : Leftover 0 := .inl rfl
  refine Turns.ask.bind fun mask G same => ?_
  subst same
  cases mask with
  | some e => exact failed_runs clean (failInterrupt_runs clean)
  | none =>
    refine attempt_runs (by decide) (Ready.of_free rfl) (fun _ => failed_runs clean (failInterrupt_runs clean)) ?_
    exact attempt_runs (by decide) (by decide) (fun _ => failed_runs clean (failDev0_runs clean)) probeT2_runs

theorem probeDev_runs : Runs true bceParts (probeDev env) Probed := by
  have clean : Leftover 0 := .inl rfl
  refine attempt_runs (by decide) (Ready.of_free rfl) (fun _ => ?_) ?_
  · exact failed_runs clean (fail_runs ⟨false, false, false⟩ clean)
  refine attempt_runs (by decide) (by decide) (fun _ => ?_) ?_
  · refine attempt_runs (by decide) (by decide) (fun _ => ?_) ?_
    · exact failed_runs clean (fail_runs ⟨true, false, false⟩ clean)
    · exact failed_runs clean (fail_runs ⟨true, false, true⟩ clean)
  refine attempt_runs (by decide) (by decide) (fun _ => ?_) ?_
  · exact failed_runs clean (fail_runs ⟨true, true, false⟩ clean)
  refine attempt_runs (by decide) (by decide) (fun _ => ?_) ?_
  · exact failed_runs clean (fail_runs ⟨true, true, true⟩ clean)
  exact attempt_runs (by decide) (by decide) (fun _ => failed_runs clean (failInterrupt0_runs clean)) probePci0_runs

/-- Every way through the probe ends in one of the states of `Probed`. -/
theorem appleBceProbe_runs : Runs true 0 (appleBceProbe env) Probed := by
  have clean : Leftover 0 := .inl rfl
  refine attempt_runs (by decide) (Ready.of_free rfl) (fun _ => Turns.pure clean) ?_
  refine attempt_runs (by decide) (by decide) (fun _ => failed_runs clean (fail_none_runs (.inl rfl))) ?_
  refine attempt_runs (by decide) (by decide) (fun _ => failed_runs clean (fail_none_runs (.inr (.inl rfl)))) ?_
  refine attempt_runs (by decide) (Ready.of_free rfl)
    (fun _ => failed_runs clean (fail_none_runs (.inr (.inr rfl)))) ?_
  refine attempt_runs (by decide) (Ready.of_free rfl) (fun _ => ?_) probeDev_runs
  refine (giveBack_runs rfl (by decide)).bind fun _ G same => ?_
  subst same
  exact failed_runs clean (fail_none_runs (.inr (.inr rfl)))

theorem known_probe {fault : LedgerFault BceResource} (known : knownFault true fault) :
    removeFault fault ∨ probeFault fault := by
  simpa [knownFault] using known

theorem known_remove {fault : LedgerFault BceResource} (known : knownFault false fault) : removeFault fault := by
  simpa [knownFault] using known

/-- Whatever the calls return, the probe and the remove have the known faults only. A probe that fails
leaves nothing, or the works of the recovery and of its watchdog, and a remove leaves nothing. -/
theorem probe_remove_balanced (env : ProbeEnv) (calls : Nat) :
    (∀ fault ∈ (appleBceProbe env ⟨[], calls⟩).log, removeFault fault ∨ probeFault fault) ∧
    match (appleBceProbe env ⟨[], calls⟩).value with
    | .error _ =>
      (appleBceProbe env ⟨[], calls⟩).state.held = [] ∨
      (appleBceProbe env ⟨[], calls⟩).state.held.Perm [.watchdog, .recovery]
    | .ok link =>
      (appleBceRemove env link (appleBceProbe env ⟨[], calls⟩).state).state.held = [] ∧
      ∀ fault ∈ (appleBceRemove env link (appleBceProbe env ⟨[], calls⟩).state).log, removeFault fault := by
  obtain ⟨probed, known⟩ := (appleBceProbe_runs : Runs true 0 (appleBceProbe env) Probed) ⟨[], calls⟩ rfl
  refine ⟨fun fault logged => known_probe (known fault logged), ?_⟩
  cases ended : (appleBceProbe env ⟨[], calls⟩).value with
  | error e =>
    rw [ended] at probed
    obtain nothing | works := (probed : Leftover _)
    · exact .inl ((Multiset.coe_eq_zero _).mp nothing)
    · exact .inr (Multiset.coe_eq_coe.mp works)
  | ok link =>
    rw [ended] at probed
    obtain ⟨nothing, known⟩ := (appleBceRemove_runs link : Runs false _ (appleBceRemove env link) _) _ probed
    exact ⟨(Multiset.coe_eq_zero _).mp nothing, fun fault logged => known_remove (known fault logged)⟩

-- `usb_add_hcd` is the call that fails here.
example :
    (appleBceProbe ⟨fun n => if n = 113 then some .nomem else none, fun n =>
      if n = 13 then .ok (bceMbMsg .setFwProtocolVersion bcProtocolVersion)
      else .ok (bceMbMsg .registerCommandQueueReply 0)⟩ ⟨[], 0⟩).state.held = [.watchdog, .recovery] := by
  decide +kernel

end BceProbe

end AppleBce

import AppleBce.Driver.QueueParts

namespace AppleBce

open Basis Ledger

namespace BceProbe

variable {α : Type} {probing : Bool} {A B H X : Multiset BceResource} {r : BceResource}

/-- It is held and nothing beside it uses it. -/
def Idle (probing : Bool) (r : BceResource) (A : Multiset BceResource) : Prop :=
  r ∈ A ∧ Unused probing r (A.erase r)

instance : Decidable (Idle probing r A) :=
  inferInstanceAs (Decidable (r ∈ A ∧ Unused probing r (A.erase r)))

theorem Idle.runs (idle : Idle probing r A) (behind : Unused probing r B) :
    Runs probing (A + B) (giveBack r) fun _ G => G = A.erase r + B := by
  have start : A + B = r ::ₘ (A.erase r + B) := by
    rw [← Multiset.cons_add, Multiset.cons_erase idle.1]
  exact giveBack_runs start (idle.2.add behind)

theorem free_runs {next : Unit → ProbeM α} {post : α → Multiset BceResource → Prop} (idle : Idle probing r A)
    (behind : Unused probing r B) (rest : Runs probing (A.erase r + B) (next ()) post) :
    Runs probing (A + B) (giveBack r >>= next) post := by
  refine (idle.runs behind).bind fun _ G same => ?_
  subst same
  exact rest

theorem free_last (here : A = r ::ₘ 0) (behind : Unused probing r B) :
    Runs probing (A + B) (giveBack r) fun _ G => G = B := by
  subst here
  refine giveBack_runs ?_ behind
  rw [Multiset.cons_add, zero_add]

/-- What a probe that fails may leave. -/
def Leftover (X : Multiset BceResource) : Prop :=
  X = 0 ∨ X = .watchdog ::ₘ .recovery ::ₘ 0

theorem Leftover.works (left : Leftover X) : ∀ u ∈ X, u = .recovery ∨ u = .watchdog := by
  intro u member
  obtain rfl | rfl := left
  · exact absurd member (Multiset.notMem_zero u)
  · obtain rfl | member := Multiset.mem_cons.mp member
    · exact .inr rfl
    · exact .inl (Multiset.mem_singleton.mp member)

/-- That the works are never cancelled is known, whatever they work on. -/
theorem unused_of_works (works : ∀ u ∈ X, u = .recovery ∨ u = .watchdog) : Unused true r X := by
  intro u member _
  obtain rfl | rfl := works u member <;> simp [knownFault, probeFault]

theorem Leftover.unused (left : Leftover X) : Unused true r X :=
  unused_of_works left.works

theorem Leftover.apart (left : Leftover X) (other : .recovery ∉ A ∧ .watchdog ∉ A) : Apart true A X := by
  refine fun r member => ⟨fun held => ?_, left.unused⟩
  obtain rfl | rfl := left.works r held
  · exact other.1 member
  · exact other.2 member

/-- What the probe has after each of its stages. -/
def pciParts : Multiset BceResource :=
  .irqVectors ::ₘ .regions ::ₘ .pci ::ₘ 0

def bceParts : Multiset BceResource :=
  .queuesSrcu ::ₘ .bce ::ₘ pciParts

def mapped (set : Bool) (r : BceResource) (A : Multiset BceResource) : Multiset BceResource :=
  if set then r ::ₘ A else A

def devParts (fields : Fields) : Multiset BceResource :=
  if fields.dev then mapped fields.regMemDma .regMemDma (mapped fields.regMemMb .regMemMb (.dev ::ₘ bceParts))
  else bceParts

def irqParts : Multiset BceResource :=
  .dmaIrq ::ₘ .mbIrq ::ₘ devParts ⟨true, true, true⟩

def t2Parts : Multiset BceResource :=
  .timestamp ::ₘ .pci0Mem ::ₘ .pci0 ::ₘ irqParts

theorem onlyIf_free {set : Bool} (idle : set = true → Idle true r A) (behind : Unused true r B) :
    Runs true (A + B) (onlyIf set (giveBack r)) fun _ G => G = (if set then A.erase r else A) + B := by
  cases set with
  | false => exact Turns.pure rfl
  | true => exact (idle rfl).runs behind

theorem failDev_runs {mb dma : Bool} (left : Leftover X) :
    Runs true (devParts ⟨true, mb, dma⟩ + X) (failDev ⟨true, mb, dma⟩) fun _ G => G = bceParts + X := by
  have ended : bceParts =
      if dma then (if mb then ((devParts ⟨true, mb, dma⟩).erase .dev).erase .regMemMb
        else (devParts ⟨true, mb, dma⟩).erase .dev).erase .regMemDma
      else if mb then ((devParts ⟨true, mb, dma⟩).erase .dev).erase .regMemMb
        else (devParts ⟨true, mb, dma⟩).erase .dev := by
    cases mb <;> cases dma <;> decide
  refine free_runs (by cases mb <;> cases dma <;> decide) left.unused ?_
  refine (onlyIf_free (by cases mb <;> cases dma <;> decide) left.unused).bind fun _ G same => ?_
  subst same
  rw [ended]
  exact onlyIf_free (by cases mb <;> cases dma <;> decide) left.unused

theorem failBce_runs (fields : Fields) (left : Leftover X) :
    Runs true (devParts fields + X) (failBce (some fields)) fun _ G => G = pciParts + X := by
  have dev : Runs true (devParts fields + X) (onlyIf fields.dev (failDev fields)) fun _ G => G = bceParts + X := by
    obtain ⟨dev, mb, dma⟩ := fields
    cases dev with
    | false => exact Turns.pure rfl
    | true => exact failDev_runs left
  refine dev.bind fun _ G same => ?_
  subst same
  refine free_runs (by decide) left.unused ?_
  exact giveBack_runs (by rw [← Multiset.cons_add]; rfl) (Unused.add (by decide) left.unused)

theorem fail_runs (fields : Fields) (left : Leftover X) :
    Runs true (devParts fields + X) (fail (some fields)) fun _ G => G = X := by
  refine (failBce_runs fields left).bind fun _ G same => ?_
  subst same
  refine free_runs (by decide) left.unused ?_
  refine free_runs (by decide) left.unused ?_
  exact free_last (by decide) left.unused

/-- The label `fail` without a `bce`, from each of the places that go there. -/
theorem fail_none_runs (early : A = .pci ::ₘ 0 ∨ A = .regions ::ₘ .pci ::ₘ 0 ∨ A = pciParts) :
    Runs true A (fail none) fun _ G => G = 0 := by
  refine (Turns.pure rfl : Runs true A (failBce none) fun _ G => G = A).bind fun _ G same => ?_
  subst same
  obtain rfl | rfl | rfl := early
  · refine (absent_runs (by decide) rfl (by decide)).bind fun _ G same => ?_
    subst same
    refine (absent_runs (by decide) rfl (by decide)).bind fun _ G same => ?_
    exact giveBack_runs same (by decide)
  · refine (absent_runs (by decide) rfl (by decide)).bind fun _ G same => ?_
    refine (giveBack_runs same (by decide)).bind fun _ G same => ?_
    exact giveBack_runs same (by decide)
  · refine (giveBack_runs rfl (by decide)).bind fun _ G same => ?_
    refine (giveBack_runs same (by decide)).bind fun _ G same => ?_
    exact giveBack_runs same (by decide)

theorem failInterrupt0_runs (left : Leftover X) :
    Runs true (.mbIrq ::ₘ devParts ⟨true, true, true⟩ + X) failInterrupt0 fun _ G => G = X := by
  refine free_runs (by decide) left.unused ?_
  exact fail_runs ⟨true, true, true⟩ left

theorem failInterrupt_runs (left : Leftover X) : Runs true (irqParts + X) failInterrupt fun _ G => G = X := by
  refine free_runs (by decide) left.unused ?_
  exact failInterrupt0_runs left

theorem failDev0_runs (left : Leftover X) : Runs true (.pci0 ::ₘ irqParts + X) failDev0 fun _ G => G = X := by
  refine free_runs (by decide) left.unused ?_
  exact failInterrupt_runs left

theorem failTs_runs (left : Leftover X) : Runs true (t2Parts + X) failTs fun _ G => G = X := by
  refine free_runs (by decide) left.unused ?_
  refine free_runs (by decide) left.unused ?_
  exact failDev0_runs left

end BceProbe

end AppleBce

import AppleBce.Basis.Logged
import Mathlib.Algebra.Order.Group.Multiset

namespace Basis

/-- What resources work on: one cannot be taken without those that it needs, and uses those that it may
use when they are there. -/
structure Dependence (ρ : Type) where
  needs : ρ → List ρ
  mayUse : ρ → List ρ

/-- What a program holds, newest first, and how many calls it has made that the environment answers. -/
structure Ledger (ρ : Type) where
  held : List ρ
  calls : Nat

/-- A resource taken without one that it needs or while it is held, used or given back while it is not
held, or given back while one that is held uses it. -/
inductive LedgerFault (ρ : Type)
  | missing (r needed : ρ)
  | twice (r : ρ)
  | absent (r : ρ)
  | inUse (r user : ρ)
  deriving DecidableEq, Repr

namespace Ledger

variable {ρ ε α κ : Type}

def ask (answer : Nat → α) : Logged (Ledger ρ) (LedgerFault ρ) α :=
  Logged.change fun s => ⟨answer s.calls, { s with calls := s.calls + 1 }, []⟩

/-- A chain of creations, up to the first that fails, with those that succeeded. -/
def chain (create : κ → Logged (Ledger ρ) (LedgerFault ρ) Bool) :
    List κ → List κ → Logged (Ledger ρ) (LedgerFault ρ) (Bool × List κ)
  | made, [] => pure (true, made)
  | made, k :: rest => do
    let created ← create k
    if created then chain create (made ++ [k]) rest else pure (false, made)

/-- `if (set) free(set)`. -/
def onlyIf (set : Bool) (m : Logged (Ledger ρ) (LedgerFault ρ) Unit) : Logged (Ledger ρ) (LedgerFault ρ) Unit :=
  if set then m else pure ()

/-- The destruction of what a chain has made, in the order `ks`. -/
def unchain [DecidableEq κ] (destroy : κ → Logged (Ledger ρ) (LedgerFault ρ) Unit) (made : List κ) :
    List κ → Logged (Ledger ρ) (LedgerFault ρ) Unit
  | [] => pure ()
  | k :: rest => do
    onlyIf (k ∈ made) (destroy k)
    unchain destroy made rest

/-- A creation adds what it makes to `H`, or nothing. -/
def Adds (parts H : Multiset ρ) (made : Bool) (G : Multiset ρ) : Prop :=
  G = if made then parts + H else H

/-- The program, when it holds `H`, has allowed faults only, and `post` relates what it yields to what it
then holds. -/
def Turns (allowed : LedgerFault ρ → Prop) (H : Multiset ρ) (m : Logged (Ledger ρ) (LedgerFault ρ) α)
    (post : α → Multiset ρ → Prop) : Prop :=
  Logged.Ensures allowed (fun s => (s.held : Multiset ρ) = H) m fun a s => post a s.held

namespace Turns

variable {allowed : LedgerFault ρ → Prop} {H : Multiset ρ} {m : Logged (Ledger ρ) (LedgerFault ρ) α}
  {post : α → Multiset ρ → Prop}

theorem pure {a : α} (holds : post a H) : Turns allowed H (Pure.pure a) post :=
  Logged.Ensures.pure fun _ start => start ▸ holds

theorem bind {β : Type} {next : α → Logged (Ledger ρ) (LedgerFault ρ) β} {last : β → Multiset ρ → Prop}
    (first : Turns allowed H m post) (rest : ∀ a G, post a G → Turns allowed G (next a) last) :
    Turns allowed H (m >>= next) last :=
  Logged.Ensures.bind first fun a s reached => rest a s.held reached s rfl

theorem ask {answer : Nat → α} : Turns allowed H (ask answer) fun _ G => G = H :=
  Logged.Ensures.change fun _ start => ⟨start, nofun⟩

/-- The rule for a chain: what each creation adds is added up. -/
theorem chain {create : κ → Logged (Ledger ρ) (LedgerFault ρ) Bool} {parts : κ → Multiset ρ} {made ks : List κ}
    (step : ∀ done k rest, made ++ ks = done ++ k :: rest →
      Turns allowed ((done.map parts).sum + H) (create k) (Adds (parts k) ((done.map parts).sum + H))) :
    Turns allowed ((made.map parts).sum + H) (chain create made ks) fun result G =>
      G = (result.2.map parts).sum + H ∧ result.2 <+: made ++ ks ∧ (result.1 = true → result.2 = made ++ ks) := by
  induction ks generalizing made with
  | nil => exact pure ⟨rfl, List.prefix_append _ _, fun _ => (List.append_nil made).symm⟩
  | cons k rest ih =>
    refine bind (step made k rest rfl) fun created G adds => ?_
    cases created with
    | false =>
      rw [show G = (made.map parts).sum + H from adds]
      exact pure ⟨rfl, List.prefix_append _ _, nofun⟩
    | true =>
      have same : made ++ [k] ++ rest = made ++ k :: rest := List.append_assoc made [k] rest
      have more : G = ((made ++ [k]).map parts).sum + H := by
        rw [show G = parts k + ((made.map parts).sum + H) from adds, List.map_append, List.sum_append,
          List.map_singleton, List.sum_singleton, ← add_assoc, add_comm (parts k)]
      rw [more]
      have run := @ih (made ++ [k]) fun done other later split => step done other later (same ▸ split)
      rw [same] at run
      exact run

/-- The rule for a chain of different creations from the first on. -/
theorem chain_distinct {create : κ → Logged (Ledger ρ) (LedgerFault ρ) Bool} {parts : κ → Multiset ρ} {ks : List κ}
    (distinct : ks.Nodup) (step : ∀ (done : List κ) k, (∀ other ∈ done, other ≠ k) →
      Turns allowed ((done.map parts).sum + H) (create k) (Adds (parts k) ((done.map parts).sum + H))) :
    Turns allowed H (Ledger.chain create [] ks) fun result G =>
      G = (result.2.map parts).sum + H ∧ result.2 <+: ks ∧ (result.1 = true → result.2 = ks) := by
  have apart (done : List κ) (k : κ) (rest : List κ) (split : [] ++ ks = done ++ k :: rest) :
      ∀ other ∈ done, other ≠ k := by
    rw [show ks = done ++ k :: rest from split] at distinct
    exact fun other member => (List.nodup_append.mp distinct).2.2 other member k List.mem_cons_self
  have run := chain fun done k rest split => step done k (apart done k rest split)
  rwa [List.map_nil, List.sum_nil, zero_add] at run

/-- The rule for the destruction, which gives back what the chain has made. -/
theorem unchain [DecidableEq κ] {destroy : κ → Logged (Ledger ρ) (LedgerFault ρ) Unit} {parts : κ → Multiset ρ}
    {made ks : List κ} (distinct : ks.Nodup)
    (step : ∀ k (rest : List κ), k ∈ ks → (∀ other ∈ rest, other ∈ ks ∧ other ≠ k) →
      Turns allowed (parts k + ((rest.map parts).sum + H)) (destroy k) fun _ G => G = (rest.map parts).sum + H) :
    Turns allowed (((ks.filter (· ∈ made)).map parts).sum + H) (unchain destroy made ks) fun _ G => G = H := by
  induction ks with
  | nil => exact pure (zero_add H)
  | cons k rest ih =>
    obtain ⟨absent, distinct⟩ := List.nodup_cons.mp distinct
    have later := ih distinct fun other others member below =>
      step other others (List.mem_cons_of_mem k member) fun o inside =>
        ⟨List.mem_cons_of_mem k (below o inside).1, (below o inside).2⟩
    have first : Turns allowed ((((k :: rest).filter (· ∈ made)).map parts).sum + H)
        (onlyIf (k ∈ made) (destroy k)) fun _ G =>
          G = ((rest.filter (· ∈ made)).map parts).sum + H := by
      unfold onlyIf
      split
      · rename_i here
        have kept : (k :: rest).filter (· ∈ made) = k :: rest.filter (· ∈ made) :=
          List.filter_cons_of_pos (by simpa using here)
        rw [kept, List.map_cons, List.sum_cons, add_assoc]
        refine step k _ List.mem_cons_self fun other member => ?_
        have inside := (List.mem_filter.mp member).1
        exact ⟨List.mem_cons_of_mem k inside, fun same => absent (same ▸ inside)⟩
      · rename_i gone
        have dropped : (k :: rest).filter (· ∈ made) = rest.filter (· ∈ made) :=
          List.filter_cons_of_neg (by simpa using gone)
        rw [dropped]
        exact pure rfl
    refine bind first fun _ G same => ?_
    subst same
    exact later

/-- What a chain has made is the front of its list. -/
theorem unchain_made [DecidableEq κ] {destroy : κ → Logged (Ledger ρ) (LedgerFault ρ) Unit}
    {parts : κ → Multiset ρ} {made ks : List κ} (distinct : ks.Nodup) (front : made <+: ks)
    (step : ∀ k (rest : List κ), k ∈ ks → (∀ other ∈ rest, other ∈ ks ∧ other ≠ k) →
      Turns allowed (parts k + ((rest.map parts).sum + H)) (destroy k) fun _ G => G = (rest.map parts).sum + H) :
    Turns allowed ((made.map parts).sum + H) (Ledger.unchain destroy made ks) fun _ G => G = H := by
  have same : ks.filter (· ∈ made) = made := by
    obtain ⟨rest, rfl⟩ := front
    have apart := (List.nodup_append.mp distinct).2.2
    have kept : made.filter (· ∈ made) = made := List.filter_eq_self.mpr fun k member => decide_eq_true member
    have dropped : rest.filter (· ∈ made) = [] := by
      refine List.filter_eq_nil_iff.mpr fun k member held => ?_
      exact apart k (of_decide_eq_true held) k member rfl
    rw [List.filter_append, kept, dropped, List.append_nil]
  have run := @unchain _ _ allowed H _ destroy parts made ks distinct step
  rw [same] at run
  exact run

end Turns

variable [DecidableEq ρ]

/-- A use of a resource. -/
def access (r : ρ) : Logged (Ledger ρ) (LedgerFault ρ) Unit :=
  Logged.change fun s => ⟨(), s, if r ∈ s.held then [] else [.absent r]⟩

variable (d : Dependence ρ)

def take (r : ρ) : Logged (Ledger ρ) (LedgerFault ρ) Unit :=
  Logged.change fun s => ⟨(), { s with held := r :: s.held },
    (if r ∈ s.held then [.twice r] else []) ++ ((d.needs r).filter (· ∉ s.held)).map (.missing r)⟩

/-- A call that takes the resource or fails. -/
def attempt (answer : Nat → Option ε) (r : ρ) : Logged (Ledger ρ) (LedgerFault ρ) (Option ε) := do
  let status ← ask answer
  match status with
  | some e => pure (some e)
  | none => do
    take d r
    pure none

def giveBack (r : ρ) : Logged (Ledger ρ) (LedgerFault ρ) Unit :=
  Logged.change fun s => ⟨(), { s with held := s.held.erase r },
    (if r ∈ s.held then [] else [.absent r]) ++
      ((s.held.erase r).filter fun u => r ∈ d.needs u ++ d.mayUse u).map (.inUse r)⟩

namespace Turns

variable {d} {allowed : LedgerFault ρ → Prop} {H : Multiset ρ} {r : ρ}

theorem access (here : r ∈ H ∨ allowed (.absent r)) : Turns allowed H (access r) fun _ G => G = H := by
  refine Logged.Ensures.change fun s start => ⟨start, fun fault logged => ?_⟩
  split at logged
  · cases logged
  · rename_i gone
    rw [List.mem_singleton.mp logged]
    refine here.resolve_left fun held => gone ?_
    rw [← start] at held
    exact Multiset.mem_coe.mp held

theorem take (new : r ∉ H) (needed : ∀ n ∈ d.needs r, n ∈ H ∨ allowed (.missing r n)) :
    Turns allowed H (take d r) fun _ G => G = r ::ₘ H := by
  refine Logged.Ensures.change fun s start => ⟨?_, fun fault logged => ?_⟩
  · rw [← start, Multiset.cons_coe]
  · subst start
    rw [if_neg (fun held => new (Multiset.mem_coe.mpr held)), List.nil_append] at logged
    obtain ⟨n, member, rfl⟩ := List.mem_map.mp logged
    obtain ⟨needs, gone⟩ := List.mem_filter.mp member
    exact (needed n needs).resolve_left fun held => of_decide_eq_true gone (Multiset.mem_coe.mp held)

/-- The two ways of a call that may fail, each with what comes after it. -/
theorem attempt {β : Type} {answer : Nat → Option ε}
    {next : Option ε → Logged (Ledger ρ) (LedgerFault ρ) β} {last : β → Multiset ρ → Prop} (new : r ∉ H)
    (needed : ∀ n ∈ d.needs r, n ∈ H ∨ allowed (.missing r n))
    (failed : ∀ e, Turns allowed H (next (some e)) last) (succeeded : Turns allowed (r ::ₘ H) (next none) last) :
    Turns allowed H (attempt d answer r >>= next) last := by
  have called : Turns allowed H (Ledger.attempt d answer r) fun status G =>
      (∃ e, status = some e ∧ G = H) ∨ (status = none ∧ G = r ::ₘ H) := by
    refine bind ask fun status G same => ?_
    subst same
    cases status with
    | some e => exact pure (.inl ⟨e, rfl, rfl⟩)
    | none =>
      refine bind (take new needed) fun _ G same => ?_
      subst same
      exact pure (.inr ⟨rfl, rfl⟩)
  refine bind called fun status G turned => ?_
  obtain ⟨e, rfl, rfl⟩ | ⟨rfl, rfl⟩ := turned
  · exact failed e
  · exact succeeded

theorem giveBack {rest : Multiset ρ} (here : H = r ::ₘ rest)
    (unused : ∀ u ∈ rest, r ∈ d.needs u ++ d.mayUse u → allowed (.inUse r u)) :
    Turns allowed H (giveBack d r) fun _ G => G = rest := by
  refine Logged.Ensures.change fun s start => ?_
  have left : ((s.held.erase r : List ρ) : Multiset ρ) = rest := by
    rw [← Multiset.coe_erase, start, here, Multiset.erase_cons_head]
  refine ⟨left, fun fault logged => ?_⟩
  have held : r ∈ s.held := by
    rw [← Multiset.mem_coe, start, here]
    exact Multiset.mem_cons_self r rest
  rw [if_pos held, List.nil_append] at logged
  obtain ⟨u, member, rfl⟩ := List.mem_map.mp logged
  obtain ⟨inside, uses⟩ := List.mem_filter.mp member
  refine unused u ?_ (of_decide_eq_true uses)
  rw [← left]
  exact Multiset.mem_coe.mpr inside

/-- What is given back without being held. -/
theorem giveBack_absent (gone : r ∉ H) (known : allowed (.absent r))
    (unused : ∀ u ∈ H, r ∈ d.needs u ++ d.mayUse u → allowed (.inUse r u)) :
    Turns allowed H (Ledger.giveBack d r) fun _ G => G = H := by
  refine Logged.Ensures.change fun s start => ?_
  subst start
  have gone : r ∉ s.held := fun held => gone (Multiset.mem_coe.mpr held)
  simp only [if_neg gone, List.erase_of_not_mem gone]
  refine ⟨trivial, fun fault logged => ?_⟩
  obtain first | later := List.mem_append.mp logged
  · rw [List.mem_singleton.mp first]
    exact known
  · obtain ⟨u, member, rfl⟩ := List.mem_map.mp later
    obtain ⟨inside, uses⟩ := List.mem_filter.mp member
    exact unused u (Multiset.mem_coe.mpr inside) (of_decide_eq_true uses)

end Turns

end Ledger

end Basis

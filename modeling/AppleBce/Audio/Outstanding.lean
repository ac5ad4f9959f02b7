import AppleBce.Audio.Table
import Mathlib.Data.List.Perm.Subperm

namespace AppleBce

open Basis

namespace AudioRun

variable {s t : AudioRun} {a : AudioStep} {id other : Nat} {call : AudioCall}

/-- The commands that await their reply. -/
def awaiting (s : AudioRun) : List Nat :=
  s.commands.filter fun c => (s.calls c).phase = .waiting ∧ (s.calls c).cmpl = false

/-- The commands that await their reply although their place in the queue was given back. -/
def early (s : AudioRun) : List Nat :=
  s.awaiting.filter fun c => c ∉ s.inFlight.map Prod.fst

/-- When a command is sent, no command that awaits its reply has had its place in the queue given back, and
each got its tag fewer than the table's size of allocations before. -/
def Confirmed (s : AudioRun) : AudioStep → Prop
  | .send id => (s.calls id).command = true →
      s.early = [] ∧ ∀ c ∈ s.awaiting, (s.calls id).number < (s.calls c).number + aaudioBceQueueTagCount
  | _ => True

instance (s : AudioRun) (a : AudioStep) : Decidable (s.Confirmed a) := by
  unfold Confirmed
  cases a <;> infer_instance

theorem CallsOk.mem_awaiting (ok : s.CallsOk) :
    id ∈ s.awaiting ↔ (s.calls id).phase = .waiting ∧ (s.calls id).cmpl = false := by
  simp only [awaiting, List.mem_filter, decide_eq_true_eq, and_iff_right_iff_imp]
  exact fun waits => ok.entered_mem (.inl waits.1)

theorem CallsOk.awaiting_nodup (ok : s.CallsOk) : s.awaiting.Nodup :=
  ok.distinct.filter _

/-- No command begins to await its reply without a send. -/
theorem CallsOk.awaiting_le (before : s.CallsOk) (after : t.CallsOk) (out : s.OutOk)
    (run : s.step a = some t) (other : ∀ id, a = .send id → (s.calls id).command = false) :
    t.awaiting.length ≤ s.awaiting.length := by
  refine (List.subperm_of_subset after.awaiting_nodup ?_).length_le
  intro c member
  rw [after.mem_awaiting] at member
  rw [before.mem_awaiting]
  rcases before.step_waiting out run member with waits | ⟨sends, command⟩
  · exact waits
  · rw [other c sends] at command
    cases command

/-- A command that is sent while all that await their reply have their place awaits its reply with these,
each in a place of its own. -/
theorem CallsOk.awaiting_send (before : s.CallsOk) (after : t.CallsOk) (out : s.OutOk) (outAfter : t.OutOk)
    (kept : s.early = []) (run : s.step (.send id) = some t) :
    t.awaiting.length ≤ aaudioBceQueueElementCount := by
  have placed : ∀ c ∈ t.awaiting, c ∈ t.inFlight.map Prod.fst := by
    intro c member
    have flight : t.inFlight = s.inFlight ++ [(id, (s.calls id).slot)] := by
      obtain ⟨-, sends⟩ := Option.ite_none_right_eq_some.mp run
      obtain ⟨sub, -, rfl⟩ := Option.map_eq_some_iff.mp sends
      rfl
    rw [flight, List.map_append, List.mem_append]
    rcases before.step_waiting out run (after.mem_awaiting.mp member) with old | ⟨sends, -⟩
    · left
      by_contra absent
      have early : c ∈ s.early := List.mem_filter.mpr ⟨before.mem_awaiting.mpr old, by simpa using absent⟩
      rw [kept] at early
      cases early
    · cases sends
      exact .inr (List.mem_singleton.mpr rfl)
  calc t.awaiting.length
      ≤ (t.inFlight.map Prod.fst).length := (List.subperm_of_subset after.awaiting_nodup placed).length_le
    _ = t.out.unnotified.length := by rw [List.length_map, outAfter.length]
    _ ≤ aaudioBceQueueElementCount := Nat.le_of_lt_succ outAfter.out.length_lt

/-- The commands are numbered apart. -/
def Numbered (s : AudioRun) : Prop :=
  (s.commands.map fun c => (s.calls c).number).Nodup

theorem CallsOk.step_number (ok : s.CallsOk) (out : s.OutOk) (run : s.step a = some t) {c : Nat}
    (member : c ∈ s.commands) : (t.calls c).number = (s.calls c).number := by
  obtain ⟨-, started, placed⟩ := (ok.calls c).listed.mp member
  cases ok.step_calls out run c with
  | onward onward => exact onward.number
  | reserve _ _ before _ => exact absurd before started
  | prepare _ before _ => exact absurd before placed
  | send _ _ _ after => rw [after]

/-- A command is numbered behind all others. -/
theorem prepare_numbers (run : s.step (.prepare id) = some t) : t.commands = s.commands ∨
    t.commands = s.commands ++ [id] ∧ (t.calls id).number = s.allocs + 1 := by
  obtain ⟨-, run⟩ := Option.ite_none_right_eq_some.mp run
  cases Option.some.inj run
  simp only [sendPrepare]
  split
  · exact .inl rfl
  · by_cases command : (s.calls id).command = true
    · right
      rw [setCall_self]
      simp [AudioRun.setCall, command]
    · left
      simp [AudioRun.setCall, command]

theorem Numbered.step (numbered : s.Numbered) (calls : s.CallsOk) (out : s.OutOk) (run : s.step a = some t) :
    t.Numbered := by
  have kept : (s.commands.map fun c => (t.calls c).number) = s.commands.map fun c => (s.calls c).number :=
    List.map_congr_left fun c member => calls.step_number out run member
  have same : t.commands = s.commands → t.Numbered := by
    intro commands
    rw [Numbered, commands, kept]
    exact numbered
  by_cases prepares : ∃ id, a = .prepare id
  · obtain ⟨id, rfl⟩ := prepares
    rcases prepare_numbers run with commands | ⟨commands, number⟩
    · exact same commands
    · rw [Numbered, commands, List.map_append, kept, List.map_singleton, number]
      refine List.nodup_append.mpr ⟨numbered, List.nodup_singleton _, ?_⟩
      intro n old m new equal
      obtain ⟨c, member, rfl⟩ := List.mem_map.mp old
      have most := ((calls.calls c).number member).2
      rw [equal, List.mem_singleton.mp new] at most
      exact absurd most (Nat.not_succ_le_self _)
  · exact same (step_records run fun id label => prepares ⟨id, label⟩).2.2

theorem numbered (reach : machine.Reachable s) : s.Numbered := by
  refine Machine.ReachableUnder.invariant_of (J := fun s => s.CallsOk ∧ s.OutOk) ?_ ?_ ?_ reach
  · exact fun _ reach => ⟨callsOk reach, outOk reach⟩
  · rintro _ rfl
    exact List.nodup_nil
  · exact fun _ _ _ known numbered _ run => numbered.step known.1 known.2 run

/-- The tag of a command that is sent is none of those of the commands that await their reply. -/
theorem CallsOk.tag_apart (calls : s.CallsOk) (out : s.OutOk) (numbered : s.Numbered) {c : Nat}
    (waits : c ∈ s.awaiting) (command : (s.calls id).command = true) (locked : s.lock = .writer id)
    (recent : (s.calls id).number < (s.calls c).number + aaudioBceQueueTagCount) :
    (s.calls id).tagN ≠ (s.calls c).tagN := by
  have prepared := (out.writer id).mpr locked
  have waiting := (calls.mem_awaiting.mp waits).1
  have self : id ∈ s.commands := (calls.calls id).listed.mpr (by simp [command, prepared])
  have listed := calls.entered_mem (.inl waiting)
  have latest := (calls.calls id).last command prepared
  obtain ⟨tag, -⟩ := (calls.calls id).number self
  obtain ⟨tagC, bound⟩ := (calls.calls c).number listed
  have apart : (s.calls c).number ≠ (s.calls id).number := by
    intro same
    have one := List.inj_on_of_nodup_map numbered listed self same
    rw [one, prepared] at waiting
    cases waiting
  rw [tag, tagC]
  simp only [aaudioBceQueueTagCount] at recent ⊢
  omega

/-- Every command that awaits its reply has its entry, and there are no more than places. -/
structure AwaitingOk (s : AudioRun) : Prop where
  bound : s.awaiting.length ≤ aaudioBceQueueElementCount
  held : ∀ c ∈ s.awaiting, s.pending (s.calls c).tagN = some c

theorem AwaitingOk.step (ok : s.AwaitingOk) (before : s.CallsOk) (after : t.CallsOk) (table : s.TableOk)
    (numbered : s.Numbered) (out : s.OutOk) (outAfter : t.OutOk) (confirmed : s.Confirmed a)
    (run : s.step a = some t) : t.AwaitingOk where
  bound := by
    by_cases sends : ∃ id, a = .send id ∧ (s.calls id).command = true
    · obtain ⟨id, rfl, command⟩ := sends
      exact before.awaiting_send after out outAfter (confirmed command).1 run
    · refine (before.awaiting_le after out run ?_).trans ok.bound
      intro id label
      by_contra command
      exact sends ⟨id, label, by simpa using command⟩
  held := by
    intro c member
    have waits := after.mem_awaiting.mp member
    rcases before.step_waiting out run waits with old | ⟨rfl, command⟩
    · have oldMember := before.mem_awaiting.mpr old
      rw [(before.step_command out run (before.entered_mem (.inl old.1))).1]
      refine table.entry_kept run (ok.held c oldMember) ⟨.inl waits.1, waits.2⟩ ?_
      rintro id rfl command same
      obtain ⟨locked, -⟩ := Option.ite_none_right_eq_some.mp run
      exact before.tag_apart out numbered oldMember command locked ((confirmed command).2 c oldMember) same
    · obtain ⟨locked, -⟩ := Option.ite_none_right_eq_some.mp run
      have prepared := (out.writer c).mpr locked
      have self : c ∈ s.commands := (before.calls c).listed.mpr (by simp [command, prepared])
      rw [(before.step_command out run self).1]
      exact entry_made run command

theorem awaitingOk (reach : machine.ReachableUnder Confirmed s) : s.AwaitingOk := by
  refine Machine.ReachableUnder.invariant_of (J := fun s => machine.Reachable s) ?_ ?_ ?_ reach
  · exact fun _ reach => reach.reachable
  · rintro _ rfl
    exact ⟨by decide, by simp [awaiting, init]⟩
  · intro s a t reach ok confirmed run
    exact ok.step (callsOk reach) (callsOk (reach.next run)) (tableOk reach) (numbered reach)
      (outOk reach) (outOk (reach.next run)) confirmed run

/-- In the runs in which no place is used again before the reply of the command it was given back by, and no
tag is allocated a hundred times behind that of a command that still awaits its reply, the commands that
await their reply are no more than the places of the queue, each keeps its entry, and no command that is
sent overwrites one. -/
theorem awaiting_bounded (reach : machine.ReachableUnder Confirmed s) :
    s.awaiting.length ≤ aaudioBceQueueElementCount ∧
    (∀ c ∈ s.awaiting, s.pending (s.calls c).tagN = some c) ∧
    ∀ id t, s.step (.send id) = some t → (s.calls id).command = true → s.Confirmed (.send id) →
      ∀ c ∈ s.awaiting, s.pending (s.calls id).tagN ≠ some c := by
  have ok := awaitingOk reach
  have calls := callsOk reach.reachable
  refine ⟨ok.bound, ok.held, ?_⟩
  intro id t run command confirmed c member found
  obtain ⟨locked, -⟩ := Option.ite_none_right_eq_some.mp run
  obtain ⟨-, same, -⟩ := calls.entry _ c found
  exact calls.tag_apart (outOk reach.reachable) (numbered reach.reachable) member command locked
    ((confirmed command).2 c member) same.symm

/-- A second command, while the first awaits its reply in its place. -/
theorem awaiting_bounded_second : ∃ s t, machine.ReachableUnder Confirmed s ∧ s.awaiting = [0] ∧
    s.step (.send 1) = some t ∧ s.Confirmed (.send 1) ∧
    s.awaiting.length ≤ aaudioBceQueueElementCount ∧ s.pending (s.calls 1).tagN ≠ some 0 := by
  obtain ⟨s, t, ran, waits, run, command, confirmed⟩ : ∃ s t, (machine.guard Confirmed).run init
      [.reserve 0 (.command ⟨fun _ => 0, 64⟩), .prepare 0, .send 0,
        .reserve 1 (.command ⟨fun _ => 0, 64⟩), .prepare 1] = some s ∧ s.awaiting = [0] ∧
      s.step (.send 1) = some t ∧ (s.calls 1).command = true ∧ s.Confirmed (.send 1) :=
    ⟨_, _, rfl, rfl, rfl, rfl, by decide⟩
  have reach := Machine.ReachableUnder.of_run rfl _ ran
  obtain ⟨bound, -, kept⟩ := awaiting_bounded reach
  exact ⟨s, t, reach, waits, run, confirmed, bound, kept 1 t run command confirmed 0 (by simp [waits])⟩

/-- A command whose message the device takes at once. -/
def confirmedCommand (id : Nat) : List AudioStep :=
  [.reserve id (.command ⟨fun _ => 0, 64⟩), .prepare id, .send id, .deviceComplete 0 0 0, .harvest,
    .nextCompletion, .notify]

/-- A hundred commands await their reply, and the next one that is sent takes the entry of the
first. -/
theorem awaiting_unbounded : ∃ s t, machine.Reachable s ∧ s.awaiting.length = 100 ∧
    s.step (.send 100) = some t ∧ s.pending (s.calls 100).tagN = some 0 ∧ 0 ∈ s.awaiting ∧
    t.pending (s.calls 100).tagN = some 100 := by
  have found : ((machine.run init ((List.range 100).flatMap confirmedCommand ++
      [.reserve 100 (.command ⟨fun _ => 0, 64⟩), .prepare 100])).any fun s =>
        s.awaiting.length = 100 ∧ s.pending (s.calls 100).tagN = some 0 ∧ 0 ∈ s.awaiting ∧
        (s.step (.send 100)).any fun t => t.pending (s.calls 100).tagN = some 100) = true := by
    decide +kernel
  obtain ⟨s, ran, state⟩ := (Option.any_eq_true ..).mp found
  obtain ⟨many, entry, waits, next⟩ := of_decide_eq_true state
  obtain ⟨t, run, overwritten⟩ := (Option.any_eq_true ..).mp next
  exact ⟨s, t, .of_run (.start rfl) _ ran, many, run, entry, waits, of_decide_eq_true overwritten⟩

end AudioRun

end AppleBce

import AppleBce.Queue.Cmdq

namespace AppleBce

open Basis

namespace CmdqRun

variable {n : Nat} {s t : CmdqRun} {a : CmdqStep} {id : Nat}

/-- The call has returned, so its element is gone. -/
def Returned (s : CmdqRun) (id : Nat) : Prop :=
  ∃ answer, (s.calls id).phase = .returned answer

/-- What the handler writes is written to the call that `tres` names. -/
theorem write_calls {entry : Option Nat} {c : BceSqCompletionData} (apart : entry ≠ some id) :
    (s.write entry c).calls id = s.calls id := by
  cases entry with
  | none => rfl
  | some own => exact setCall_other _ fun same => apart (by rw [same])

theorem deliver_run (run : s.step .deliver = some t) : s.handler = some false ∧
    ∃ c sq sub, s.sub.sq.nextCompletion = some (c, sq) ∧ s.sub.step .nextCompletion = some sub ∧
      t = { s with
        sub
        handler := some true
        handled := s.handled ++ (s.awaited.map fun id => (id, c)).toList }.write
          (s.tres s.sub.sq.head) c := by
  obtain ⟨between, run⟩ := Option.ite_none_right_eq_some.mp run
  split at run
  · rename_i c sq sub read taken
    exact ⟨between, c, sq, sub, read, taken, (Option.some.inj run).symm⟩
  · cases run

/-- A call the handler writes to occupies the slot and has not returned. -/
theorem Ok.deliver_own (ok : s.Ok n) (run : s.step .deliver = some t) (changed : t.calls id ≠ s.calls id) :
    (s.sub.sq.head, id) ∈ s.inFlight ∧ s.tres s.sub.sq.head = some id ∧ ¬s.Returned id := by
  obtain ⟨between, c, sq, sub, -, -, rfl⟩ := deliver_run run
  have entry : s.tres s.sub.sq.head = some id := by
    by_contra apart
    exact changed (write_calls apart)
  obtain ⟨member, held | ⟨handler, -⟩⟩ := ok.entries _ _ entry
  · refine ⟨member, entry, ?_⟩
    rintro ⟨answer, returned⟩
    rcases held.1 with phase | phase <;> cases phase.symm.trans returned
  · rw [between] at handler
    cases handler

/-- Nothing happens to a call that has returned. -/
theorem Ok.returned_stays (ok : s.Ok n) (run : s.step a = some t) (returned : s.Returned id) :
    t.calls id = s.calls id := by
  obtain ⟨answer, returned⟩ := returned
  have apart : ∀ {other : Nat} {phase : CmdPhase}, (s.calls other).phase = phase →
      (∀ answer, phase ≠ .returned answer) → id ≠ other := by
    intro other phase at_ early same
    rw [← same] at at_
    exact early answer (at_.symm.trans returned)
  cases a with
  | reserve other =>
    obtain ⟨phase, run⟩ := Option.ite_none_right_eq_some.mp run
    obtain ⟨sub, -, rfl⟩ := Option.map_eq_some_iff.mp run
    exact setCall_other _ (apart phase nofun)
  | giveUp other =>
    obtain ⟨phase, run⟩ := Option.ite_none_right_eq_some.mp run
    cases Option.some.inj run
    exact setCall_other _ (apart phase nofun)
  | submit other =>
    obtain ⟨⟨-, phase⟩, run⟩ := Option.ite_none_right_eq_some.mp run
    obtain ⟨sub, -, rfl⟩ := Option.map_eq_some_iff.mp run
    exact setCall_other _ (apart phase nofun)
  | deviceComplete status dataSize result =>
    obtain ⟨sub, -, rfl⟩ := Option.map_eq_some_iff.mp run
    rfl
  | harvest =>
    obtain ⟨sub, -, rfl⟩ := Option.map_eq_some_iff.mp run
    rfl
  | lock | unlock =>
    obtain ⟨-, run⟩ := Option.ite_none_right_eq_some.mp run
    cases Option.some.inj run
    rfl
  | deliver =>
    by_contra changed
    exact (ok.deliver_own run changed).2.2 ⟨answer, returned⟩
  | clear =>
    obtain ⟨-, run⟩ := Option.ite_none_right_eq_some.mp run
    obtain ⟨sub, -, rfl⟩ := Option.map_eq_some_iff.mp run
    rfl
  | wake other =>
    obtain ⟨⟨phase, -⟩, run⟩ := Option.ite_none_right_eq_some.mp run
    cases Option.some.inj run
    exact setCall_other _ (apart phase nofun)
  | expire other =>
    obtain ⟨⟨phase, -⟩, run⟩ := Option.ite_none_right_eq_some.mp run
    cases Option.some.inj run
    exact setCall_other _ (apart phase nofun)
  | cleanUp other =>
    obtain ⟨⟨-, phase⟩, run⟩ := Option.ite_none_right_eq_some.mp run
    cases Option.some.inj run
    exact setCall_other _ (apart phase nofun)

theorem write_inFlight (s : CmdqRun) (entry : Option Nat) (c : BceSqCompletionData) :
    (s.write entry c).inFlight = s.inFlight := by
  cases entry <;> rfl

/-- A slot is in flight until the handler has taken its completion. -/
theorem Ok.flight_stays (ok : s.Ok n) (run : s.step a = some t) {i : Nat} (member : (i, id) ∈ s.inFlight) :
    (i, id) ∈ t.inFlight ∨ (a = .clear ∧ i = s.sub.sq.head) := by
  have quiet : ∀ {sub : SubmissionRun}, sub.unnotified = s.sub.unnotified →
      (i, id) ∈ sub.unnotified.zip s.owners := by
    intro sub same
    rw [same]
    exact member
  cases a with
  | reserve other =>
    obtain ⟨-, run⟩ := Option.ite_none_right_eq_some.mp run
    obtain ⟨sub, taken, rfl⟩ := Option.map_eq_some_iff.mp run
    exact .inl (quiet (sub_quiet taken ⟨nofun, nofun, nofun⟩).1)
  | submit other =>
    obtain ⟨-, run⟩ := Option.ite_none_right_eq_some.mp run
    obtain ⟨sub, taken, rfl⟩ := Option.map_eq_some_iff.mp run
    obtain ⟨-, after⟩ := Option.ite_none_right_eq_some.mp taken
    cases after
    left
    show (i, id) ∈ (s.sub.unnotified ++ [s.sub.sq.tail]).zip (s.owners ++ [other])
    rw [ok.flight_submit]
    exact List.mem_append_left _ member
  | deviceComplete status dataSize result =>
    obtain ⟨sub, taken, rfl⟩ := Option.map_eq_some_iff.mp run
    exact .inl (quiet (sub_quiet taken ⟨nofun, nofun, nofun⟩).1)
  | harvest =>
    obtain ⟨sub, taken, rfl⟩ := Option.map_eq_some_iff.mp run
    exact .inl (quiet (sub_quiet taken ⟨nofun, nofun, nofun⟩).1)
  | deliver =>
    obtain ⟨-, c, sq, sub, read, taken, rfl⟩ := deliver_run run
    rw [SubmissionRun.step, read] at taken
    cases Option.some.inj taken
    rw [write_inFlight]
    exact .inl member
  | clear =>
    obtain ⟨-, run⟩ := Option.ite_none_right_eq_some.mp run
    obtain ⟨sub, notified, rfl⟩ := Option.map_eq_some_iff.mp run
    obtain ⟨taken, after⟩ := Option.ite_none_right_eq_some.mp notified
    cases after
    obtain ⟨owner, rest, owners, unnotified, held, flight⟩ := ok.oldest taken
    rw [flight] at member
    rcases List.mem_cons.mp member with first | later
    · cases first
      exact .inr ⟨rfl, rfl⟩
    · left
      show (i, id) ∈ s.sub.unnotified.tail.zip s.owners.tail
      rw [unnotified, held]
      exact later
  | giveUp other | lock | unlock | wake other | expire other | cleanUp other =>
    obtain ⟨-, run⟩ := Option.ite_none_right_eq_some.mp run
    cases Option.some.inj run
    exact .inl member

theorem Ok.submit_slot (ok : s.Ok n) (run : s.step (.submit id) = some t) :
    (t.calls id).el.slot ∉ s.sub.unnotified := by
  obtain ⟨-, run⟩ := Option.ite_none_right_eq_some.mp run
  obtain ⟨sub, -, rfl⟩ := Option.map_eq_some_iff.mp run
  rw [setCall_self]
  exact ok.sub.tail_free

/-- Over every interleaving of calls: an entry of `tres` is that of the call whose submission
occupies the slot, which has not returned, or was completed by the handler that still holds `lck`
and is about to clear it. The handler writes only to the call that occupies the slot, and to no
call that has returned, so the late completion of one that timed out is discarded. A slot is not
handed out again before the handler has taken its completion. -/
theorem cmdq_results_owned (large : 2 ≤ n) (reach : (cmdqMachine n).Reachable s) :
    (∀ i id, s.tres i = some id → (i, id) ∈ s.inFlight ∧ (¬s.Returned id ∨
      (s.handler = some true ∧ i = s.sub.sq.head ∧ (s.calls id).el.cmpl))) ∧
    (∀ t id, s.step .deliver = some t → t.calls id ≠ s.calls id →
      (s.sub.sq.head, id) ∈ s.inFlight ∧ s.tres s.sub.sq.head = some id ∧ ¬s.Returned id) ∧
    (∀ t id, s.step .deliver = some t → (s.sub.sq.head, id) ∈ s.inFlight → s.Returned id →
      t.calls = s.calls) ∧
    ∀ a t, s.step a = some t →
      (∀ id, s.Returned id → t.calls id = s.calls id) ∧
      ∀ i id, (i, id) ∈ s.inFlight →
        ((i, id) ∈ t.inFlight ∨ (a = .clear ∧ i = s.sub.sq.head)) ∧
        ∀ other, a = .submit other → (t.calls other).el.slot ≠ i := by
  have ok := cmdq_ok large reach
  refine ⟨?_, fun t id run changed => ok.deliver_own run changed, ?_, ?_⟩
  · intro i id entry
    obtain ⟨member, held | delivered⟩ := ok.entries i id entry
    · refine ⟨member, .inl ?_⟩
      rintro ⟨answer, returned⟩
      rcases held.1 with phase | phase <;> cases phase.symm.trans returned
    · exact ⟨member, .inr delivered⟩
  · intro t id run member returned
    funext other
    by_contra changed
    obtain ⟨there, -, running⟩ := ok.deliver_own run changed
    rw [ok.same_owner there member] at running
    exact running returned
  · intro a t run
    refine ⟨fun id returned => ok.returned_stays run returned, ?_⟩
    intro i id member
    refine ⟨ok.flight_stays run member, ?_⟩
    rintro other rfl slot
    exact ok.submit_slot run (slot ▸ mem_unnotified member)

/-- A command whose wait ran out while its submission is still with the device. -/
theorem cmdq_results_owned_late : ∃ s, (cmdqMachine 32).Reachable s ∧ s.Returned 0 ∧ (0, 0) ∈ s.inFlight ∧
    ∀ a t, s.step a = some t → ∀ other, a = .submit other → (t.calls other).el.slot ≠ 0 := by
  obtain ⟨s, ran, returned, flight⟩ : ∃ s, (cmdqMachine 32).run (alloc 32)
      [.reserve 0, .submit 0, .expire 0, .cleanUp 0] = some s ∧ s.Returned 0 ∧ (0, 0) ∈ s.inFlight :=
    ⟨_, rfl, ⟨none, rfl⟩, List.mem_singleton.mpr rfl⟩
  have reach := (Machine.Reachable.start (M := cmdqMachine 32) rfl).of_run _ ran
  refine ⟨s, reach, returned, flight, ?_⟩
  intro a t run other submitted
  exact (((cmdq_results_owned (by decide) reach).2.2.2 a t run).2 0 0 flight).2 other submitted

/-- The handler completes a call before it clears the entry, and the call returns without taking
`lck`. -/
theorem returned_before_clear : ¬∀ s, (cmdqMachine 32).Reachable s →
    ∀ i id, s.tres i = some id → ¬s.Returned id := by
  intro owned
  obtain ⟨s, ran, entry, returned⟩ : ∃ s, (cmdqMachine 32).run (alloc 32)
      [.reserve 0, .submit 0, .deviceComplete 0 0 0, .harvest, .lock, .deliver, .wake 0] = some s ∧
        s.tres 0 = some 0 ∧ s.Returned 0 :=
    ⟨_, rfl, rfl, ⟨some (0, 0), rfl⟩⟩
  have reach := (Machine.Reachable.start (M := cmdqMachine 32) rfl).of_run _ ran
  exact owned s reach 0 0 entry returned

end CmdqRun

end AppleBce

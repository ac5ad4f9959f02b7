import AppleBce.Queue.CmdqResults

namespace AppleBce

open Basis

namespace CmdqRun

variable {n : Nat} {s t : CmdqRun} {a : CmdqStep} {id : Nat} {c : BceSqCompletionData}

instance (s : CmdqRun) (id : Nat) : Decidable (s.Returned id) :=
  match phase : (s.calls id).phase with
  | .returned answer => isTrue ⟨answer, phase⟩
  | .starting | .reserved | .waiting | .expired =>
    isFalse fun ⟨_, returned⟩ => nomatch phase.symm.trans returned

/-- A call whose wait ran out finds its slot unused by other calls that still run, so the ring has
not come round to a new command there. -/
def CleansOwn (s : CmdqRun) : CmdqStep → Prop
  | .cleanUp id => ∀ held ∈ s.inFlight, held.1 = (s.calls id).el.slot → held.2 ≠ id → s.Returned held.2
  | _ => True

instance (s : CmdqRun) : (a : CmdqStep) → Decidable (s.CleansOwn a)
  | .cleanUp id => inferInstanceAs (Decidable (∀ held ∈ s.inFlight,
      held.1 = (s.calls id).el.slot → held.2 ≠ id → s.Returned held.2))
  | .reserve _ | .giveUp _ | .submit _ | .deviceComplete .. | .harvest | .lock | .deliver | .clear | .unlock
  | .wake _ | .expire _ => .isTrue trivial

/-- The call was woken with the completion, and returns with it. -/
def Woken (s : CmdqRun) (id : Nat) (c : BceSqCompletionData) : Prop :=
  ((s.calls id).phase = .waiting ∧ (s.calls id).el.cmpl ∧ (s.calls id).el.status = c.status ∧
      (s.calls id).el.result = c.result) ∨
    (s.calls id).phase = .returned (some (c.status, c.result))

/-- A call in flight that has not returned and has not been completed is found through its slot,
and a call in flight that has been completed is the one the handler is at. -/
structure Found (s : CmdqRun) : Prop where
  entry : ∀ i id, (i, id) ∈ s.inFlight → (s.calls id).el.cmpl = false → ¬s.Returned id → s.tres i = some id
  done : ∀ i id, (i, id) ∈ s.inFlight → (s.calls id).el.cmpl → s.handler = some true ∧ i = s.sub.sq.head
  woken : ∀ id c, (id, c) ∈ s.handled → s.Woken id c

theorem Woken.of_calls (woken : s.Woken id c) (same : t.calls id = s.calls id) : t.Woken id c := by
  rw [Woken, same]
  exact woken

theorem Returned.of_calls (returned : t.Returned id) (same : t.calls id = s.calls id) : s.Returned id := by
  obtain ⟨answer, phase⟩ := returned
  exact ⟨answer, same ▸ phase⟩

/-- A woken call is at its wait or has returned. -/
theorem Woken.phase (woken : s.Woken id c) :
    ((s.calls id).phase = .waiting ∧ (s.calls id).el.cmpl) ∨ s.Returned id := by
  rcases woken with ⟨phase, done, -, -⟩ | returned
  · exact .inl ⟨phase, done⟩
  · exact .inr ⟨_, returned⟩

theorem found_alloc (n : Nat) : (alloc n).Found where
  entry := nofun
  done := nofun
  woken := nofun

/-- A step of the submission queue that neither takes slots nor gives them back. -/
theorem Found.withSub {sub : SubmissionRun} (found : s.Found) (unnotified : sub.unnotified = s.sub.unnotified)
    (head : sub.sq.head = s.sub.sq.head) : Found { s with sub } where
  entry := by
    intro i id member
    rw [inFlight, unnotified] at member
    exact found.entry i id member
  done := by
    intro i id member
    rw [inFlight, unnotified] at member
    rw [head]
    exact found.done i id member
  woken := found.woken

/-- `lck` changes hands while no call in flight has been completed. -/
theorem Found.withHandler {handler : Option Bool} (found : s.Found) (before : s.handler ≠ some true) :
    Found { s with handler } where
  entry := found.entry
  done := fun i id member done => absurd (found.done i id member done).1 before
  woken := found.woken

/-- A call that has not returned goes on. -/
theorem Found.setCall {call : CmdCall} (found : s.Found) (running : ¬s.Returned id)
    (cmpl : call.el.cmpl = (s.calls id).el.cmpl)
    (woken : ∀ c, s.Woken id c → (s.setCall id call).Woken id c) : (s.setCall id call).Found where
  entry := by
    intro i other member fresh running'
    by_cases same : other = id
    · rw [same] at member fresh ⊢
      rw [setCall_self, cmpl] at fresh
      exact found.entry i id member fresh running
    · rw [setCall_other call same] at fresh
      refine found.entry i other member fresh fun returned => running' ?_
      exact returned.of_calls (setCall_other call same).symm
  done := by
    intro i other member done
    by_cases same : other = id
    · rw [same] at member done
      rw [setCall_self, cmpl] at done
      exact found.done i id member done
    · rw [setCall_other call same] at done
      exact found.done i other member done
  woken := by
    intro other c handled
    have before := found.woken other c handled
    by_cases same : other = id
    · rw [same] at before ⊢
      exact woken c before
    · exact before.of_calls (setCall_other call same)

theorem Found.submit {sub : SubmissionRun} (found : s.Found) (ok : s.Ok n)
    (phase : (s.calls id).phase = .reserved) (taken : s.sub.step .nextSubmission = some sub) :
    Found ({ s with
      sub
      tres := Function.update s.tres s.sub.sq.tail (some id)
      owners := s.owners ++ [id] }.setCall id
        { phase := .waiting, el := { (s.calls id).el with slot := s.sub.sq.tail } }) := by
  obtain ⟨-, after⟩ := Option.ite_none_right_eq_some.mp taken
  cases after
  have absent := ok.not_owner phase
  have unused := ok.sub.tail_free
  have flight := ok.flight_submit s.sub.sq.tail id
  have fresh : (s.calls id).el.cmpl = false := ok.fresh id (.inr phase)
  refine ⟨?_, ?_, ?_⟩
  · intro i other member idle running
    have member : (i, other) ∈ s.inFlight ++ [(s.sub.sq.tail, id)] := flight ▸ member
    show Function.update s.tres s.sub.sq.tail (some id) i = some other
    rcases List.mem_append.mp member with old | new
    · have apart : other ≠ id := fun same => absent (mem_owners (same ▸ old))
      have elsewhere : i ≠ s.sub.sq.tail := fun same => unused (mem_unnotified (same ▸ old))
      rw [Function.update_of_ne elsewhere]
      rw [setCall_other _ apart] at idle
      refine found.entry i other old idle fun returned => running ?_
      exact returned.of_calls (setCall_other _ apart).symm
    · cases List.mem_singleton.mp new
      exact Function.update_self ..
  · intro i other member done
    have member : (i, other) ∈ s.inFlight ++ [(s.sub.sq.tail, id)] := flight ▸ member
    rcases List.mem_append.mp member with old | new
    · have apart : other ≠ id := fun same => absent (mem_owners (same ▸ old))
      rw [setCall_other _ apart] at done
      exact found.done i other old done
    · cases List.mem_singleton.mp new
      rw [setCall_self, fresh] at done
      cases done
  · intro other c handled
    have before := found.woken other c handled
    have apart : other ≠ id := by
      rintro rfl
      rcases before.phase with ⟨waiting, -⟩ | ⟨answer, returned⟩
      · cases phase.symm.trans waiting
      · cases phase.symm.trans returned
    exact before.of_calls (setCall_other _ apart)

/-- What a delivery leaves alone. -/
theorem deliver_frame (run : s.step .deliver = some t) : t.inFlight = s.inFlight ∧ t.tres = s.tres ∧
    t.owners = s.owners ∧ t.sub.sq.head = s.sub.sq.head ∧ t.handler = some true ∧ 0 < t.sub.consumed := by
  obtain ⟨-, c, sq, sub, read, taken, rfl⟩ := deliver_run run
  have head : sq.head = s.sub.sq.head := by
    rw [(BceQueueSq.nextCompletion_some read).2.2]
  rw [SubmissionRun.step, read] at taken
  cases Option.some.inj taken
  rw [write_inFlight]
  cases entry : s.tres s.sub.sq.head with
  | none => exact ⟨rfl, rfl, rfl, head, rfl, Nat.succ_pos _⟩
  | some own => exact ⟨rfl, rfl, rfl, head, rfl, Nat.succ_pos _⟩

theorem deliver_handled (run : s.step .deliver = some t) {sq : BceQueueSq}
    (read : s.sub.sq.nextCompletion = some (c, sq)) :
    t.handled = s.handled ++ (s.awaited.map fun id => (id, c)).toList := by
  obtain ⟨-, c', sq', sub, read', -, rfl⟩ := deliver_run run
  rw [read'] at read
  cases Option.some.inj read
  cases entry : s.tres s.sub.sq.head <;> rfl

/-- The completion a round of the handler takes is that of the oldest call in flight. -/
theorem Ok.head_owner (ok : s.Ok n) (run : s.step .deliver = some t) :
    (s.sub.sq.head, id) ∈ s.inFlight ↔ s.owners.head? = some id := by
  obtain ⟨flight, -, owners, head, -, consumed⟩ := deliver_frame run
  obtain ⟨owner, rest, later, -, held, first⟩ := (ok.step run).oldest consumed
  rw [owners] at held
  rw [flight, head] at first
  have member : (s.sub.sq.head, owner) ∈ s.inFlight := first ▸ List.mem_cons_self ..
  rw [held, List.head?_cons, Option.some.injEq]
  constructor
  · exact ok.same_owner member
  · rintro rfl
    exact member

/-- A round of the handler that finds the oldest submission's call waiting wakes it. -/
theorem Found.deliver_wakes (found : s.Found) (run : s.step .deliver = some t) {sq : BceQueueSq}
    (read : s.sub.sq.nextCompletion = some (c, sq)) (member : (s.sub.sq.head, id) ∈ s.inFlight)
    (waiting : (s.calls id).phase = .waiting) : t.Woken id c := by
  obtain ⟨between, c', sq', sub, read', -, rfl⟩ := deliver_run run
  rw [read'] at read
  cases Option.some.inj read
  have idle : (s.calls id).el.cmpl = false := by
    rw [Bool.eq_false_iff]
    intro done
    cases between.symm.trans (found.done _ _ member done).1
  have running : ¬s.Returned id := fun ⟨_, returned⟩ => nomatch waiting.symm.trans returned
  rw [found.entry _ _ member idle running]
  left
  rw [write, setCall_self]
  exact ⟨waiting, rfl, rfl, rfl⟩

theorem Found.deliver (found : s.Found) (ok : s.Ok n) (run : s.step .deliver = some t) : t.Found := by
  obtain ⟨flight, tres, -, head, handler, -⟩ := deliver_frame run
  have between := (deliver_run run).1
  refine ⟨?_, ?_, ?_⟩
  · intro i other member idle running
    rw [flight] at member
    rw [tres]
    by_cases same : t.calls other = s.calls other
    · rw [same] at idle
      exact found.entry i other member idle fun returned => running (returned.of_calls same.symm)
    · obtain ⟨there, entry, -⟩ := ok.deliver_own run same
      rw [ok.same_slot member there]
      exact entry
  · intro i other member done
    rw [flight] at member
    refine ⟨handler, ?_⟩
    rw [head]
    by_cases same : t.calls other = s.calls other
    · rw [same] at done
      cases between.symm.trans (found.done i other member done).1
    · exact ok.same_slot member (ok.deliver_own run same).1
  · intro other c handled
    obtain ⟨-, c', sq, sub, read, -, -⟩ := deliver_run run
    rw [deliver_handled run read] at handled
    rcases List.mem_append.mp handled with old | new
    · have before := found.woken other c old
      by_cases same : t.calls other = s.calls other
      · exact before.of_calls same
      · obtain ⟨-, entry, running⟩ := ok.deliver_own run same
        rcases before.phase with ⟨-, done⟩ | returned
        · rcases (ok.entries _ _ entry).2 with ⟨-, idle⟩ | ⟨delivering, -⟩
          · cases idle.symm.trans done
          · cases between.symm.trans delivering
        · exact absurd returned running
    · obtain ⟨id, awaited, same⟩ := Option.map_eq_some_iff.mp (Option.mem_toList.mp new)
      cases same
      obtain ⟨oldest, waiting⟩ := Option.filter_eq_some_iff.mp awaited
      exact found.deliver_wakes run read ((ok.head_owner run).mpr oldest) (of_decide_eq_true waiting)

theorem Found.clear (found : s.Found) (ok : s.Ok n) (run : s.step .clear = some t) : t.Found := by
  obtain ⟨delivering, run⟩ := Option.ite_none_right_eq_some.mp run
  obtain ⟨sub, notified, rfl⟩ := Option.map_eq_some_iff.mp run
  obtain ⟨taken, after⟩ := Option.ite_none_right_eq_some.mp notified
  cases after
  obtain ⟨owner, rest, owners, unnotified, held, flight⟩ := ok.oldest taken
  have distinct : (s.sub.sq.head :: rest).Nodup := by
    rw [← unnotified, ok.sub.slots]
    exact slots_nodup ok.sub.length_lt.le
  have later : ∀ {i other}, (i, other) ∈ s.sub.unnotified.tail.zip s.owners.tail →
      (i, other) ∈ s.inFlight ∧ i ≠ s.sub.sq.head := by
    intro i other member
    rw [unnotified, held] at member
    refine ⟨flight ▸ List.mem_cons_of_mem _ member, ?_⟩
    rintro rfl
    exact (List.nodup_cons.mp distinct).1 (List.of_mem_zip member).1
  refine ⟨?_, ?_, found.woken⟩
  · intro i other member idle running
    obtain ⟨member, apart⟩ := later member
    show Function.update s.tres s.sub.sq.head none i = some other
    rw [Function.update_of_ne apart]
    exact found.entry i other member idle running
  · intro i other member done
    obtain ⟨member, apart⟩ := later member
    exact absurd (found.done i other member done).2 apart

/-- While nobody has `lck`, a call in flight that still runs is found through its slot. -/
theorem Found.running_entry (found : s.Found) (free : s.handler = none) {i : Nat} (member : (i, id) ∈ s.inFlight)
    (running : ¬s.Returned id) : s.tres i = some id := by
  refine found.entry i id member ?_ running
  rw [Bool.eq_false_iff]
  intro done
  cases free.symm.trans (found.done i id member done).1

/-- A clean-up that finds no running call of another command in its slot clears nothing of others. -/
theorem Ok.cleanUp_own (ok : s.Ok n) (free : s.handler = none) (alone : s.CleansOwn (.cleanUp id)) {other : Nat}
    (entry : s.tres (s.calls id).el.slot = some other) : other = id := by
  obtain ⟨member, ⟨phase, -⟩ | ⟨delivering, -⟩⟩ := ok.entries _ _ entry
  · by_contra apart
    obtain ⟨answer, returned⟩ := alone _ member rfl apart
    rcases phase with phase | phase <;> cases phase.symm.trans returned
  · cases free.symm.trans delivering

theorem Found.cleanUp (found : s.Found) (alone : s.CleansOwn (.cleanUp id))
    (phase : (s.calls id).phase = .expired) :
    Found ({ s with tres := Function.update s.tres (s.calls id).el.slot none }.setCall id
      { s.calls id with phase := .returned none }) := by
  have unwoken : ∀ c, ¬s.Woken id c := by
    intro c woken
    rcases woken.phase with ⟨waiting, -⟩ | ⟨answer, returned⟩
    · cases phase.symm.trans waiting
    · cases phase.symm.trans returned
  refine ⟨?_, ?_, ?_⟩
  · intro i other member idle running
    have apart : other ≠ id := by
      rintro rfl
      exact running ⟨none, by rw [setCall_self]⟩
    have unchanged := setCall_other (s := { s with tres := Function.update s.tres (s.calls id).el.slot none })
      { s.calls id with phase := .returned none } apart
    rw [unchanged] at idle
    have running : ¬s.Returned other := fun returned => running (returned.of_calls unchanged.symm)
    have elsewhere : i ≠ (s.calls id).el.slot := fun same => running (alone _ member same apart)
    show Function.update s.tres (s.calls id).el.slot none i = some other
    rw [Function.update_of_ne elsewhere]
    exact found.entry i other member idle running
  · intro i other member done
    by_cases same : other = id
    · rw [same] at member done
      rw [setCall_self] at done
      exact found.done i id member done
    · rw [setCall_other _ same] at done
      exact found.done i other member done
  · intro other c handled
    have before := found.woken other c handled
    by_cases same : other = id
    · exact absurd (same ▸ before) (unwoken c)
    · exact before.of_calls (setCall_other _ same)

theorem Found.step (found : s.Found) (ok : s.Ok n) (alone : s.CleansOwn a) (run : s.step a = some t) :
    t.Found := by
  have idle : ∀ {id : Nat} {phase : CmdPhase}, (s.calls id).phase = phase →
      (phase = .starting ∨ phase = .reserved ∨ phase = .waiting ∨ phase = .expired) → ¬s.Returned id := by
    rintro id phase at_ early ⟨answer, returned⟩
    rw [at_] at returned
    rcases early with same | same | same | same <;> cases same.symm.trans returned
  cases a with
  | reserve id =>
    obtain ⟨phase, run⟩ := Option.ite_none_right_eq_some.mp run
    obtain ⟨sub, taken, rfl⟩ := Option.map_eq_some_iff.mp run
    obtain ⟨unnotified, head, -⟩ := sub_quiet taken ⟨nofun, nofun, nofun⟩
    have running := idle phase (.inl rfl)
    refine (found.withSub unnotified head).setCall running rfl fun c woken => ?_
    rcases woken.phase with ⟨waiting, -⟩ | returned
    · cases phase.symm.trans waiting
    · exact absurd returned running
  | giveUp id =>
    obtain ⟨phase, run⟩ := Option.ite_none_right_eq_some.mp run
    cases Option.some.inj run
    have running := idle phase (.inl rfl)
    refine found.setCall running rfl fun c woken => ?_
    rcases woken.phase with ⟨waiting, -⟩ | returned
    · cases phase.symm.trans waiting
    · exact absurd returned running
  | submit id =>
    obtain ⟨⟨-, phase⟩, run⟩ := Option.ite_none_right_eq_some.mp run
    obtain ⟨sub, taken, rfl⟩ := Option.map_eq_some_iff.mp run
    exact found.submit ok phase taken
  | deviceComplete status dataSize result =>
    obtain ⟨sub, taken, rfl⟩ := Option.map_eq_some_iff.mp run
    obtain ⟨unnotified, head, -⟩ := sub_quiet taken ⟨nofun, nofun, nofun⟩
    exact found.withSub unnotified head
  | harvest =>
    obtain ⟨sub, taken, rfl⟩ := Option.map_eq_some_iff.mp run
    obtain ⟨unnotified, head, -⟩ := sub_quiet taken ⟨nofun, nofun, nofun⟩
    exact found.withSub unnotified head
  | lock =>
    obtain ⟨free, run⟩ := Option.ite_none_right_eq_some.mp run
    cases Option.some.inj run
    exact found.withHandler (free ▸ nofun)
  | unlock =>
    obtain ⟨⟨between, -⟩, run⟩ := Option.ite_none_right_eq_some.mp run
    cases Option.some.inj run
    exact found.withHandler (between ▸ nofun)
  | deliver => exact found.deliver ok run
  | clear => exact found.clear ok run
  | wake id =>
    obtain ⟨⟨phase, done⟩, run⟩ := Option.ite_none_right_eq_some.mp run
    cases Option.some.inj run
    have running := idle phase (.inr (.inr (.inl rfl)))
    refine found.setCall running rfl fun c woken => ?_
    rcases woken with ⟨-, -, status, result⟩ | returned
    · right
      rw [setCall_self, status, result]
    · exact absurd ⟨_, returned⟩ running
  | expire id =>
    obtain ⟨⟨phase, pending⟩, run⟩ := Option.ite_none_right_eq_some.mp run
    cases Option.some.inj run
    have running := idle phase (.inr (.inr (.inl rfl)))
    refine found.setCall running rfl fun c woken => ?_
    rcases woken.phase with ⟨-, done⟩ | returned
    · cases pending.symm.trans done
    · exact absurd returned running
  | cleanUp id =>
    obtain ⟨⟨-, phase⟩, run⟩ := Option.ite_none_right_eq_some.mp run
    cases Option.some.inj run
    exact found.cleanUp alone phase

/-- In every run in which no clean-up finds a running call of another command in its slot: a round
of the handler that takes the completion of a waiting call wakes it with the status and result of
that completion, whatever happens until the call has returned with them. The next clean-up clears
no entry but its own exactly if it meets the condition too, and it touches no other call. -/
theorem timeout_cleans_own (large : 2 ≤ n) (reach : (cmdqMachine n).ReachableUnder CleansOwn s) :
    (∀ id c, (id, c) ∈ s.handled → s.Woken id c) ∧
    (∀ t c sq id, s.step .deliver = some t → s.sub.sq.nextCompletion = some (c, sq) →
      (s.sub.sq.head, id) ∈ s.inFlight → (s.calls id).phase = .waiting → (id, c) ∈ t.handled ∧ t.Woken id c) ∧
    ∀ id t, s.step (.cleanUp id) = some t →
      (s.CleansOwn (.cleanUp id) ↔ ∀ i, t.tres i ≠ s.tres i → s.tres i = some id) ∧
      ∀ other, other ≠ id → t.calls other = s.calls other := by
  have ok := cmdq_ok large reach.reachable
  have found : s.Found := by
    refine Machine.ReachableUnder.invariant_of (fun s reach => cmdq_ok large reach.reachable) ?_ ?_ reach
    · rintro _ rfl
      exact found_alloc n
    · exact fun s a t ok found alone run => found.step ok alone run
  refine ⟨found.woken, ?_, ?_⟩
  · intro t c sq id run read member waiting
    refine ⟨?_, found.deliver_wakes run read member waiting⟩
    have awaited : s.awaited = some id := by
      rw [awaited, (ok.head_owner run).mp member]
      exact if_pos (decide_eq_true waiting)
    rw [deliver_handled run read, awaited]
    exact List.mem_append_right _ (List.mem_singleton.mpr rfl)
  · intro id t run
    obtain ⟨⟨free, -⟩, run⟩ := Option.ite_none_right_eq_some.mp run
    cases Option.some.inj run
    refine ⟨⟨?_, ?_⟩, fun other apart => setCall_other _ apart⟩
    · intro alone i changed
      have changed : Function.update s.tres (s.calls id).el.slot none i ≠ s.tres i := changed
      by_cases here : i = (s.calls id).el.slot
      · rw [here, Function.update_self] at changed
        obtain ⟨other, entry⟩ := Option.ne_none_iff_exists'.mp changed.symm
        rw [here, entry, ok.cleanUp_own free alone entry]
      · rw [Function.update_of_ne here] at changed
        exact absurd rfl changed
    · intro own held member slot apart
      by_contra running
      have entry := found.running_entry free member running
      have changed : Function.update s.tres (s.calls id).el.slot none held.1 ≠ s.tres held.1 := by
        rw [← slot, Function.update_self, entry]
        nofun
      exact apart (Option.some.inj (entry.symm.trans (own held.1 changed)))

/-- The second of two commands is completed after the first one gave up. -/
def lateCleanUp : List CmdqStep :=
  [.reserve 0, .submit 0, .reserve 1, .submit 1, .expire 0, .cleanUp 0,
    .deviceComplete 0 0 5, .deviceComplete 0 0 7, .harvest, .harvest, .lock, .deliver, .clear, .deliver]

theorem timeout_cleans_own_late : ∃ s, (cmdqMachine 32).ReachableUnder CleansOwn s ∧
    (1, ⟨0, 0, 7⟩) ∈ s.handled ∧ s.Woken 1 ⟨0, 0, 7⟩ := by
  obtain ⟨s, ran, handled⟩ : ∃ s, ((cmdqMachine 32).guard CleansOwn).run (alloc 32) lateCleanUp = some s ∧
      (1, ⟨0, 0, 7⟩) ∈ s.handled :=
    ⟨_, rfl, List.mem_singleton.mpr rfl⟩
  have reach := Machine.ReachableUnder.of_run (M := cmdqMachine 32) rfl _ ran
  exact ⟨s, reach, handled, (timeout_cleans_own (by decide) reach).1 1 _ handled⟩

/-- A command from its reservation to its completion by an idle handler. -/
def command (id : Nat) : List CmdqStep :=
  [.reserve id, .submit id, .deviceComplete 0 0 0, .harvest, .lock, .deliver, .clear, .unlock]

/-- The wait of command 0 runs out, its late completion is discarded, and before it gets `lck` the
ring goes round and hands its slot to command 32. -/
def lapBeforeCleanUp : List CmdqStep :=
  [.reserve 0, .submit 0, .expire 0, .deviceComplete 0 0 0, .harvest, .lock, .deliver, .clear, .unlock] ++
    (List.range' 1 31).flatMap command ++
    [.reserve 32, .submit 32, .cleanUp 0, .deviceComplete 0 0 0, .harvest, .lock, .deliver]

theorem clean_up_loses_completion : ¬∀ s, (cmdqMachine 32).Reachable s →
    ∀ id c, (id, c) ∈ s.handled → s.Woken id c := by
  intro wakes
  have seen : ((cmdqMachine 32).run (alloc 32) lapBeforeCleanUp).map (fun s =>
      (s.handled.getLast?, (s.calls 32).phase, (s.calls 32).el.cmpl)) =
        some (some (32, ⟨0, 0, 0⟩), .waiting, false) := by
    decide +kernel
  obtain ⟨s, ran, view⟩ := Option.map_eq_some_iff.mp seen
  simp only [Prod.mk.injEq] at view
  obtain ⟨last, phase, idle⟩ := view
  have reach := (Machine.Reachable.start (M := cmdqMachine 32) rfl).of_run _ ran
  rcases (wakes s reach 32 _ (List.mem_of_getLast? last)).phase with ⟨-, done⟩ | ⟨answer, returned⟩
  · cases idle.symm.trans done
  · cases phase.symm.trans returned

end CmdqRun

end AppleBce

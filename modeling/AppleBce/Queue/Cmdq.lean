import AppleBce.Queue.Submission

namespace AppleBce

open Basis

/-- `struct bce_queue_cmdq_result_el`, on the stack of the call it belongs to. -/
structure BceQueueCmdqResultEl where
  cmpl : Bool
  status : Nat
  result : Nat
  slot : Nat
  deriving DecidableEq, Repr

/-- How far a `bce_cmd_*` call is: it waits in `bce_reserve_submission`, has its reservation,
waits for its completion, has seen the wait time out, or has returned the status and result it
was woken with, where `none` is `-ETIMEDOUT`. -/
inductive CmdPhase
  | starting
  | reserved
  | waiting
  | expired
  | returned (answer : Option (Nat × Nat))
  deriving DecidableEq, Repr

structure CmdCall where
  phase : CmdPhase
  el : BceQueueCmdqResultEl
  deriving DecidableEq, Repr

/-- `init_completion` on the element of a new call. -/
def CmdCall.start : CmdCall where
  phase := .starting
  el := ⟨false, 0, 0, 0⟩

/-- A command queue in use. Next to the submission queue and `tres` stand the calls, by number,
and who has `lck`: nobody, or the completion handler, which either is between two completions or
has taken one and not cleared its entry yet. The last two fields record the calls whose
submissions occupy the slots in flight, oldest first, and the completions the handler took for a
call that was waiting. -/
structure CmdqRun where
  sub : SubmissionRun
  tres : Nat → Option Nat
  calls : Nat → CmdCall
  handler : Option Bool
  owners : List Nat
  handled : List (Nat × BceSqCompletionData)

inductive CmdqStep
  | reserve (id : Nat)
  | giveUp (id : Nat)
  | submit (id : Nat)
  | deviceComplete (status dataSize result : Nat)
  | harvest
  | lock
  | deliver
  | clear
  | unlock
  | wake (id : Nat)
  | expire (id : Nat)
  | cleanUp (id : Nat)
  deriving DecidableEq, Repr

namespace CmdqRun

/-- `bce_alloc_cmdq`. -/
def alloc (n : Nat) : CmdqRun where
  sub := .start n
  tres := fun _ => none
  calls := fun _ => .start
  handler := none
  owners := []
  handled := []

/-- A call goes on. -/
def setCall (s : CmdqRun) (id : Nat) (call : CmdCall) : CmdqRun :=
  { s with calls := Function.update s.calls id call }

/-- The element that `tres` names gets a completion and its call is woken. -/
def write (s : CmdqRun) (entry : Option Nat) (c : BceSqCompletionData) : CmdqRun :=
  match entry with
  | none => s
  | some id =>
    s.setCall id { s.calls id with
      el := { (s.calls id).el with cmpl := true, status := c.status, result := c.result } }

/-- The call whose submission is the oldest, if it is waiting for it. -/
def awaited (s : CmdqRun) : Option Nat :=
  s.owners.head?.filter fun id => (s.calls id).phase = .waiting

def step (s : CmdqRun) : CmdqStep → Option CmdqRun
  | .reserve id =>
    if (s.calls id).phase = .starting then
      (s.sub.step .reserve).map fun sub => { s with sub }.setCall id { s.calls id with phase := .reserved }
    else none
  | .giveUp id =>
    if (s.calls id).phase = .starting then
      some (s.setCall id { s.calls id with phase := .returned none })
    else none
  -- `bce_cmd_start` behind its reservation up to where `bce_cmd_finish` releases `lck`
  | .submit id =>
    if s.handler = none ∧ (s.calls id).phase = .reserved then
      (s.sub.step .nextSubmission).map fun sub =>
        { s with
          sub
          tres := Function.update s.tres s.sub.sq.tail (some id)
          owners := s.owners ++ [id] }.setCall id
            { phase := .waiting, el := { (s.calls id).el with slot := s.sub.sq.tail } }
    else none
  | .deviceComplete status dataSize result =>
    (s.sub.step (.deviceComplete status dataSize result)).map fun sub => { s with sub }
  | .harvest => (s.sub.step .harvest).map fun sub => { s with sub }
  | .lock => if s.handler = none then some { s with handler := some false } else none
  -- a round of `bce_cmdq_completion` up to `complete`
  | .deliver =>
    if s.handler = some false then
      match s.sub.sq.nextCompletion, s.sub.step .nextCompletion with
      | some (c, _), some sub =>
        some ({ s with
          sub
          handler := some true
          handled := s.handled ++ (s.awaited.map fun id => (id, c)).toList }.write
            (s.tres s.sub.sq.head) c)
      | _, _ => none
    else none
  -- the rest of the round
  | .clear =>
    if s.handler = some true then
      (s.sub.step .notify).map fun sub =>
        { s with
          sub
          tres := Function.update s.tres s.sub.sq.head none
          handler := some false
          owners := s.owners.tail }
    else none
  | .unlock =>
    if s.handler = some false ∧ s.sub.sq.nextCompletion.isNone then some { s with handler := none }
    else none
  | .wake id =>
    if (s.calls id).phase = .waiting ∧ (s.calls id).el.cmpl then
      some (s.setCall id { s.calls id with
        phase := .returned (some ((s.calls id).el.status, (s.calls id).el.result)) })
    else none
  | .expire id =>
    if (s.calls id).phase = .waiting ∧ (s.calls id).el.cmpl = false then
      some (s.setCall id { s.calls id with phase := .expired })
    else none
  | .cleanUp id =>
    if s.handler = none ∧ (s.calls id).phase = .expired then
      some ({ s with tres := Function.update s.tres (s.calls id).el.slot none }.setCall id
        { s.calls id with phase := .returned none })
    else none

/-- The slots in flight with the calls whose submissions occupy them, oldest first. -/
def inFlight (s : CmdqRun) : List (Nat × Nat) :=
  s.sub.unnotified.zip s.owners

/-- The calls and the entries of `tres` fit the slots in flight. An entry is that of a call that
has not been woken, or the one the handler has just delivered to. -/
structure Ok (n : Nat) (s : CmdqRun) : Prop where
  sub : s.sub.Ok n
  length : s.owners.length = s.sub.unnotified.length
  distinct : s.owners.Nodup
  consumed : s.sub.consumed = if s.handler = some true then 1 else 0
  slots : ∀ i id, (i, id) ∈ s.inFlight → (s.calls id).el.slot = i
  started : ∀ id ∈ s.owners, (s.calls id).phase ≠ .starting ∧ (s.calls id).phase ≠ .reserved
  fresh : ∀ id, (s.calls id).phase = .starting ∨ (s.calls id).phase = .reserved →
    (s.calls id).el.cmpl = false
  entries : ∀ i id, s.tres i = some id → (i, id) ∈ s.inFlight ∧
    ((((s.calls id).phase = .waiting ∨ (s.calls id).phase = .expired) ∧ (s.calls id).el.cmpl = false) ∨
      (s.handler = some true ∧ i = s.sub.sq.head ∧ (s.calls id).el.cmpl))

variable {n : Nat} {s t : CmdqRun} {id : Nat}

@[simp] theorem setCall_self (s : CmdqRun) (id : Nat) (call : CmdCall) :
    (s.setCall id call).calls id = call :=
  Function.update_self ..

@[simp] theorem setCall_other {other : Nat} (call : CmdCall) (apart : other ≠ id) :
    (s.setCall id call).calls other = s.calls other :=
  Function.update_of_ne apart ..

theorem mem_owners {i : Nat} (member : (i, id) ∈ s.inFlight) : id ∈ s.owners :=
  (List.of_mem_zip member).2

theorem mem_unnotified {i : Nat} (member : (i, id) ∈ s.inFlight) : i ∈ s.sub.unnotified :=
  (List.of_mem_zip member).1

/-- A call has one slot in flight at most. -/
theorem Ok.same_slot (ok : s.Ok n) {i j : Nat} (one : (i, id) ∈ s.inFlight) (two : (j, id) ∈ s.inFlight) :
    i = j :=
  (ok.slots i id one).symm.trans (ok.slots j id two)

theorem owner_unique {l r : List Nat} (nodup : l.Nodup) {i a b : Nat} (one : (i, a) ∈ l.zip r)
    (two : (i, b) ∈ l.zip r) : a = b := by
  induction l generalizing r with
  | nil => cases one
  | cons x l ih =>
    cases r with
    | nil => cases one
    | cons y r =>
      rw [List.nodup_cons] at nodup
      rw [List.zip_cons_cons, List.mem_cons] at one two
      rcases one with one | one
      · rcases two with two | two
        · cases one
          cases two
          rfl
        · cases one
          exact absurd (List.of_mem_zip two).1 nodup.1
      · rcases two with two | two
        · cases two
          exact absurd (List.of_mem_zip one).1 nodup.1
        · exact ih nodup.2 one two

/-- A slot in flight is occupied by one call. -/
theorem Ok.same_owner (ok : s.Ok n) {i other : Nat} (one : (i, id) ∈ s.inFlight)
    (two : (i, other) ∈ s.inFlight) : id = other := by
  refine owner_unique ?_ one two
  rw [ok.sub.slots]
  exact slots_nodup ok.sub.length_lt.le

/-- While the handler has a completion, the oldest slot in flight is the one at the head. -/
theorem Ok.oldest (ok : s.Ok n) (taken : 0 < s.sub.consumed) :
    ∃ owner rest owners, s.sub.unnotified = s.sub.sq.head :: rest ∧ s.owners = owner :: owners ∧
      s.inFlight = (s.sub.sq.head, owner) :: rest.zip owners := by
  have phases := ok.sub.phases
  have length := ok.length
  obtain ⟨len, nonempty⟩ : ∃ len, s.sub.unnotified.length = len + 1 :=
    ⟨s.sub.unnotified.length - 1, by omega⟩
  have first : s.sub.unnotified = s.sub.sq.head :: Basis.slots n (s.sub.sq.head + 1) len := by
    have slots := ok.sub.slots
    rw [nonempty, Basis.slots, window_succ] at slots
    rw [slots]
    congr 1
    exact Nat.mod_eq_of_lt ok.sub.headBound
  cases owners : s.owners with
  | nil =>
    rw [owners, nonempty] at length
    cases length
  | cons owner rest =>
    refine ⟨owner, _, rest, first, rfl, ?_⟩
    rw [inFlight, first, owners, List.zip_cons_cons]

theorem ok_alloc (large : 2 ≤ n) : (alloc n).Ok n where
  sub := SubmissionRun.ok_start large
  length := rfl
  distinct := List.nodup_nil
  consumed := rfl
  slots := nofun
  started := nofun
  fresh := fun _ _ => rfl
  entries := nofun

/-- A step of the submission queue that neither takes slots nor gives them back. -/
theorem Ok.withSub {sub : SubmissionRun} (ok : s.Ok n) (subOk : sub.Ok n)
    (unnotified : sub.unnotified = s.sub.unnotified) (head : sub.sq.head = s.sub.sq.head)
    (consumed : sub.consumed = s.sub.consumed) : Ok n { s with sub } where
  sub := subOk
  length := by
    rw [unnotified]
    exact ok.length
  distinct := ok.distinct
  consumed := consumed.trans ok.consumed
  slots := by
    intro i id member
    rw [inFlight, unnotified] at member
    exact ok.slots i id member
  started := ok.started
  fresh := ok.fresh
  entries := by
    intro i id entry
    rw [inFlight, unnotified, head]
    exact ok.entries i id entry

theorem sub_quiet {sub next : SubmissionRun} {a : SubmissionStep} (run : sub.step a = some next)
    (quiet : a ≠ .nextSubmission ∧ a ≠ .nextCompletion ∧ a ≠ .notify) :
    next.unnotified = sub.unnotified ∧ next.sq.head = sub.sq.head ∧ next.consumed = sub.consumed := by
  cases a with
  | reserve =>
    obtain ⟨sq, taken, rfl⟩ := Option.map_eq_some_iff.mp run
    obtain ⟨-, rfl⟩ := BceQueueSq.decIfPositive_some taken
    exact ⟨rfl, rfl, rfl⟩
  | cancelReservation =>
    obtain ⟨-, after⟩ := Option.ite_none_right_eq_some.mp run
    cases after
    exact ⟨rfl, rfl, rfl⟩
  | deviceComplete status dataSize result =>
    obtain ⟨-, after⟩ := Option.ite_none_right_eq_some.mp run
    cases after
    exact ⟨rfl, rfl, rfl⟩
  | harvest =>
    simp only [SubmissionRun.step] at run
    split at run
    · cases run
    · rename_i e rest _
      by_cases same : sub.sq.completionTail = e.completionIndex
      · rw [BceQueueSq.acceptCompletion_of_index same] at run
        cases Option.some.inj run
        exact ⟨rfl, rfl, rfl⟩
      · rw [BceQueueSq.acceptCompletion, if_pos same] at run
        cases Option.some.inj run
        exact ⟨rfl, rfl, rfl⟩
  | nextSubmission => exact absurd rfl quiet.1
  | nextCompletion => exact absurd rfl quiet.2.1
  | notify => exact absurd rfl quiet.2.2

/-- A call that goes on and leaves the slots and `tres` alone. -/
theorem Ok.setCall {call : CmdCall} (ok : s.Ok n) (slot : call.el.slot = (s.calls id).el.slot)
    (started : id ∈ s.owners → call.phase ≠ .starting ∧ call.phase ≠ .reserved)
    (fresh : call.phase = .starting ∨ call.phase = .reserved → call.el.cmpl = false)
    (entries : ∀ i, s.tres i = some id →
      ((call.phase = .waiting ∨ call.phase = .expired) ∧ call.el.cmpl = false) ∨
        (s.handler = some true ∧ i = s.sub.sq.head ∧ call.el.cmpl)) : (s.setCall id call).Ok n where
  sub := ok.sub
  length := ok.length
  distinct := ok.distinct
  consumed := ok.consumed
  slots := by
    intro i other member
    by_cases same : other = id
    · rw [same] at member ⊢
      rw [setCall_self, slot]
      exact ok.slots i id member
    · rw [setCall_other call same]
      exact ok.slots i other member
  started := by
    intro other member
    by_cases same : other = id
    · rw [same] at member ⊢
      rw [setCall_self]
      exact started member
    · rw [setCall_other call same]
      exact ok.started other member
  fresh := by
    intro other
    by_cases same : other = id
    · rw [same, setCall_self]
      exact fresh
    · rw [setCall_other call same]
      exact ok.fresh other
  entries := by
    intro i other entry
    obtain ⟨member, held⟩ := ok.entries i other entry
    refine ⟨member, ?_⟩
    by_cases same : other = id
    · rw [same] at entry ⊢
      rw [setCall_self]
      exact entries i entry
    · rw [setCall_other call same]
      exact held

/-- No entry belongs to a call that has been woken, unless the handler is at it. -/
theorem Ok.entry_phase (ok : s.Ok n) {i : Nat} (entry : s.tres i = some id)
    (idle : (s.calls id).el.cmpl = false) :
    (s.calls id).phase = .waiting ∨ (s.calls id).phase = .expired := by
  rcases (ok.entries i id entry).2 with held | ⟨-, -, done⟩
  · exact held.1
  · rw [idle] at done
    cases done

/-- A call that has its reservation only has nothing submitted. -/
theorem Ok.not_owner (ok : s.Ok n) (phase : (s.calls id).phase = .reserved) : id ∉ s.owners :=
  fun member => (ok.started id member).2 phase

theorem Ok.flight_submit (ok : s.Ok n) (slot id : Nat) :
    (s.sub.unnotified ++ [slot]).zip (s.owners ++ [id]) = s.inFlight ++ [(slot, id)] := by
  rw [List.zip_append ok.length.symm]
  rfl

theorem Ok.submit {sub : SubmissionRun} (ok : s.Ok n) (phase : (s.calls id).phase = .reserved)
    (taken : s.sub.step .nextSubmission = some sub) :
    Ok n ({ s with
      sub
      tres := Function.update s.tres s.sub.sq.tail (some id)
      owners := s.owners ++ [id] }.setCall id
        { phase := .waiting, el := { (s.calls id).el with slot := s.sub.sq.tail } }) := by
  have subOk := ok.sub.step taken
  obtain ⟨-, after⟩ := Option.ite_none_right_eq_some.mp taken
  cases after
  have absent := ok.not_owner phase
  have flight := ok.flight_submit s.sub.sq.tail id
  have apart : ∀ {i other}, (i, other) ∈ s.inFlight → other ≠ id := by
    intro i other member same
    rw [same] at member
    exact absent (mem_owners member)
  refine ⟨subOk, ?_, ?_, ok.consumed, ?_, ?_, ?_, ?_⟩
  · show (s.owners ++ [id]).length = (s.sub.unnotified ++ [s.sub.sq.tail]).length
    rw [List.length_append, List.length_append, ok.length]
    rfl
  · refine List.nodup_append.mpr ⟨ok.distinct, List.nodup_singleton _, ?_⟩
    rintro other member _ new rfl
    rw [List.mem_singleton.mp new] at member
    exact absent member
  · intro i other member
    have member : (i, other) ∈ s.inFlight ++ [(s.sub.sq.tail, id)] := flight ▸ member
    rcases List.mem_append.mp member with old | new
    · rw [setCall_other _ (apart old)]
      exact ok.slots i other old
    · cases List.mem_singleton.mp new
      rw [setCall_self]
  · intro other member
    by_cases same : other = id
    · rw [same, setCall_self]
      exact ⟨nofun, nofun⟩
    · rw [setCall_other _ same]
      rcases List.mem_append.mp member with old | new
      · exact ok.started other old
      · exact absurd (List.mem_singleton.mp new) same
  · intro other
    by_cases same : other = id
    · rw [same, setCall_self]
      rintro (new | new) <;> cases new
    · rw [setCall_other _ same]
      exact ok.fresh other
  · intro i other entry
    have entry : Function.update s.tres s.sub.sq.tail (some id) i = some other := entry
    show (i, other) ∈ (s.sub.unnotified ++ [s.sub.sq.tail]).zip (s.owners ++ [id]) ∧ _
    rw [flight]
    by_cases here : i = s.sub.sq.tail
    · rw [here, Function.update_self] at entry
      cases Option.some.inj entry
      rw [setCall_self, here]
      exact ⟨by simp, .inl ⟨.inl rfl, ok.fresh id (.inr phase)⟩⟩
    · rw [Function.update_of_ne here] at entry
      obtain ⟨old, held⟩ := ok.entries i other entry
      rw [setCall_other _ (apart old)]
      exact ⟨List.mem_append_left _ old, held⟩

/-- The handler writes to the call whose submission occupies the slot. -/
theorem Ok.deliver {sub : SubmissionRun} {c : BceSqCompletionData} {sq : BceQueueSq} (ok : s.Ok n)
    (between : s.handler = some false) (read : s.sub.sq.nextCompletion = some (c, sq))
    (taken : s.sub.step .nextCompletion = some sub) (handled : List (Nat × BceSqCompletionData)) :
    Ok n ({ s with sub, handler := some true, handled }.write (s.tres s.sub.sq.head) c) := by
  have subOk := ok.sub.step taken
  rw [SubmissionRun.step, read] at taken
  cases Option.some.inj taken
  obtain ⟨-, -, rfl⟩ := BceQueueSq.nextCompletion_some read
  have consumed : s.sub.consumed = 0 := by
    rw [ok.consumed, between]
    rfl
  have idle : ∀ {i other}, s.tres i = some other → (s.calls other).el.cmpl = false := by
    intro i other entry
    rcases (ok.entries i other entry).2 with held | ⟨handler, -⟩
    · exact held.2
    · rw [between] at handler
      cases handler
  have base : ∀ i other, s.tres i = some other → (i, other) ∈ s.inFlight ∧
      ((s.calls other).phase = .waiting ∨ (s.calls other).phase = .expired) ∧
        (s.calls other).el.cmpl = false := by
    intro i other entry
    exact ⟨(ok.entries i other entry).1, ok.entry_phase entry (idle entry), idle entry⟩
  cases entry : s.tres s.sub.sq.head with
  | none =>
    refine ⟨subOk, ok.length, ok.distinct, ?_, ok.slots, ok.started, ok.fresh, ?_⟩
    · show s.sub.consumed + 1 = _
      rw [consumed]
      rfl
    · intro i other held
      obtain ⟨member, phase⟩ := base i other held
      exact ⟨member, .inl phase⟩
  | some id =>
    obtain ⟨member, phase, -⟩ := base _ _ entry
    refine ⟨subOk, ok.length, ok.distinct, ?_, ?_, ?_, ?_, ?_⟩
    · show s.sub.consumed + 1 = _
      rw [consumed]
      rfl
    · intro i other here
      have slot := ok.slots i other here
      simp only [write]
      by_cases same : other = id
      · rw [same] at slot ⊢
        rw [setCall_self]
        exact slot
      · rw [setCall_other _ same]
        exact slot
    · intro other here
      have started := ok.started other here
      simp only [write]
      by_cases same : other = id
      · rw [same] at started ⊢
        rw [setCall_self]
        exact started
      · rw [setCall_other _ same]
        exact started
    · intro other
      simp only [write]
      by_cases same : other = id
      · rw [same, setCall_self]
        intro early
        rcases early with early | early <;> rcases phase with late | late <;>
          cases early.symm.trans late
      · rw [setCall_other _ same]
        exact ok.fresh other
    · intro i other held
      obtain ⟨there, held⟩ := base i other held
      refine ⟨there, ?_⟩
      simp only [write]
      by_cases same : other = id
      · rw [same] at there ⊢
        rw [setCall_self]
        exact .inr ⟨rfl, ok.same_slot there member, rfl⟩
      · rw [setCall_other _ same]
        exact .inl held

theorem Ok.clear {sub : SubmissionRun} (ok : s.Ok n) (delivering : s.handler = some true)
    (notified : s.sub.step .notify = some sub) :
    Ok n { s with
      sub
      tres := Function.update s.tres s.sub.sq.head none
      handler := some false
      owners := s.owners.tail } := by
  have subOk := ok.sub.step notified
  obtain ⟨taken, after⟩ := Option.ite_none_right_eq_some.mp notified
  cases after
  obtain ⟨owner, rest, owners, unnotified, held, flight⟩ := ok.oldest taken
  have later : ∀ {i other}, (i, other) ∈ s.sub.unnotified.tail.zip s.owners.tail → (i, other) ∈ s.inFlight := by
    intro i other member
    rw [unnotified, held] at member
    rw [flight]
    exact List.mem_cons_of_mem _ member
  refine ⟨subOk, ?_, ?_, ?_, ?_, ?_, ok.fresh, ?_⟩
  · show s.owners.tail.length = s.sub.unnotified.tail.length
    rw [List.length_tail, List.length_tail, ok.length]
  · exact ok.distinct.tail
  · show s.sub.consumed - 1 = _
    rw [ok.consumed, delivering]
    rfl
  · exact fun i other member => ok.slots i other (later member)
  · exact fun other member => ok.started other (List.mem_of_mem_tail member)
  · intro i other entry
    have entry : Function.update s.tres s.sub.sq.head none i = some other := entry
    by_cases here : i = s.sub.sq.head
    · rw [here, Function.update_self] at entry
      cases entry
    · rw [Function.update_of_ne here] at entry
      obtain ⟨member, phase⟩ := ok.entries i other entry
      refine ⟨?_, .inl ?_⟩
      · show (i, other) ∈ s.sub.unnotified.tail.zip s.owners.tail
        rw [flight] at member
        rw [unnotified, held]
        rcases List.mem_cons.mp member with first | later
        · cases first
          exact absurd rfl here
        · exact later
      · rcases phase with phase | ⟨-, head, -⟩
        · exact phase
        · exact absurd head here

/-- The clean-up clears the entry of the slot, whose ever it is. -/
theorem Ok.cleanUp (ok : s.Ok n) (id : Nat) :
    Ok n ({ s with tres := Function.update s.tres (s.calls id).el.slot none }.setCall id
      { s.calls id with phase := .returned none }) := by
  have cleared : Ok n { s with tres := Function.update s.tres (s.calls id).el.slot none } := by
    refine ⟨ok.sub, ok.length, ok.distinct, ok.consumed, ok.slots, ok.started, ok.fresh, ?_⟩
    intro i other entry
    have entry : Function.update s.tres (s.calls id).el.slot none i = some other := entry
    by_cases here : i = (s.calls id).el.slot
    · rw [here, Function.update_self] at entry
      cases entry
    · rw [Function.update_of_ne here] at entry
      exact ok.entries i other entry
  refine cleared.setCall rfl (fun _ => ⟨nofun, nofun⟩) ?_ ?_
  · rintro (new | new) <;> cases new
  · intro i entry
    have entry : Function.update s.tres (s.calls id).el.slot none i = some id := entry
    by_cases here : i = (s.calls id).el.slot
    · rw [here, Function.update_self] at entry
      cases entry
    · rw [Function.update_of_ne here] at entry
      exact absurd (ok.slots i id (ok.entries i id entry).1).symm here

theorem Ok.step {a : CmdqStep} (ok : s.Ok n) (run : s.step a = some t) : t.Ok n := by
  cases a with
  | reserve id =>
    obtain ⟨phase, run⟩ := Option.ite_none_right_eq_some.mp run
    obtain ⟨sub, taken, rfl⟩ := Option.map_eq_some_iff.mp run
    obtain ⟨unnotified, head, consumed⟩ := sub_quiet taken ⟨nofun, nofun, nofun⟩
    have moved := ok.withSub (ok.sub.step taken) unnotified head consumed
    refine moved.setCall rfl ?_ (fun _ => ok.fresh id (.inl phase)) ?_
    · exact fun member => absurd phase (ok.started id member).1
    · intro i entry
      exact absurd phase (ok.started id (mem_owners (ok.entries i id entry).1)).1
  | giveUp id =>
    obtain ⟨phase, run⟩ := Option.ite_none_right_eq_some.mp run
    cases Option.some.inj run
    refine ok.setCall rfl (fun _ => ⟨nofun, nofun⟩) ?_ ?_
    · rintro (new | new) <;> cases new
    · intro i entry
      exact absurd phase (ok.started id (mem_owners (ok.entries i id entry).1)).1
  | submit id =>
    obtain ⟨⟨-, phase⟩, run⟩ := Option.ite_none_right_eq_some.mp run
    obtain ⟨sub, taken, rfl⟩ := Option.map_eq_some_iff.mp run
    exact ok.submit phase taken
  | deviceComplete status dataSize result =>
    obtain ⟨sub, taken, rfl⟩ := Option.map_eq_some_iff.mp run
    obtain ⟨unnotified, head, consumed⟩ := sub_quiet taken ⟨nofun, nofun, nofun⟩
    exact ok.withSub (ok.sub.step taken) unnotified head consumed
  | harvest =>
    obtain ⟨sub, taken, rfl⟩ := Option.map_eq_some_iff.mp run
    obtain ⟨unnotified, head, consumed⟩ := sub_quiet taken ⟨nofun, nofun, nofun⟩
    exact ok.withSub (ok.sub.step taken) unnotified head consumed
  | lock =>
    obtain ⟨free, run⟩ := Option.ite_none_right_eq_some.mp run
    cases Option.some.inj run
    refine ⟨ok.sub, ok.length, ok.distinct, ?_, ok.slots, ok.started, ok.fresh, ?_⟩
    · rw [ok.consumed, free]
      rfl
    · intro i id entry
      obtain ⟨member, held | ⟨handler, -⟩⟩ := ok.entries i id entry
      · exact ⟨member, .inl held⟩
      · rw [free] at handler
        cases handler
  | unlock =>
    obtain ⟨⟨between, -⟩, run⟩ := Option.ite_none_right_eq_some.mp run
    cases Option.some.inj run
    refine ⟨ok.sub, ok.length, ok.distinct, ?_, ok.slots, ok.started, ok.fresh, ?_⟩
    · rw [ok.consumed, between]
      rfl
    · intro i id entry
      obtain ⟨member, held | ⟨handler, -⟩⟩ := ok.entries i id entry
      · exact ⟨member, .inl held⟩
      · rw [between] at handler
        cases handler
  | deliver =>
    obtain ⟨between, run⟩ := Option.ite_none_right_eq_some.mp run
    split at run
    · rename_i c sq sub read taken
      cases Option.some.inj run
      exact ok.deliver between read taken _
    · cases run
  | clear =>
    obtain ⟨delivering, run⟩ := Option.ite_none_right_eq_some.mp run
    obtain ⟨sub, notified, rfl⟩ := Option.map_eq_some_iff.mp run
    exact ok.clear delivering notified
  | wake id =>
    obtain ⟨⟨phase, done⟩, run⟩ := Option.ite_none_right_eq_some.mp run
    cases Option.some.inj run
    refine ok.setCall rfl (fun _ => ⟨nofun, nofun⟩) ?_ ?_
    · rintro (new | new) <;> cases new
    · intro i entry
      rcases (ok.entries i id entry).2 with ⟨-, idle⟩ | held
      · rw [done] at idle
        cases idle
      · exact .inr held
  | expire id =>
    obtain ⟨⟨phase, idle⟩, run⟩ := Option.ite_none_right_eq_some.mp run
    cases Option.some.inj run
    refine ok.setCall rfl (fun _ => ⟨nofun, nofun⟩) (fun _ => idle) ?_
    exact fun i entry => .inl ⟨.inr rfl, idle⟩
  | cleanUp id =>
    obtain ⟨-, run⟩ := Option.ite_none_right_eq_some.mp run
    cases Option.some.inj run
    exact ok.cleanUp id

end CmdqRun

/-- All uses of a command queue of `n` slots. -/
def cmdqMachine (n : Nat) : Machine CmdqRun CmdqStep where
  init s := s = CmdqRun.alloc n
  step := CmdqRun.step

theorem cmdq_ok {n : Nat} (large : 2 ≤ n) {s : CmdqRun} (reach : (cmdqMachine n).Reachable s) :
    s.Ok n := by
  refine reach.invariant ?_ (fun _ _ _ ok run => ok.step run)
  rintro _ rfl
  exact CmdqRun.ok_alloc large

end AppleBce

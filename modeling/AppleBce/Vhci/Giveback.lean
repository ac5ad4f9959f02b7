import AppleBce.Vhci.TransferRun
import Mathlib.Data.List.Perm.Basic

namespace AppleBce

open Basis

namespace TransferRun

variable {s t : TransferRun} {a : TransferStep}

/-- Where the URBs are that `bce_vhci_urb_create` accepted: linked, queued for give-back, left to
the flush worker, or given back. -/
def owners (s : TransferRun) : List Nat :=
  s.q.urbList.map BceVhciUrb.id ++ s.q.givebackUrbList.map Urb.id ++
    s.q.flushGivebackList.map Urb.id ++ s.given.map Urb.id

theorem owners_eq (s : TransferRun) : s.owners =
    s.q.heldIds ++ s.q.flushGivebackList.map Urb.id ++ s.given.map Urb.id := rfl

/-- Every accepted URB has one place, and no refused one was accepted. -/
structure Owned (s : TransferRun) : Prop where
  owners : s.owners.Perm s.accepted
  accepted : s.accepted.Nodup
  rejected : ∀ id ∈ s.rejected, id ∉ s.accepted

/-- The URBs stay where they are, or move between the linked ones and the give-back list. -/
theorem owners_perm_of_held {t : TransferRun} (held : t.q.heldIds.Perm s.q.heldIds)
    (flush : t.q.flushGivebackList = s.q.flushGivebackList) (given : t.given = s.given) :
    t.owners.Perm s.owners := by
  rw [owners_eq, owners_eq, flush, given]
  exact (held.append_right _).append_right _

theorem owned_of_perm {t : TransferRun} (owned : s.Owned) (perm : t.owners.Perm s.owners)
    (accepted : t.accepted = s.accepted) (rejected : t.rejected = s.rejected) : t.Owned where
  owners := by
    rw [accepted]
    exact perm.trans owned.owners
  accepted := by
    rw [accepted]
    exact owned.accepted
  rejected := by
    rw [accepted, rejected]
    exact owned.rejected

theorem create_owned {urb : Urb} {allocated : Bool} {link : Option Errno} (owned : s.Owned)
    (fresh : urb.id ∉ s.accepted) (unused : urb.id ∉ s.rejected) :
    (s.created urb.id (s.q.urbCreate urb allocated link)).Owned := by
  rcases s.q.urbCreate_cases urb allocated link with ⟨e, failed, kept⟩ | ⟨accepted, kept⟩
  · have run : s.created urb.id (s.q.urbCreate urb allocated link) =
        { s with q := (s.q.urbCreate urb allocated link).2, rejected := s.rejected ++ [urb.id] } := by
      rw [created, failed]
    rw [run]
    refine ⟨?_, owned.accepted, ?_⟩
    · refine List.Perm.trans ?_ owned.owners
      exact owners_perm_of_held kept.owners kept.flushGivebackList rfl
    · intro id member
      rcases List.mem_append.mp member with old | new
      · exact owned.rejected id old
      · rw [List.mem_singleton.mp new]
        exact fresh
  · have run : s.created urb.id (s.q.urbCreate urb allocated link) =
        { s with q := (s.q.urbCreate urb allocated link).2, accepted := s.accepted ++ [urb.id] } := by
      rw [created, accepted]
    rw [run]
    refine ⟨?_, ?_, ?_⟩
    · rw [List.perm_iff_count]
      intro id
      have held := kept.owners.count_eq id
      have before := owned.owners.count_eq id
      simp only [owners, BceVhciTransferQueue.heldIds, kept.flushGivebackList, List.count_append,
        List.map_append, List.map_cons, List.map_nil, BceVhciTransferQueue.newUrb,
        BceVhciUrb.id] at held before ⊢
      omega
    · rw [List.nodup_append]
      refine ⟨owned.accepted, List.nodup_singleton _, ?_⟩
      rintro id member _ new rfl
      rw [List.mem_singleton.mp new] at member
      exact fresh member
    · intro id member new
      rcases List.mem_append.mp new with old | here
      · exact owned.rejected id member old
      · rw [List.mem_singleton.mp here] at member
        exact unused member

theorem cancel_owned {id : Nat} {status : Int} (owned : s.Owned) :
    (s.afterCancel id (s.q.urbRequestCancel id status)).Owned := by
  rcases s.q.urbRequestCancel_cases id status with ⟨e, run⟩ | run | ⟨before, vurb, after, linked, here, cases⟩
  · rw [run]
    exact owned
  · rw [run]
    exact owned
  · obtain ⟨flush, giveback, -⟩ := s.q.cancelSlot_frame vurb
    have place := owned.owners
    rcases cases with ⟨run, -⟩ | run
    · rw [run]
      refine owned_of_perm owned ?_ rfl rfl
      rw [List.perm_iff_count]
      intro id
      simp only [afterCancel, owners, BceVhciTransferQueue.unlinked, flush, giveback, linked,
        List.map_append, List.map_cons, List.map_nil, List.count_append, List.count_cons,
        List.count_nil, BceVhciUrb.id]
      omega
    · rw [run]
      refine owned_of_perm owned ?_ rfl rfl
      rw [List.perm_iff_count]
      intro id
      simp only [afterCancel, owners, BceVhciTransferQueue.unlinked, giveback, linked,
        List.map_append, List.map_cons, List.map_nil, List.count_append, List.count_cons,
        List.count_nil, BceVhciUrb.id]
      omega

theorem opStep_owned {op : TransferOp} (owned : s.Owned) (run : s.opStep op = some t) : t.Owned := by
  cases op with
  | create urb allocated link =>
    obtain ⟨⟨-, fresh, unused, -⟩, after⟩ := Option.ite_none_right_eq_some.mp run
    cases after
    exact create_owned owned fresh unused
  | cancel id status =>
    obtain ⟨-, after⟩ := Option.ite_none_right_eq_some.mp run
    cases after
    exact cancel_owned owned
  | event msg allocated =>
    obtain ⟨-, after⟩ := Option.ite_none_right_eq_some.mp run
    cases after
    have kept := s.q.event_conserves msg allocated
    exact owned_of_perm owned (owners_perm_of_held kept.owners kept.flushGivebackList rfl) rfl rfl
  | completion out c =>
    obtain ⟨-, after⟩ := Option.ite_none_right_eq_some.mp run
    cases after
    have kept := s.q.completion_balanced out c
    exact owned_of_perm owned (owners_perm_of_held kept.owners kept.flushGivebackList rfl) rfl rfl
  | completionEnd =>
    cases Option.some.inj run
    have kept := s.q.deliverPending_conserves
    exact owned_of_perm owned (owners_perm_of_held kept.owners kept.flushGivebackList rfl) rfl rfl

theorem step_owned (owned : s.Owned) (run : s.step a = some t) : t.Owned := by
  cases step_effect run with
  | op op _ run => exact opStep_owned owned run
  | giveback urb rest _ first _ after =>
    subst after
    refine owned_of_perm owned ?_ rfl rfl
    rw [List.perm_iff_count]
    intro id
    simp only [owners, first, List.map_append, List.map_cons, List.map_nil, List.count_append,
      List.count_cons, List.count_nil]
    omega
  | resumed _ onWorker src _ _ _ after =>
    subst after
    have kept := s.q.resumeSection_conserves
    exact owned_of_perm owned (owners_perm_of_held kept.owners kept.flushGivebackList rfl) rfl rfl
  | flushed _ _ _ _ after | spliced _ _ _ after =>
    subst after
    refine owned_of_perm owned ?_ rfl rfl
    rw [List.perm_iff_count]
    intro id
    simp only [owners, BceVhciTransferQueue.flushSection, BceVhciTransferQueue.destroySplice,
      List.map_append, List.map_nil, List.count_append, List.count_nil]
    omega
  | cancelledAll _ _ after =>
    subst after
    have kept := s.q.cancelAll_conserves
    exact owned_of_perm owned (owners_perm_of_held kept.owners kept.flushGivebackList rfl) rfl rfl
  | quiet same logs =>
    refine owned_of_perm owned ?_ logs.accepted logs.rejected
    rw [owners, same.urbList, same.givebackUrbList, same.flushGivebackList, logs.given]
    exact .refl _

/-- What a call that holds `pause_lock` does to the rest: it goes on at a stage, or it is done
and the worker goes on behind it. -/
structure Locks (s t : TransferRun) (onWorker : Bool) : Prop where
  item : t.item = s.item
  cancels : t.cancels = s.cancels
  teardown : t.teardown = s.teardown
  wFlush : t.q.wFlush = s.q.wFlush
  flushGivebackList : t.q.flushGivebackList = s.q.flushGivebackList
  passes : (t.holder = none ∧ t.worker = if onWorker then s.worker.tail else s.worker) ∨
    ∃ stage, t.holder = some (onWorker, stage) ∧ t.worker = s.worker

theorem locks_release {q : BceVhciTransferQueue} {onWorker : Bool} (wFlush : q.wFlush = s.q.wFlush)
    (flush : q.flushGivebackList = s.q.flushGivebackList) :
    s.Locks ({ s with q }.release onWorker) onWorker :=
  ⟨rfl, rfl, rfl, wFlush, flush, .inl ⟨rfl, rfl⟩⟩

theorem locks_goto {q : BceVhciTransferQueue} {onWorker : Bool} {stage : PauseStage}
    (wFlush : q.wFlush = s.q.wFlush) (flush : q.flushGivebackList = s.q.flushGivebackList) :
    s.Locks ({ s with q }.goto onWorker stage) onWorker :=
  ⟨rfl, rfl, rfl, wFlush, flush, .inr ⟨stage, rfl, rfl⟩⟩

/-- Apart from a reset worker that finds the queue not stalled and has nothing left to do. -/
theorem lockStep_locks {onWorker : Bool} {call : PauseCall} (run : s.lockStep onWorker call = some t) :
    s.Locks t onWorker ∨ call = .reset ∧ t = { s with worker := [] } := by
  cases call with
  | pause src =>
    left
    simp only [lockStep] at run
    split at run
    · cases Option.some.inj run
      exact locks_release rfl rfl
    · split at run
      · cases Option.some.inj run
        exact locks_release rfl rfl
      · obtain ⟨-, after⟩ := Option.ite_none_right_eq_some.mp run
        cases after
        exact locks_goto rfl rfl
  | resume src =>
    left
    simp only [lockStep] at run
    split at run
    · cases Option.some.inj run
      exact locks_release rfl rfl
    · split at run
      · cases Option.some.inj run
        exact locks_release rfl rfl
      · cases Option.some.inj run
        exact locks_goto rfl rfl
  | reset =>
    simp only [lockStep] at run
    split at run
    · cases run
    · split at run
      · exact .inr ⟨rfl, (Option.some.inj run).symm⟩
      · cases Option.some.inj run
        exact .inl (locks_goto rfl rfl)
  | suspend =>
    left
    simp only [lockStep] at run
    split at run
    · cases Option.some.inj run
      exact locks_release rfl rfl
    · obtain ⟨-, after⟩ := Option.ite_none_right_eq_some.mp run
      cases after
      exact locks_goto rfl rfl

theorem setStateAnswered_flush (q : BceVhciTransferQueue) (env : PauseEnv) :
    (q.setStateAnswered env).wFlush = q.wFlush ∧
      (q.setStateAnswered env).flushGivebackList = q.flushGivebackList := by
  unfold BceVhciTransferQueue.setStateAnswered
  split <;> exact ⟨rfl, rfl⟩

theorem advanceStep_locks {onWorker : Bool} {env : PauseEnv} {stage : PauseStage}
    (run : s.advanceStep onWorker env stage = some t) : s.Locks t onWorker := by
  obtain ⟨answeredFlush, answeredList⟩ := setStateAnswered_flush s.q env
  cases stage with
  | resumeSection src =>
    obtain ⟨-, after⟩ := Option.ite_none_right_eq_some.mp run
    cases after
    exact locks_goto s.q.resumeSection_conserves.wFlush s.q.resumeSection_conserves.flushGivebackList
  | removePending src | resetRemove =>
    obtain ⟨-, after⟩ := Option.ite_none_right_eq_some.mp run
    cases after
    exact locks_goto rfl rfl
  | resetEnd =>
    obtain ⟨-, after⟩ := Option.ite_none_right_eq_some.mp run
    cases after
    exact locks_release rfl rfl
  | pauseCommand src =>
    simp only [advanceStep] at run
    split at run <;> cases Option.some.inj run
    · exact locks_goto rfl rfl
    · exact locks_goto answeredFlush answeredList
  | resumeCommand src =>
    simp only [advanceStep] at run
    split at run <;> cases Option.some.inj run
    · exact locks_release answeredFlush answeredList
    · exact locks_goto answeredFlush answeredList
  | pauseCheck src status | resumeCheck src =>
    simp only [advanceStep] at run
    split at run <;> cases Option.some.inj run
    · exact locks_release rfl rfl
    · exact locks_goto rfl rfl
  | suspendCommand =>
    cases Option.some.inj run
    exact locks_goto answeredFlush answeredList
  | pauseSet src | resumeClear src | suspendSet =>
    cases Option.some.inj run
    exact locks_release rfl rfl
  | resetMark =>
    cases Option.some.inj run
    exact locks_goto rfl rfl

/-- The worker has still to run the section that empties the list of the flush worker. -/
def FlushAhead (s : TransferRun) : Prop :=
  WorkCall.flushSection ∈ s.worker

/-- The worker follows the program of its item, and what is left to the flush worker will be
taken from there. -/
structure Flushing (s : TransferRun) : Prop where
  program : s.worker <:+ s.item.program
  held : ∀ stage, s.holder = some (true, stage) → ∃ call rest, s.worker = .lock call :: rest
  flush : s.q.flushGivebackList ≠ [] →
    0 < s.cancels ∨ s.q.wFlush ∨ s.FlushAhead ∨ s.teardown = .flushCancelled

/-- The reset worker never comes to the section of the flush worker. -/
theorem reset_program {item : WorkItem} {rest : List WorkCall}
    (program : WorkCall.lock .reset :: rest <:+ item.program) :
    WorkCall.flushSection ∉ WorkCall.lock .reset :: rest := by
  cases item <;> simp [WorkItem.program, List.suffix_cons_iff] at program ⊢
  rw [program]
  decide

theorem flushing_of_locks {onWorker : Bool} (flushing : s.Flushing) (locks : s.Locks t onWorker)
    (ahead : onWorker → ∃ call rest, s.worker = .lock call :: rest) : t.Flushing := by
  have tail : s.FlushAhead → onWorker → WorkCall.flushSection ∈ s.worker.tail := by
    intro member here
    obtain ⟨call, rest, head⟩ := ahead here
    rw [FlushAhead, head, List.mem_cons] at member
    rw [head]
    exact member.resolve_left nofun
  have still : s.FlushAhead → t.FlushAhead := by
    intro member
    rcases locks.passes with ⟨-, worker⟩ | ⟨-, -, worker⟩
    · rw [FlushAhead, worker]
      split
      · exact tail member ‹_›
      · exact member
    · rw [FlushAhead, worker]
      exact member
  refine ⟨?_, ?_, ?_⟩
  · rw [locks.item]
    rcases locks.passes with ⟨-, worker⟩ | ⟨-, -, worker⟩
    · rw [worker]
      split
      · exact (List.tail_suffix _).trans flushing.program
      · exact flushing.program
    · rw [worker]
      exact flushing.program
  · intro stage held
    rcases locks.passes with ⟨released, -⟩ | ⟨_, going, worker⟩
    · rw [released] at held
      cases held
    · rw [going] at held
      cases held
      rw [worker]
      exact ahead rfl
  · rw [locks.flushGivebackList, locks.cancels, locks.wFlush, locks.teardown]
    intro left
    rcases flushing.flush left with h | h | h | h
    · exact .inl h
    · exact .inr (.inl h)
    · exact .inr (.inr (.inl (still h)))
    · exact .inr (.inr (.inr h))

/-- A step that leaves the worker and the holder alone. -/
theorem flushing_of_same (flushing : s.Flushing) (holder : t.holder = s.holder) (item : t.item = s.item)
    (worker : t.worker = s.worker)
    (flush : t.q.flushGivebackList ≠ [] →
      0 < t.cancels ∨ t.q.wFlush ∨ s.FlushAhead ∨ t.teardown = .flushCancelled) : t.Flushing where
  program := by
    rw [worker, item]
    exact flushing.program
  held := by
    rw [holder, worker]
    exact flushing.held
  flush := by
    rw [FlushAhead, worker]
    exact flush

theorem opStep_flushing {op : TransferOp} (flushing : s.Flushing) (run : s.opStep op = some t) :
    t.Flushing := by
  cases op with
  | create urb allocated link =>
    obtain ⟨-, after⟩ := Option.ite_none_right_eq_some.mp run
    cases after
    have kept : (s.q.urbCreate urb allocated link).2.wFlush = s.q.wFlush ∧
        (s.q.urbCreate urb allocated link).2.flushGivebackList = s.q.flushGivebackList := by
      rcases s.q.urbCreate_cases urb allocated link with ⟨_, _, kept⟩ | ⟨_, kept⟩
      · exact ⟨kept.wFlush, kept.flushGivebackList⟩
      · exact ⟨kept.wFlush, kept.flushGivebackList⟩
    unfold created
    split
    all_goals
      refine flushing_of_same flushing rfl rfl rfl ?_
      rw [kept.1, kept.2]
      exact flushing.flush
  | cancel id status =>
    obtain ⟨-, after⟩ := Option.ite_none_right_eq_some.mp run
    cases after
    rcases s.q.urbRequestCancel_cases id status with ⟨e, run⟩ | run | ⟨before, vurb, after, -, -, cases⟩
    · rw [run]
      exact flushing
    · rw [run]
      exact flushing
    · obtain ⟨flush, -, -, -, wFlush⟩ := s.q.cancelSlot_frame vurb
      rcases cases with ⟨run, -⟩ | run
      · rw [run]
        refine flushing_of_same flushing rfl rfl rfl ?_
        simp only [afterCancel, BceVhciTransferQueue.unlinked, flush, wFlush]
        exact flushing.flush
      · rw [run]
        exact flushing_of_same flushing rfl rfl rfl fun _ => .inl (Nat.succ_pos _)
  | event msg allocated =>
    obtain ⟨-, after⟩ := Option.ite_none_right_eq_some.mp run
    cases after
    have kept := s.q.event_conserves msg allocated
    refine flushing_of_same flushing rfl rfl rfl ?_
    rw [kept.flushGivebackList, kept.wFlush]
    exact flushing.flush
  | completion out c =>
    obtain ⟨-, after⟩ := Option.ite_none_right_eq_some.mp run
    cases after
    have kept := s.q.completion_balanced out c
    refine flushing_of_same flushing rfl rfl rfl ?_
    rw [kept.flushGivebackList, kept.wFlush]
    exact flushing.flush
  | completionEnd =>
    cases Option.some.inj run
    have kept := s.q.deliverPending_conserves
    refine flushing_of_same flushing rfl rfl rfl ?_
    rw [kept.flushGivebackList, kept.wFlush]
    exact flushing.flush

theorem startWork_flushing {item : WorkItem} (flushing : s.Flushing) (run : s.startWork item = some t) :
    t.Flushing := by
  unfold startWork at run
  simp only at run
  split at run
  · cases run
  · rename_i busy
    have idle : s.worker = [] := not_not.mp busy
    have noHolder : ∀ stage, s.holder ≠ some (true, stage) := by
      intro stage held
      obtain ⟨_, _, head⟩ := flushing.held stage held
      rw [idle] at head
      cases head
    have left : s.q.flushGivebackList ≠ [] →
        0 < s.cancels ∨ s.q.wFlush ∨ s.teardown = .flushCancelled := by
      intro left
      have queued := flushing.flush left
      rw [FlushAhead, idle] at queued
      simpa using queued
    cases item with
    | flush =>
      obtain ⟨-, after⟩ := Option.ite_none_right_eq_some.mp run
      cases after
      refine ⟨List.suffix_rfl, fun stage held => absurd held (noHolder stage), ?_⟩
      intro _
      exact .inr (.inr (.inl (by simp [FlushAhead, WorkItem.program])))
    | reset | resume =>
      obtain ⟨-, after⟩ := Option.ite_none_right_eq_some.mp run
      cases after
      refine ⟨List.suffix_rfl, fun stage held => absurd held (noHolder stage), ?_⟩
      intro nonempty
      rcases left nonempty with h | h | h
      · exact .inl h
      · exact .inr (.inl h)
      · exact .inr (.inr (.inr h))
    | firmwareResume | firmwarePause | firmwareStall =>
      cases Option.some.inj run
      refine ⟨List.suffix_rfl, fun stage held => absurd held (noHolder stage), ?_⟩
      intro nonempty
      rcases left nonempty with h | h | h
      · exact .inl h
      · exact .inr (.inl h)
      · exact .inr (.inr (.inr h))

/-- The worker goes on behind a section without a lock. -/
theorem flushing_of_section {call : WorkCall} {rest : List WorkCall} (flushing : s.Flushing)
    (ahead : s.worker = call :: rest) (unlocked : ∀ lock, call ≠ .lock lock)
    (holder : t.holder = s.holder) (item : t.item = s.item) (worker : t.worker = rest)
    (flush : t.q.flushGivebackList ≠ [] →
      0 < t.cancels ∨ t.q.wFlush ∨ t.FlushAhead ∨ t.teardown = .flushCancelled) : t.Flushing where
  program := by
    have program := flushing.program
    rw [ahead] at program
    rw [worker, item]
    exact (List.suffix_cons call rest).trans program
  held := by
    intro stage held
    rw [holder] at held
    obtain ⟨lock, _, head⟩ := flushing.held stage held
    rw [ahead] at head
    cases head
    exact absurd rfl (unlocked lock)
  flush := flush

theorem workStep_flushing (flushing : s.Flushing) (run : s.workStep = some t) : t.Flushing := by
  unfold workStep at run
  split at run
  · cases run
  · rename_i call rest ahead
    obtain ⟨free, run⟩ := Option.ite_none_right_eq_some.mp run
    rcases lockStep_locks run with locks | ⟨rfl, rfl⟩
    · exact flushing_of_locks flushing locks fun _ => ⟨call, rest, ahead⟩
    · have program := flushing.program
      rw [ahead] at program
      refine ⟨List.nil_suffix, ?_, ?_⟩
      · intro stage held
        exact absurd (free.symm.trans held) nofun
      · intro nonempty
        have queued := flushing.flush nonempty
        rw [FlushAhead, ahead] at queued
        rcases queued with h | h | h | h
        · exact .inl h
        · exact .inr (.inl h)
        · exact absurd h (reset_program program)
        · exact .inr (.inr (.inr h))
  · rename_i rest ahead
    obtain ⟨-, after⟩ := Option.ite_none_right_eq_some.mp run
    cases after
    exact flushing_of_section flushing ahead nofun rfl rfl rfl fun nonempty => absurd rfl nonempty
  all_goals
    rename_i rest ahead
    have still : s.FlushAhead → WorkCall.flushSection ∈ rest := by
      intro member
      rw [FlushAhead, ahead, List.mem_cons] at member
      exact member.resolve_left nofun
    have queued : s.q.flushGivebackList ≠ [] → 0 < s.cancels ∨ s.q.wFlush ∨
        WorkCall.flushSection ∈ rest ∨ s.teardown = .flushCancelled := fun nonempty =>
      (flushing.flush nonempty).imp_right fun h => h.imp_right fun h => h.imp_left still
  · cases Option.some.inj run
    exact flushing_of_section flushing ahead nofun rfl rfl rfl queued
  · obtain ⟨-, after⟩ := Option.ite_none_right_eq_some.mp run
    cases after
    exact flushing_of_section flushing ahead nofun rfl rfl rfl queued
  · cases Option.some.inj run
    exact flushing_of_section flushing ahead nofun rfl rfl rfl queued

theorem destroyStep_flushing (flushing : s.Flushing) (run : s.destroyStep = some t) : t.Flushing := by
  unfold destroyStep at run
  split at run
  · rename_i stage
    obtain ⟨-, after⟩ := Option.ite_none_left_eq_some.mp run
    cases after
    refine flushing_of_same flushing rfl rfl rfl fun nonempty => ?_
    have queued := flushing.flush nonempty
    rw [stage] at queued
    simpa using queued
  · rename_i stage
    obtain ⟨-, after⟩ := Option.ite_none_left_eq_some.mp run
    cases after
    refine flushing_of_same flushing rfl rfl rfl fun nonempty => ?_
    have queued := flushing.flush nonempty
    rw [stage] at queued
    simpa using queued
  · obtain ⟨-, after⟩ := Option.ite_none_left_eq_some.mp run
    cases after
    exact flushing_of_same flushing rfl rfl rfl fun _ => .inr (.inr (.inr rfl))
  · obtain ⟨-, after⟩ := Option.ite_none_right_eq_some.mp run
    cases after
    exact flushing_of_same flushing rfl rfl rfl fun nonempty => absurd rfl nonempty
  · rename_i stage
    obtain ⟨-, after⟩ := Option.ite_none_right_eq_some.mp run
    cases after
    refine flushing_of_same flushing rfl rfl rfl fun nonempty => ?_
    have queued := flushing.flush nonempty
    rw [stage] at queued
    simpa [BceVhciTransferQueue.removePending] using queued
  · cases run

theorem step_flushing (flushing : s.Flushing) (run : s.step a = some t) : t.Flushing := by
  obtain ⟨-, run⟩ := Option.ite_none_left_eq_some.mp run
  cases a with
  | op op => exact opStep_flushing flushing run
  | giveback =>
    simp only at run
    split at run
    · cases run
    · obtain ⟨-, after⟩ := Option.ite_none_right_eq_some.mp run
      cases after
      exact flushing_of_same flushing rfl rfl rfl flushing.flush
  | queueFlush =>
    obtain ⟨-, after⟩ := Option.ite_none_right_eq_some.mp run
    cases after
    exact flushing_of_same flushing rfl rfl rfl fun _ => .inr (.inl rfl)
  | endpointReset =>
    cases Option.some.inj run
    exact flushing_of_same flushing rfl rfl rfl flushing.flush
  | cancelAll =>
    obtain ⟨-, after⟩ := Option.ite_none_right_eq_some.mp run
    cases after
    have kept := s.q.cancelAll_conserves
    refine flushing_of_same flushing rfl rfl rfl ?_
    rw [kept.flushGivebackList, kept.wFlush]
    exact flushing.flush
  | startWork item => exact startWork_flushing flushing run
  | work => exact workStep_flushing flushing run
  | lock call =>
    obtain ⟨⟨-, own⟩, run⟩ := Option.ite_none_right_eq_some.mp run
    rcases lockStep_locks run with locks | ⟨reset, -⟩
    · exact flushing_of_locks flushing locks nofun
    · exact absurd reset own
  | advance env =>
    simp only at run
    split at run
    · cases run
    · rename_i onWorker stage held
      refine flushing_of_locks flushing (advanceStep_locks run) ?_
      intro here
      rw [here] at held
      exact flushing.held stage held
  | destroy => exact destroyStep_flushing flushing run

theorem fresh_owned {endp : UsbEndpoint} {devAddr : BitVec 8} {dir : DmaDataDirection}
    {memory : TransferQueueMemory} {reservations : List Bool} {q : BceVhciTransferQueue}
    (create : bceVhciCreateTransferQueue endp devAddr dir memory reservations = some q) :
    (fresh q).Owned ∧ (fresh q).Flushing := by
  have unused := createTransferQueue_unused create
  refine ⟨⟨?_, List.nodup_nil, nofun⟩, ⟨List.nil_suffix, nofun, ?_⟩⟩
  · rw [owners, fresh, unused.urbList, unused.givebackUrbList, unused.flushGivebackList]
    exact .refl _
  · exact fun nonempty => absurd unused.flushGivebackList nonempty

theorem owned_of_reach (reach : machine.Reachable s) : s.Owned ∧ s.Flushing := by
  refine reach.invariant (I := fun s => s.Owned ∧ s.Flushing) ?_ ?_
  · rintro s ⟨endp, devAddr, memory, reservations, q, create, rfl⟩
    exact fresh_owned create
  · rintro s a t ⟨owned, flushing⟩ run
    exact ⟨step_owned owned run, step_flushing flushing run⟩

/-- Along every run each URB that `bce_vhci_urb_create` accepted is in exactly one place, is
given back at most once, and one that it refused is in none. What is left to the flush worker
will be taken from there: once no cancel is between its section and the queueing of the worker,
the worker is queued or comes to its section, or the teardown is about to take the list. -/
theorem urbs_given_back_once (reach : machine.Reachable s) :
    (∀ id ∈ s.accepted, s.owners.count id = 1) ∧ (s.given.map Urb.id).Nodup ∧
      (∀ id ∈ s.rejected, id ∉ s.owners) ∧
      (s.q.flushGivebackList ≠ [] → s.cancels = 0 →
        s.q.wFlush ∨ (s.running .flush ∧ s.FlushAhead) ∨ s.teardown = .flushCancelled) := by
  obtain ⟨owned, flushing⟩ := owned_of_reach reach
  have distinct : s.owners.Nodup := owned.owners.nodup_iff.mpr owned.accepted
  refine ⟨?_, ?_, ?_, ?_⟩
  · intro id member
    exact List.count_eq_one_of_mem distinct (owned.owners.mem_iff.mpr member)
  · exact (List.nodup_append.mp distinct).2.1
  · intro id refused held
    exact owned.rejected id refused (owned.owners.mem_iff.mp held)
  · intro left settled
    rcases flushing.flush left with h | h | h | h
    · omega
    · exact .inl h
    · refine .inr (.inl ⟨⟨List.ne_nil_of_mem h, ?_⟩, h⟩)
      have member := flushing.program.subset h
      revert member
      cases s.item <;> simp [WorkItem.program]
    · exact .inr (.inr h)

/-- Of two URBs in flight the first is cancelled and given back, the second as the last one is
left to the flush worker; a third was refused. -/
theorem urbs_given_back_once_flush : ∃ s, machine.Reachable s ∧ s.accepted = [1, 2] ∧
    s.rejected = [3] ∧ s.given.map Urb.id = [1] ∧ s.q.flushGivebackList.map Urb.id = [2] ∧
    s.owners.count 2 = 1 ∧ 3 ∉ s.owners ∧
    (s.q.wFlush ∨ (s.running .flush ∧ s.FlushAhead) ∨ s.teardown = .flushCancelled) := by
  have ran : (ranUnder (fun _ _ => True) bulkIn []
      [.op (.create (sampleUrb 1 true) true none), .op (.create (sampleUrb 2 true) true none),
        .op (.create (sampleUrb 3 true) true (some .shutdown)), .op (.cancel 1 Errno.connreset.neg),
        .op (.cancel 2 Errno.connreset.neg), .queueFlush]).map
      (fun s => (s.accepted, s.rejected, s.given.map Urb.id, s.q.flushGivebackList.map Urb.id,
        s.cancels)) = some ([1, 2], [3], [1], [2], 0) := by
    decide
  obtain ⟨s, reach, seen⟩ := reachableUnder_of_ran ran
  simp only [Prod.mk.injEq] at seen
  obtain ⟨accepted, rejected, given, flush, settled⟩ := seen
  obtain ⟨once, -, refused, left⟩ := urbs_given_back_once reach
  refine ⟨s, reach, accepted, rejected, given, flush, once 2 ?_, refused 3 ?_, left ?_ settled⟩
  · simp [accepted]
  · simp [rejected]
  · intro nothing
    rw [nothing] at flush
    cases flush

end TransferRun

end AppleBce

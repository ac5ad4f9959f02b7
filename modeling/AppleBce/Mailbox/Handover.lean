import AppleBce.Mailbox.Mailbox
import Mathlib.Data.List.Nodup

namespace AppleBce

open Basis

namespace MailboxRun

variable {s t : MailboxRun} {a : MailboxStep} {id other : Nat} {next : SendPhase}

def Returned (s : MailboxRun) (id : Nat) : Prop :=
  (∃ recv, s.phase id = .returned recv) ∨ ∃ e, s.phase id = .failed e

/-- Steps of the send alone lead to its return, with the mailbox free. -/
def CanReturn (s : MailboxRun) (id : Nat) : Prop :=
  ∃ as t, (∀ a ∈ as, a.of id) ∧ machine.run s as = some t ∧ t.Returned id ∧ t.mb.mbStatus = 0

/-- How many steps a send inside is from its reset. -/
def stepsLeft : SendPhase → Nat
  | .claimed => 5
  | .rearmed => 4
  | .waiting => 3
  | .woken => 2
  | .replied => 1
  | _ => 0

theorem next_closer {now : SendPhase} (r : MailboxRun) (next : SendPhase) (stays : next.inside)
    (closer : stepsLeft next < stepsLeft now) :
    (r.goto id next).Inside id ∧ stepsLeft ((r.goto id next).phase id) < stepsLeft now := by
  rw [Inside, goto_phase]
  exact ⟨stays, closer⟩

/-- A send inside always has a step of its own that returns or brings it closer to its return. -/
theorem own_step (within : s.Inside id) : ∃ a t, a.of id ∧ s.step a = some t ∧
    ((t.Returned id ∧ t.mb.mbStatus = 0) ∨
      (t.Inside id ∧ stepsLeft (t.phase id) < stepsLeft (s.phase id))) := by
  unfold Inside at within
  cases at_ : s.phase id with
  | claimed =>
    have run : s.step (.rearm id) = some
        ({ s with mb := { s.mb with mbCompletion := 0 } }.goto id .rearmed) := by
      simp [step, at_]
    exact ⟨_, _, by simp [MailboxStep.of], run, .inr (next_closer _ .rearmed rfl (by simp [stepsLeft]))⟩
  | rearmed =>
    have run : s.step (.write id) = some
        ({ s with regs := s.regs ++ mailboxWrites (s.msg id) }.goto id .waiting) := by
      simp [step, at_]
    exact ⟨_, _, by simp [MailboxStep.of], run, .inr (next_closer _ .waiting rfl (by simp [stepsLeft]))⟩
  | waiting =>
    -- the wait ends by the wake-up that is there, or by its timeout
    by_cases done : s.mb.mbCompletion = 0
    · have run : s.step (.expire id) = some (s.goto id .woken) := by simp [step, at_, done]
      exact ⟨_, _, by simp [MailboxStep.of], run, .inr (next_closer _ .woken rfl (by simp [stepsLeft]))⟩
    · have run : s.step (.wake id) = some
          ({ s with mb := { s.mb with mbCompletion := s.mb.mbCompletion - 1 } }.goto id .woken) := by
        simp [step, at_, Nat.pos_of_ne_zero done]
      exact ⟨_, _, by simp [MailboxStep.of], run, .inr (next_closer _ .woken rfl (by simp [stepsLeft]))⟩
  | woken =>
    have run : s.step (.check id) =
        some (s.goto id (if s.mb.mbStatus = 2 then .replied else .unanswered)) := by
      simp [step, at_]
    refine ⟨_, _, by simp [MailboxStep.of], run, .inr (next_closer _ _ ?_ ?_)⟩
    · split <;> simp [SendPhase.inside]
    · split <;> simp [stepsLeft]
  | replied =>
    have run : s.step (.read id) = some (s.goto id (.read s.mb.mbResult)) := by simp [step, at_]
    exact ⟨_, _, by simp [MailboxStep.of], run,
      .inr (next_closer _ (.read s.mb.mbResult) rfl (by simp [stepsLeft]))⟩
  | unanswered =>
    have run : s.step (.reset id) = some
        ({ s with mb := { s.mb with mbStatus := 0 }, owner := none }.goto id (.failed .timedout)) := by
      simp [step, at_]
    exact ⟨_, _, by simp [MailboxStep.of], run, .inl ⟨.inr ⟨_, goto_phase ..⟩, rfl⟩⟩
  | read recv =>
    have run : s.step (.reset id) = some
        ({ s with mb := { s.mb with mbStatus := 0 }, owner := none }.goto id (.returned recv)) := by
      simp [step, at_]
    exact ⟨_, _, by simp [MailboxStep.of], run, .inl ⟨.inl ⟨_, goto_phase ..⟩, rfl⟩⟩
  | starting | returned | failed => simp [at_, SendPhase.inside] at within

theorem canReturn_of_inside (within : s.Inside id) : s.CanReturn id := by
  induction left : stepsLeft (s.phase id) using Nat.strongRecOn generalizing s with
  | _ left ih =>
    obtain ⟨a, t, own, run, arrived⟩ := own_step within
    have first : machine.step s a = some t := run
    rcases arrived with ⟨returned, free⟩ | ⟨stays, closer⟩
    · refine ⟨[a], t, ?_, Machine.run_single first, returned, free⟩
      simpa using own
    · obtain ⟨as, last, owns, ran, returned, free⟩ := ih _ (by omega) stays rfl
      refine ⟨a :: as, last, ?_, ?_, returned, free⟩
      · simpa using ⟨own, owns⟩
      · rw [Machine.run_cons, first, Option.bind_some, ran]

/-- A send that claimed the mailbox leaves it by its final reset only. -/
theorem inside_leaves (run : s.step a = some t) (within : s.Inside id) (left : ¬t.Inside id) :
    a = .reset id := by
  unfold Inside at within left
  rcases phase_next run id with same | ⟨own, moves⟩
  · rw [same] at left
    exact absurd within left
  · have label := (own_label run own).2.1
    generalize s.phase id = before at moves label within
    generalize t.phase id = after at moves left
    cases moves with
    | returns recv => exact label (.inr ⟨recv, rfl⟩)
    | gives => exact label (.inl rfl)
    | claims | refused => simp [SendPhase.inside] at within
    | rearms | writes | wakes | finds | misses | reads => simp [SendPhase.inside] at left

/-- A reply is handed over where an interrupt moves the status from 1 to 2, to the send inside. -/
theorem Ok.handover_new (ok : s.Ok) (run : s.step a = some t) {v : BitVec 64}
    (new : (id, v) ∈ t.handovers) (old : (id, v) ∉ s.handovers) :
    a = .decide ∧ s.mb.mbStatus = 1 ∧ t.mb.mbStatus = 2 ∧ s.Inside id ∧ v = s.mb.mbResult := by
  have decides : a = .decide := by
    by_contra other
    rw [((step_frame run).1 other).1] at new
    exact old new
  rw [decides] at run
  obtain rfl | ⟨waits, rfl⟩ | ⟨-, rfl⟩ := decide_cases run
  · exact absurd new old
  · rcases List.mem_append.mp new with before | handed
    · exact absurd before old
    · obtain ⟨owner, current, same⟩ := Option.map_eq_some_iff.mp (Option.mem_toList.mp handed)
      obtain ⟨rfl, rfl⟩ := Prod.mk.inj same
      exact ⟨decides, waits, rfl, (ok.owned _).mpr current, rfl⟩
  · exact absurd new old

/-- Over every interleaving of sends and interrupts: the status is non-zero exactly while a send is
between its claim and its reset, and that is one send at a time. One that finds it non-zero returns
`-EEXIST` and changes nothing, one that returns 0 got a reply from an interrupt that moved the
status from 1 to 2 while it was inside, and one that claimed the mailbox only leaves it by
returning with the status 0, which it can always do by its own steps. -/
theorem mailbox_admits_one (reach : machine.Reachable s) :
    (s.mb.mbStatus ≠ 0 ↔ ∃ id, s.Inside id) ∧
    (∀ id other, s.Inside id → s.Inside other → id = other) ∧
    (∀ id msg t, s.step (.claim id msg) = some t → s.mb.mbStatus ≠ 0 →
      t.phase id = .failed .exist ∧ t.mb = s.mb ∧ t.regs = s.regs) ∧
    (∀ id recv, s.phase id = .returned recv → ∃ v, (id, v) ∈ s.handovers) ∧
    (∀ a t, s.step a = some t → ∀ id v, (id, v) ∈ t.handovers → (id, v) ∉ s.handovers →
      a = .decide ∧ s.mb.mbStatus = 1 ∧ t.mb.mbStatus = 2 ∧ s.Inside id) ∧
    (∀ a t id, s.step a = some t → s.Inside id → ¬t.Inside id → t.Returned id ∧ t.mb.mbStatus = 0) ∧
    ∀ id, s.Inside id → s.CanReturn id := by
  have ok := mailbox_ok reach
  refine ⟨?_, ?_, ?_, fun id => (ok.phases id).answered, ?_, ?_, fun id => canReturn_of_inside⟩
  · rw [Ne, ok.free, ← Ne, Option.ne_none_iff_exists']
    exact exists_congr fun id => (ok.owned id).symm
  · intro id other within also
    have owner := (ok.owned id).mp within
    have same := (ok.owned other).mp also
    exact Option.some.inj (owner.symm.trans same)
  · intro id msg t run busy
    obtain ⟨-, ⟨free, -⟩ | ⟨-, rfl⟩⟩ := claim_cases run
    · exact absurd free busy
    · exact ⟨goto_phase .., rfl, rfl⟩
  · intro a t run id v new old
    obtain ⟨decides, waits, moved, within, -⟩ := ok.handover_new run new old
    exact ⟨decides, waits, moved, within⟩
  · intro a t id run within left
    have resets := inside_leaves run within left
    rw [resets] at run
    obtain ⟨next, phase, rfl⟩ := reset_cases run
    refine ⟨?_, rfl⟩
    rw [Returned, goto_phase]
    rcases phase with ⟨-, rfl⟩ | ⟨recv, -, rfl⟩
    · exact .inr ⟨_, rfl⟩
    · exact .inl ⟨recv, rfl⟩

/-- A second send is refused while the first one waits, and the reply comes after the timeout. -/
theorem mailbox_admits_one_late : ∃ s, machine.Reachable s ∧ s.mb.mbStatus = 1 ∧ s.CanReturn 0 ∧
    s.phase 1 = .failed .exist := by
  obtain ⟨s, ran, status, within, refused⟩ : ∃ s, machine.run start
      [.claim 0 5, .claim 1 6, .rearm 0, .write 0, .expire 0, .check 0, .interrupt 0x100000,
        .reply 7 0] = some s ∧ s.mb.mbStatus = 1 ∧ s.Inside 0 ∧ s.phase 1 = .failed .exist :=
    ⟨_, rfl, rfl, rfl, rfl⟩
  have reach := (Machine.Reachable.start (M := machine) rfl).of_run _ ran
  exact ⟨s, reach, status, (mailbox_admits_one reach).2.2.2.2.2.2 0 within, refused⟩

/-- A reply was handed over and its send has still to read it. -/
def unread (s : MailboxRun) : Bool :=
  s.mb.mbStatus == 2 && s.owner.any fun id => (s.phase id).mayRead

/-- The interrupt puts no other reply in `mb_result` while one is handed over and unread. -/
def SparesUnread (s : MailboxRun) : MailboxStep → Prop
  | .reply lo hi => s.unread → hi ++ lo = s.mb.mbResult
  | _ => True

instance (s : MailboxRun) (a : MailboxStep) : Decidable (s.SparesUnread a) := by
  cases a <;> unfold SparesUnread <;> infer_instance

/-- A reply handed over stays in `mb_result` until its send has read it, and is what it returns. -/
structure Delivered (s : MailboxRun) : Prop where
  kept : ∀ id v, (id, v) ∈ s.handovers → (s.phase id).mayRead → s.mb.mbResult = v
  holds : ∀ id recv, s.phase id = .read recv ∨ s.phase id = .returned recv → (id, recv) ∈ s.handovers

theorem start_delivered : start.Delivered := by
  constructor <;> simp [start]

/-- A send that was handed a reply and may still read it makes that reply an unread one. -/
theorem Ok.unread_of_handed (ok : s.Ok) {v : BitVec 64} (handed : (id, v) ∈ s.handovers)
    (may : (s.phase id).mayRead) : s.unread := by
  have within : s.Inside id := by
    unfold Inside
    cases at_ : s.phase id <;> simp_all [SendPhase.mayRead, SendPhase.inside]
  have owner := (ok.owned id).mp within
  have status := (ok.handed id owner).mpr ⟨v, handed⟩
  simp [unread, owner, status, may]

/-- A reply is in the record of the replies handed over because it was before, or is put there now
from `mb_result`, which the step leaves alone. -/
theorem handed_before (run : s.step a = some t) {v : BitVec 64} (handed : (id, v) ∈ t.handovers) :
    (id, v) ∈ s.handovers ∨ (v = s.mb.mbResult ∧ t.mb.mbResult = s.mb.mbResult) := by
  by_cases decides : a = .decide
  · have result := (step_frame run).2.1 (by simp [decides])
    rw [decides] at run
    obtain rfl | ⟨-, rfl⟩ | ⟨-, rfl⟩ := decide_cases run
    · exact .inl handed
    · rcases List.mem_append.mp handed with old | new
      · exact .inl old
      · obtain ⟨owner, -, same⟩ := Option.map_eq_some_iff.mp (Option.mem_toList.mp new)
        exact .inr ⟨(Prod.mk.inj same).2.symm, result⟩
    · exact .inl handed
  · rw [((step_frame run).1 decides).1] at handed
    exact .inl handed

theorem handovers_grow (run : s.step a = some t) {v : BitVec 64} (handed : (id, v) ∈ s.handovers) :
    (id, v) ∈ t.handovers := by
  by_cases decides : a = .decide
  · rw [decides] at run
    obtain rfl | ⟨-, rfl⟩ | ⟨-, rfl⟩ := decide_cases run
    · exact handed
    · exact List.mem_append_left _ handed
    · exact handed
  · rw [((step_frame run).1 decides).1]
    exact handed

theorem Delivered.step (delivered : s.Delivered) (ok : s.Ok) (spares : s.SparesUnread a)
    (run : s.step a = some t) : t.Delivered where
  kept := by
    intro id v handed may
    rcases handed_before run handed with old | ⟨now, result⟩
    · rcases mayRead_before run may with before | ⟨starting, -⟩
      · have value := delivered.kept id v old before
        by_cases replies : ∃ lo hi, a = .reply lo hi
        · obtain ⟨lo, hi, rfl⟩ := replies
          obtain ⟨count, left, -, rfl⟩ := reply_run run
          exact (spares (ok.unread_of_handed old before)).trans value
        · rw [(step_frame run).2.1 fun lo hi same => replies ⟨lo, hi, same⟩]
          exact value
      · exact absurd old ((ok.phases id).fresh starting v)
    · rw [result, now]
  holds := by
    intro id recv has
    rcases holds_before run has with before | ⟨-, replied, value⟩
    · exact handovers_grow run (delivered.holds id recv before)
    · have owner := (ok.owned id).mp (inside_of_phase replied rfl)
      have status := (ok.phases id).found (by rw [replied]; rfl)
      -- the status 2 means a reply was handed over, and `mb_result` still has it
      obtain ⟨v, handed⟩ := (ok.handed id owner).mp status
      have same := delivered.kept id v handed (by rw [replied]; rfl)
      rw [value, same]
      exact handovers_grow run handed

theorem delivered_under (reach : machine.ReachableUnder SparesUnread s) : s.Delivered := by
  refine reach.invariant_of (fun s before => mailbox_ok before.reachable) ?_ ?_
  · rintro _ rfl
    exact start_delivered
  · intro s a t ok delivered spares run
    exact delivered.step ok spares run

/-- A send is handed at most one reply. -/
theorem Ok.handed_once (ok : s.Ok) {v w : BitVec 64} (handed : (id, v) ∈ s.handovers)
    (also : (id, w) ∈ s.handovers) : v = w := by
  have distinct := List.inj_on_of_nodup_map ok.once handed also rfl
  exact (Prod.mk.inj distinct).2

/-- Over the runs whose interrupts put no other reply in `mb_result` while one is handed over and
unread: what a send returns is the one value handed to it, and what was handed over is still to be
read or was read. An interrupt that finds the status different from 1 reports its reply as dropped
and leaves the sends and the mailbox alone. -/
theorem dropped_reply_no_effect (reach : machine.ReachableUnder SparesUnread s) :
    (∀ id recv, s.phase id = .returned recv →
      (id, recv) ∈ s.handovers ∧ ∀ v, (id, v) ∈ s.handovers → v = recv) ∧
    (∀ id v, (id, v) ∈ s.handovers →
      ((s.phase id).mayRead → s.mb.mbResult = v) ∧ ∀ recv, s.phase id = .read recv → recv = v) ∧
    ∀ a t, s.step a = some t → t.dropped ≠ s.dropped →
      s.mb.mbStatus ≠ 1 ∧ t.phase = s.phase ∧ t.mb = s.mb ∧ t.handovers = s.handovers := by
  have ok := mailbox_ok reach.reachable
  have delivered := delivered_under reach
  refine ⟨?_, ?_, ?_⟩
  · intro id recv returned
    have handed := delivered.holds id recv (.inr returned)
    exact ⟨handed, fun v also => ok.handed_once also handed⟩
  · intro id v handed
    refine ⟨delivered.kept id v handed, ?_⟩
    intro recv reads
    exact ok.handed_once (delivered.holds id recv (.inl reads)) handed
  · intro a t run reported
    have decides : a = .decide := by
      by_contra other
      exact reported ((step_frame run).1 other).2.1
    rw [decides] at run
    obtain rfl | ⟨-, rfl⟩ | ⟨busy, rfl⟩ := decide_cases run
    · exact absurd rfl reported
    · exact absurd rfl reported
    · exact ⟨busy, rfl, rfl, rfl⟩

/-- A first reply is handed over and read, and a second interrupt is dropped after it. -/
theorem dropped_reply_no_effect_after : ∃ s, machine.ReachableUnder SparesUnread s ∧
    s.dropped = [9] ∧ s.phase 0 = .returned 7 ∧ (0, 7) ∈ s.handovers := by
  obtain ⟨s, ran, dropped, returned⟩ : ∃ s, (machine.guard SparesUnread).run start
      [.claim 0 5, .rearm 0, .write 0, .interrupt 0x100000, .reply 7 0, .decide, .complete,
        .wake 0, .check 0, .read 0, .interrupt 0x100000, .reply 9 0, .decide, .reset 0] = some s ∧
      s.dropped = [9] ∧ s.phase 0 = .returned 7 :=
    ⟨_, rfl, rfl, rfl⟩
  have reach := Machine.ReachableUnder.of_run (M := machine) rfl _ ran
  exact ⟨s, reach, dropped, returned, ((dropped_reply_no_effect reach).1 0 7 returned).1⟩

/-- The second interrupt comes before the send has read the reply of the first one, and the send
returns what was dropped. -/
theorem dropped_reply_returned : ∃ s, machine.Reachable s ∧ s.handovers = [(0, 7)] ∧
    s.dropped = [9] ∧ s.phase 0 = .returned 9 := by
  obtain ⟨s, ran, handed, dropped, returned⟩ : ∃ s, machine.run start
      [.claim 0 5, .rearm 0, .write 0, .interrupt 0x100000, .reply 7 0, .decide, .complete,
        .interrupt 0x100000, .reply 9 0, .decide, .wake 0, .check 0, .read 0, .reset 0] = some s ∧
      s.handovers = [(0, 7)] ∧ s.dropped = [9] ∧ s.phase 0 = .returned 9 :=
    ⟨_, rfl, rfl, rfl, rfl⟩
  exact ⟨s, (Machine.Reachable.start (M := machine) rfl).of_run _ ran, handed, dropped, returned⟩

end MailboxRun

end AppleBce

import AppleBce.Audio.Table

namespace AppleBce

open Basis

namespace AudioRun

variable {s t : AudioRun} {a : AudioStep} {id other : Nat} {call : AudioCall}

/-- No tag is allocated while a command that was sent with it is not done. -/
def TagsHeld (s : AudioRun) : AudioStep → Prop
  | .prepare id => (s.calls id).tag = none → ∀ c ∈ s.commands,
      (s.calls c).tagN = (s.tagNum + 1) % aaudioBceQueueTagCount → (s.calls c).Done
  | _ => True

instance (s : AudioRun) : (a : AudioStep) → Decidable (s.TagsHeld a)
  | .prepare id => inferInstanceAs (Decidable ((s.calls id).tag = none → ∀ c ∈ s.commands, _ → _))
  | .reserve .. | .giveUp _ | .send _ | .deviceComplete .. | .harvest | .nextCompletion | .notify | .wake _
  | .expire _ | .cleanUp _ | .reply .. | .stray _ | .clear => .isTrue trivial

/-- No two commands share a tag before they are done, and a command that is not completed is found
by its tag. -/
structure RepliesOk (s : AudioRun) : Prop where
  unique : ∀ c ∈ s.commands, ∀ d ∈ s.commands, (s.calls c).tagN = (s.calls d).tagN →
    ¬(s.calls c).Done → ¬(s.calls d).Done → c = d
  held : ∀ c, (s.calls c).Entered ∧ (s.calls c).cmpl = false →
    s.pending (s.calls c).tagN = some c

theorem init_repliesOk : init.RepliesOk where
  unique := by simp [init]
  held := by simp [init, AudioCall.start, AudioCall.Entered]

/-- The tag that is allocated belongs to no other command before that is done. -/
theorem RepliesOk.unique_prepare (ok : s.RepliesOk) (calls : s.CallsOk)
    (tags : s.TagsHeld (.prepare id)) :
    ∀ c ∈ (s.sendPrepare id).commands, ∀ d ∈ (s.sendPrepare id).commands,
      ((s.sendPrepare id).calls c).tagN = ((s.sendPrepare id).calls d).tagN →
      ¬((s.sendPrepare id).calls c).Done → ¬((s.sendPrepare id).calls d).Done → c = d := by
  simp only [sendPrepare]
  split
  · rename_i tag tagged
    -- a response has a tag of the other side and is no command
    have absent : id ∉ s.commands := by
      intro member
      rw [(calls.calls id).untagged ((calls.calls id).listed.mp member).1] at tagged
      cases tagged
    intro c memberC d memberD
    rw [setCall_other _ (ne_of_mem_of_not_mem memberC absent),
      setCall_other _ (ne_of_mem_of_not_mem memberD absent)]
    exact ok.unique c memberC d memberD
  · rename_i untagged
    have tags := tags untagged
    have old : ∀ c, c ∈ (if (s.calls id).command then s.commands ++ [id] else s.commands) →
        c ≠ id → c ∈ s.commands := by
      intro c member apart
      split at member
      · simpa [apart] using member
      · exact member
    intro c memberC d memberD same
    by_cases atC : c = id <;> by_cases atD : d = id
    · exact fun _ _ => atC.trans atD.symm
    · rw [atC, setCall_self, setCall_other _ atD] at same ⊢
      intro _ openD
      exact absurd (tags d (old d memberD atD) same.symm) openD
    · rw [atD, setCall_self, setCall_other _ atC] at same ⊢
      intro openC _
      exact absurd (tags c (old c memberC atC) same) openC
    · rw [setCall_other _ atC, setCall_other _ atD] at same ⊢
      exact ok.unique c (old c memberC atC) d (old d memberD atD) same

theorem RepliesOk.step (ok : s.RepliesOk) (table : s.TableOk) (calls : s.CallsOk) (out : s.OutOk)
    (tags : s.TagsHeld a) (run : s.step a = some t) : t.RepliesOk where
  unique := by
    by_cases allocates : ∃ id, a = .prepare id
    · obtain ⟨id, rfl⟩ := allocates
      obtain ⟨-, run⟩ := Option.ite_none_right_eq_some.mp run
      cases Option.some.inj run
      exact ok.unique_prepare calls tags
    · obtain ⟨-, -, commands⟩ := step_records run fun id label => allocates ⟨id, label⟩
      rw [commands]
      intro c memberC d memberD same openC openD
      obtain ⟨tagC, doneC⟩ := calls.step_command out run memberC
      obtain ⟨tagD, doneD⟩ := calls.step_command out run memberD
      rw [tagC, tagD] at same
      exact ok.unique c memberC d memberD same (fun done => openC (doneC done))
        fun done => openD (doneD done)
  held := by
    intro c waits
    rcases calls.step_entered out run waits with before | ⟨rfl, command⟩
    · have member := calls.entered_mem before.1
      rw [(calls.step_command out run member).1]
      refine table.entry_kept run (ok.held c before) waits ?_
      -- a command with the same tag that is about to be sent would not be done
      rintro id rfl command same
      obtain ⟨held, -⟩ := Option.ite_none_right_eq_some.mp run
      have prepared := (out.writer id).mpr held
      have self : id ∈ s.commands := (calls.calls id).listed.mpr (by simp [command, prepared])
      have open_ : ¬(s.calls id).Done := by simp [AudioCall.Done, prepared, AudioPhase.over]
      have one := ok.unique id self c member same open_ before.1.not_done
      rw [← one] at before
      simp [AudioCall.Entered, prepared] at before
    · obtain ⟨held, -⟩ := Option.ite_none_right_eq_some.mp run
      have prepared := (out.writer c).mpr held
      have self : c ∈ s.commands := (calls.calls c).listed.mpr (by simp [command, prepared])
      rw [(calls.step_command out run self).1]
      exact entry_made run command

theorem repliesOk (reach : machine.ReachableUnder TagsHeld s) : s.RepliesOk := by
  refine Machine.ReachableUnder.invariant_of
    (J := fun s => s.TableOk ∧ s.CallsOk ∧ s.OutOk) ?_ ?_ ?_ reach
  · intro s reach
    exact ⟨tableOk reach.reachable, callsOk reach.reachable, outOk reach.reachable⟩
  · rintro _ rfl
    exact init_repliesOk
  · rintro s a t ⟨table, calls, out⟩ ok tags run
    exact ok.step table calls out tags run

/-- While the spinlock is free the entry of a tag is the only command that waits with it. -/
theorem RepliesOk.entry_of_answers (ok : s.RepliesOk) (table : s.TableOk) (calls : s.CallsOk)
    (free : s.lock = .free) {msg : AaudioMsg Byte} (answers : s.Answers id msg) {c : Nat}
    (found : s.pending (s.calls id).tagN = some c) :
    c = id ∧ (s.calls id).Entered ∧ (s.calls id).cmpl = false := by
  obtain ⟨member, -, unanswered, -⟩ := answers
  obtain ⟨memberC, tag, -⟩ := calls.entry _ c found
  obtain ⟨entered, open_⟩ := table.waits (by simp [free]) found
  have notDone : ¬(s.calls id).Done := by simp [AudioCall.Done, unanswered]
  have same := ok.unique c memberC id member tag entered.not_done notDone
  rw [same] at entered open_
  exact ⟨same, entered, open_⟩

theorem RepliesOk.reply (ok : s.RepliesOk) (table : s.TableOk) (calls : s.CallsOk)
    {msg : AaudioMsg Byte} (run : s.step (.reply id msg) = some t) :
    (∀ c, c ≠ id → t.calls c = s.calls c) ∧
    ((s.calls id).Entered ∧ (s.calls id).cmpl = false → t.calls id = { s.calls id with
      reply := (s.calls id).reply.copyReply msg, cmpl := true, arrived := true }) ∧
    (¬((s.calls id).Entered ∧ (s.calls id).cmpl = false) →
      t.calls id = { s.calls id with arrived := true }) := by
  obtain ⟨⟨free, answers⟩, run⟩ := Option.ite_none_right_eq_some.mp run
  cases Option.some.inj run
  have tag := answers.replyTag (calls.tagN_lt answers.1)
  by_cases waits : (s.calls id).Entered ∧ (s.calls id).cmpl = false
  · have found := ok.held id waits
    rw [handleMsg_some tag found]
    refine ⟨?_, ?_, fun otherwise => absurd waits otherwise⟩
    · intro c apart
      rw [setCall_other _ apart, AudioRun.deliver, setCall_other _ apart]
    · intro _
      rw [setCall_self, AudioRun.deliver, setCall_self]
  · have nothing : ∀ tagn, replyTag msg = some tagn → s.pending tagn = none := by
      intro tagn here
      rw [tag] at here
      rw [← Option.some.inj here]
      by_contra listed
      obtain ⟨c, found⟩ := Option.ne_none_iff_exists'.mp listed
      exact waits (ok.entry_of_answers table calls free answers found).2
    rw [handleMsg_none nothing]
    refine ⟨fun c apart => setCall_other _ apart, fun otherwise => absurd otherwise waits, ?_⟩
    intro _
    rw [setCall_self]

theorem RepliesOk.stray (ok : s.RepliesOk) (table : s.TableOk) (calls : s.CallsOk)
    {msg : AaudioMsg Byte} (run : s.step (.stray msg) = some t) (c : Nat) :
    ((s.calls c).Entered ∧ (s.calls c).cmpl = false ∧ replyTag msg = some (s.calls c).tagN →
      t.calls c = { s.calls c with reply := (s.calls c).reply.copyReply msg, cmpl := true }) ∧
    (¬((s.calls c).Entered ∧ (s.calls c).cmpl = false ∧ replyTag msg = some (s.calls c).tagN) →
      t.calls c = s.calls c) := by
  obtain ⟨free, run⟩ := Option.ite_none_right_eq_some.mp run
  cases Option.some.inj run
  constructor
  · rintro ⟨entered, open_, tag⟩
    rw [handleMsg_some tag (ok.held c ⟨entered, open_⟩), AudioRun.deliver, setCall_self]
  · intro otherwise
    rcases s.handleMsg_cases msg with same | ⟨tagn, entry, tag, found, delivered⟩
    · rw [same]
    · have apart : c ≠ entry := by
        rintro rfl
        obtain ⟨entered, open_⟩ := table.waits (by simp [free]) found
        rw [← (calls.entry tagn c found).2.1] at tag
        exact otherwise ⟨entered, open_, tag⟩
      rw [delivered, AudioRun.deliver, setCall_other _ apart]

/-- In the runs in which no tag is allocated before the command that has it is done, the answer to a
command is copied into its own reply buffer if it still waits, and else nowhere; any other message
is copied at most into that of the command that waits with its tag; and each entry of the table is a
command that has not returned, but for the one that the handler has completed and is about to
clear. -/
theorem replies_reach_command (reach : machine.ReachableUnder TagsHeld s) :
    (∀ id msg t, s.step (.reply id msg) = some t →
      (∀ c, c ≠ id → t.calls c = s.calls c) ∧
      ((s.calls id).Entered ∧ (s.calls id).cmpl = false → t.calls id = { s.calls id with
        reply := (s.calls id).reply.copyReply msg, cmpl := true, arrived := true }) ∧
      (¬((s.calls id).Entered ∧ (s.calls id).cmpl = false) →
        t.calls id = { s.calls id with arrived := true })) ∧
    (∀ msg t c, s.step (.stray msg) = some t →
      ((s.calls c).Entered ∧ (s.calls c).cmpl = false ∧ replyTag msg = some (s.calls c).tagN →
        t.calls c = { s.calls c with reply := (s.calls c).reply.copyReply msg, cmpl := true }) ∧
      (¬((s.calls c).Entered ∧ (s.calls c).cmpl = false ∧ replyTag msg = some (s.calls c).tagN) →
        t.calls c = s.calls c)) ∧
    ∀ n c, s.pending n = some c → (s.calls c).phase.over = false ∨ s.lock = .delivering n := by
  have ok := repliesOk reach
  have table := tableOk reach.reachable
  have calls := callsOk reach.reachable
  refine ⟨fun id msg t run => ok.reply table calls run,
    fun msg t c run => ok.stray table calls run c, ?_⟩
  intro n c found
  exact (table.entered n c found).imp_left fun waits => waits.1.not_over

/-- The answer to the first command. -/
def firstAnswer : AaudioMsg Byte where
  data := fun i => ([0x53, 0x30, 0x30, 0x31, 2] : List Byte).getD i 0
  size := 16

/-- A command whose answer arrives while it waits. -/
theorem replies_reach_command_first : ∃ s t,
    (machine.guard TagsHeld).run init [.reserve 0 (.command ⟨fun _ => 0, 64⟩), .prepare 0,
      .send 0] = some s ∧
    s.step (.reply 0 firstAnswer) = some t ∧ (t.calls 0).cmpl = true ∧
    t.calls 1 = s.calls 1 ∧ (∀ n c, s.pending n = some c → (s.calls c).phase.over = false ∨
      s.lock = .delivering n) := by
  obtain ⟨s, t, ran, run, waits⟩ : ∃ s t, (machine.guard TagsHeld).run init
      [.reserve 0 (.command ⟨fun _ => 0, 64⟩), .prepare 0, .send 0] = some s ∧
      s.step (.reply 0 firstAnswer) = some t ∧
      (s.calls 0).phase = .waiting ∧ (s.calls 0).cmpl = false :=
    ⟨_, _, rfl, rfl, rfl, rfl⟩
  obtain ⟨replies, -, entries⟩ := replies_reach_command (.of_run rfl _ ran)
  obtain ⟨others, answered, -⟩ := replies 0 firstAnswer t run
  have copied := answered ⟨.inl waits.1, waits.2⟩
  refine ⟨s, t, ran, run, ?_, others 1 (by decide), entries⟩
  rw [copied]

/-- Between `complete` and the store that clears it, the entry of a command that was answered may be
one that has returned. -/
theorem completed_entry_returned : ∃ s, machine.ReachableUnder TagsHeld s ∧
    s.pending 1 = some 0 ∧ (s.calls 0).phase = .returned none := by
  obtain ⟨s, ran, entry, phase⟩ : ∃ s, (machine.guard TagsHeld).run init
      [.reserve 0 (.command ⟨fun _ => 0, 64⟩), .prepare 0, .send 0, .reply 0 firstAnswer,
        .wake 0] = some s ∧ s.pending 1 = some 0 ∧ (s.calls 0).phase = .returned none :=
    ⟨_, rfl, rfl, rfl⟩
  exact ⟨s, .of_run rfl _ ran, entry, phase⟩

end AudioRun

end AppleBce

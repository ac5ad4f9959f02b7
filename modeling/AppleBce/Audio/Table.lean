import AppleBce.Audio.Commands

namespace AppleBce

open Basis

namespace AudioRun

variable {s t : AudioRun} {a : AudioStep} {id other : Nat} {call : AudioCall}

/-- Each entry of the table is a command that was sent and not completed, but for the one that the
handler has completed and has still to clear. -/
structure TableOk (s : AudioRun) : Prop where
  entered : ∀ n c, s.pending n = some c →
    (s.calls c).Entered ∧ (s.calls c).cmpl = false ∨ s.lock = .delivering n
  delivered : ∀ n c, s.lock = .delivering n → s.pending n = some c → (s.calls c).cmpl = true

theorem init_tableOk : init.TableOk where
  entered := by simp [init]
  delivered := by simp [init]

theorem TableOk.waits (ok : s.TableOk) (lock : ∀ n, s.lock ≠ .delivering n) {n c : Nat}
    (found : s.pending n = some c) : (s.calls c).Entered ∧ (s.calls c).cmpl = false := by
  rcases ok.entered n c found with waits | delivering
  · exact waits
  · exact absurd delivering (lock n)

/-- A step that enters and completes nothing, and with which no uncompleted entry returns. -/
theorem TableOk.frame (ok : s.TableOk)
    (pending : ∀ n c, t.pending n = some c → s.pending n = some c)
    (lock : ∀ n, t.lock = .delivering n ↔ s.lock = .delivering n)
    (calls : ∀ n c, t.pending n = some c → (t.calls c).cmpl = (s.calls c).cmpl ∧
      ((s.calls c).Entered → (s.calls c).cmpl = false → (t.calls c).Entered)) : t.TableOk where
  entered := by
    intro n c found
    obtain ⟨cmpl, stays⟩ := calls n c found
    rw [lock, cmpl]
    exact (ok.entered n c (pending n c found)).imp_left fun waits => ⟨stays waits.1 waits.2, waits.2⟩
  delivered := by
    intro n c delivering found
    rw [(calls n c found).1]
    exact ok.delivered n c ((lock n).mp delivering) (pending n c found)

/-- The same for a step of one call. -/
theorem TableOk.setCall (ok : s.TableOk) (cmpl : call.cmpl = (s.calls id).cmpl)
    (stays : ∀ n, s.pending n = some id → (s.calls id).Entered → (s.calls id).cmpl = false →
      call.Entered) : (s.setCall id call).TableOk := by
  refine ok.frame (fun _ _ found => found) (fun _ => .rfl) ?_
  intro n c found
  by_cases same : c = id
  · rw [same] at found ⊢
    rw [setCall_self]
    exact ⟨cmpl, stays n found⟩
  · rw [setCall_other call same]
    exact ⟨rfl, fun entered _ => entered⟩

theorem TableOk.submit (ok : s.TableOk) (calls : s.CallsOk) (held : s.lock = .writer id)
    (prepared : (s.calls id).phase = .prepared) (out : SubmissionRun) :
    (s.submit id out).TableOk := by
  have unsent : (s.calls id).phase.sent = false := by rw [prepared]; rfl
  have fresh := (calls.calls id).fresh unsent
  have old : ∀ n c, s.pending n = some c → ((s.submit id out).calls c).Entered ∧
      ((s.submit id out).calls c).cmpl = false := by
    intro n c found
    have apart := calls.not_entry unsent found
    rw [AudioRun.submit, setCall_other _ apart]
    exact ok.waits (by simp [held]) found
  constructor
  case entered =>
    intro n c found
    left
    simp only [AudioRun.submit, AudioRun.setCall] at found
    split at found
    · rename_i command
      by_cases here : n = (s.calls id).tagN
      · rw [here, Function.update_self] at found
        rw [← Option.some.inj found, AudioRun.submit, setCall_self]
        simp only [command, if_true]
        exact ⟨.inl rfl, fresh.1⟩
      · rw [Function.update_of_ne here] at found
        exact old n c found
    · exact old n c found
  case delivered =>
    intro n c delivering
    simp [AudioRun.submit, AudioRun.setCall] at delivering

theorem TableOk.deliver (ok : s.TableOk) (calls : s.CallsOk) (free : s.lock = .free)
    {tagn entry : Nat} (found : s.pending tagn = some entry) (msg : AaudioMsg Byte) :
    (s.deliver tagn entry msg).TableOk where
  entered := by
    intro n c listed
    by_cases here : n = tagn
    · rw [here]
      exact .inr rfl
    · have apart : c ≠ entry := by
        rintro rfl
        have tag := (calls.entry n c listed).2.1
        rw [(calls.entry tagn c found).2.1] at tag
        exact here tag.symm
      left
      rw [AudioRun.deliver, setCall_other _ apart]
      exact ok.waits (by simp [free]) listed
  delivered := by
    intro n c delivering listed
    have here : tagn = n := AudioLock.delivering.inj delivering
    have same : entry = c := by
      have listed : s.pending n = some c := listed
      rw [← here, found] at listed
      exact Option.some.inj listed
    rw [← same, AudioRun.deliver, setCall_self]

theorem TableOk.handleMsg (ok : s.TableOk) (calls : s.CallsOk) (free : s.lock = .free)
    (msg : AaudioMsg Byte) : (s.handleMsg msg).TableOk := by
  rcases s.handleMsg_cases msg with same | ⟨tagn, entry, -, found, delivered⟩
  · rw [same]
    exact ok
  · rw [delivered]
    exact ok.deliver calls free found msg

theorem TableOk.clear (ok : s.TableOk) {tagn : Nat} (delivering : s.lock = .delivering tagn) :
    TableOk { s with pending := Function.update s.pending tagn none, lock := .free } where
  entered := by
    intro n c found
    obtain ⟨apart, found⟩ := entry_of_cleared found
    refine (ok.entered n c found).imp_right fun here => ?_
    rw [delivering] at here
    exact absurd (AudioLock.delivering.inj here).symm apart
  delivered := by
    intro n c here
    cases here

theorem TableOk.step (ok : s.TableOk) (calls : s.CallsOk) (out : s.OutOk) (run : s.step a = some t) :
    t.TableOk := by
  cases a with
  | reserve id kind =>
    obtain ⟨starting, run⟩ := Option.ite_none_right_eq_some.mp run
    obtain ⟨sub, -, rfl⟩ := Option.map_eq_some_iff.mp run
    have queued : TableOk { s with out := sub, reserved := s.reserved ++ [id] } :=
      ok.frame (fun _ _ found => found) (fun _ => .rfl) fun _ _ _ => ⟨rfl, fun entered _ => entered⟩
    refine queued.setCall rfl ?_
    intro n found
    exact absurd rfl (calls.not_entry (by rw [starting]; rfl) found)
  | giveUp id =>
    obtain ⟨starting, run⟩ := Option.ite_none_right_eq_some.mp run
    cases Option.some.inj run
    refine ok.setCall rfl ?_
    intro n found
    exact absurd rfl (calls.not_entry (by rw [starting]; rfl) found)
  | prepare id =>
    obtain ⟨⟨reserved, free⟩, run⟩ := Option.ite_none_right_eq_some.mp run
    cases Option.some.inj run
    have unsent : (s.calls id).phase.sent = false := by rw [reserved]; rfl
    simp only [sendPrepare]
    split
    · refine ok.frame (fun _ _ found => found) (by simp [AudioRun.setCall, free]) ?_
      intro n c found
      rw [setCall_other _ (calls.not_entry unsent found)]
      exact ⟨rfl, fun entered _ => entered⟩
    · refine ok.frame (fun _ _ found => found) (by simp [AudioRun.setCall, free]) ?_
      intro n c found
      rw [setCall_other _ (calls.not_entry unsent found)]
      exact ⟨rfl, fun entered _ => entered⟩
  | send id =>
    obtain ⟨held, run⟩ := Option.ite_none_right_eq_some.mp run
    obtain ⟨sub, -, rfl⟩ := Option.map_eq_some_iff.mp run
    exact ok.submit calls held ((out.writer id).mpr held) sub
  | deviceComplete _ _ _ | harvest | nextCompletion | notify =>
    obtain ⟨sub, -, rfl⟩ := Option.map_eq_some_iff.mp run
    exact ok.frame (fun _ _ found => found) (fun _ => .rfl) fun _ _ _ => ⟨rfl, fun entered _ => entered⟩
  | wake id =>
    obtain ⟨⟨-, completed⟩, run⟩ := Option.ite_none_right_eq_some.mp run
    cases Option.some.inj run
    refine ok.setCall rfl ?_
    intro _ _ _ open_
    rw [completed] at open_
    cases open_
  | expire id =>
    obtain ⟨-, run⟩ := Option.ite_none_right_eq_some.mp run
    cases Option.some.inj run
    exact ok.setCall rfl fun _ _ _ _ => .inr rfl
  | cleanUp id =>
    obtain ⟨-, run⟩ := Option.ite_none_right_eq_some.mp run
    cases Option.some.inj run
    refine TableOk.setCall (ok.frame ?_ (fun _ => .rfl) fun _ _ _ => ⟨rfl, fun entered _ => entered⟩)
      rfl ?_
    · intro n c found
      split at found
      · exact (entry_of_cleared found).2
      · exact found
    · -- the entry of the call itself is cleared
      intro n found
      simp only at found
      split at found
      · obtain ⟨elsewhere, found⟩ := entry_of_cleared found
        exact absurd (calls.entry n id found).2.1.symm elsewhere
      · rename_i gone
        rw [← (calls.entry n id found).2.1] at found
        exact absurd found gone
  | reply id msg =>
    obtain ⟨⟨free, -⟩, run⟩ := Option.ite_none_right_eq_some.mp run
    cases Option.some.inj run
    exact (ok.handleMsg calls free msg).setCall rfl fun _ _ entered _ => entered
  | stray msg =>
    obtain ⟨free, run⟩ := Option.ite_none_right_eq_some.mp run
    cases Option.some.inj run
    exact ok.handleMsg calls free msg
  | clear =>
    simp only [AudioRun.step] at run
    split at run
    · rename_i tagn delivering
      cases Option.some.inj run
      exact ok.clear delivering
    · cases run

theorem tableOk (reach : machine.Reachable s) : s.TableOk := by
  refine Machine.ReachableUnder.invariant_of (J := fun s => s.CallsOk ∧ s.OutOk) ?_ ?_ ?_ reach
  · exact fun _ reach => ⟨callsOk reach, outOk reach⟩
  · rintro _ rfl
    exact init_tableOk
  · exact fun _ _ _ known ok _ run => ok.step known.1 known.2 run

/-- An entry that is not completed leaves the table only when its command returns, or is overwritten
by a command with the same tag. -/
theorem TableOk.entry_kept (ok : s.TableOk) (run : s.step a = some t) {n c : Nat}
    (found : s.pending n = some c) (waits : (t.calls c).Entered ∧ (t.calls c).cmpl = false)
    (apart : ∀ id, a = .send id → (s.calls id).command = true → (s.calls id).tagN ≠ n) :
    t.pending n = some c := by
  cases a with
  | reserve id kind =>
    obtain ⟨-, run⟩ := Option.ite_none_right_eq_some.mp run
    obtain ⟨sub, -, rfl⟩ := Option.map_eq_some_iff.mp run
    exact found
  | prepare id =>
    obtain ⟨-, run⟩ := Option.ite_none_right_eq_some.mp run
    cases Option.some.inj run
    simp only [sendPrepare]
    split
    · exact found
    · exact found
  | send id =>
    obtain ⟨-, run⟩ := Option.ite_none_right_eq_some.mp run
    obtain ⟨sub, -, rfl⟩ := Option.map_eq_some_iff.mp run
    simp only [AudioRun.submit, AudioRun.setCall]
    split
    · rename_i command
      rw [Function.update_of_ne (apart id rfl command).symm]
      exact found
    · exact found
  | deviceComplete _ _ _ | harvest | nextCompletion | notify =>
    obtain ⟨sub, -, rfl⟩ := Option.map_eq_some_iff.mp run
    exact found
  | giveUp id | wake id | expire id =>
    obtain ⟨-, run⟩ := Option.ite_none_right_eq_some.mp run
    cases Option.some.inj run
    exact found
  | cleanUp id =>
    obtain ⟨-, run⟩ := Option.ite_none_right_eq_some.mp run
    cases Option.some.inj run
    have stays : c ≠ id := by
      rintro rfl
      have entered := waits.1
      rw [setCall_self] at entered
      simp [AudioCall.Entered] at entered
    simp only [AudioRun.setCall]
    split
    · rename_i mine
      have elsewhere : n ≠ (s.calls id).tagN := by
        rintro rfl
        rw [mine] at found
        exact stays (Option.some.inj found).symm
      rw [Function.update_of_ne elsewhere]
      exact found
    · exact found
  | reply id msg | stray msg =>
    obtain ⟨-, run⟩ := Option.ite_none_right_eq_some.mp run
    cases Option.some.inj run
    exact (congrFun (s.handleMsg_records msg).2.2.2.1 n).trans found
  | clear =>
    simp only [AudioRun.step] at run
    split at run
    · rename_i tagn delivering
      cases Option.some.inj run
      have elsewhere : n ≠ tagn := by
        rintro rfl
        have open_ : (s.calls c).cmpl = false := waits.2
        rw [ok.delivered n c delivering found] at open_
        cases open_
      exact (Function.update_of_ne elsewhere ..).trans found
    · cases run

theorem entry_made (run : s.step (.send id) = some t) (command : (s.calls id).command = true) :
    t.pending (s.calls id).tagN = some id := by
  obtain ⟨-, run⟩ := Option.ite_none_right_eq_some.mp run
  obtain ⟨sub, -, rfl⟩ := Option.map_eq_some_iff.mp run
  simp only [submit, AudioRun.setCall, command, if_true]
  exact Function.update_self ..

end AudioRun

end AppleBce

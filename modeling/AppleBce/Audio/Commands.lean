import AppleBce.Audio.OutSlots

namespace AppleBce

open Basis

/-- The message of the call was submitted, or the call has returned without. -/
def AudioPhase.sent : AudioPhase → Bool
  | .starting | .reserved | .prepared => false
  | _ => true

/-- The call has returned. -/
def AudioPhase.over : AudioPhase → Bool
  | .returned _ => true
  | _ => false

namespace AudioCall

/-- The command was sent and has not returned yet. -/
def Entered (call : AudioCall) : Prop :=
  call.phase = .waiting ∨ call.phase = .expired

theorem Entered.not_over {call : AudioCall} (entered : call.Entered) : call.phase.over = false := by
  rcases entered with waiting | expired
  · rw [waiting]
    rfl
  · rw [expired]
    rfl

theorem Entered.sent {call : AudioCall} (entered : call.Entered) : call.phase.sent = true := by
  rcases entered with waiting | expired
  · rw [waiting]
    rfl
  · rw [expired]
    rfl

/-- The command has returned and its reply has arrived. -/
def Done (call : AudioCall) : Prop :=
  call.phase.over = true ∧ call.arrived = true

instance (call : AudioCall) : Decidable call.Done := by
  unfold Done
  infer_instance

theorem Entered.not_done {call : AudioCall} (entered : call.Entered) : ¬call.Done := by
  intro done
  have ended := done.1
  rw [entered.not_over] at ended
  cases ended

end AudioCall

namespace AudioRun

variable {s t : AudioRun} {a : AudioStep} {id other : Nat} {call : AudioCall}

/-- An entry that is left when a slot of the table is cleared. -/
theorem entry_of_cleared {pending : Nat → Option Nat} {tagn n c : Nat}
    (found : Function.update pending tagn none n = some c) : n ≠ tagn ∧ pending n = some c := by
  by_cases here : n = tagn
  · rw [here, Function.update_self] at found
    cases found
  · rw [Function.update_of_ne here] at found
    exact ⟨here, found⟩

/-- What is known of a call from how far it is. -/
structure CallOk (s : AudioRun) (id : Nat) (call : AudioCall) : Prop where
  listed : id ∈ s.commands ↔
    call.command = true ∧ call.phase ≠ .starting ∧ call.phase ≠ .reserved
  untagged : call.command = true → call.tag = none
  starting : call.phase = .starting → call.command = false
  asking : call.Entered → call.command = true
  number : id ∈ s.commands →
    call.tagN = call.number % aaudioBceQueueTagCount ∧ call.number ≤ s.allocs
  last : call.command = true → call.phase = .prepared → call.number = s.allocs
  fresh : call.phase.sent = false → call.cmpl = false ∧ call.arrived = false

/-- The tag counter, the table and the calls. -/
structure CallsOk (s : AudioRun) : Prop where
  tagNum : s.tagNum = s.allocs % aaudioBceQueueTagCount
  distinct : s.commands.Nodup
  calls : ∀ id, s.CallOk id (s.calls id)
  entry : ∀ n c, s.pending n = some c →
    c ∈ s.commands ∧ (s.calls c).tagN = n ∧ (s.calls c).phase.sent = true

theorem CallsOk.tagN_lt (ok : s.CallsOk) (member : id ∈ s.commands) :
    (s.calls id).tagN < aaudioBceQueueTagCount := by
  rw [((ok.calls id).number member).1]
  exact Nat.mod_lt _ (by decide)

theorem CallsOk.entered_mem (ok : s.CallsOk) (entered : (s.calls id).Entered) :
    id ∈ s.commands := by
  refine (ok.calls id).listed.mpr ⟨(ok.calls id).asking entered, ?_, ?_⟩
  · rcases entered with waiting | expired <;> simp [*]
  · rcases entered with waiting | expired <;> simp [*]

theorem init_callsOk : init.CallsOk where
  tagNum := rfl
  distinct := List.nodup_nil
  calls := by
    intro id
    constructor <;> simp [init, AudioCall.start, AudioCall.Entered]
  entry := by simp [init]

/-- How a call may go on without a tag or a place: its phase stays, or a call that was sent, or that
is no command, is behind its submission. It does not begin to wait, and what is done stays so. -/
structure Onward (before after : AudioCall) : Prop where
  command : after.command = before.command
  tag : after.tag = before.tag
  tagN : after.tagN = before.tagN
  number : after.number = before.number
  phase : after.phase = before.phase ∨ after.phase.sent = true ∧
    (before.phase.sent = true ∨ before.command = false) ∧
    (after.Entered → before.Entered) ∧ after.phase ≠ .waiting
  marks : after.phase.sent = false → after.cmpl = before.cmpl ∧ after.arrived = before.arrived
  uncompleted : after.cmpl = false → before.cmpl = false
  done : before.Done → after.Done

theorem Onward.refl (call : AudioCall) : Onward call call :=
  ⟨rfl, rfl, rfl, rfl, .inl rfl, fun _ => ⟨rfl, rfl⟩, fun open_ => open_, fun done => done⟩

theorem Onward.entered {before after : AudioCall} (onward : Onward before after)
    (entered : after.Entered) : before.Entered := by
  rcases onward.phase with same | ⟨-, -, earlier, -⟩
  · rw [AudioCall.Entered, same] at entered
    exact entered
  · exact earlier entered

theorem Onward.waiting {before after : AudioCall} (onward : Onward before after)
    (waiting : after.phase = .waiting) : before.phase = .waiting := by
  rcases onward.phase with same | ⟨-, -, -, not_waiting⟩
  · rw [← same]
    exact waiting
  · exact absurd waiting not_waiting

theorem Onward.sent {before after : AudioCall} (onward : Onward before after)
    (sent : before.phase.sent = true) : after.phase.sent = true := by
  rcases onward.phase with same | ⟨later, -, -⟩
  · rw [same]
    exact sent
  · exact later

theorem Onward.trans {before middle after : AudioCall} (first : Onward before middle)
    (second : Onward middle after) : Onward before after where
  command := second.command.trans first.command
  tag := second.tag.trans first.tag
  tagN := second.tagN.trans first.tagN
  number := second.number.trans first.number
  phase := by
    rcases second.phase with same | ⟨later, earlier, -, not_waiting⟩
    · rw [AudioCall.Entered, same]
      exact first.phase
    · right
      refine ⟨later, ?_, fun entered => first.entered (second.entered entered), not_waiting⟩
      rcases first.phase with same | ⟨-, sent, -⟩
      · rw [same, first.command] at earlier
        exact earlier
      · exact sent
  marks := by
    intro unsent
    have middleUnsent : middle.phase.sent = false := by
      by_contra sent
      rw [second.sent (by simpa using sent)] at unsent
      cases unsent
    obtain ⟨cmpl, arrived⟩ := second.marks unsent
    obtain ⟨firstCmpl, firstArrived⟩ := first.marks middleUnsent
    exact ⟨cmpl.trans firstCmpl, arrived.trans firstArrived⟩
  uncompleted := fun open_ => first.uncompleted (second.uncompleted open_)
  done := fun done => second.done (first.done done)

theorem CallOk.onward {before after : AudioCall} (ok : s.CallOk id before)
    (onward : Onward before after) : s.CallOk id after := by
  have listed := ok.listed
  rcases onward.phase with same | ⟨later, earlier, entered, -⟩
  · constructor
    case listed => rw [onward.command, same]; exact listed
    case untagged => rw [onward.command, onward.tag]; exact ok.untagged
    case starting => rw [onward.command, same]; exact ok.starting
    case asking => rw [onward.command, AudioCall.Entered, same]; exact ok.asking
    case number => rw [onward.tagN, onward.number]; exact ok.number
    case last => rw [onward.command, onward.number, same]; exact ok.last
    case fresh =>
      intro unsent
      obtain ⟨cmpl, arrived⟩ := onward.marks unsent
      rw [cmpl, arrived]
      exact ok.fresh (same ▸ unsent)
  · have behind : after.phase ≠ .starting ∧ after.phase ≠ .reserved ∧ after.phase ≠ .prepared := by
      refine ⟨?_, ?_, ?_⟩ <;> (intro phase; rw [phase] at later; cases later)
    constructor
    case listed =>
      rw [onward.command, listed]
      rcases earlier with sent | silent
      · have ahead : before.phase ≠ .starting ∧ before.phase ≠ .reserved := by
          refine ⟨?_, ?_⟩ <;> (intro phase; rw [phase] at sent; cases sent)
        simp [behind, ahead]
      · simp [silent]
    case untagged => rw [onward.command, onward.tag]; exact ok.untagged
    case starting => exact fun phase => absurd phase behind.1
    case asking => rw [onward.command]; exact fun after => ok.asking (entered after)
    case number => rw [onward.tagN, onward.number]; exact ok.number
    case last => exact fun _ phase => absurd phase behind.2.2
    case fresh => simp [later]

theorem Onward.to_phase {before : AudioCall} {phase : AudioPhase}
    (later : phase = .expired ∨ phase.over = true)
    (earlier : before.Entered ∨ before.command = false ∧ before.phase.sent = false)
    (entered : phase = .expired → before.Entered) : Onward before { before with phase } := by
  have sent : phase.sent = true := by
    rcases later with expired | ended
    · rw [expired]
      rfl
    · cases phase <;> simp_all [AudioPhase.over, AudioPhase.sent]
  have not_waiting : phase ≠ .waiting := by
    rintro rfl
    simp [AudioPhase.over] at later
  refine ⟨rfl, rfl, rfl, rfl, .inr ⟨sent, ?_, ?_, not_waiting⟩, fun _ => ⟨rfl, rfl⟩,
    fun open_ => open_, ?_⟩
  · exact earlier.imp (fun entered => entered.sent) fun silent => silent.1
  · rintro (waiting | expired)
    · exact absurd waiting not_waiting
    · exact entered expired
  · intro done
    rcases earlier with entered | ⟨-, unsent⟩
    · exact absurd done entered.not_done
    · have ended := done.1
      cases old : before.phase <;> simp_all [AudioPhase.over, AudioPhase.sent]

theorem Onward.to_marks {before : AudioCall} (sent : before.phase.sent = true)
    (reply : AaudioMsg Byte) {cmpl arrived : Bool} (completed : before.cmpl = true → cmpl = true)
    (answered : before.arrived = true → arrived = true) :
    Onward before { before with reply, cmpl, arrived } := by
  refine ⟨rfl, rfl, rfl, rfl, .inl rfl, by simp [sent], ?_, ?_⟩
  · intro open_
    by_contra old
    rw [completed (by simpa using old)] at open_
    cases open_
  · exact fun done => ⟨done.1, answered done.2⟩

/-- What other calls do does not matter to a call that holds no spinlock. -/
theorem CallOk.later (ok : s.CallOk id call) (commands : id ∈ t.commands ↔ id ∈ s.commands)
    (allocs : s.allocs ≤ t.allocs) (last : call.phase = .prepared → t.allocs = s.allocs) :
    t.CallOk id call where
  listed := commands.trans ok.listed
  untagged := ok.untagged
  starting := ok.starting
  asking := ok.asking
  number := by
    intro member
    obtain ⟨tag, bound⟩ := ok.number (commands.mp member)
    exact ⟨tag, bound.trans allocs⟩
  last := by
    intro command prepared
    rw [last prepared]
    exact ok.last command prepared
  fresh := ok.fresh

/-- A step that allocates no tag, and enters nothing into the table. -/
theorem CallsOk.onward (ok : s.CallsOk) (tagNum : t.tagNum = s.tagNum) (allocs : t.allocs = s.allocs)
    (commands : t.commands = s.commands)
    (pending : ∀ n c, t.pending n = some c → s.pending n = some c)
    (calls : ∀ c, Onward (s.calls c) (t.calls c)) : t.CallsOk where
  tagNum := by
    rw [tagNum, allocs]
    exact ok.tagNum
  distinct := by
    rw [commands]
    exact ok.distinct
  calls := by
    intro id
    have same := (ok.calls id).onward (calls id)
    exact same.later (by rw [commands]) allocs.ge fun _ => allocs
  entry := by
    intro n c found
    obtain ⟨member, tag, sent⟩ := ok.entry n c (pending n c found)
    rw [commands, (calls c).tagN]
    exact ⟨member, tag, (calls c).sent sent⟩

/-- A call that was not sent is in no entry. -/
theorem CallsOk.not_entry (ok : s.CallsOk) (unsent : (s.calls id).phase.sent = false) {n c : Nat}
    (found : s.pending n = some c) : c ≠ id := by
  rintro rfl
  have sent := (ok.entry n c found).2.2
  rw [unsent] at sent
  cases sent

theorem CallsOk.reserve (ok : s.CallsOk) (starting : (s.calls id).phase = .starting)
    (out : SubmissionRun) (reserved : List Nat) (phase : call.phase = .reserved)
    (untagged : call.command = true → call.tag = none)
    (fresh : call.cmpl = (s.calls id).cmpl ∧ call.arrived = (s.calls id).arrived) :
    CallsOk ({ s with out, reserved }.setCall id call) where
  tagNum := ok.tagNum
  distinct := ok.distinct
  calls := by
    intro other
    by_cases same : other = id
    · rw [same, setCall_self]
      have absent : id ∉ s.commands := by simp [(ok.calls id).listed, starting]
      have silent : ¬call.Entered := by simp [AudioCall.Entered, phase]
      constructor
      case listed => exact iff_of_false absent (by simp [phase])
      case untagged => exact untagged
      case starting => simp [phase]
      case asking => exact fun entered => absurd entered silent
      case number => exact fun member => absurd member absent
      case last => simp [phase]
      case fresh =>
        rw [fresh.1, fresh.2]
        exact fun _ => (ok.calls id).fresh (by rw [starting]; rfl)
    · rw [setCall_other call same]
      exact (ok.calls other).later .rfl le_rfl fun _ => rfl
  entry := by
    intro n c found
    have apart : c ≠ id := ok.not_entry (by rw [starting]; rfl) found
    rw [setCall_other call apart]
    exact ok.entry n c found

/-- `__aaudio_send_prepare` numbers the command by its tag. -/
theorem CallsOk.prepare (ok : s.CallsOk) (out : s.OutOk) (reserved : (s.calls id).phase = .reserved)
    (free : s.lock = .free) : (s.sendPrepare id).CallsOk := by
  have absent : id ∉ s.commands := by simp [(ok.calls id).listed, reserved]
  have unprepared : ∀ other, (s.calls other).phase ≠ .prepared := by
    intro other prepared
    have held := (out.writer other).mp prepared
    rw [free] at held
    cases held
  have fresh := (ok.calls id).fresh (by rw [reserved]; rfl)
  simp only [sendPrepare]
  split
  · rename_i tag tagged
    have silent : (s.calls id).command = false := by
      by_contra command
      rw [(ok.calls id).untagged (by simpa using command)] at tagged
      cases tagged
    constructor
    case tagNum => exact ok.tagNum
    case distinct => exact ok.distinct
    case calls =>
      intro other
      by_cases same : other = id
      · rw [same, setCall_self]
        constructor
        case listed => exact iff_of_false absent (by simp [silent])
        case untagged => simp [silent]
        case starting => simp
        case asking => simp [AudioCall.Entered]
        case number => exact fun member => absurd member absent
        case last => simp [silent]
        case fresh => exact fun _ => fresh
      · rw [setCall_other _ same]
        exact (ok.calls other).later .rfl le_rfl fun _ => rfl
    case entry =>
      intro n c found
      have apart : c ≠ id := ok.not_entry (by rw [reserved]; rfl) found
      rw [setCall_other _ apart]
      exact ok.entry n c found
  · rename_i untagged
    have more : ∀ other, other ∈ (if (s.calls id).command then s.commands ++ [id] else s.commands) ↔
        other ∈ s.commands ∨ other = id ∧ (s.calls id).command = true := by
      intro other
      split <;> simp [*]
    constructor
    case tagNum =>
      simp only [AudioRun.setCall, ok.tagNum]
      rw [Nat.mod_add_mod]
    case distinct =>
      simp only [AudioRun.setCall]
      split
      · exact List.nodup_append.mpr ⟨ok.distinct, by simp, by grind⟩
      · exact ok.distinct
    case calls =>
      intro other
      by_cases same : other = id
      · rw [same, setCall_self]
        constructor
        case listed => simp [AudioRun.setCall, more, absent]
        case untagged => exact fun _ => untagged
        case starting => simp
        case asking => simp [AudioCall.Entered]
        case number =>
          intro _
          refine ⟨?_, le_rfl⟩
          simp only [ok.tagNum]
          rw [Nat.mod_add_mod]
        case last => exact fun _ _ => rfl
        case fresh => exact fun _ => fresh
      · rw [setCall_other _ same]
        refine (ok.calls other).later ?_ (Nat.le_succ _) ?_
        · simp [AudioRun.setCall, more, same]
        · exact fun prepared => absurd prepared (unprepared other)
    case entry =>
      intro n c found
      have apart : c ≠ id := ok.not_entry (by rw [reserved]; rfl) found
      rw [setCall_other _ apart]
      obtain ⟨member, tag, sent⟩ := ok.entry n c found
      exact ⟨(more c).mpr (.inl member), tag, sent⟩

theorem CallsOk.submit (ok : s.CallsOk) (prepared : (s.calls id).phase = .prepared)
    (out : SubmissionRun) : (s.submit id out).CallsOk := by
  have unsent : (s.calls id).phase.sent = false := by rw [prepared]; rfl
  have self := ok.calls id
  constructor
  case tagNum => exact ok.tagNum
  case distinct => exact ok.distinct
  case calls =>
    intro other
    simp only [AudioRun.submit]
    by_cases same : other = id
    · rw [same, setCall_self]
      have listed : id ∈ s.commands ↔ (s.calls id).command = true := by simp [self.listed, prepared]
      by_cases command : (s.calls id).command = true
      · constructor <;> simp [AudioRun.setCall, AudioCall.Entered, AudioPhase.sent, command, listed]
        · exact self.untagged command
        · exact self.number (listed.mpr command)
      · constructor <;> simp [AudioRun.setCall, AudioCall.Entered, AudioPhase.sent, command, listed]
    · rw [setCall_other _ same]
      exact (ok.calls other).later .rfl le_rfl fun _ => rfl
  case entry =>
    intro n c found
    simp only [AudioRun.submit, AudioRun.setCall] at found
    split at found
    · rename_i command
      by_cases here : n = (s.calls id).tagN
      · rw [here, Function.update_self] at found
        rw [← Option.some.inj found, here]
        have member : id ∈ s.commands := self.listed.mpr (by simp [command, prepared])
        simp only [AudioRun.submit, setCall_self, command, if_true]
        exact ⟨member, trivial, rfl⟩
      · rw [Function.update_of_ne here] at found
        simp only [AudioRun.submit, setCall_other _ (ok.not_entry unsent found)]
        exact ok.entry n c found
    · simp only [AudioRun.submit, setCall_other _ (ok.not_entry unsent found)]
      exact ok.entry n c found

theorem CallsOk.handleMsg_onward (ok : s.CallsOk) (msg : AaudioMsg Byte) (c : Nat) :
    Onward (s.calls c) ((s.handleMsg msg).calls c) := by
  rcases s.handleMsg_cases msg with same | ⟨tagn, entry, -, found, delivered⟩
  · rw [same]
    exact .refl _
  · rw [delivered, AudioRun.deliver]
    by_cases same : c = entry
    · rw [same, setCall_self]
      exact .to_marks (ok.entry tagn entry found).2.2 _ (fun _ => rfl) fun arrived => arrived
    · rw [setCall_other _ same]
      exact .refl _

theorem handleMsg_records (s : AudioRun) (msg : AaudioMsg Byte) :
    (s.handleMsg msg).tagNum = s.tagNum ∧ (s.handleMsg msg).allocs = s.allocs ∧
    (s.handleMsg msg).commands = s.commands ∧ (s.handleMsg msg).pending = s.pending ∧
    (s.handleMsg msg).inFlight = s.inFlight := by
  rcases s.handleMsg_cases msg with same | ⟨tagn, entry, -, -, delivered⟩
  · simp [same]
  · simp [delivered, deliver, AudioRun.setCall]

/-- What a step may do to a call. -/
inductive CallMove (s t : AudioRun) (a : AudioStep) (c : Nat) : Prop
  | onward (onward : Onward (s.calls c) (t.calls c))
  | reserve (kind : AudioKind) (label : a = .reserve c kind)
      (before : (s.calls c).phase = .starting) (after : (t.calls c).phase = .reserved)
  | prepare (label : a = .prepare c)
      (before : (s.calls c).phase = .reserved) (after : (t.calls c).phase = .prepared)
  | send (label : a = .send c) (before : (s.calls c).phase = .prepared)
      (command : (s.calls c).command = true)
      (after : t.calls c = { s.calls c with phase := .waiting })

theorem CallMove.of_setCall {base : AudioRun} (calls : base.calls = s.calls) (c : Nat)
    (self : CallMove s (base.setCall id call) a id) : CallMove s (base.setCall id call) a c := by
  by_cases same : c = id
  · rw [same]
    exact self
  · refine .onward ?_
    rw [setCall_other call same, calls]
    exact .refl _

theorem CallMove.self {base : AudioRun} (onward : Onward (s.calls id) call) :
    CallMove s (base.setCall id call) a id := by
  refine .onward ?_
  rw [setCall_self]
  exact onward

theorem CallsOk.step_calls (ok : s.CallsOk) (out : s.OutOk) (run : s.step a = some t) (c : Nat) :
    CallMove s t a c := by
  cases a with
  | reserve id kind =>
    obtain ⟨starting, run⟩ := Option.ite_none_right_eq_some.mp run
    obtain ⟨sub, -, rfl⟩ := Option.map_eq_some_iff.mp run
    refine .of_setCall (by rfl) c (.reserve kind rfl starting ?_)
    rw [setCall_self]
  | giveUp id =>
    obtain ⟨starting, run⟩ := Option.ite_none_right_eq_some.mp run
    cases Option.some.inj run
    have silent := (ok.calls id).starting starting
    refine .of_setCall rfl c (.self (.to_phase (.inr rfl) (.inr ⟨silent, ?_⟩) (by simp)))
    rw [starting]
    rfl
  | prepare id =>
    obtain ⟨⟨reserved, -⟩, run⟩ := Option.ite_none_right_eq_some.mp run
    cases Option.some.inj run
    simp only [sendPrepare]
    split
    · refine .of_setCall (by rfl) c (.prepare rfl reserved ?_)
      rw [setCall_self]
    · refine .of_setCall (by rfl) c (.prepare rfl reserved ?_)
      rw [setCall_self]
  | send id =>
    obtain ⟨held, run⟩ := Option.ite_none_right_eq_some.mp run
    obtain ⟨sub, -, rfl⟩ := Option.map_eq_some_iff.mp run
    have prepared := (out.writer id).mpr held
    refine .of_setCall (by rfl) c ?_
    by_cases command : (s.calls id).command = true
    · refine .send rfl prepared command ?_
      rw [setCall_self]
      simp only [command, if_true]
    · refine .self (.to_phase (.inr ?_) (.inr ⟨by simpa using command, ?_⟩) ?_)
      · simp [command, AudioPhase.over]
      · rw [prepared]
        rfl
      · simp [command]
  | deviceComplete _ _ _ | harvest | nextCompletion | notify =>
    obtain ⟨sub, -, rfl⟩ := Option.map_eq_some_iff.mp run
    exact .onward (.refl _)
  | wake id | expire id =>
    obtain ⟨⟨waiting, -⟩, run⟩ := Option.ite_none_right_eq_some.mp run
    cases Option.some.inj run
    have entered : (s.calls id).Entered := .inl waiting
    exact .of_setCall rfl c
      (.self (.to_phase (by simp [AudioPhase.over]) (.inl entered) fun _ => entered))
  | cleanUp id =>
    obtain ⟨⟨expired, -⟩, run⟩ := Option.ite_none_right_eq_some.mp run
    cases Option.some.inj run
    have entered : (s.calls id).Entered := .inr expired
    exact .of_setCall (by rfl) c (.self (.to_phase (.inr rfl) (.inl entered) fun _ => entered))
  | reply id msg =>
    obtain ⟨⟨-, answers⟩, run⟩ := Option.ite_none_right_eq_some.mp run
    cases Option.some.inj run
    obtain ⟨member, unprepared, -⟩ := answers
    obtain ⟨-, started, placed⟩ := (ok.calls id).listed.mp member
    have sent : (s.calls id).phase.sent = true := by
      cases phase : (s.calls id).phase <;> simp_all [AudioPhase.sent]
    have handled := ok.handleMsg_onward msg
    refine .onward ?_
    by_cases same : c = id
    · rw [same, setCall_self]
      exact (handled id).trans
        (.to_marks ((handled id).sent sent) _ (fun completed => completed) fun _ => rfl)
    · rw [setCall_other _ same]
      exact handled c
  | stray msg =>
    obtain ⟨-, run⟩ := Option.ite_none_right_eq_some.mp run
    cases Option.some.inj run
    exact .onward (ok.handleMsg_onward msg c)
  | clear =>
    simp only [AudioRun.step] at run
    split at run
    · cases Option.some.inj run
      exact .onward (.refl _)
    · cases run

/-- Only a send enters a command into the table. -/
theorem step_pending (run : s.step a = some t) {n c : Nat} (found : t.pending n = some c) :
    s.pending n = some c ∨ a = .send c ∧ (s.calls c).command = true ∧ n = (s.calls c).tagN := by
  cases a with
  | reserve id kind =>
    obtain ⟨-, run⟩ := Option.ite_none_right_eq_some.mp run
    obtain ⟨sub, -, rfl⟩ := Option.map_eq_some_iff.mp run
    exact .inl found
  | prepare id =>
    obtain ⟨-, run⟩ := Option.ite_none_right_eq_some.mp run
    cases Option.some.inj run
    simp only [sendPrepare] at found
    split at found
    · exact .inl found
    · exact .inl found
  | send id =>
    obtain ⟨-, run⟩ := Option.ite_none_right_eq_some.mp run
    obtain ⟨sub, -, rfl⟩ := Option.map_eq_some_iff.mp run
    simp only [submit, AudioRun.setCall] at found
    split at found
    · rename_i command
      by_cases here : n = (s.calls id).tagN
      · rw [here, Function.update_self] at found
        cases Option.some.inj found
        exact .inr ⟨rfl, command, here⟩
      · rw [Function.update_of_ne here] at found
        exact .inl found
    · exact .inl found
  | deviceComplete _ _ _ | harvest | nextCompletion | notify =>
    obtain ⟨sub, -, rfl⟩ := Option.map_eq_some_iff.mp run
    exact .inl found
  | giveUp id | wake id | expire id =>
    obtain ⟨-, run⟩ := Option.ite_none_right_eq_some.mp run
    cases Option.some.inj run
    exact .inl found
  | cleanUp id =>
    obtain ⟨-, run⟩ := Option.ite_none_right_eq_some.mp run
    cases Option.some.inj run
    simp only [AudioRun.setCall] at found
    split at found
    · exact .inl (entry_of_cleared found).2
    · exact .inl found
  | reply id msg | stray msg =>
    obtain ⟨-, run⟩ := Option.ite_none_right_eq_some.mp run
    cases Option.some.inj run
    have found : (s.handleMsg msg).pending n = some c := found
    rw [(s.handleMsg_records msg).2.2.2.1] at found
    exact .inl found
  | clear =>
    simp only [AudioRun.step] at run
    split at run
    · cases Option.some.inj run
      exact .inl (entry_of_cleared found).2
    · cases run

/-- Only `__aaudio_send_prepare` allocates a tag. -/
theorem step_records (run : s.step a = some t) (other : ∀ id, a ≠ .prepare id) :
    t.tagNum = s.tagNum ∧ t.allocs = s.allocs ∧ t.commands = s.commands := by
  cases a with
  | reserve id kind =>
    obtain ⟨-, run⟩ := Option.ite_none_right_eq_some.mp run
    obtain ⟨sub, -, rfl⟩ := Option.map_eq_some_iff.mp run
    exact ⟨rfl, rfl, rfl⟩
  | prepare id => exact absurd rfl (other id)
  | send id =>
    obtain ⟨-, run⟩ := Option.ite_none_right_eq_some.mp run
    obtain ⟨sub, -, rfl⟩ := Option.map_eq_some_iff.mp run
    exact ⟨rfl, rfl, rfl⟩
  | deviceComplete _ _ _ | harvest | nextCompletion | notify =>
    obtain ⟨sub, -, rfl⟩ := Option.map_eq_some_iff.mp run
    exact ⟨rfl, rfl, rfl⟩
  | giveUp id | wake id | expire id | cleanUp id =>
    obtain ⟨-, run⟩ := Option.ite_none_right_eq_some.mp run
    cases Option.some.inj run
    exact ⟨rfl, rfl, rfl⟩
  | reply id msg | stray msg =>
    obtain ⟨-, run⟩ := Option.ite_none_right_eq_some.mp run
    cases Option.some.inj run
    obtain ⟨tagNum, allocs, commands, -⟩ := s.handleMsg_records msg
    exact ⟨tagNum, allocs, commands⟩
  | clear =>
    simp only [AudioRun.step] at run
    split at run
    · cases Option.some.inj run
      exact ⟨rfl, rfl, rfl⟩
    · cases run

theorem CallsOk.step (ok : s.CallsOk) (out : s.OutOk) (run : s.step a = some t) : t.CallsOk := by
  by_cases special : (∃ id kind, a = .reserve id kind) ∨ (∃ id, a = .prepare id) ∨
    ∃ id, a = .send id
  · rcases special with ⟨id, kind, rfl⟩ | ⟨id, rfl⟩ | ⟨id, rfl⟩
    · obtain ⟨starting, run⟩ := Option.ite_none_right_eq_some.mp run
      obtain ⟨sub, -, rfl⟩ := Option.map_eq_some_iff.mp run
      refine ok.reserve starting sub _ rfl ?_ ⟨rfl, rfl⟩
      cases kind <;> simp [AudioKind.isCommand]
    · obtain ⟨⟨reserved, free⟩, run⟩ := Option.ite_none_right_eq_some.mp run
      cases Option.some.inj run
      exact ok.prepare out reserved free
    · obtain ⟨held, run⟩ := Option.ite_none_right_eq_some.mp run
      obtain ⟨sub, -, rfl⟩ := Option.map_eq_some_iff.mp run
      exact ok.submit ((out.writer id).mpr held) sub
  · simp only [not_or, not_exists] at special
    obtain ⟨notReserve, notPrepare, notSend⟩ := special
    obtain ⟨tagNum, allocs, commands⟩ := step_records run notPrepare
    refine ok.onward tagNum allocs commands ?_ ?_
    · intro n c found
      rcases step_pending run found with old | ⟨label, -⟩
      · exact old
      · exact absurd label (notSend c)
    · intro c
      cases ok.step_calls out run c with
      | onward onward => exact onward
      | reserve kind label _ _ => exact absurd label (notReserve c kind)
      | prepare label _ _ => exact absurd label (notPrepare c)
      | send label _ _ _ => exact absurd label (notSend c)

/-- A command keeps its tag, and one that is done stays so. -/
theorem CallsOk.step_command (ok : s.CallsOk) (out : s.OutOk) (run : s.step a = some t)
    (member : id ∈ s.commands) : (t.calls id).tagN = (s.calls id).tagN ∧
      ((s.calls id).Done → (t.calls id).Done) := by
  obtain ⟨-, started, placed⟩ := (ok.calls id).listed.mp member
  cases ok.step_calls out run id with
  | onward onward => exact ⟨onward.tagN, onward.done⟩
  | reserve _ _ before _ => exact absurd before started
  | prepare _ before _ => exact absurd before placed
  | send _ before _ after =>
    rw [after]
    refine ⟨rfl, fun done => ?_⟩
    have ended := done.1
    rw [before] at ended
    cases ended

/-- Only a send makes a command wait. -/
theorem CallsOk.step_entered (ok : s.CallsOk) (out : s.OutOk) (run : s.step a = some t)
    (waits : (t.calls id).Entered ∧ (t.calls id).cmpl = false) :
    (s.calls id).Entered ∧ (s.calls id).cmpl = false ∨
      a = .send id ∧ (s.calls id).command = true := by
  obtain ⟨entered, open_⟩ := waits
  cases ok.step_calls out run id with
  | onward onward => exact .inl ⟨onward.entered entered, onward.uncompleted open_⟩
  | reserve _ _ _ after | prepare _ _ after => simp [AudioCall.Entered, after] at entered
  | send label _ command _ => exact .inr ⟨label, command⟩

theorem CallsOk.step_waiting (ok : s.CallsOk) (out : s.OutOk) (run : s.step a = some t)
    (waits : (t.calls id).phase = .waiting ∧ (t.calls id).cmpl = false) :
    (s.calls id).phase = .waiting ∧ (s.calls id).cmpl = false ∨
      a = .send id ∧ (s.calls id).command = true := by
  obtain ⟨waiting, open_⟩ := waits
  cases ok.step_calls out run id with
  | onward onward => exact .inl ⟨onward.waiting waiting, onward.uncompleted open_⟩
  | reserve _ _ _ after | prepare _ _ after => simp [after] at waiting
  | send label _ command _ => exact .inr ⟨label, command⟩

theorem callsOk (reach : machine.Reachable s) : s.CallsOk := by
  refine Machine.ReachableUnder.invariant_of (fun _ reach => outOk reach) ?_ ?_ reach
  · rintro _ rfl
    exact init_callsOk
  · exact fun _ _ _ out ok _ run => ok.step out run

end AudioRun

end AppleBce

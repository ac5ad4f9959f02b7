import AppleBce.Mailbox.SaveRestore

namespace AppleBce

open Basis

/-- A message the T2 was given, with the send that wrote it. -/
structure Posted where
  send : Nat
  msg : BitVec 64
  deriving DecidableEq, Repr

/-- A suspend that returned 0 after `BCE_MB_SAVE_RESTORE_STATE_COMPLETE`: its send, the message
that reply answers, and the buffer the suspend recorded. -/
structure CompletedSave where
  send : Nat
  answered : Option Posted
  saved : Option SaveBuffer
  deriving DecidableEq, Repr

/-- Suspends and resumes over the mailbox and the T2. The sends are numbered in their order, and
`sending` is the one that runs. The T2 has the messages in `posted` before it and the replies in
`replies` waiting for the interrupt. `origin` is the message that `mb_result` answers and `held`
that of the value a send has read. -/
structure SaveReplies where
  pm : PmRun
  box : MailboxRun
  sends : Nat
  sending : Option Nat
  posted : List Posted
  replies : List (Posted × BitVec 64)
  origin : Option Posted
  held : Nat → Option Posted
  completed : List CompletedSave

/-- A step of a call outside its sends, a step of the mailbox, an answer of the T2 after any number
of messages it leaves unanswered, or the return of the running send to its call. -/
inductive SaveReplyStep
  | pm (a : PmStep)
  | mailbox (a : MailboxStep)
  | answer (skipped : Nat) (reply : BitVec 64)
  | returns
  deriving DecidableEq

namespace SaveReplies

def start : SaveReplies where
  pm := .start
  box := .start
  sends := 0
  sending := none
  posted := []
  replies := []
  origin := none
  held := fun _ => none
  completed := []

/-- How `bce_mailbox_send` returned. -/
def outcome : SendPhase → Option (Except Errno (BitVec 64))
  | .returned recv => some (.ok recv)
  | .failed status => some (.error status)
  | _ => none

/-- What a step of the mailbox means for the T2 and for the calls. -/
def mailboxStep (s : SaveReplies) (a : MailboxStep) : Option SaveReplies :=
  match s.box.step a with
  | none => none
  | some box =>
    match a with
    | .claim id msg =>
      if s.sending = none ∧ id = s.sends ∧ s.pm.outgoing = some msg then
        some { s with box, sends := s.sends + 1, sending := some id }
      else none
    | .write id => some { s with box, posted := s.posted ++ [⟨id, s.box.msg id⟩] }
    | .read id => some { s with box, held := Function.update s.held id s.origin }
    | .interrupt res =>
      if MailboxRun.replyCount res ≤ s.replies.length then some { s with box } else none
    | .reply lo hi =>
      match s.replies with
      | [] => none
      | (message, reply) :: replies =>
        if hi ++ lo = reply then some { s with box, replies, origin := some message } else none
    | .rearm _ | .wake _ | .expire _ | .check _ | .reset _ | .decide | .complete =>
      some { s with box }

/-- A suspend that returns 0 with its state saved. -/
def completes (s : SaveReplies) (id : Nat) (result : Except Errno (BitVec 64)) (pm : PmRun) :
    List CompletedSave :=
  match s.pm.stage, result with
  | .saveSend .., .ok resp =>
    if bceMbType resp = BceMessageType.saveRestoreStateComplete.code then
      [⟨id, s.held id, pm.recorded⟩]
    else []
  | _, _ => []

def step (s : SaveReplies) : SaveReplyStep → Option SaveReplies
  | .pm (.sent _) => none
  | .pm a => (s.pm.step a).map fun pm => { s with pm }
  | .mailbox a => s.mailboxStep a
  | .answer skipped reply =>
    match s.posted.drop skipped with
    | [] => none
    | message :: posted => some { s with posted, replies := s.replies ++ [(message, reply)] }
  | .returns =>
    match s.sending with
    | none => none
    | some id =>
      match outcome (s.box.phase id) with
      | none => none
      | some result =>
        match s.pm.step (.sent result) with
        | none => none
        | some pm =>
          some { s with pm, sending := none, completed := s.completed ++ s.completes id result pm }

/-- All runs of suspends and resumes, with the T2 answering each message at most once, in order. -/
def machine : Machine SaveReplies SaveReplyStep where
  init s := s = start
  step := step

/-- A save may still read its reply, and this one completes it but answers another message. -/
def late (s : SaveReplies) (answered : Option Posted) (reply : BitVec 64) : Bool :=
  match s.pm.stage, s.sending with
  | .saveSend .., some id =>
    (s.box.phase id).mayRead && bceMbType reply == BceMessageType.saveRestoreStateComplete.code &&
      answered.map Posted.send != some id
  | _, _ => false

/-- No interrupt hands a late reply to a save, nor puts one over a reply handed to it. -/
def SparesSave (s : SaveReplies) : SaveReplyStep → Prop
  | .mailbox .decide =>
    match s.box.irq with
    | .retrieving (_ + 1) 0 => s.box.mb.mbStatus = 1 → s.late s.origin s.box.mb.mbResult = false
    | _ => True
  | .mailbox (.reply lo hi) =>
    s.box.mb.mbStatus = 2 → s.late (s.replies.head?.map Prod.fst) (hi ++ lo) = false
  | _ => True

instance (s : SaveReplies) (a : SaveReplyStep) : Decidable (s.SparesSave a) := by
  unfold SparesSave
  split
  · split <;> infer_instance
  · infer_instance
  · infer_instance

variable {s t : SaveReplies} {a : SaveReplyStep} {id : Nat}

/-- A step of the mailbox: the next send claims it, a message is written, a reply is taken or read,
or the T2 and the calls have no part in it. -/
theorem mailbox_cases {b : MailboxStep} (run : s.mailboxStep b = some t) :
    s.box.step b = some t.box ∧
    ((∃ msg, b = .claim s.sends msg ∧ s.sending = none ∧ s.pm.outgoing = some msg ∧
        t = { s with box := t.box, sends := s.sends + 1, sending := some s.sends }) ∨
      (∃ id, b = .write id ∧
        t = { s with box := t.box, posted := s.posted ++ [⟨id, s.box.msg id⟩] }) ∨
      (∃ id, b = .read id ∧ t = { s with box := t.box, held := Function.update s.held id s.origin }) ∨
      (∃ lo hi message replies, b = .reply lo hi ∧ s.replies = (message, hi ++ lo) :: replies ∧
        t = { s with box := t.box, replies, origin := some message }) ∨
      ((∀ id msg, b ≠ .claim id msg) ∧ (∀ id, b ≠ .read id) ∧ (∀ lo hi, b ≠ .reply lo hi) ∧
        t = { s with box := t.box })) := by
  unfold mailboxStep at run
  cases moved : s.box.step b with
  | none => simp [moved] at run
  | some box =>
    rw [moved] at run
    cases b with
    | claim id msg =>
      obtain ⟨⟨idle, rfl, sends⟩, run⟩ := Option.ite_none_right_eq_some.mp run
      cases Option.some.inj run
      exact ⟨rfl, .inl ⟨msg, rfl, idle, sends, rfl⟩⟩
    | write id =>
      cases Option.some.inj run
      exact ⟨rfl, .inr (.inl ⟨id, rfl, rfl⟩)⟩
    | read id =>
      cases Option.some.inj run
      exact ⟨rfl, .inr (.inr (.inl ⟨id, rfl, rfl⟩))⟩
    | reply lo hi =>
      simp only at run
      split at run
      · cases run
      next message reply replies queue =>
        obtain ⟨same, run⟩ := Option.ite_none_right_eq_some.mp run
        cases Option.some.inj run
        exact ⟨rfl, .inr (.inr (.inr (.inl ⟨lo, hi, message, replies, rfl, same ▸ queue, rfl⟩)))⟩
    | interrupt res =>
      obtain ⟨-, run⟩ := Option.ite_none_right_eq_some.mp run
      cases Option.some.inj run
      exact ⟨rfl, .inr (.inr (.inr (.inr ⟨nofun, nofun, nofun, rfl⟩)))⟩
    | rearm | wake | expire | check | reset | decide | complete =>
      cases Option.some.inj run
      exact ⟨rfl, .inr (.inr (.inr (.inr ⟨nofun, nofun, nofun, rfl⟩)))⟩

theorem mailbox_pm {b : MailboxStep} (run : s.mailboxStep b = some t) : t.pm = s.pm := by
  obtain ⟨-, ⟨_, _, _, _, same⟩ | ⟨_, _, same⟩ | ⟨_, _, same⟩ | ⟨_, _, _, _, _, _, same⟩ |
    ⟨_, _, _, same⟩⟩ := mailbox_cases run
  all_goals rw [same]

theorem mailbox_completed {b : MailboxStep} (run : s.mailboxStep b = some t) :
    t.completed = s.completed := by
  obtain ⟨-, ⟨_, _, _, _, same⟩ | ⟨_, _, same⟩ | ⟨_, _, same⟩ | ⟨_, _, _, _, _, _, same⟩ |
    ⟨_, _, _, same⟩⟩ := mailbox_cases run
  all_goals rw [same]

theorem returns_run (run : s.step .returns = some t) : ∃ id result pm, s.sending = some id ∧
    outcome (s.box.phase id) = some result ∧ s.pm.step (.sent result) = some pm ∧
    t = { s with pm, sending := none, completed := s.completed ++ s.completes id result pm } := by
  simp only [step] at run
  split at run
  · cases run
  next id sending =>
    split at run
    · cases run
    next result returned =>
      split at run
      · cases run
      next pm moved => exact ⟨id, result, pm, sending, returned, moved, (Option.some.inj run).symm⟩

theorem pm_run {b : PmStep} (run : s.step (.pm b) = some t) :
    ∃ pm, s.pm.step b = some pm ∧ (∀ result, b ≠ .sent result) ∧ t = { s with pm } := by
  cases b with
  | sent result => cases run
  | suspend | alloc | resume | poll =>
    obtain ⟨pm, moved, rfl⟩ := Option.map_eq_some_iff.mp run
    exact ⟨pm, moved, nofun, rfl⟩

theorem parts_reachable (reach : machine.Reachable s) :
    PmRun.machine.Reachable s.pm ∧ MailboxRun.machine.Reachable s.box := by
  refine reach.invariant
    (I := fun s => PmRun.machine.Reachable s.pm ∧ MailboxRun.machine.Reachable s.box) ?_ ?_
  · rintro _ rfl
    exact ⟨.start rfl, .start rfl⟩
  · rintro s a t ⟨pmReach, boxReach⟩ run
    cases a with
    | pm b =>
      obtain ⟨pm, moved, -, rfl⟩ := pm_run run
      exact ⟨pmReach.next (a := b) moved, boxReach⟩
    | mailbox b =>
      have moved := (mailbox_cases run).1
      exact ⟨mailbox_pm run ▸ pmReach, boxReach.next moved⟩
    | answer skipped reply =>
      simp only [machine, step] at run
      split at run
      · cases run
      · cases Option.some.inj run
        exact ⟨pmReach, boxReach⟩
    | returns =>
      obtain ⟨id, result, pm, -, -, moved, rfl⟩ := returns_run run
      exact ⟨pmReach.next (a := .sent result) moved, boxReach⟩

/-- The message is one that a send has written, as that send has it. -/
def Known (s : SaveReplies) (message : Posted) : Prop :=
  message.send < s.sends ∧ message.msg = s.box.msg message.send

/-- The sends that have begun have the numbers below `sends`, and what the T2 was given and has
answered is what they wrote. -/
structure Numbered (s : SaveReplies) : Prop where
  fresh : ∀ id, s.sends ≤ id → s.box.phase id = .starting
  running : ∀ id, s.sending = some id → id < s.sends ∧ s.pm.outgoing = some (s.box.msg id)
  posted : ∀ message ∈ s.posted, s.Known message
  replies : ∀ reply ∈ s.replies, s.Known reply.1
  origin : ∀ message, s.origin = some message → s.Known message
  held : ∀ id message, s.held id = some message → s.Known message

theorem start_numbered : start.Numbered := by
  constructor <;> simp [start, MailboxRun.start]

/-- A send that has begun keeps its message. -/
theorem mailbox_known {b : MailboxStep} (run : s.mailboxStep b = some t) {message : Posted}
    (known : s.Known message) : t.Known message := by
  have frame := (MailboxRun.step_frame (mailbox_cases run).1).2.2 message.send
  obtain ⟨-, ⟨msg, rfl, -, -, same⟩ | ⟨id, rfl, same⟩ | ⟨id, rfl, same⟩ |
    ⟨lo, hi, next, replies, rfl, -, same⟩ | ⟨unclaimed, -, -, same⟩⟩ := mailbox_cases run
  · have below := known.1
    have kept := frame fun m claim => absurd (MailboxStep.claim.inj claim).1 (by omega)
    refine ⟨?_, known.2.trans kept.symm⟩
    have more : t.sends = s.sends + 1 := by rw [same]
    omega
  · exact ⟨by rw [same]; exact known.1, known.2.trans (frame nofun).symm⟩
  · exact ⟨by rw [same]; exact known.1, known.2.trans (frame nofun).symm⟩
  · exact ⟨by rw [same]; exact known.1, known.2.trans (frame nofun).symm⟩
  · exact ⟨by rw [same]; exact known.1, known.2.trans (frame (unclaimed _)).symm⟩

/-- A send that has not begun does nothing. -/
theorem mailbox_fresh {b : MailboxStep} (numbered : s.Numbered) (run : s.mailboxStep b = some t)
    (id : Nat) (above : s.sends ≤ id) (unclaimed : ∀ msg, b ≠ .claim id msg) :
    t.box.phase id = .starting := by
  have begins := numbered.fresh id above
  have moved := (mailbox_cases run).1
  rcases MailboxRun.phase_next moved id with same | ⟨own, -⟩
  · rw [same, begins]
  · obtain ⟨msg, claim⟩ := (MailboxRun.own_label moved own).2.2 begins
    exact absurd claim (unclaimed msg)

/-- Where the messages beside the mailbox come from. -/
theorem mailbox_sources {b : MailboxStep} (run : s.mailboxStep b = some t) :
    (∀ message ∈ t.posted, message ∈ s.posted ∨
      ∃ id, b = .write id ∧ message = ⟨id, s.box.msg id⟩) ∧
    (∀ reply ∈ t.replies, reply ∈ s.replies) ∧
    (∀ message, t.origin = some message → s.origin = some message ∨
      ∃ reply ∈ s.replies, message = reply.1) ∧
    ∀ id message, t.held id = some message →
      s.held id = some message ∨ s.origin = some message := by
  obtain ⟨-, ⟨msg, rfl, -, -, same⟩ | ⟨id, rfl, same⟩ | ⟨id, rfl, same⟩ |
    ⟨lo, hi, next, replies, rfl, queue, same⟩ | ⟨-, -, -, same⟩⟩ := mailbox_cases run
  · rw [same]
    exact ⟨fun _ => .inl, fun _ => id, fun _ => .inl, fun _ _ => .inl⟩
  · rw [same]
    refine ⟨?_, fun _ h => h, fun _ => .inl, fun _ _ => .inl⟩
    intro message member
    rcases List.mem_append.mp member with old | new
    · exact .inl old
    · exact .inr ⟨id, rfl, List.mem_singleton.mp new⟩
  · rw [same]
    refine ⟨fun _ => .inl, fun _ h => h, fun _ => .inl, ?_⟩
    intro other message holds
    have holds : Function.update s.held id s.origin other = some message := holds
    by_cases here : other = id
    · rw [here, Function.update_self] at holds
      exact .inr holds
    · rw [Function.update_of_ne here] at holds
      exact .inl holds
  · rw [same]
    refine ⟨fun _ => .inl, ?_, ?_, fun _ _ => .inl⟩
    · intro reply member
      rw [queue]
      exact List.mem_cons_of_mem _ member
    · intro message now
      obtain rfl := Option.some.inj now
      exact .inr ⟨_, by rw [queue]; exact List.mem_cons_self, rfl⟩
  · rw [same]
    exact ⟨fun _ => .inl, fun _ => id, fun _ => .inl, fun _ _ => .inl⟩

theorem origin_same {b : MailboxStep} (run : s.mailboxStep b = some t)
    (unreplied : ∀ lo hi, b ≠ .reply lo hi) : t.origin = s.origin := by
  obtain ⟨-, ⟨_, _, _, _, same⟩ | ⟨_, _, same⟩ | ⟨_, _, same⟩ | ⟨lo, hi, _, _, reply, _, _⟩ |
    ⟨_, _, _, same⟩⟩ := mailbox_cases run
  · rw [same]
  · rw [same]
  · rw [same]
  · exact absurd reply (unreplied lo hi)
  · rw [same]

theorem reply_origin {lo hi : BitVec 32} (run : s.mailboxStep (.reply lo hi) = some t) :
    ∃ message rest, s.replies = (message, hi ++ lo) :: rest ∧ t.origin = some message := by
  obtain ⟨-, ⟨_, claim, _⟩ | ⟨_, write, _⟩ | ⟨_, read, _⟩ | ⟨_, _, message, rest, reply, queue, same⟩ |
    ⟨-, -, unreplied, -⟩⟩ := mailbox_cases run
  · cases claim
  · cases write
  · cases read
  · obtain ⟨rfl, rfl⟩ := MailboxStep.reply.inj reply
    exact ⟨message, rest, queue, by rw [same]⟩
  · exact absurd rfl (unreplied lo hi)

theorem held_same {b : MailboxStep} (run : s.mailboxStep b = some t) (unread : b ≠ .read id) :
    t.held id = s.held id := by
  obtain ⟨-, ⟨_, _, _, _, same⟩ | ⟨_, _, same⟩ | ⟨reader, rfl, same⟩ | ⟨_, _, _, _, _, _, same⟩ |
    ⟨_, _, _, same⟩⟩ := mailbox_cases run
  · rw [same]
  · rw [same]
  · rw [same]
    refine Function.update_of_ne ?_ ..
    rintro rfl
    exact unread rfl
  · rw [same]
  · rw [same]

theorem held_read (run : s.mailboxStep (.read id) = some t) : t.held id = s.origin := by
  obtain ⟨-, ⟨_, claim, _⟩ | ⟨_, write, _⟩ | ⟨_, read, same⟩ | ⟨_, _, _, _, reply, _⟩ |
    ⟨-, unread, -⟩⟩ := mailbox_cases run
  · cases claim
  · cases write
  · obtain rfl := MailboxStep.read.inj read
    rw [same]
    exact Function.update_self ..
  · cases reply
  · exact absurd rfl (unread id)

/-- The next send begins with the message the call has for it; no other one begins. -/
theorem mailbox_sending {b : MailboxStep} (run : s.mailboxStep b = some t) :
    (∃ msg, b = .claim s.sends msg ∧ s.sending = none ∧ s.pm.outgoing = some msg ∧
      t.sends = s.sends + 1 ∧ t.sending = some s.sends) ∨
    ((∀ id msg, b ≠ .claim id msg) ∧ t.sends = s.sends ∧ t.sending = s.sending) := by
  obtain ⟨-, ⟨msg, rfl, idle, sends, same⟩ | ⟨id, rfl, same⟩ | ⟨id, rfl, same⟩ |
    ⟨lo, hi, next, replies, rfl, queue, same⟩ | ⟨unclaimed, -, -, same⟩⟩ := mailbox_cases run
  · exact .inl ⟨msg, rfl, idle, sends, by rw [same], by rw [same]⟩
  · exact .inr ⟨nofun, by rw [same], by rw [same]⟩
  · exact .inr ⟨nofun, by rw [same], by rw [same]⟩
  · exact .inr ⟨nofun, by rw [same], by rw [same]⟩
  · exact .inr ⟨unclaimed, by rw [same], by rw [same]⟩

theorem Numbered.mailbox {b : MailboxStep} (numbered : s.Numbered)
    (run : s.mailboxStep b = some t) : t.Numbered := by
  have known : ∀ message, s.Known message → t.Known message := fun _ => mailbox_known run
  obtain ⟨posted, replies, origin, held⟩ := mailbox_sources run
  have moved := (mailbox_cases run).1
  constructor
  case fresh =>
    intro id above
    rcases mailbox_sending run with ⟨msg, rfl, -, -, more, -⟩ | ⟨unclaimed, same, -⟩
    · refine mailbox_fresh numbered run id (by omega) ?_
      intro other claim
      have number := (MailboxStep.claim.inj claim).1
      omega
    · exact mailbox_fresh numbered run id (by omega) (unclaimed id)
  case running =>
    intro id sending
    rw [mailbox_pm run]
    rcases mailbox_sending run with ⟨msg, rfl, -, sends, more, now⟩ | ⟨-, same, kept⟩
    · obtain rfl := Option.some.inj (now.symm.trans sending)
      have asked : t.box.msg s.sends = msg := by
        obtain ⟨-, ⟨-, claims⟩ | ⟨-, refused⟩⟩ := MailboxRun.claim_cases moved
        · rw [claims]
          exact Function.update_self ..
        · rw [refused]
          exact Function.update_self ..
      rw [asked]
      exact ⟨by omega, sends⟩
    · obtain ⟨below, outgoing⟩ := numbered.running id (kept ▸ sending)
      have message : t.Known ⟨id, s.box.msg id⟩ := known _ ⟨below, rfl⟩
      rw [outgoing]
      exact ⟨message.1, congrArg some message.2⟩
  case posted =>
    intro message member
    rcases posted message member with old | ⟨id, rfl, rfl⟩
    · exact known _ (numbered.posted _ old)
    · refine known _ ⟨?_, rfl⟩
      by_contra above
      have begins := numbered.fresh id (Nat.le_of_not_lt above)
      have phase := (Option.ite_none_right_eq_some.mp moved).1
      simp [begins] at phase
  case replies => exact fun reply member => known _ (numbered.replies _ (replies _ member))
  case origin =>
    intro message now
    rcases origin message now with old | ⟨reply, member, rfl⟩
    · exact known _ (numbered.origin _ old)
    · exact known _ (numbered.replies _ member)
  case held =>
    intro id message now
    rcases held id message now with old | read
    · exact known _ (numbered.held _ _ old)
    · exact known _ (numbered.origin _ read)

theorem Numbered.step (numbered : s.Numbered) (run : s.step a = some t) : t.Numbered := by
  obtain ⟨fresh, running, posted, replies, origin, held⟩ := numbered
  cases a with
  | pm b =>
    obtain ⟨pm, moved, unsent, rfl⟩ := pm_run run
    refine ⟨fresh, ?_, posted, replies, origin, held⟩
    intro id sending
    obtain ⟨result, sent⟩ := PmRun.sends_waits (running id sending).2 moved
    exact absurd sent (unsent result)
  | mailbox b => exact Numbered.mailbox ⟨fresh, running, posted, replies, origin, held⟩ run
  | answer skipped reply =>
    simp only [SaveReplies.step] at run
    split at run
    · cases run
    next message rest before =>
      cases Option.some.inj run
      have known : ∀ other ∈ message :: rest, s.Known other := by
        intro other member
        rw [← before] at member
        exact posted _ (List.mem_of_mem_drop member)
      refine ⟨fresh, running, ?_, ?_, origin, held⟩
      · exact fun other member => known other (List.mem_cons_of_mem _ member)
      · intro other member
        rcases List.mem_append.mp member with old | new
        · exact replies other old
        · obtain rfl := List.mem_singleton.mp new
          exact known message List.mem_cons_self
  | returns =>
    obtain ⟨id, result, pm, -, -, -, rfl⟩ := returns_run run
    exact ⟨fresh, nofun, posted, replies, origin, held⟩

/-- The running send is that of a save. -/
def Saving (s : SaveReplies) (id : Nat) : Prop :=
  s.sending = some id ∧ ∃ attempt buffer, s.pm.stage = .saveSend attempt buffer

/-- A completing reply that a save can still read or has read answers its own message. -/
structure Matched (s : SaveReplies) : Prop where
  unread : ∀ id, s.Saving id → s.box.mb.mbStatus = 2 → (s.box.phase id).mayRead →
    bceMbType s.box.mb.mbResult = BceMessageType.saveRestoreStateComplete.code →
    s.origin.map Posted.send = some id
  read : ∀ id recv, s.Saving id → s.box.phase id = .read recv ∨ s.box.phase id = .returned recv →
    bceMbType recv = BceMessageType.saveRestoreStateComplete.code →
    (s.held id).map Posted.send = some id

theorem matched_of_idle (idle : s.sending = none) : s.Matched := by
  have nobody : ∀ id, ¬s.Saving id := by
    rintro id ⟨sending, -⟩
    exact absurd (idle.symm.trans sending) (by simp)
  exact ⟨fun id saving => absurd saving (nobody id), fun id _ saving => absurd saving (nobody id)⟩

/-- A completing reply that is not late answers the message of the save. -/
theorem own_of_not_late {answered : Option Posted} {reply : BitVec 64} (saving : s.Saving id)
    (spared : s.late answered reply = false) (may : (s.box.phase id).mayRead)
    (complete : bceMbType reply = BceMessageType.saveRestoreStateComplete.code) :
    answered.map Posted.send = some id := by
  obtain ⟨sending, attempt, buffer, stage⟩ := saving
  simpa [late, stage, sending, may, complete] using spared

/-- The mailbox goes on without a reply coming in or being handed over. -/
theorem Matched.onward {b : MailboxStep} (matched : s.Matched) (run : s.mailboxStep b = some t)
    (saving : s.Saving id) (unclaimed : ∀ msg, b ≠ .claim id msg)
    (undecided : b ≠ .decide) (unreplied : ∀ lo hi, b ≠ .reply lo hi)
    (status : t.box.mb.mbStatus = 2) (may : (t.box.phase id).mayRead)
    (complete : bceMbType t.box.mb.mbResult = BceMessageType.saveRestoreStateComplete.code) :
    s.origin.map Posted.send = some id := by
  have moved := (mailbox_cases run).1
  obtain ⟨frame, result, -⟩ := MailboxRun.step_frame moved
  rw [result unreplied] at complete
  refine matched.unread id saving ((frame undecided).2.2 status) ?_ complete
  rcases MailboxRun.mayRead_before moved may with before | ⟨starting, claimed⟩
  · exact before
  · exfalso
    rcases MailboxRun.phase_next moved id with same | ⟨own, -⟩
    · rw [same, starting] at claimed
      cases claimed
    · obtain ⟨msg, claim⟩ := (MailboxRun.own_label moved own).2.2 starting
      exact unclaimed msg claim

/-- The handed-over reply is not a late one. -/
theorem Matched.decides (matched : s.Matched) (saving : s.Saving id)
    (spares : s.SparesSave (.mailbox .decide)) (run : s.box.step .decide = some t.box)
    (status : t.box.mb.mbStatus = 2) (may : (t.box.phase id).mayRead)
    (complete : bceMbType t.box.mb.mbResult = BceMessageType.saveRestoreStateComplete.code) :
    s.origin.map Posted.send = some id := by
  rw [(MailboxRun.step_frame run).2.1 nofun] at complete
  have phase : t.box.phase id = s.box.phase id := by
    rcases MailboxRun.phase_next run id with same | ⟨own, -⟩
    · exact same
    · simp [MailboxStep.of] at own
  rw [phase] at may
  rcases MailboxRun.decide_cases run with same | ⟨waits, -⟩ | ⟨-, same⟩
  · rw [same] at status
    exact matched.unread id saving status may complete
  · obtain ⟨count, took⟩ := MailboxRun.decide_took run waits status
    simp only [SparesSave, took] at spares
    exact own_of_not_late saving (spares waits) may complete
  · rw [same] at status
    exact matched.unread id saving status may complete

/-- A reply that takes the place of an unread one is not late. -/
theorem replies_own {lo hi : BitVec 32} {message : Posted} {replies : List (Posted × BitVec 64)}
    (saving : s.Saving id) (spares : s.SparesSave (.mailbox (.reply lo hi)))
    (run : s.box.step (.reply lo hi) = some t.box)
    (queue : s.replies = (message, hi ++ lo) :: replies)
    (status : t.box.mb.mbStatus = 2) (may : (t.box.phase id).mayRead)
    (complete : bceMbType t.box.mb.mbResult = BceMessageType.saveRestoreStateComplete.code) :
    message.send = id := by
  obtain ⟨count, left, -, same⟩ := MailboxRun.reply_run run
  rw [same] at status may complete
  have spared := spares status
  rw [queue, List.head?_cons, Option.map_some] at spared
  exact Option.some.inj (own_of_not_late saving spared may complete)

theorem Matched.mailbox {b : MailboxStep} (matched : s.Matched) (ok : s.box.Ok)
    (spares : s.SparesSave (.mailbox b)) (run : s.mailboxStep b = some t) : t.Matched := by
  have moved := (mailbox_cases run).1
  rcases mailbox_sending run with ⟨msg, rfl, -, -, -, now⟩ | ⟨unclaimed, -, kept⟩
  · -- the send that begins has not read anything, and its status is not 2
    have phase : ∀ id, t.Saving id → id = s.sends := by
      rintro id ⟨sending, -⟩
      exact Option.some.inj (sending.symm.trans now)
    obtain ⟨-, ⟨-, same⟩ | ⟨-, same⟩⟩ := MailboxRun.claim_cases moved
    · constructor
      · intro id saving status
        simp [same, MailboxRun.goto] at status
      · intro id recv saving has
        rw [phase id saving, same, MailboxRun.goto_phase] at has
        simp at has
    · constructor
      · intro id saving status may
        rw [phase id saving, same, MailboxRun.goto_phase] at may
        simp [SendPhase.mayRead] at may
      · intro id recv saving has
        rw [phase id saving, same, MailboxRun.goto_phase] at has
        simp at has
  have before : ∀ id, t.Saving id → s.Saving id := by
    rintro id ⟨sending, stage⟩
    rw [kept] at sending
    rw [mailbox_pm run] at stage
    exact ⟨sending, stage⟩
  constructor
  case unread =>
    intro id saving status may complete
    have saving := before id saving
    by_cases decides : b = .decide
    · rw [origin_same run (by simp [decides])]
      exact matched.decides saving (decides ▸ spares) (decides ▸ moved) status may complete
    by_cases replies : ∃ lo hi, b = .reply lo hi
    · obtain ⟨lo, hi, rfl⟩ := replies
      obtain ⟨message, rest, queue, origin⟩ := reply_origin run
      rw [origin, Option.map_some, replies_own saving spares moved queue status may complete]
    · have unreplied : ∀ lo hi, b ≠ .reply lo hi := fun lo hi same => replies ⟨lo, hi, same⟩
      rw [origin_same run unreplied]
      exact matched.onward run saving (unclaimed id) decides unreplied status may complete
  case read =>
    intro id recv saving has complete
    have saving := before id saving
    rcases MailboxRun.holds_before moved has with old | ⟨rfl, replied, rfl⟩
    · have other : b ≠ .read id := by
        rintro rfl
        have phase := (Option.ite_none_right_eq_some.mp moved).1
        simp [phase] at old
      rw [held_same run other]
      exact matched.read id recv saving old complete
    · have status := (ok.phases id).found (by rw [replied]; rfl)
      rw [held_read run]
      exact matched.unread id saving status (by rw [replied]; rfl) complete

theorem Matched.step (matched : s.Matched) (numbered : s.Numbered) (ok : s.box.Ok)
    (spares : s.SparesSave a) (run : s.step a = some t) : t.Matched := by
  cases a with
  | pm b =>
    obtain ⟨pm, moved, unsent, rfl⟩ := pm_run run
    refine matched_of_idle ?_
    by_contra sending
    obtain ⟨id, sending⟩ := Option.ne_none_iff_exists'.mp sending
    obtain ⟨result, sent⟩ := PmRun.sends_waits (numbered.running id sending).2 moved
    exact unsent result sent
  | mailbox b => exact matched.mailbox ok spares run
  | answer skipped reply =>
    simp only [SaveReplies.step] at run
    split at run
    · cases run
    · cases Option.some.inj run
      exact ⟨matched.unread, matched.read⟩
  | returns =>
    obtain ⟨id, result, pm, -, -, -, rfl⟩ := returns_run run
    exact matched_of_idle rfl

theorem parts_under (reach : machine.ReachableUnder SparesSave s) :
    s.box.Ok ∧ s.Numbered ∧ s.Matched := by
  have ok : ∀ s, machine.ReachableUnder SparesSave s → s.box.Ok := fun s before =>
    MailboxRun.mailbox_ok (parts_reachable before.reachable).2
  refine ⟨ok s reach, ?_⟩
  refine reach.invariant_of (I := fun s => s.Numbered ∧ s.Matched) ok ?_ ?_
  · rintro _ rfl
    exact ⟨start_numbered, matched_of_idle rfl⟩
  · rintro s a t ok ⟨numbered, matched⟩ spares run
    exact ⟨numbered.step run, matched.step numbered ok spares run⟩

/-- What a completed save adds to the record. -/
theorem completes_cases {result : Except Errno (BitVec 64)} {pm : PmRun} {c : CompletedSave}
    (member : c ∈ s.completes id result pm) : ∃ attempt buffer recv,
    s.pm.stage = .saveSend attempt buffer ∧ result = .ok recv ∧
    bceMbType recv = BceMessageType.saveRestoreStateComplete.code ∧
    c = ⟨id, s.held id, pm.recorded⟩ := by
  unfold completes at member
  split at member
  next attempt buffer recv stage =>
    split at member
    next complete => exact ⟨attempt, buffer, recv, stage, rfl, complete, List.mem_singleton.mp member⟩
    next => cases member
  next => cases member

theorem outcome_ok {phase : SendPhase} {recv : BitVec 64} (returned : outcome phase = some (.ok recv)) :
    phase = .returned recv := by
  cases phase <;> simp [outcome] at returned
  rw [returned]

/-- Over every run in which no interrupt hands a save a completing reply to another message, nor
puts one over a reply that save has still to read: a suspend that returns 0 with its state saved got
the reply to the very message its own send wrote, and that message carries the address and the size
of the buffer it recorded. -/
theorem save_answered (reach : machine.ReachableUnder SparesSave s) :
    ∀ c ∈ s.completed, ∃ buffer, c.saved = some buffer ∧
      c.answered = some ⟨c.send, buffer.saveMessage⟩ := by
  refine reach.invariant_of (I := fun s => ∀ c ∈ s.completed, ∃ buffer, c.saved = some buffer ∧
    c.answered = some ⟨c.send, buffer.saveMessage⟩) (fun s before => parts_under before) ?_ ?_
  · rintro _ rfl c member
    cases member
  rintro s a t ⟨ok, numbered, matched⟩ before spares run
  cases a with
  | pm b =>
    obtain ⟨pm, -, -, rfl⟩ := pm_run run
    exact before
  | mailbox b =>
    rw [mailbox_completed run]
    exact before
  | answer skipped reply =>
    simp only [machine, step] at run
    split at run
    · cases run
    · cases Option.some.inj run
      exact before
  | returns =>
    obtain ⟨id, result, pm, sending, returned, moved, rfl⟩ := returns_run run
    intro c member
    rcases List.mem_append.mp member with old | new
    · exact before c old
    obtain ⟨attempt, buffer, recv, stage, rfl, complete, rfl⟩ := completes_cases new
    have saving : s.Saving id := ⟨sending, attempt, buffer, stage⟩
    have phase := outcome_ok returned
    refine ⟨buffer, PmRun.complete_recorded stage complete moved, ?_⟩
    obtain ⟨message, held, own⟩ := Option.map_eq_some_iff.mp
      (matched.read id recv saving (.inr phase) complete)
    have outgoing := (numbered.running id sending).2
    simp only [PmRun.outgoing, stage] at outgoing
    have wrote := (numbered.held id message held).2
    rw [own, ← Option.some.inj outgoing] at wrote
    have same : message = ⟨id, buffer.saveMessage⟩ := by
      rw [← own, ← wrote]
    rw [held, same]

/-- The `n`-th mailbox send begins and writes the given message. -/
def sendSteps (n : Nat) (msg : BitVec 64) : List SaveReplyStep :=
  [.mailbox (.claim n msg), .mailbox (.rearm n), .mailbox (.write n)]

/-- It times out, and its call goes on. -/
def timeoutSteps (n : Nat) : List SaveReplyStep :=
  [.mailbox (.expire n), .mailbox (.check n), .mailbox (.reset n), .returns]

/-- The T2 completes the first message before it, and the interrupt takes that reply. -/
def completeSteps : List SaveReplyStep :=
  [.answer 0 (bceMbMsg .saveRestoreStateComplete 0), .mailbox (.interrupt 0x100000),
    .mailbox (.reply 0 0x68000000), .mailbox .decide]

/-- The send that is woken reads its reply and returns it. -/
def readSteps (n : Nat) : List SaveReplyStep :=
  [.mailbox .complete, .mailbox (.wake n), .mailbox (.check n), .mailbox (.read n),
    .mailbox (.reset n), .returns]

def saveMessage (addr : BitVec 64) : BitVec 64 :=
  SaveBuffer.saveMessage ⟨0, addr, pageSize⟩

/-- The late reply to a save that timed out comes before the next suspend. -/
theorem save_answered_dropped : ∃ s c buffer, machine.ReachableUnder SparesSave s ∧ c ∈ s.completed ∧
    c.saved = some buffer ∧ c.answered = some ⟨1, buffer.saveMessage⟩ := by
  obtain ⟨s, ran, member⟩ : ∃ s, (machine.guard SparesSave).run start
      ([.pm .suspend, .pm (.alloc (some 0x8000))] ++ sendSteps 0 (saveMessage 0x8000) ++
        timeoutSteps 0 ++ completeSteps ++ [.pm .suspend, .pm (.alloc (some 0x10000))] ++
        sendSteps 1 (saveMessage 0x10000) ++ completeSteps ++ readSteps 1) = some s ∧
      ⟨1, some ⟨1, saveMessage 0x10000⟩, some ⟨1, 0x10000, pageSize⟩⟩ ∈ s.completed :=
    ⟨_, rfl, List.mem_cons_self⟩
  have reach := Machine.ReachableUnder.of_run (M := machine) rfl _ ran
  obtain ⟨buffer, saved, answered⟩ := save_answered reach _ member
  exact ⟨s, _, buffer, reach, member, saved, answered⟩

/-- It comes while the next suspend waits, which then returns 0 although the T2 has answered the
message with the first buffer, which is freed. -/
theorem late_complete_taken : ∃ s c freed, machine.Reachable s ∧ c ∈ s.completed ∧
    c.answered = some ⟨0, SaveBuffer.saveMessage freed⟩ ∧ freed ∈ s.pm.freed ∧ c.send = 1 ∧
    c.saved = some ⟨1, 0x10000, pageSize⟩ := by
  obtain ⟨s, ran, member, given⟩ : ∃ s, machine.run start
      ([.pm .suspend, .pm (.alloc (some 0x8000))] ++ sendSteps 0 (saveMessage 0x8000) ++
        timeoutSteps 0 ++ [.pm .suspend, .pm (.alloc (some 0x10000))] ++
        sendSteps 1 (saveMessage 0x10000) ++ completeSteps ++ readSteps 1) = some s ∧
      ⟨1, some ⟨0, saveMessage 0x8000⟩, some ⟨1, 0x10000, pageSize⟩⟩ ∈ s.completed ∧
      ⟨0, 0x8000, pageSize⟩ ∈ s.pm.freed :=
    ⟨_, rfl, List.mem_cons_self, List.mem_cons_self⟩
  have reach := (Machine.Reachable.start (M := machine) rfl).of_run _ ran
  exact ⟨s, _, _, reach, member, rfl, given, rfl, rfl⟩

end SaveReplies

end AppleBce

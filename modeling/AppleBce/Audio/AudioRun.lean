import AppleBce.Audio.Tag
import AppleBce.Queue.Submission

namespace AppleBce

open Basis

/-- What a call sends: a command with its reply buffer, a notification with a tag of its own, or a
response with the tag of the command it answers. -/
inductive AudioKind
  | command (reply : AaudioMsg Byte)
  | notification
  | response (tag : List Byte)

def AudioKind.isCommand : AudioKind → Bool
  | .command _ => true
  | _ => false

/-- How far a call is: it waits in `bce_reserve_submission`, has its place in the queue, holds the
spinlock and writes its message, waits for its reply, has seen the wait time out, or has returned
0 or an error. -/
inductive AudioPhase
  | starting
  | reserved
  | prepared
  | waiting
  | expired
  | returned (error : Option Errno)
  deriving DecidableEq, Repr

/-- A call with its `struct aaudio_send_ctx` and its `struct aaudio_bce_queue_entry`: the tag, the
data slot its message is in, the reply buffer and whether `complete` was called. `number` counts
the tag allocations up to its own, and `arrived` records that the T2 has answered it. -/
structure AudioCall where
  phase : AudioPhase
  command : Bool
  tag : Option (List Byte)
  tagN : Nat
  slot : Nat
  reply : AaudioMsg Byte
  cmpl : Bool
  number : Nat
  arrived : Bool

def AudioCall.start : AudioCall where
  phase := .starting
  command := false
  tag := none
  tagN := 0
  slot := 0
  reply := ⟨fun _ => 0, 0⟩
  cmpl := false
  number := 0
  arrived := false

/-- Who holds `spinlock`: nobody, a call that sends, or the reply handler, which has completed the
entry of a tag and has still to clear it. -/
inductive AudioLock
  | free
  | writer (id : Nat)
  | delivering (tagn : Nat)
  deriving DecidableEq, Repr

/-- `struct aaudio_bce` in use by any number of calls, by number: the out queue with the tag in each
of its data slots, the tag counter and the table. The last fields record the submissions that were
not notified, each with its call and data slot, the calls that have a place reserved, the number of
tags allocated, and the commands that have got one. -/
structure AudioRun where
  out : SubmissionRun
  dataTail : Nat
  headers : Nat → List Byte
  tagNum : Nat
  pending : Nat → Option Nat
  lock : AudioLock
  calls : Nat → AudioCall
  inFlight : List (Nat × Nat)
  reserved : List Nat
  allocs : Nat
  commands : List Nat

inductive AudioStep
  | reserve (id : Nat) (kind : AudioKind)
  | giveUp (id : Nat)
  | prepare (id : Nat)
  | send (id : Nat)
  | deviceComplete (status dataSize result : Nat)
  | harvest
  | nextCompletion
  | notify
  | wake (id : Nat)
  | expire (id : Nat)
  | cleanUp (id : Nat)
  | reply (id : Nat) (msg : AaudioMsg Byte)
  | stray (msg : AaudioMsg Byte)
  | clear

def aaudioMsgTypeResponse : Byte := 2

/-- The tag in the header of a message. -/
def aaudioMsgTag (msg : AaudioMsg Byte) : List Byte :=
  [msg.data 0, msg.data 1, msg.data 2, msg.data 3]

namespace AudioRun

/-- `aaudio_bce_init` on the zeroed device. -/
def init : AudioRun where
  out := .start (aaudioBceQueueElementCount + 1)
  dataTail := 0
  headers := fun _ => []
  tagNum := 0
  pending := fun _ => none
  lock := .free
  calls := fun _ => .start
  inFlight := []
  reserved := []
  allocs := 0
  commands := []

/-- A call goes on. -/
def setCall (s : AudioRun) (id : Nat) (call : AudioCall) : AudioRun :=
  { s with calls := Function.update s.calls id call }

/-- `__aaudio_send_prepare` behind its reservation. -/
def sendPrepare (s : AudioRun) (id : Nat) : AudioRun :=
  let call := s.calls id
  match call.tag with
  | some tag =>
    { s with headers := Function.update s.headers s.dataTail tag, lock := .writer id }.setCall id
      { call with phase := .prepared, slot := s.dataTail }
  | none =>
    let tagNum := (s.tagNum + 1) % aaudioBceQueueTagCount
    { s with
      headers := Function.update s.headers s.dataTail (tagText tagNum)
      tagNum
      lock := .writer id
      allocs := s.allocs + 1
      commands := if call.command then s.commands ++ [id] else s.commands }.setCall id
        { call with
          phase := .prepared
          slot := s.dataTail
          tagN := tagNum
          number := s.allocs + 1 }

/-- `__aaudio_send`, or `__aaudio_send_cmd_sync` up to its wait, with the submission made. -/
def submit (s : AudioRun) (id : Nat) (out : SubmissionRun) : AudioRun :=
  let call := s.calls id
  { s with
    out
    pending := if call.command then Function.update s.pending call.tagN (some id) else s.pending
    dataTail := (s.dataTail + 1) % aaudioBceQueueElementCount
    lock := .free
    inFlight := s.inFlight ++ [(id, call.slot)]
    reserved := s.reserved.erase id }.setCall id
      { call with phase := if call.command then .waiting else .returned none }

/-- The copy into the reply buffer of an entry, and its `complete`. -/
def deliver (s : AudioRun) (tagn entry : Nat) (reply : AaudioMsg Byte) : AudioRun :=
  let call := s.calls entry
  { s with lock := .delivering tagn }.setCall entry
    { call with reply := call.reply.copyReply reply, cmpl := true }

/-- `aaudio_handle_reply` up to `complete`. -/
def handleReply (s : AudioRun) (reply : AaudioMsg Byte) : AudioRun :=
  match parseTag (aaudioMsgTag reply) with
  | none => s
  | some tagn =>
    match s.pending tagn with
    | none => s
    | some entry => s.deliver tagn entry reply

/-- `aaudio_bce_in_queue_handle_msg`, as far as replies go. -/
def handleMsg (s : AudioRun) (msg : AaudioMsg Byte) : AudioRun :=
  if msg.size < aaudioMsgHeaderSize then s
  else if msg.data 4 = aaudioMsgTypeResponse then s.handleReply msg
  else s

/-- The message is the answer of the T2 to a command it was sent. -/
def Answers (s : AudioRun) (id : Nat) (msg : AaudioMsg Byte) : Prop :=
  id ∈ s.commands ∧ (s.calls id).phase ≠ .prepared ∧ (s.calls id).arrived = false ∧
  aaudioMsgHeaderSize ≤ msg.size ∧ msg.data 4 = aaudioMsgTypeResponse ∧
  aaudioMsgTag msg = tagText (s.calls id).tagN

instance (s : AudioRun) (id : Nat) (msg : AaudioMsg Byte) : Decidable (s.Answers id msg) := by
  unfold Answers
  infer_instance

def step (s : AudioRun) : AudioStep → Option AudioRun
  | .reserve id kind =>
    if (s.calls id).phase = .starting then
      (s.out.step .reserve).map fun out =>
        { s with out, reserved := s.reserved ++ [id] }.setCall id
          { s.calls id with
            phase := .reserved
            command := kind.isCommand
            tag := match kind with | .response tag => some tag | _ => none
            reply := match kind with | .command reply => reply | _ => (s.calls id).reply }
    else none
  | .giveUp id =>
    if (s.calls id).phase = .starting then
      some (s.setCall id { s.calls id with phase := .returned (some .again) })
    else none
  | .prepare id =>
    if (s.calls id).phase = .reserved ∧ s.lock = .free then some (s.sendPrepare id) else none
  | .send id =>
    if s.lock = .writer id then (s.out.step .nextSubmission).map (s.submit id) else none
  | .deviceComplete status dataSize result =>
    (s.out.step (.deviceComplete status dataSize result)).map fun out => { s with out }
  | .harvest => (s.out.step .harvest).map fun out => { s with out }
  | .nextCompletion => (s.out.step .nextCompletion).map fun out => { s with out }
  | .notify =>
    (s.out.step .notify).map fun out => { s with out, inFlight := s.inFlight.tail }
  | .wake id =>
    if (s.calls id).phase = .waiting ∧ (s.calls id).cmpl then
      some (s.setCall id { s.calls id with phase := .returned none })
    else none
  | .expire id =>
    if (s.calls id).phase = .waiting ∧ (s.calls id).cmpl = false then
      some (s.setCall id { s.calls id with phase := .expired })
    else none
  | .cleanUp id =>
    if (s.calls id).phase = .expired ∧ s.lock = .free then
      let tagN := (s.calls id).tagN
      some ({ s with
        pending := if s.pending tagN = some id then Function.update s.pending tagN none
          else s.pending }.setCall id { s.calls id with phase := .returned (some .timedout) })
    else none
  | .reply id msg =>
    if s.lock = .free ∧ s.Answers id msg then
      let t := s.handleMsg msg
      some (t.setCall id { t.calls id with arrived := true })
    else none
  -- any other message of the T2, with whatever tag
  | .stray msg => if s.lock = .free then some (s.handleMsg msg) else none
  -- the rest of `aaudio_handle_reply`
  | .clear =>
    match s.lock with
    | .delivering tagn =>
      some { s with pending := Function.update s.pending tagn none, lock := .free }
    | _ => none

/-- All uses of the audio message queues for sending. -/
def machine : Machine AudioRun AudioStep where
  init s := s = init
  step := step

variable {s t : AudioRun} {a : AudioStep} {id other : Nat} {call : AudioCall}

@[simp] theorem setCall_self (s : AudioRun) (id : Nat) (call : AudioCall) :
    (s.setCall id call).calls id = call :=
  Function.update_self ..

@[simp] theorem setCall_other (call : AudioCall) (apart : other ≠ id) :
    (s.setCall id call).calls other = s.calls other :=
  Function.update_of_ne apart ..

/-- The table number of a message that is handled as a reply. -/
def replyTag (msg : AaudioMsg Byte) : Option Nat :=
  if aaudioMsgHeaderSize ≤ msg.size ∧ msg.data 4 = aaudioMsgTypeResponse then
    parseTag (aaudioMsgTag msg)
  else none

/-- A message reaches a call only through its tag and the table. -/
theorem handleMsg_eq (s : AudioRun) (msg : AaudioMsg Byte) :
    s.handleMsg msg = match replyTag msg with
      | none => s
      | some tagn => match s.pending tagn with
        | none => s
        | some entry => s.deliver tagn entry msg := by
  by_cases short : msg.size < aaudioMsgHeaderSize
  · simp [handleMsg, replyTag, short, Nat.not_le.mpr short]
  by_cases response : msg.data 4 = aaudioMsgTypeResponse
  · simp only [handleMsg, short, if_false, response, if_true, handleReply, replyTag,
      Nat.not_lt.mp short, true_and]
  · simp [handleMsg, replyTag, short, response]

theorem handleMsg_none {msg : AaudioMsg Byte}
    (nothing : ∀ tagn, replyTag msg = some tagn → s.pending tagn = none) : s.handleMsg msg = s := by
  rw [handleMsg_eq]
  cases tag : replyTag msg with
  | none => rfl
  | some tagn => simp only [nothing tagn tag]

theorem handleMsg_some {msg : AaudioMsg Byte} {tagn entry : Nat} (tag : replyTag msg = some tagn)
    (found : s.pending tagn = some entry) : s.handleMsg msg = s.deliver tagn entry msg := by
  simp only [handleMsg_eq, tag, found]

/-- Where a message may end: nowhere, or at the entry of its tag. -/
theorem handleMsg_cases (s : AudioRun) (msg : AaudioMsg Byte) :
    s.handleMsg msg = s ∨ ∃ tagn entry, replyTag msg = some tagn ∧
      s.pending tagn = some entry ∧ s.handleMsg msg = s.deliver tagn entry msg := by
  cases tag : replyTag msg with
  | none => exact .inl (handleMsg_none (by simp [tag]))
  | some tagn =>
    cases found : s.pending tagn with
    | none => exact .inl (handleMsg_none (by simp [tag, found]))
    | some entry => exact .inr ⟨tagn, entry, rfl, found, handleMsg_some tag found⟩

theorem Answers.replyTag {msg : AaudioMsg Byte} (answers : s.Answers id msg)
    (low : (s.calls id).tagN < aaudioBceQueueTagCount) :
    AudioRun.replyTag msg = some (s.calls id).tagN := by
  obtain ⟨-, -, -, size, response, tag⟩ := answers
  rw [AudioRun.replyTag, if_pos ⟨size, response⟩, tag, parseTag_tagText _ low]

end AudioRun

end AppleBce

import AppleBce.Basis.Machine
import AppleBce.Vhci.Message

namespace AppleBce

open Basis

/-- Where a running `__bce_vhci_command_queue_execute` stands: what it does next. -/
inductive ExecutePc
  | checkDead
  | reserve
  | arm
  | writeRequest
  | waitReply
  | reserveCancel
  | writeCancel
  | waitCancel
  | giveUp (status : Errno)
  | checkCancelled
  | checkReply
  | checkStatus
  deriving DecidableEq, Repr

/-- Behind the section that stores `res` in the completion. -/
def ExecutePc.started : ExecutePc → Bool
  | .checkDead | .reserve | .arm => false
  | _ => true

/-- The next statement reads `res`. -/
def ExecutePc.inspects : ExecutePc → Bool
  | .checkCancelled | .checkReply | .checkStatus => true
  | _ => false

/-- Which message of which call: its request or the cancellation. -/
structure MessageTag where
  call : Nat
  cancel : Bool
  deriving DecidableEq, Repr

/-- A message as it reaches `res`, with the message of the T2's queue it replies to, if any. -/
structure Received where
  origin : Option MessageTag
  msg : BceVhciMessage
  deriving DecidableEq, Repr

/-- A running call. `res` is the caller's buffer, `none` while it is not written. -/
structure ExecuteCall where
  id : Nat
  req : BceVhciMessage
  res : Option BceVhciMessage
  received : List Received
  pc : ExecutePc
  deriving DecidableEq, Repr

structure ExecuteResult where
  id : Nat
  req : BceVhciMessage
  res : Option BceVhciMessage
  received : List Received
  status : Int
  deriving DecidableEq, Repr

/-- `completion_lock` as `deliver_completion` and `destroy` hold it: between writing the result
and `complete`, then between `complete` and clearing the pointer. The waiter takes part in
neither wait under the lock, so both points can be seen by it. -/
inductive CompletionLock
  | free
  | written
  | completed
  deriving DecidableEq, Repr

/-- The command queue with the call that holds its mutex, and the T2 behind it. `result` is
the call whose `res` the pointer names. -/
structure CommandQueueRun where
  result : Option Nat
  done : Nat
  lock : CompletionLock
  running : Option ExecuteCall
  nextId : Nat
  requests : List (MessageTag × BceVhciMessage)
  replies : List (MessageTag × BceVhciMessage)
  answered : List (MessageTag × BceVhciMessage)
  finished : List ExecuteResult
  recoveries : Nat
  deadWrite : Bool
  unwrittenRead : Bool
  deriving DecidableEq, Repr

/-- What a running call does next, with what it finds. -/
inductive ExecuteStep
  | checkDead (dead : Bool)
  | reserve (ok : Bool)
  | arm
  | write
  | woken
  | expired
  | giveUp (recovering : Bool)
  | inspect
  deriving DecidableEq, Repr

/-- A call begins or goes on; the T2 answers or skips its oldest message; a critical section
of another thread begins, signals the completion, or clears the pointer and ends. -/
inductive CommandQueueStep
  | call (req : BceVhciMessage)
  | execute (step : ExecuteStep)
  | answer (status : BitVec 16) (param1 : BitVec 32) (param2 : BitVec 64)
  | skip
  | deliver
  | deliverOther (msg : BceVhciMessage)
  | destroy
  | complete
  | clear
  deriving DecidableEq, Repr

namespace CommandQueueRun

/-- `bce_vhci_command_queue_create`. -/
def create : CommandQueueRun where
  result := none
  done := 0
  lock := .free
  running := none
  nextId := 0
  requests := []
  replies := []
  answered := []
  finished := []
  recoveries := 0
  deadWrite := false
  unwrittenRead := false

/-- The running call goes on to `pc`. -/
def goto (s : CommandQueueRun) (c : ExecuteCall) (pc : ExecutePc) : CommandQueueRun :=
  { s with running := some { c with pc } }

/-- The running call returns. -/
def finish (s : CommandQueueRun) (c : ExecuteCall) (status : Int) : CommandQueueRun :=
  { s with
    running := none
    finished := s.finished ++ [⟨c.id, c.req, c.res, c.received, status⟩] }

/-- `bce_vhci_message_queue_write`, as the T2 sees it. -/
def send (s : CommandQueueRun) (tag : MessageTag) (msg : BceVhciMessage) : CommandQueueRun :=
  { s with requests := s.requests ++ [(tag, msg)] }

/-- Reading `res`. Reading it unwritten is recorded and goes on with a zeroed message. -/
def readRes (s : CommandQueueRun) (c : ExecuteCall) : CommandQueueRun × BceVhciMessage :=
  match c.res with
  | some res => (s, res)
  | none => ({ s with unwrittenRead := true }, ⟨0, 0, 0, 0⟩)

/-- `*c->result = msg` under the lock. A pointer to the buffer of a call that is not running
is recorded as a write to a dead buffer. -/
def store (s : CommandQueueRun) (k : Nat) (r : Received) : CommandQueueRun :=
  match s.running with
  | some c =>
    if c.id = k then
      { s with
        lock := .written
        running := some { c with res := some r.msg, received := c.received ++ [r] } }
    else { s with lock := .written, deadWrite := true }
  | none => { s with lock := .written, deadWrite := true }

/-- `bce_vhci_command_queue_deliver_completion` up to the write, and the same part of
`bce_vhci_command_queue_destroy`. Without a result the critical section does nothing. -/
def lockAndStore (s : CommandQueueRun) (r : Received) : CommandQueueRun :=
  match s.result with
  | some k => s.store k r
  | none => s

/-- The statements of `__bce_vhci_command_queue_execute`. -/
def execute (s : CommandQueueRun) (c : ExecuteCall) : ExecuteStep → Option CommandQueueRun
  | .checkDead dead =>
    match c.pc with
    | .checkDead => some (if dead then s.finish c Errno.nodev.neg else s.goto c .reserve)
    | _ => none
  | .reserve ok =>
    match c.pc with
    | .reserve => some (if ok then s.goto c .arm else s.finish c Errno.again.neg)
    | .reserveCancel => some (if ok then s.goto c .writeCancel else s.goto c (.giveUp .again))
    | _ => none
  | .arm =>
    if c.pc = .arm ∧ s.lock = .free then
      some { s.goto c .writeRequest with result := some c.id, done := 0 }
    else none
  | .write =>
    match c.pc with
    | .writeRequest => some ((s.goto c .waitReply).send ⟨c.id, false⟩ c.req)
    | .writeCancel => some ((s.goto c .waitCancel).send ⟨c.id, true⟩ c.req.cancellation)
    | _ => none
  | .woken =>
    if 0 < s.done then
      match c.pc with
      | .waitReply => some { s.goto c .checkReply with done := s.done - 1 }
      | .waitCancel => some { s.goto c .checkCancelled with done := s.done - 1 }
      | _ => none
    else none
  | .expired =>
    if s.done = 0 then
      match c.pc with
      | .waitReply => some (s.goto c .reserveCancel)
      | .waitCancel => some (s.goto c (.giveUp .timedout))
      | _ => none
    else none
  | .giveUp recovering =>
    match c.pc with
    | .giveUp status =>
      if s.lock = .free then
        some { s.finish c status.neg with
          result := none
          recoveries := if status = .timedout ∧ ¬recovering then s.recoveries + 1 else s.recoveries }
      else none
    | _ => none
  | .inspect =>
    let (s', res) := s.readRes c
    match c.pc with
    | .checkCancelled =>
      some (if res.answeredCmd = c.req.cancellation.cmd then s'.finish c Errno.timedout.neg
        else s'.goto c .checkReply)
    | .checkReply =>
      some (if res.answeredCmd ≠ c.req.cmd then s'.finish c Errno.io.neg else s'.goto c .checkStatus)
    | .checkStatus =>
      some (s'.finish c (if res.status = BceVhciMessageStatus.success.code then 0 else res.status.toNat))
    | _ => none

/-- One step of the running call, of the T2, or of a critical section of another thread. -/
def step (s : CommandQueueRun) : CommandQueueStep → Option CommandQueueRun
  | .call req =>
    match s.running with
    | none => some { s with running := some ⟨s.nextId, req, none, [], .checkDead⟩, nextId := s.nextId + 1 }
    | some _ => none
  | .execute step => s.running.bind fun c => s.execute c step
  | .answer status param1 param2 =>
    match s.requests with
    | [] => none
    | (tag, msg) :: rest =>
      let reply := (tag, ⟨msg.cmd ||| BceVhciMessage.replyBit, status, param1, param2⟩)
      some { s with
        requests := rest
        replies := s.replies ++ [reply]
        answered := s.answered ++ [reply] }
  | .skip =>
    match s.requests with
    | [] => none
    | _ :: rest => some { s with requests := rest }
  | .deliver =>
    match s.replies with
    | [] => none
    | (tag, msg) :: rest =>
      if s.lock = .free then some (lockAndStore { s with replies := rest } ⟨some tag, msg⟩) else none
  | .deliverOther msg => if s.lock = .free then some (s.lockAndStore ⟨none, msg⟩) else none
  | .destroy =>
    if s.lock = .free then some (s.lockAndStore ⟨none, ⟨0, BceVhciMessageStatus.abort.code, 0, 0⟩⟩) else none
  | .complete => if s.lock = .written then some { s with done := s.done + 1, lock := .completed } else none
  | .clear => if s.lock = .completed then some { s with result := none, lock := .free } else none

end CommandQueueRun

def commandQueueMachine : Machine CommandQueueRun CommandQueueStep where
  init := (· = .create)
  step := CommandQueueRun.step

namespace CommandQueueRun

/-- The call was given one message, and `res` holds it. -/
def HasReply (c : ExecuteCall) : Prop :=
  ∃ r, c.received = [r] ∧ c.res = some r.msg

/-- No critical section is about to signal, and the pointer is clear unless one is about to
clear it. -/
structure Released (s : CommandQueueRun) : Prop where
  lock : s.lock ≠ .written
  result : s.lock = .free → s.result = none

/-- What holds of a call that armed the completion and has not been woken. -/
inductive Waiting (s : CommandQueueRun) (c : ExecuteCall) : Prop
  | armed : s.result = some c.id → s.lock = .free → s.done = 0 → c.received = [] → c.res = none →
      Waiting s c
  | written : s.result = some c.id → s.lock = .written → s.done = 0 → HasReply c → Waiting s c
  | completed : s.result = some c.id → s.lock = .completed → s.done = 1 → HasReply c → Waiting s c
  | cleared : s.result = none → s.lock = .free → s.done = 1 → HasReply c → Waiting s c

/-- What holds of the running call at its program point. -/
structure CallOk (s : CommandQueueRun) (c : ExecuteCall) : Prop where
  fresh : ¬c.pc.started → s.Released ∧ c.received = [] ∧ c.res = none
  waiting : c.pc.started → ¬c.pc.inspects → s.Waiting c
  inspects : c.pc.inspects → s.Released ∧ HasReply c

/-- The invariant of the command queue. -/
structure Ok (s : CommandQueueRun) : Prop where
  idle : s.running = none → s.Released
  call : ∀ c, s.running = some c → s.CallOk c
  finished : ∀ f ∈ s.finished, f.received.length ≤ 1
  deadWrite : s.deadWrite = false
  unwrittenRead : s.unwrittenRead = false

variable {s t : CommandQueueRun} {c : ExecuteCall}

theorem HasReply.length_le (reply : HasReply c) : c.received.length ≤ 1 := by
  obtain ⟨r, received, -⟩ := reply
  simp [received]

/-- Only the completion and the received messages matter to a waiting call. -/
theorem Waiting.congr {c' : ExecuteCall} (waiting : s.Waiting c) (result : t.result = s.result)
    (lock : t.lock = s.lock) (done : t.done = s.done) (id : c'.id = c.id)
    (received : c'.received = c.received) (res : c'.res = c.res) : t.Waiting c' := by
  have reply : HasReply c → HasReply c' := by
    rintro ⟨r, was⟩
    exact ⟨r, by rw [received, res]; exact was⟩
  have own : s.result = some c.id → t.result = some c'.id := by
    rw [result, id]
    exact fun same => same
  cases waiting with
  | armed r l d none unwritten =>
    exact .armed (own r) (lock.trans l) (done.trans d) (received.trans none) (res.trans unwritten)
  | written r l d has => exact .written (own r) (lock.trans l) (done.trans d) (reply has)
  | completed r l d has => exact .completed (own r) (lock.trans l) (done.trans d) (reply has)
  | cleared r l d has => exact .cleared (result.trans r) (lock.trans l) (done.trans d) (reply has)

/-- A waiting call that finds the completion signalled has its reply. -/
theorem Waiting.reply (waiting : s.Waiting c) (signalled : 0 < s.done) : s.Released ∧ HasReply c := by
  cases waiting with
  | armed r l d none unwritten => omega
  | written r l d has => omega
  | completed r l d has => exact ⟨⟨by simp [l], by simp [l]⟩, has⟩
  | cleared r l d has => exact ⟨⟨by simp [l], fun _ => r⟩, has⟩

theorem Waiting.length_le (waiting : s.Waiting c) : c.received.length ≤ 1 := by
  cases waiting with
  | armed r l d none unwritten => simp [none]
  | written r l d has => exact has.length_le
  | completed r l d has => exact has.length_le
  | cleared r l d has => exact has.length_le

theorem CallOk.length_le (ok : s.CallOk c) : c.received.length ≤ 1 := by
  by_cases started : c.pc.started
  · by_cases inspects : c.pc.inspects
    · exact (ok.inspects inspects).2.length_le
    · exact (ok.waiting started inspects).length_le
  · simp [(ok.fresh started).2.1]

theorem CallOk.of_fresh (before : ¬c.pc.started) (released : s.Released) (received : c.received = [])
    (res : c.res = none) : s.CallOk c where
  fresh := fun _ => ⟨released, received, res⟩
  waiting := fun started => absurd started before
  inspects := by
    cases pc : c.pc <;> simp [pc, ExecutePc.started, ExecutePc.inspects] at before ⊢

theorem CallOk.of_waiting (started : c.pc.started) (waits : ¬c.pc.inspects) (waiting : s.Waiting c) :
    s.CallOk c where
  fresh := fun before => absurd started before
  waiting := fun _ _ => waiting
  inspects := fun inspects => absurd inspects waits

theorem CallOk.of_reply (inspects : c.pc.inspects) (released : s.Released) (reply : HasReply c) :
    s.CallOk c where
  fresh := by
    cases pc : c.pc <;> simp [pc, ExecutePc.started, ExecutePc.inspects] at inspects ⊢
  waiting := fun _ waits => absurd inspects waits
  inspects := fun _ => ⟨released, reply⟩

namespace Ok

theorem goto {pc : ExecutePc} (ok : s.Ok) (call : (s.goto c pc).CallOk { c with pc }) :
    (s.goto c pc).Ok where
  idle := by simp [CommandQueueRun.goto]
  call := by
    intro c' running
    obtain rfl := Option.some.inj running
    exact call
  finished := ok.finished
  deadWrite := ok.deadWrite
  unwrittenRead := ok.unwrittenRead

theorem finished_finish {status : Int} (ok : s.Ok) (few : c.received.length ≤ 1) :
    ∀ f ∈ (s.finish c status).finished, f.received.length ≤ 1 := by
  intro f member
  rcases List.mem_append.mp member with old | new
  · exact ok.finished f old
  · obtain rfl := List.mem_singleton.mp new
    exact few

theorem finish {status : Int} (ok : s.Ok) (released : s.Released) (few : c.received.length ≤ 1) :
    (s.finish c status).Ok where
  idle := fun _ => ⟨released.lock, released.result⟩
  call := by simp [CommandQueueRun.finish]
  finished := ok.finished_finish few
  deadWrite := ok.deadWrite
  unwrittenRead := ok.unwrittenRead

/-- A step inside the waiting part of a call. -/
theorem goto_waiting {pc : ExecutePc} (ok : s.Ok) (waiting : s.Waiting c) (started : pc.started)
    (waits : ¬pc.inspects) : (s.goto c pc).Ok :=
  ok.goto (.of_waiting started waits (waiting.congr rfl rfl rfl rfl rfl rfl))

/-- A woken call goes on to read its result. -/
theorem goto_inspect {pc : ExecutePc} (ok : s.Ok) (released : s.Released) (reply : HasReply c)
    (inspects : pc.inspects) (done : Nat) : Ok { s.goto c pc with done } where
  idle := by simp [CommandQueueRun.goto]
  call := by
    intro c' running
    obtain rfl := Option.some.inj running
    exact .of_reply inspects ⟨released.lock, released.result⟩ reply
  finished := ok.finished
  deadWrite := ok.deadWrite
  unwrittenRead := ok.unwrittenRead

/-- What is under way between the queue and the T2 does not matter. -/
theorem messages (ok : s.Ok) (requests replies answered : List (MessageTag × BceVhciMessage)) :
    Ok { s with requests, replies, answered } where
  idle := fun none => ⟨(ok.idle none).lock, (ok.idle none).result⟩
  call := by
    intro c running
    have call := ok.call c running
    exact ⟨fun before => ⟨⟨(call.fresh before).1.lock, (call.fresh before).1.result⟩, (call.fresh before).2⟩,
      fun started waits => (call.waiting started waits).congr rfl rfl rfl rfl rfl rfl,
      fun inspects => ⟨⟨(call.inspects inspects).1.lock, (call.inspects inspects).1.result⟩,
        (call.inspects inspects).2⟩⟩
  finished := ok.finished
  deadWrite := ok.deadWrite
  unwrittenRead := ok.unwrittenRead

end Ok

/-- The statements of a running call keep the invariant. -/
theorem execute_ok {label : ExecuteStep} (ok : s.Ok) (running : s.running = some c)
    (run : s.execute c label = some t) : t.Ok := by
  have call := ok.call c running
  cases label with
  | checkDead dead =>
    simp only [execute] at run
    split at run
    case h_2 => cases run
    case h_1 pc =>
      obtain ⟨released, received, res⟩ := call.fresh (by simp [pc, ExecutePc.started])
      obtain rfl := Option.some.inj run
      split
      · exact ok.finish released call.length_le
      · exact ok.goto (.of_fresh (by simp [ExecutePc.started]) ⟨released.lock, released.result⟩ received res)
  | reserve success =>
    simp only [execute] at run
    split at run
    case h_3 => cases run
    case h_1 pc =>
      obtain ⟨released, received, res⟩ := call.fresh (by simp [pc, ExecutePc.started])
      obtain rfl := Option.some.inj run
      split
      · exact ok.goto (.of_fresh (by simp [ExecutePc.started]) ⟨released.lock, released.result⟩ received res)
      · exact ok.finish released call.length_le
    case h_2 pc =>
      have waiting := call.waiting (by simp [pc, ExecutePc.started]) (by simp [pc, ExecutePc.inspects])
      obtain rfl := Option.some.inj run
      split
      · exact ok.goto_waiting waiting rfl (by simp [ExecutePc.inspects])
      · exact ok.goto_waiting waiting rfl (by simp [ExecutePc.inspects])
  | arm =>
    simp only [execute, Option.ite_none_right_eq_some, Option.some.injEq] at run
    obtain ⟨⟨pc, free⟩, rfl⟩ := run
    obtain ⟨released, received, res⟩ := call.fresh (by simp [pc, ExecutePc.started])
    constructor
    case idle => simp [goto]
    case call =>
      intro c' running'
      obtain rfl := Option.some.inj running'
      exact .of_waiting rfl (by simp [ExecutePc.inspects]) (.armed rfl free rfl received res)
    case finished => exact ok.finished
    case deadWrite => exact ok.deadWrite
    case unwrittenRead => exact ok.unwrittenRead
  | write =>
    simp only [execute] at run
    split at run
    case h_3 => cases run
    case h_1 pc =>
      have waiting := call.waiting (by simp [pc, ExecutePc.started]) (by simp [pc, ExecutePc.inspects])
      obtain rfl := Option.some.inj run
      exact (ok.goto_waiting waiting rfl (by simp [ExecutePc.inspects])).messages ..
    case h_2 pc =>
      have waiting := call.waiting (by simp [pc, ExecutePc.started]) (by simp [pc, ExecutePc.inspects])
      obtain rfl := Option.some.inj run
      exact (ok.goto_waiting waiting rfl (by simp [ExecutePc.inspects])).messages ..
  | woken =>
    simp only [execute, Option.ite_none_right_eq_some] at run
    obtain ⟨signalled, run⟩ := run
    split at run
    case h_3 => cases run
    case h_1 pc =>
      have waiting := call.waiting (by simp [pc, ExecutePc.started]) (by simp [pc, ExecutePc.inspects])
      obtain ⟨released, reply⟩ := waiting.reply signalled
      obtain rfl := Option.some.inj run
      exact ok.goto_inspect released reply rfl _
    case h_2 pc =>
      have waiting := call.waiting (by simp [pc, ExecutePc.started]) (by simp [pc, ExecutePc.inspects])
      obtain ⟨released, reply⟩ := waiting.reply signalled
      obtain rfl := Option.some.inj run
      exact ok.goto_inspect released reply rfl _
  | expired =>
    simp only [execute, Option.ite_none_right_eq_some] at run
    obtain ⟨-, run⟩ := run
    split at run
    case h_3 => cases run
    case h_1 pc =>
      have waiting := call.waiting (by simp [pc, ExecutePc.started]) (by simp [pc, ExecutePc.inspects])
      obtain rfl := Option.some.inj run
      exact ok.goto_waiting waiting rfl (by simp [ExecutePc.inspects])
    case h_2 pc =>
      have waiting := call.waiting (by simp [pc, ExecutePc.started]) (by simp [pc, ExecutePc.inspects])
      obtain rfl := Option.some.inj run
      exact ok.goto_waiting waiting rfl (by simp [ExecutePc.inspects])
  | giveUp recovering =>
    simp only [execute] at run
    split at run
    case h_2 => cases run
    case h_1 pc =>
      simp only [Option.ite_none_right_eq_some, Option.some.injEq] at run
      obtain ⟨free, rfl⟩ := run
      constructor
      case idle => exact fun _ => ⟨by simp [finish, free], fun _ => rfl⟩
      case call => simp [finish]
      case finished => exact ok.finished_finish call.length_le
      case deadWrite => exact ok.deadWrite
      case unwrittenRead => exact ok.unwrittenRead
  | inspect =>
    by_cases inspects : c.pc.inspects
    · obtain ⟨released, reply⟩ := call.inspects inspects
      obtain ⟨r, received, written⟩ := id reply
      have read : s.readRes c = (s, r.msg) := by
        simp only [readRes, written]
      simp only [execute, read] at run
      split at run
      case h_4 => cases run
      case h_1 =>
        obtain rfl := Option.some.inj run
        split
        · exact ok.finish released call.length_le
        · exact ok.goto_inspect released reply rfl s.done
      case h_2 =>
        obtain rfl := Option.some.inj run
        split
        · exact ok.finish released call.length_le
        · exact ok.goto_inspect released reply rfl s.done
      case h_3 =>
        obtain rfl := Option.some.inj run
        exact ok.finish released call.length_le
    · cases pc : c.pc <;> simp [pc, ExecutePc.inspects] at inspects <;> simp [execute, pc] at run

/-- A critical section that finds a result finds it with the call that armed it. -/
theorem Ok.owner {k : Nat} (ok : s.Ok) (free : s.lock = .free) (armed : s.result = some k) :
    ∃ c, s.running = some c ∧ c.id = k ∧ c.pc.started ∧ ¬c.pc.inspects ∧ s.done = 0 ∧
      c.received = [] ∧ c.res = none := by
  cases running : s.running with
  | none => simp [(ok.idle running).result free] at armed
  | some c =>
    have call := ok.call c running
    by_cases started : c.pc.started
    · by_cases inspects : c.pc.inspects
      · simp [(call.inspects inspects).1.result free] at armed
      · cases call.waiting started inspects with
        | armed r l d none unwritten =>
          exact ⟨c, rfl, Option.some.inj (r.symm.trans armed), started, inspects, d, none, unwritten⟩
        | written r l d has => simp [free] at l
        | completed r l d has => simp [free] at l
        | cleared r l d has => simp [r] at armed
    · simp [(call.fresh started).1.result free] at armed

/-- The first part of a critical section writes to a call that waits for it. -/
theorem lockAndStore_ok {r : Received} (ok : s.Ok) (free : s.lock = .free) : (s.lockAndStore r).Ok := by
  cases armed : s.result with
  | none => simpa only [lockAndStore, armed] using ok
  | some k =>
    obtain ⟨c, running, own, started, waits, done, none, -⟩ := ok.owner free armed
    simp only [lockAndStore, armed, store, running, own, ↓reduceIte]
    constructor
    case idle => simp
    case call =>
      intro c' running'
      obtain rfl := Option.some.inj running'
      exact .of_waiting started waits (.written rfl rfl done ⟨r, by simp [none], rfl⟩)
    case finished => exact ok.finished
    case deadWrite => exact ok.deadWrite
    case unwrittenRead => exact ok.unwrittenRead

theorem complete_ok (ok : s.Ok) (held : s.lock = .written) :
    Ok { s with done := s.done + 1, lock := .completed } := by
  constructor
  case idle => exact fun none => absurd held (ok.idle none).lock
  case call =>
    intro c running
    have call := ok.call c running
    by_cases started : c.pc.started
    · by_cases inspects : c.pc.inspects
      · exact absurd held (call.inspects inspects).1.lock
      · cases call.waiting started inspects with
        | armed r l d none unwritten => simp [held] at l
        | written r l d has => exact .of_waiting started inspects (.completed r rfl (by simp [d]) has)
        | completed r l d has => simp [held] at l
        | cleared r l d has => simp [held] at l
    · exact absurd held (call.fresh started).1.lock
  case finished => exact ok.finished
  case deadWrite => exact ok.deadWrite
  case unwrittenRead => exact ok.unwrittenRead

theorem clear_ok (ok : s.Ok) (held : s.lock = .completed) : Ok { s with result := none, lock := .free } := by
  have released : Released { s with result := none, lock := .free } := ⟨by simp, fun _ => rfl⟩
  constructor
  case idle => exact fun _ => released
  case call =>
    intro c running
    have call := ok.call c running
    by_cases started : c.pc.started
    · by_cases inspects : c.pc.inspects
      · exact .of_reply inspects released (call.inspects inspects).2
      · cases call.waiting started inspects with
        | armed r l d none unwritten => simp [held] at l
        | written r l d has => simp [held] at l
        | completed r l d has => exact .of_waiting started inspects (.cleared rfl rfl d has)
        | cleared r l d has => simp [held] at l
    · exact .of_fresh started released (call.fresh started).2.1 (call.fresh started).2.2
  case finished => exact ok.finished
  case deadWrite => exact ok.deadWrite
  case unwrittenRead => exact ok.unwrittenRead

theorem step_ok {label : CommandQueueStep} (ok : s.Ok) (run : s.step label = some t) : t.Ok := by
  cases label with
  | call req =>
    simp only [step] at run
    split at run
    · rename_i idle
      obtain rfl := Option.some.inj run
      have released := ok.idle idle
      constructor
      case idle => simp
      case call =>
        intro c running
        obtain rfl := Option.some.inj running
        exact .of_fresh (by simp [ExecutePc.started]) ⟨released.lock, released.result⟩ rfl rfl
      case finished => exact ok.finished
      case deadWrite => exact ok.deadWrite
      case unwrittenRead => exact ok.unwrittenRead
    · cases run
  | answer status param1 param2 =>
    simp only [step] at run
    split at run
    · cases run
    · obtain rfl := Option.some.inj run
      exact ok.messages ..
  | skip =>
    simp only [step] at run
    split at run
    · cases run
    · obtain rfl := Option.some.inj run
      exact ok.messages ..
  | deliver =>
    simp only [step] at run
    split at run
    · cases run
    · simp only [Option.ite_none_right_eq_some, Option.some.injEq] at run
      obtain ⟨free, rfl⟩ := run
      exact lockAndStore_ok (ok.messages ..) free
  | deliverOther msg =>
    simp only [step, Option.ite_none_right_eq_some, Option.some.injEq] at run
    obtain ⟨free, rfl⟩ := run
    exact lockAndStore_ok ok free
  | destroy =>
    simp only [step, Option.ite_none_right_eq_some, Option.some.injEq] at run
    obtain ⟨free, rfl⟩ := run
    exact lockAndStore_ok ok free
  | complete =>
    simp only [step, Option.ite_none_right_eq_some, Option.some.injEq] at run
    obtain ⟨held, rfl⟩ := run
    exact complete_ok ok held
  | clear =>
    simp only [step, Option.ite_none_right_eq_some, Option.some.injEq] at run
    obtain ⟨held, rfl⟩ := run
    exact clear_ok ok held
  | execute label =>
    obtain ⟨c, running, run⟩ := Option.bind_eq_some_iff.mp run
    exact execute_ok ok running run

end CommandQueueRun

open CommandQueueRun

theorem command_queue_ok {s : CommandQueueRun} (reach : commandQueueMachine.Reachable s) : s.Ok := by
  refine reach.invariant ?_ fun _ _ _ => step_ok
  rintro _ rfl
  exact ⟨fun _ => ⟨by simp [create], fun _ => rfl⟩, by simp [create], by simp [create], rfl, rfl⟩

/-- The command queue never touches a dead result. The pointer is set only while the call that
armed it runs, or for the rest of the critical section that completed it, which uses it no more;
no message is stored into the buffer of a call that is not running, none is read before it is
written, and no call is given two. -/
theorem command_result_owned {s : CommandQueueRun} (reach : commandQueueMachine.Reachable s) :
    (∀ k, s.result = some k →
        (∃ c, s.running = some c ∧ c.id = k ∧ c.pc.started) ∨ s.lock = .completed) ∧
      s.deadWrite = false ∧ s.unwrittenRead = false ∧
      (∀ c, s.running = some c → c.received.length ≤ 1 ∧
        (c.pc.inspects → ∃ r, c.received = [r] ∧ c.res = some r.msg)) ∧
      ∀ f ∈ s.finished, f.received.length ≤ 1 := by
  have ok := command_queue_ok reach
  refine ⟨?_, ok.deadWrite, ok.unwrittenRead, ?_, ok.finished⟩
  · intro k armed
    cases lock : s.lock with
    | free =>
      obtain ⟨c, running, own, started, -⟩ := ok.owner lock armed
      exact Or.inl ⟨c, running, own, started⟩
    | written =>
      cases running : s.running with
      | none => exact absurd lock (ok.idle running).lock
      | some c =>
        have call := ok.call c running
        by_cases started : c.pc.started
        · by_cases inspects : c.pc.inspects
          · exact absurd lock (call.inspects inspects).1.lock
          · cases call.waiting started inspects with
            | written r l d has => exact Or.inl ⟨c, rfl, Option.some.inj (r.symm.trans armed), started⟩
            | armed r l d none unwritten => simp [lock] at l
            | completed r l d has => simp [lock] at l
            | cleared r l d has => simp [lock] at l
        · exact absurd lock (call.fresh started).1.lock
    | completed => exact Or.inr rfl
  · intro c running
    exact ⟨(ok.call c running).length_le, fun inspects => ((ok.call c running).inspects inspects).2⟩

def portStatus (port : BitVec 32) : BceVhciMessage :=
  ⟨BceVhciCommand.portStatus.code, 0, port, 0⟩

/-- The first call is answered and returns between `complete` and the clearing of the pointer. -/
def answeredAtOnce : List CommandQueueStep :=
  [.call (portStatus 1), .execute (.checkDead false), .execute (.reserve true), .execute .arm,
    .execute .write, .answer BceVhciMessageStatus.success.code 1 0x501, .deliver, .complete,
    .execute .woken, .execute .inspect, .execute .inspect]

theorem command_result_owned_answered : ∃ s, commandQueueMachine.run .create answeredAtOnce = some s ∧
    s.deadWrite = false ∧ s.unwrittenRead = false ∧
    (∀ f ∈ s.finished, f.received.length ≤ 1) ∧ s.finished.map ExecuteResult.status = [0] := by
  refine ⟨_, rfl, ?_⟩
  have owned := command_result_owned ((Machine.Reachable.start rfl).of_run answeredAtOnce rfl)
  exact ⟨owned.2.1, owned.2.2.1, owned.2.2.2.2, rfl⟩

/-- The waiter does not take the lock, so it may return while the pointer still names it. -/
theorem command_result_outlives_call :
    ¬∀ s, commandQueueMachine.Reachable s → ∀ k, s.result = some k →
      ∃ c, s.running = some c ∧ c.id = k ∧ c.pc.started := by
  intro only
  have reach : commandQueueMachine.Reachable _ :=
    (Machine.Reachable.start rfl).of_run answeredAtOnce rfl
  obtain ⟨c, running, -⟩ := only _ reach 0 rfl
  cases running

end AppleBce

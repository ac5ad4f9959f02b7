import AppleBce.Basis.Machine
import AppleBce.Vhci.Message
import Mathlib.Logic.Function.Basic

namespace AppleBce

open Basis

/-- `struct bce_mailbox`. `mbCompletion` counts the wake-ups that no sender has taken. -/
structure BceMailbox where
  mbStatus : Nat
  mbCompletion : Nat
  mbResult : BitVec 64
  deriving DecidableEq, Repr

/-- `enum bce_message_type`. -/
inductive BceMessageType
  | registerCommandSq
  | registerCommandCq
  | registerCommandQueueReply
  | setFwProtocolVersion
  | sleepNoState
  | restoreNoState
  | saveStateAndSleep
  | restoreStateAndWake
  | saveStateAndSleepFailure
  | saveRestoreStateComplete
  deriving DecidableEq, Repr

def BceMessageType.code : BceMessageType → BitVec 32
  | .registerCommandSq => 0x7
  | .registerCommandCq => 0x8
  | .registerCommandQueueReply => 0xB
  | .setFwProtocolVersion => 0xC
  | .sleepNoState => 0x14
  | .restoreNoState => 0x15
  | .saveStateAndSleep => 0x17
  | .restoreStateAndWake => 0x18
  | .saveStateAndSleepFailure => 0x19
  | .saveRestoreStateComplete => 0x1A

/-- `BCE_MB_MSG`. -/
def bceMbMsg (type : BceMessageType) (value : BitVec 64) : BitVec 64 :=
  (type.code.setWidth 64 <<< 58) ||| (value &&& 0x3FFFFFFFFFFFFFF)

/-- `BCE_MB_TYPE`. -/
def bceMbType (v : BitVec 64) : BitVec 32 :=
  (v >>> 58).setWidth 32

/-- `BCE_MB_VALUE`. -/
def bceMbValue (v : BitVec 64) : BitVec 64 :=
  v &&& 0x3FFFFFFFFFFFFFF

theorem bceMbType_msg (type : BceMessageType) (value : BitVec 64) :
    bceMbType (bceMbMsg type value) = type.code := by
  have low : (value &&& 0x3FFFFFFFFFFFFFF) >>> 58 = 0 := by
    apply BitVec.eq_of_toNat_eq
    rw [BitVec.toNat_ushiftRight, BitVec.toNat_and, Nat.shiftRight_eq_div_pow]
    have bound : value.toNat &&& 0x3FFFFFFFFFFFFFF ≤ 0x3FFFFFFFFFFFFFF := Nat.and_le_right
    exact Nat.div_eq_of_lt (by simp; omega)
  rw [bceMbType, bceMbMsg, BitVec.ushiftRight_or_distrib, low]
  cases type <;> decide

/-- The register writes of a message, each with its offset from `REG_MBOX_OUT_BASE`. -/
def mailboxWrites (msg : BitVec 64) : List (Nat × BitVec 32) :=
  [(0, msg.setWidth 32), (4, (msg >>> 32).setWidth 32), (8, 0), (12, 0)]

/-- How far a `bce_mailbox_send` call is: it has not begun, has claimed the mailbox, has emptied
the completion, has written its message and waits, has been woken or timed out, has found the
status to be 2 or something else, has stored `*recv`, or has returned 0 or an error. -/
inductive SendPhase
  | starting
  | claimed
  | rearmed
  | waiting
  | woken
  | replied
  | unanswered
  | read (recv : BitVec 64)
  | returned (recv : BitVec 64)
  | failed (e : Errno)
  deriving DecidableEq, Repr

/-- Between the claim of the mailbox and the final reset. -/
def SendPhase.inside : SendPhase → Bool
  | .starting | .returned _ | .failed _ => false
  | _ => true

/-- The status was found to be 2. -/
def SendPhase.foundReply : SendPhase → Bool
  | .replied | .read _ => true
  | _ => false

/-- The send may still find the status to be 2 and read `mb_result`. -/
def SendPhase.mayRead : SendPhase → Bool
  | .claimed | .rearmed | .waiting | .woken | .replied => true
  | _ => false

/-- One step of `bce_mailbox_send`, which finds `result` in `mb_result` where it stores `*recv`. -/
inductive SendPhase.Next (result : BitVec 64) : SendPhase → SendPhase → Prop
  | claims : Next result .starting .claimed
  | refused : Next result .starting (.failed .exist)
  | rearms : Next result .claimed .rearmed
  | writes : Next result .rearmed .waiting
  | wakes : Next result .waiting .woken
  | finds : Next result .woken .replied
  | misses : Next result .woken .unanswered
  | reads : Next result .replied (.read result)
  | returns (recv : BitVec 64) : Next result (.read recv) (.returned recv)
  | gives : Next result .unanswered (.failed .timedout)

/-- How far the mailbox interrupt is: it is not running, has still to take `left` of `count`
replies, or has moved the status from 1 to 2 and not called `complete` yet. -/
inductive MailboxIrq
  | idle
  | retrieving (count left : Nat)
  | completing
  deriving DecidableEq, Repr

/-- The mailbox in use by any number of sends, by number, each with its message and how far it
is, and its interrupt, whose handler does not run twice at a time. The last fields record the
register writes, which send has claimed the mailbox, the replies handed to a send by a change of
the status from 1 to 2, and the replies reported as dropped. -/
structure MailboxRun where
  mb : BceMailbox
  msg : Nat → BitVec 64
  phase : Nat → SendPhase
  irq : MailboxIrq
  regs : List (Nat × BitVec 32)
  owner : Option Nat
  handovers : List (Nat × BitVec 64)
  dropped : List (BitVec 64)

inductive MailboxStep
  | claim (id : Nat) (msg : BitVec 64)
  | rearm (id : Nat)
  | write (id : Nat)
  | wake (id : Nat)
  | expire (id : Nat)
  | check (id : Nat)
  | read (id : Nat)
  | reset (id : Nat)
  | interrupt (res : BitVec 32)
  | reply (lo hi : BitVec 32)
  | decide
  | complete
  deriving DecidableEq, Repr

/-- The step is one of the given send. -/
def MailboxStep.of (id : Nat) : MailboxStep → Bool
  | .claim other _ | .rearm other | .write other | .wake other | .expire other | .check other
  | .read other | .reset other => other == id
  | _ => false

namespace MailboxRun

/-- `bce_mailbox_init` on the zeroed device. -/
def start : MailboxRun where
  mb := ⟨0, 0, 0⟩
  msg := fun _ => 0
  phase := fun _ => .starting
  irq := .idle
  regs := []
  owner := none
  handovers := []
  dropped := []

/-- A send goes on. -/
def goto (s : MailboxRun) (id : Nat) (phase : SendPhase) : MailboxRun :=
  { s with phase := Function.update s.phase id phase }

/-- The number of queued replies in `REG_MBOX_REPLY_COUNTER`. -/
def replyCount (res : BitVec 32) : Nat :=
  ((res >>> 20) &&& 0xf).toNat

def step (s : MailboxRun) : MailboxStep → Option MailboxRun
  -- the `atomic_cmpxchg` of `bce_mailbox_send`, which returns at once when it fails
  | .claim id msg =>
    if s.phase id = .starting then
      let asked := { s with msg := Function.update s.msg id msg }
      if s.mb.mbStatus = 0 then
        some ({ asked with mb := { s.mb with mbStatus := 1 }, owner := some id }.goto id .claimed)
      else some (asked.goto id (.failed .exist))
    else none
  | .rearm id =>
    if s.phase id = .claimed then
      some ({ s with mb := { s.mb with mbCompletion := 0 } }.goto id .rearmed)
    else none
  | .write id =>
    if s.phase id = .rearmed then
      some ({ s with regs := s.regs ++ mailboxWrites (s.msg id) }.goto id .waiting)
    else none
  -- `wait_for_completion_timeout` takes a wake-up that is there, and times out only without one
  | .wake id =>
    if s.phase id = .waiting ∧ 0 < s.mb.mbCompletion then
      some ({ s with mb := { s.mb with mbCompletion := s.mb.mbCompletion - 1 } }.goto id .woken)
    else none
  | .expire id =>
    if s.phase id = .waiting ∧ s.mb.mbCompletion = 0 then some (s.goto id .woken) else none
  | .check id =>
    if s.phase id = .woken then
      some (s.goto id (if s.mb.mbStatus = 2 then .replied else .unanswered))
    else none
  | .read id => if s.phase id = .replied then some (s.goto id (.read s.mb.mbResult)) else none
  | .reset id =>
    let free := { s with mb := { s.mb with mbStatus := 0 }, owner := none }
    match s.phase id with
    | .unanswered => some (free.goto id (.failed .timedout))
    | .read recv => some (free.goto id (.returned recv))
    | _ => none
  | .interrupt res =>
    if s.irq = .idle then some { s with irq := .retrieving (replyCount res) (replyCount res) }
    else none
  | .reply lo hi =>
    match s.irq with
    | .retrieving count (left + 1) =>
      some { s with mb := { s.mb with mbResult := hi ++ lo }, irq := .retrieving count left }
    | _ => none
  -- the end of the loop, and the `atomic_cmpxchg` when there was a reply
  | .decide =>
    match s.irq with
    | .retrieving count 0 =>
      if count = 0 then some { s with irq := .idle }
      else if s.mb.mbStatus = 1 then
        some { s with
          mb := { s.mb with mbStatus := 2 }
          irq := .completing
          handovers := s.handovers ++ (s.owner.map fun id => (id, s.mb.mbResult)).toList }
      else some { s with irq := .idle, dropped := s.dropped ++ [s.mb.mbResult] }
    | _ => none
  | .complete =>
    if s.irq = .completing then
      some { s with mb := { s.mb with mbCompletion := s.mb.mbCompletion + 1 }, irq := .idle }
    else none

/-- All uses of the mailbox. -/
def machine : Machine MailboxRun MailboxStep where
  init s := s = start
  step := step

/-- The send is between its claim of the mailbox and its final reset. -/
def Inside (s : MailboxRun) (id : Nat) : Prop :=
  (s.phase id).inside

/-- The phase of a send fits the owner, the status and the replies handed over. -/
structure PhaseOk (s : MailboxRun) (id : Nat) (phase : SendPhase) : Prop where
  inside : phase.inside ↔ s.owner = some id
  found : phase.foundReply → s.mb.mbStatus = 2
  answered : ∀ recv, phase = .returned recv → ∃ v, (id, v) ∈ s.handovers
  fresh : phase = .starting → ∀ v, (id, v) ∉ s.handovers

/-- The status tells which part of its life the one send inside is in. -/
structure Ok (s : MailboxRun) : Prop where
  phases : ∀ id, s.PhaseOk id (s.phase id)
  free : s.mb.mbStatus = 0 ↔ s.owner = none
  bound : s.mb.mbStatus ≤ 2
  handed : ∀ id, s.owner = some id → (s.mb.mbStatus = 2 ↔ ∃ v, (id, v) ∈ s.handovers)
  once : (s.handovers.map Prod.fst).Nodup

variable {s t : MailboxRun} {a : MailboxStep} {id other : Nat} {next : SendPhase}

@[simp] theorem goto_phase (s : MailboxRun) (id : Nat) (next : SendPhase) :
    (s.goto id next).phase id = next :=
  Function.update_self ..

@[simp] theorem goto_phase_other (next : SendPhase) (apart : other ≠ id) :
    (s.goto id next).phase other = s.phase other :=
  Function.update_of_ne apart ..

theorem Ok.owned (ok : s.Ok) (id : Nat) : s.Inside id ↔ s.owner = some id :=
  (ok.phases id).inside

theorem start_ok : start.Ok where
  phases := by
    intro id
    constructor <;> simp [start, SendPhase.inside, SendPhase.foundReply]
  free := by simp [start]
  bound := by simp [start]
  handed := by simp [start]
  once := by simp [start]

/-- The phases fit when that of the send that goes on does and the others still do. -/
theorem phases_goto (here : s.PhaseOk id next)
    (elsewhere : ∀ other, other ≠ id → s.PhaseOk other (s.phase other)) (other : Nat) :
    (s.goto id next).PhaseOk other ((s.goto id next).phase other) := by
  by_cases same : other = id
  · rw [same, goto_phase]
    exact ⟨here.inside, here.found, here.answered, here.fresh⟩
  · rw [goto_phase_other next same]
    have kept := elsewhere other same
    exact ⟨kept.inside, kept.found, kept.answered, kept.fresh⟩

/-- The interrupt leaves the sends alone unless it hands a reply over. -/
theorem Ok.interrupted (ok : s.Ok) (done : Nat) (result : BitVec 64) (irq : MailboxIrq)
    (dropped : List (BitVec 64)) :
    Ok { s with mb := { s.mb with mbCompletion := done, mbResult := result }, irq, dropped } where
  phases := by
    intro id
    have phase := ok.phases id
    exact ⟨phase.inside, phase.found, phase.answered, phase.fresh⟩
  free := ok.free
  bound := ok.bound
  handed := ok.handed
  once := ok.once

/-- The send inside goes on and stays inside. -/
theorem Ok.advance (ok : s.Ok) (within : s.Inside id) (stays : next.inside)
    (found : next.foundReply → s.mb.mbStatus = 2) (done : Nat) (regs : List (Nat × BitVec 32)) :
    Ok ({ s with mb := { s.mb with mbCompletion := done }, regs }.goto id next) where
  phases := by
    apply phases_goto
    · have owner := (ok.owned id).mp within
      refine ⟨by simp [stays, owner], found, ?_, ?_⟩
      · rintro recv rfl
        simp [SendPhase.inside] at stays
      · rintro rfl
        simp [SendPhase.inside] at stays
    · intro other _
      have phase := ok.phases other
      exact ⟨phase.inside, phase.found, phase.answered, phase.fresh⟩
  free := ok.free
  bound := ok.bound
  handed := ok.handed
  once := ok.once

/-- A send that has not begun claims the free mailbox. -/
theorem Ok.claim (ok : s.Ok) (starting : s.phase id = .starting) (free : s.mb.mbStatus = 0)
    (msg : Nat → BitVec 64) :
    Ok ({ s with mb := { s.mb with mbStatus := 1 }, msg, owner := some id }.goto id .claimed) where
  phases := by
    apply phases_goto
    · constructor <;> simp [SendPhase.inside, SendPhase.foundReply]
    · intro other apart
      have phase := ok.phases other
      have nobody := ok.free.mp free
      have differ : id ≠ other := Ne.symm apart
      refine ⟨?_, ?_, phase.answered, phase.fresh⟩
      · have outside := phase.inside
        simp only [nobody, reduceCtorEq, iff_false] at outside
        simp [outside, differ]
      · intro found
        have status := phase.found found
        omega
  free := by simp [goto]
  bound := by simp [goto]
  handed := by
    intro other owner
    obtain rfl := Option.some.inj owner
    have none := (ok.phases id).fresh starting
    simp [goto, none]
  once := ok.once

/-- A send that finds the mailbox taken returns. -/
theorem Ok.refuse (ok : s.Ok) (starting : s.phase id = .starting) (msg : Nat → BitVec 64) (e : Errno) :
    Ok ({ s with msg }.goto id (.failed e)) where
  phases := by
    apply phases_goto
    · have outside := (ok.phases id).inside
      simp only [starting, SendPhase.inside, Bool.false_eq_true, false_iff] at outside
      constructor <;> simp [SendPhase.inside, SendPhase.foundReply, outside]
    · intro other _
      have phase := ok.phases other
      exact ⟨phase.inside, phase.found, phase.answered, phase.fresh⟩
  free := ok.free
  bound := ok.bound
  handed := ok.handed
  once := ok.once

/-- The send inside resets the status and returns. -/
theorem Ok.reset (ok : s.Ok) (within : s.Inside id) (done : next.inside = false)
    (begun : next ≠ .starting) (answered : ∀ recv, next = .returned recv → s.mb.mbStatus = 2) :
    Ok ({ s with mb := { s.mb with mbStatus := 0 }, owner := none }.goto id next) where
  phases := by
    have owner := (ok.owned id).mp within
    apply phases_goto
    · refine ⟨by simp [done], ?_, ?_, fun begins => absurd begins begun⟩
      · intro found
        cases next <;> simp_all [SendPhase.inside, SendPhase.foundReply]
      · intro recv returned
        exact (ok.handed id owner).mp (answered recv returned)
    · intro other apart
      have phase := ok.phases other
      have outside : ¬(s.phase other).inside := by
        intro inside
        have also := phase.inside.mp inside
        rw [owner] at also
        exact apart (Option.some.inj also).symm
      refine ⟨by simp [outside], ?_, phase.answered, phase.fresh⟩
      intro found
      cases at_ : s.phase other <;> simp_all [SendPhase.inside, SendPhase.foundReply]
  free := by simp [goto]
  bound := by simp [goto]
  handed := by simp [goto]
  once := ok.once

/-- The interrupt moves the status from 1 to 2 for the send inside. -/
theorem Ok.handOver (ok : s.Ok) (waits : s.mb.mbStatus = 1) (irq : MailboxIrq) :
    Ok { s with
      mb := { s.mb with mbStatus := 2 }
      irq
      handovers := s.handovers ++ (s.owner.map fun id => (id, s.mb.mbResult)).toList } := by
  have taken : s.owner ≠ none := by
    intro nobody
    have free := ok.free.mpr nobody
    omega
  obtain ⟨id, owner⟩ := Option.ne_none_iff_exists'.mp taken
  have notYet : ∀ v, (id, v) ∉ s.handovers := by
    intro v handed
    have status := (ok.handed id owner).mpr ⟨v, handed⟩
    omega
  constructor
  case phases =>
    intro other
    have phase := ok.phases other
    refine ⟨phase.inside, by simp, ?_, ?_⟩
    · intro recv returned
      obtain ⟨v, handed⟩ := phase.answered recv returned
      exact ⟨v, List.mem_append_left _ handed⟩
    · intro begins v handed
      rcases List.mem_append.mp handed with old | new
      · exact phase.fresh begins v old
      · have same : other = id := by
          simp only [owner, Option.map_some, Option.toList_some, List.mem_singleton, Prod.mk.injEq] at new
          exact new.1
        have within := phase.inside.mpr (same ▸ owner)
        have begins : s.phase other = .starting := begins
        simp [begins, SendPhase.inside] at within
  case free => simp [taken]
  case bound => simp
  case handed =>
    intro other current
    obtain rfl := Option.some.inj (owner.symm.trans current)
    simp [owner]
  case once =>
    rw [owner, List.map_append, List.nodup_append]
    have apart : ∀ x ∈ s.handovers, x.1 ≠ id := by
      rintro ⟨other, v⟩ member rfl
      exact notYet v member
    simpa using ⟨ok.once, fun x v member => apart (x, v) member⟩

/-- A call of `bce_mailbox_send` claims the mailbox or finds it taken. -/
theorem claim_cases {msg : BitVec 64} (run : s.step (.claim id msg) = some t) :
    s.phase id = .starting ∧
    ((s.mb.mbStatus = 0 ∧ t = { s with
        mb := { s.mb with mbStatus := 1 }
        msg := Function.update s.msg id msg
        owner := some id }.goto id .claimed) ∨
      (s.mb.mbStatus ≠ 0 ∧
        t = { s with msg := Function.update s.msg id msg }.goto id (.failed .exist))) := by
  obtain ⟨starting, run⟩ := Option.ite_none_right_eq_some.mp run
  refine ⟨starting, ?_⟩
  by_cases free : s.mb.mbStatus = 0
  · rw [if_pos free] at run
    exact .inl ⟨free, (Option.some.inj run).symm⟩
  · rw [if_neg free] at run
    exact .inr ⟨free, (Option.some.inj run).symm⟩

/-- The end of an interrupt: it had no reply, hands one over, or drops it. -/
theorem decide_cases (run : s.step .decide = some t) :
    t = { s with irq := .idle } ∨
    (s.mb.mbStatus = 1 ∧ t = { s with
      mb := { s.mb with mbStatus := 2 }
      irq := .completing
      handovers := s.handovers ++ (s.owner.map fun id => (id, s.mb.mbResult)).toList }) ∨
    (s.mb.mbStatus ≠ 1 ∧ t = { s with irq := .idle, dropped := s.dropped ++ [s.mb.mbResult] }) := by
  simp only [step] at run
  split at run
  · split at run
    · exact .inl (Option.some.inj run).symm
    · split at run
      · rename_i waits
        exact .inr (.inl ⟨waits, (Option.some.inj run).symm⟩)
      · rename_i busy
        exact .inr (.inr ⟨busy, (Option.some.inj run).symm⟩)
  · cases run

/-- An interrupt that hands a reply over has taken one. -/
theorem decide_took (run : s.step .decide = some t) (waits : s.mb.mbStatus = 1)
    (moved : t.mb.mbStatus = 2) : ∃ count, s.irq = .retrieving (count + 1) 0 := by
  simp only [step] at run
  split at run
  next count at_ =>
    cases count with
    | zero =>
      rw [if_pos rfl] at run
      cases Option.some.inj run
      have same : s.mb.mbStatus = 2 := moved
      omega
    | succ count => exact ⟨count, at_⟩
  next => cases run

/-- A send leaves the mailbox with the reply it read or with a timeout. -/
theorem reset_cases (run : s.step (.reset id) = some t) : ∃ next,
    ((s.phase id = .unanswered ∧ next = .failed .timedout) ∨
      ∃ recv, s.phase id = .read recv ∧ next = .returned recv) ∧
    t = { s with mb := { s.mb with mbStatus := 0 }, owner := none }.goto id next := by
  simp only [step] at run
  split at run
  · rename_i phase
    exact ⟨_, .inl ⟨phase, rfl⟩, (Option.some.inj run).symm⟩
  · rename_i recv phase
    exact ⟨_, .inr ⟨recv, phase, rfl⟩, (Option.some.inj run).symm⟩
  · cases run

theorem reply_run {lo hi : BitVec 32} (run : s.step (.reply lo hi) = some t) :
    ∃ count left, s.irq = .retrieving count (left + 1) ∧
      t = { s with mb := { s.mb with mbResult := hi ++ lo }, irq := .retrieving count left } := by
  simp only [step] at run
  split at run
  · rename_i count left at_
    exact ⟨count, left, at_, (Option.some.inj run).symm⟩
  · cases run

theorem inside_of_phase (at_ : s.phase id = next) (inside : next.inside) : s.Inside id := by
  rw [Inside, at_]
  exact inside

/-- When one send goes on, every send stays where it is or makes a step of its own. -/
theorem next_goto {r : MailboxRun} (phases : r.phase = s.phase)
    (moves : SendPhase.Next s.mb.mbResult (s.phase other) next) (own : a.of other) (id : Nat) :
    (r.goto other next).phase id = s.phase id ∨
      (a.of id ∧ SendPhase.Next s.mb.mbResult (s.phase id) ((r.goto other next).phase id)) := by
  by_cases same : id = other
  · rw [same, goto_phase]
    exact .inr ⟨own, moves⟩
  · rw [goto_phase_other next same, phases]
    exact .inl rfl

theorem phase_next (run : s.step a = some t) (id : Nat) : t.phase id = s.phase id ∨
    (a.of id ∧ SendPhase.Next s.mb.mbResult (s.phase id) (t.phase id)) := by
  cases a with
  | claim other msg =>
    obtain ⟨phase, ⟨-, rfl⟩ | ⟨-, rfl⟩⟩ := claim_cases run
    · exact next_goto rfl (phase ▸ .claims) (by simp [MailboxStep.of]) id
    · exact next_goto rfl (phase ▸ .refused) (by simp [MailboxStep.of]) id
  | rearm other =>
    obtain ⟨phase, run⟩ := Option.ite_none_right_eq_some.mp run
    cases Option.some.inj run
    exact next_goto rfl (phase ▸ .rearms) (by simp [MailboxStep.of]) id
  | write other =>
    obtain ⟨phase, run⟩ := Option.ite_none_right_eq_some.mp run
    cases Option.some.inj run
    exact next_goto rfl (phase ▸ .writes) (by simp [MailboxStep.of]) id
  | wake other | expire other =>
    obtain ⟨⟨phase, -⟩, run⟩ := Option.ite_none_right_eq_some.mp run
    cases Option.some.inj run
    exact next_goto rfl (phase ▸ .wakes) (by simp [MailboxStep.of]) id
  | check other =>
    obtain ⟨phase, run⟩ := Option.ite_none_right_eq_some.mp run
    cases Option.some.inj run
    by_cases answered : s.mb.mbStatus = 2
    · rw [if_pos answered]
      exact next_goto rfl (phase ▸ .finds) (by simp [MailboxStep.of]) id
    · rw [if_neg answered]
      exact next_goto rfl (phase ▸ .misses) (by simp [MailboxStep.of]) id
  | read other =>
    obtain ⟨phase, run⟩ := Option.ite_none_right_eq_some.mp run
    cases Option.some.inj run
    exact next_goto rfl (phase ▸ .reads) (by simp [MailboxStep.of]) id
  | reset other =>
    obtain ⟨next, ⟨phase, rfl⟩ | ⟨recv, phase, rfl⟩, rfl⟩ := reset_cases run
    · exact next_goto rfl (phase ▸ .gives) (by simp [MailboxStep.of]) id
    · exact next_goto rfl (phase ▸ .returns recv) (by simp [MailboxStep.of]) id
  | interrupt res | complete =>
    obtain ⟨-, run⟩ := Option.ite_none_right_eq_some.mp run
    cases Option.some.inj run
    exact .inl rfl
  | reply lo hi =>
    obtain ⟨count, left, -, rfl⟩ := reply_run run
    exact .inl rfl
  | decide =>
    obtain rfl | ⟨-, rfl⟩ | ⟨-, rfl⟩ := decide_cases run
    · exact .inl rfl
    · exact .inl rfl
    · exact .inl rfl

/-- The steps by which a send begins, reads its reply and leaves the mailbox. -/
theorem own_label (run : s.step a = some t) (own : a.of id) :
    (s.phase id = .replied → a = .read id) ∧
    (s.phase id = .unanswered ∨ (∃ recv, s.phase id = .read recv) → a = .reset id) ∧
    (s.phase id = .starting → ∃ msg, a = .claim id msg) := by
  cases a with
  | interrupt | reply | decide | complete => simp [MailboxStep.of] at own
  | claim other msg =>
    obtain rfl : other = id := by simpa [MailboxStep.of] using own
    have phase := (claim_cases run).1
    simp [phase]
  | rearm other | write other | check other =>
    obtain rfl : other = id := by simpa [MailboxStep.of] using own
    have phase := (Option.ite_none_right_eq_some.mp run).1
    simp [phase]
  | wake other | expire other =>
    obtain rfl : other = id := by simpa [MailboxStep.of] using own
    have phase := (Option.ite_none_right_eq_some.mp run).1.1
    simp [phase]
  | read other =>
    obtain rfl : other = id := by simpa [MailboxStep.of] using own
    have phase := (Option.ite_none_right_eq_some.mp run).1
    simp [phase]
  | reset other =>
    obtain rfl : other = id := by simpa [MailboxStep.of] using own
    obtain ⟨next, ⟨phase, -⟩ | ⟨recv, phase, -⟩, -⟩ := reset_cases run
    · simp [phase]
    · simp [phase]

/-- What a step leaves alone: only the end of an interrupt hands a reply over or drops one, and
only there does the status become 2. -/
theorem step_frame (run : s.step a = some t) :
    (a ≠ .decide → t.handovers = s.handovers ∧ t.dropped = s.dropped ∧
      (t.mb.mbStatus = 2 → s.mb.mbStatus = 2)) ∧
    ((∀ lo hi, a ≠ .reply lo hi) → t.mb.mbResult = s.mb.mbResult) ∧
    ∀ id, (∀ msg, a ≠ .claim id msg) → t.msg id = s.msg id := by
  cases a with
  | claim other msg =>
    have msgs : ∀ id, (∀ m, MailboxStep.claim other msg ≠ .claim id m) →
        Function.update s.msg other msg id = s.msg id := by
      intro id apart
      refine Function.update_of_ne ?_ ..
      rintro rfl
      exact apart msg rfl
    obtain ⟨-, ⟨-, rfl⟩ | ⟨-, rfl⟩⟩ := claim_cases run
    · exact ⟨fun _ => ⟨rfl, rfl, nofun⟩, fun _ => rfl, msgs⟩
    · exact ⟨fun _ => ⟨rfl, rfl, id⟩, fun _ => rfl, msgs⟩
  | reset other =>
    obtain ⟨next, -, rfl⟩ := reset_cases run
    exact ⟨fun _ => ⟨rfl, rfl, nofun⟩, fun _ => rfl, fun _ _ => rfl⟩
  | reply lo hi =>
    obtain ⟨count, rest, -, rfl⟩ := reply_run run
    exact ⟨fun _ => ⟨rfl, rfl, id⟩, fun none => absurd rfl (none lo hi), fun _ _ => rfl⟩
  | decide =>
    refine ⟨fun other => absurd rfl other, fun _ => ?_, fun _ _ => ?_⟩
    · obtain rfl | ⟨-, rfl⟩ | ⟨-, rfl⟩ := decide_cases run
      · rfl
      · rfl
      · rfl
    · obtain rfl | ⟨-, rfl⟩ | ⟨-, rfl⟩ := decide_cases run
      · rfl
      · rfl
      · rfl
  | rearm | write | wake | expire | check | read | interrupt | complete =>
    obtain ⟨-, run⟩ := Option.ite_none_right_eq_some.mp run
    cases Option.some.inj run
    exact ⟨fun _ => ⟨rfl, rfl, id⟩, fun _ => rfl, fun _ _ => rfl⟩

/-- A send that may read its reply could do so before, or has just claimed the mailbox. -/
theorem mayRead_before (run : s.step a = some t) (may : (t.phase id).mayRead) :
    (s.phase id).mayRead ∨ (s.phase id = .starting ∧ t.phase id = .claimed) := by
  rcases phase_next run id with same | ⟨-, moves⟩
  · exact .inl (same ▸ may)
  · generalize s.phase id = before at moves
    generalize t.phase id = after at moves may
    cases moves with
    | claims => exact .inr ⟨rfl, rfl⟩
    | rearms | writes | wakes | finds | reads => exact .inl rfl
    | refused | misses | returns | gives => simp [SendPhase.mayRead] at may

/-- What a send has read it had before, or finds in `mb_result` now. -/
theorem holds_before (run : s.step a = some t) {recv : BitVec 64}
    (has : t.phase id = .read recv ∨ t.phase id = .returned recv) :
    (s.phase id = .read recv ∨ s.phase id = .returned recv) ∨
      (a = .read id ∧ s.phase id = .replied ∧ recv = s.mb.mbResult) := by
  rcases phase_next run id with same | ⟨own, moves⟩
  · exact .inl (same ▸ has)
  · have label := (own_label run own).1
    generalize s.phase id = before at moves label
    generalize t.phase id = after at moves has
    cases moves with
    | reads =>
      have value : s.mb.mbResult = recv := by simpa using has
      exact .inr ⟨label rfl, rfl, value.symm⟩
    | returns other =>
      have value : other = recv := by simpa using has
      exact .inl (.inl (by rw [value]))
    | claims | refused | rearms | writes | wakes | finds | misses | gives => simp at has

theorem Ok.step (ok : s.Ok) (run : s.step a = some t) : t.Ok := by
  cases a with
  | claim id msg =>
    obtain ⟨starting, ⟨free, rfl⟩ | ⟨-, rfl⟩⟩ := claim_cases run
    · exact ok.claim starting free _
    · exact ok.refuse starting _ _
  | rearm id =>
    obtain ⟨phase, run⟩ := Option.ite_none_right_eq_some.mp run
    cases Option.some.inj run
    exact ok.advance (inside_of_phase phase rfl) rfl (by simp [SendPhase.foundReply]) 0 s.regs
  | write id =>
    obtain ⟨phase, run⟩ := Option.ite_none_right_eq_some.mp run
    cases Option.some.inj run
    exact ok.advance (inside_of_phase phase rfl) rfl (by simp [SendPhase.foundReply]) s.mb.mbCompletion _
  | wake id =>
    obtain ⟨⟨phase, -⟩, run⟩ := Option.ite_none_right_eq_some.mp run
    cases Option.some.inj run
    exact ok.advance (inside_of_phase phase rfl) rfl (by simp [SendPhase.foundReply]) _ s.regs
  | expire id =>
    obtain ⟨⟨phase, -⟩, run⟩ := Option.ite_none_right_eq_some.mp run
    cases Option.some.inj run
    exact ok.advance (inside_of_phase phase rfl) rfl (by simp [SendPhase.foundReply]) s.mb.mbCompletion s.regs
  | check id =>
    obtain ⟨phase, run⟩ := Option.ite_none_right_eq_some.mp run
    cases Option.some.inj run
    have within := inside_of_phase phase rfl
    by_cases answered : s.mb.mbStatus = 2
    · rw [if_pos answered]
      exact ok.advance within rfl (fun _ => answered) s.mb.mbCompletion s.regs
    · rw [if_neg answered]
      exact ok.advance within rfl (by simp [SendPhase.foundReply]) s.mb.mbCompletion s.regs
  | read id =>
    obtain ⟨phase, run⟩ := Option.ite_none_right_eq_some.mp run
    cases Option.some.inj run
    have found := (ok.phases id).found (by rw [phase]; rfl)
    exact ok.advance (inside_of_phase phase rfl) rfl (fun _ => found) s.mb.mbCompletion s.regs
  | reset id =>
    obtain ⟨next, ⟨phase, rfl⟩ | ⟨recv, phase, rfl⟩, rfl⟩ := reset_cases run
    · exact ok.reset (inside_of_phase phase rfl) rfl nofun nofun
    · have found := (ok.phases id).found (by rw [phase]; rfl)
      exact ok.reset (inside_of_phase phase rfl) rfl nofun (fun _ _ => found)
  | interrupt res =>
    obtain ⟨-, run⟩ := Option.ite_none_right_eq_some.mp run
    cases Option.some.inj run
    exact ok.interrupted s.mb.mbCompletion s.mb.mbResult _ s.dropped
  | reply lo hi =>
    obtain ⟨count, left, -, rfl⟩ := reply_run run
    exact ok.interrupted s.mb.mbCompletion _ _ s.dropped
  | decide =>
    obtain rfl | ⟨waits, rfl⟩ | ⟨-, rfl⟩ := decide_cases run
    · exact ok.interrupted s.mb.mbCompletion s.mb.mbResult _ s.dropped
    · exact ok.handOver waits _
    · exact ok.interrupted s.mb.mbCompletion s.mb.mbResult _ _
  | complete =>
    obtain ⟨-, run⟩ := Option.ite_none_right_eq_some.mp run
    cases Option.some.inj run
    exact ok.interrupted _ s.mb.mbResult _ s.dropped

theorem mailbox_ok (reach : machine.Reachable s) : s.Ok := by
  refine reach.invariant ?_ (fun _ _ _ ok run => ok.step run)
  rintro _ rfl
  exact start_ok

end MailboxRun

end AppleBce

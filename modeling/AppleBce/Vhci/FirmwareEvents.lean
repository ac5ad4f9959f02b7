import AppleBce.Basis.Ring
import AppleBce.Queue.Sq
import AppleBce.Vhci.Message

namespace AppleBce

open Basis

/-- `enum bce_vhci_endpoint_state`. -/
inductive BceVhciEndpointState
  | active
  | paused
  | stalled
  deriving DecidableEq, Repr

def BceVhciEndpointState.code : BceVhciEndpointState → BitVec 64
  | .active => 0
  | .paused => 1
  | .stalled => 2

/-- The part of `struct bce_vhci_device` the firmware event handler looks at. -/
structure BceVhciDevice where
  tqMask : BitVec 32

/-- `vhci->devices`. -/
abbrev DeviceTable := Nat → Option BceVhciDevice

def bceVhciEndpointIndex (addr : BitVec 8) : BitVec 8 :=
  if addr &&& 0x80 ≠ 0 then 0x10 + (addr &&& 0xf) else addr &&& 0xf

/-- What a firmware event makes the driver do with a transfer queue: resume or pause it for
the firmware, or mark it stalled and request its reset. -/
inductive FirmwareAction
  | resume (dev endp : BitVec 8)
  | pause (dev endp : BitVec 8)
  | stall (dev endp : BitVec 8)
  deriving DecidableEq, Repr

/-- `bce_vhci_handle_firmware_event`: its result and its effect. -/
def handleFirmwareEvent (devices : DeviceTable) (msg : BceVhciMessage) :
    BceVhciMessageStatus × Option FirmwareAction :=
  let devid := msg.param1.setWidth 8
  let endp := bceVhciEndpointIndex ((msg.param1 >>> 8).setWidth 8)
  if msg.cmd = BceVhciCommand.endpointRequestState.code ∨
      msg.cmd = BceVhciCommand.endpointSetState.code then
    if 16 ≤ devid.toNat then (.badArgument, none)
    else
      match devices devid.toNat with
      | none => (.badArgument, none)
      | some dev =>
        if ¬dev.tqMask.getLsbD endp.toNat then (.badArgument, none)
        else if msg.cmd = BceVhciCommand.endpointRequestState.code then
          if msg.param2 = BceVhciEndpointState.active.code then (.success, some (.resume devid endp))
          else if msg.param2 = BceVhciEndpointState.paused.code then
            (.success, some (.pause devid endp))
          else (.badArgument, none)
        else if msg.param2 = BceVhciEndpointState.stalled.code then
          (.success, some (.stall devid endp))
        else (.badArgument, none)
  else (.badArgument, none)

/-- The message `bce_vhci_send_fw_event_response` sends. -/
def fwEventResponse (req : BceVhciMessage) (status : BitVec 16) : BceVhciMessage :=
  { req with cmd := req.cmd ||| BceVhciMessage.replyBit, status, param2 := 0 }

/-- What the worker does, with the slot of the data ring it does it for. A response is written
unless no submission can be reserved for it in time. -/
inductive FirmwareEvent
  | handle (slot : Nat) (msg : BceVhciMessage) (action : Option FirmwareAction)
  | respond (slot : Nat) (response : BceVhciMessage) (written : Bool)
  deriving DecidableEq, Repr

/-- What one run of the worker finds: the data ring, and at each slot's turn the devices and
whether a response can be reserved. -/
structure FirmwareEnv where
  data : Nat → BceVhciMessage
  devices : Nat → DeviceTable
  room : Nat → Bool

namespace FirmwareEnv

variable (env : FirmwareEnv)

def respond (slot : Nat) (status : BceVhciMessageStatus) : FirmwareEvent :=
  .respond slot (fwEventResponse (env.data slot) status.code) (env.room slot)

/-- Handling the message of a slot and answering with the result. -/
def dispatched (slot : Nat) : List FirmwareEvent :=
  let handled := handleFirmwareEvent (env.devices slot) (env.data slot)
  [.handle slot (env.data slot) handled.2, env.respond slot handled.1]

def cancelled (slot : Nat) : List FirmwareEvent :=
  [env.respond slot .abort]

/-- The message of slot `second` cancels the one of slot `first`. -/
def Cancels (first second : Nat) : Prop :=
  (env.data second).cmd = (env.data first).cmd ||| BceVhciMessage.cancelBit ∧
    (env.data second).param1 = (env.data first).param1

instance (first second : Nat) : Decidable (env.Cancels first second) :=
  inferInstanceAs (Decidable (_ ∧ _))

end FirmwareEnv

/-- The locals of `bce_vhci_handle_firmware_events_w` between two rounds, and what it has done.
`msg2` is the slot the pointer points to. -/
structure FirmwareWorker where
  sq : BceQueueSq
  msg2 : Option Nat
  cnt : Nat
  events : List FirmwareEvent

/-- How a round begins: with nothing left, with an aborted completion, or with the message of
a slot. -/
inductive FirmwareFetch
  | done
  | skipped (sq : BceQueueSq)
  | message (slot : Nat) (sq : BceQueueSq)

namespace FirmwareWorker

def fetch (w : FirmwareWorker) : FirmwareFetch :=
  match w.msg2 with
  | some slot => .message slot w.sq
  | none =>
    match w.sq.nextCompletion with
    | none => .done
    | some (cq, sq) =>
      if cq.status = bceCompletionAborted then .skipped sq.notifySubmissionComplete
      else .message sq.head sq

/-- The rest of a round, from the look at the next completion on. -/
def handle (env : FirmwareEnv) (w : FirmwareWorker) (slot : Nat) (sq : BceQueueSq) : FirmwareWorker :=
  match sq.nextCompletion with
  | none =>
    { sq := sq.notifySubmissionComplete
      msg2 := none
      cnt := w.cnt + 1
      events := w.events ++ env.dispatched slot }
  | some (cq, sq) =>
    let second := (sq.head + 1) % sq.elCount
    if cq.status ≠ bceCompletionAborted ∧ env.Cancels slot second then
      { sq := sq.notifySubmissionComplete.notifySubmissionComplete
        msg2 := none
        cnt := w.cnt + 2
        events := w.events ++ env.cancelled slot }
    else
      { sq := sq.notifySubmissionComplete
        msg2 := some second
        cnt := w.cnt + 1
        events := w.events ++ env.dispatched slot }

/-- The loop. Each round has a completion of its own, so `elCount` rounds are enough. -/
def loop (env : FirmwareEnv) : Nat → FirmwareWorker → FirmwareWorker
  | 0, w => w
  | rounds + 1, w =>
    match w.fetch with
    | .done => w
    | .skipped sq => loop env rounds { w with sq }
    | .message slot sq => loop env rounds (w.handle env slot sq)

end FirmwareWorker

/-- `bce_vhci_event_queue_submit_pending`. -/
def eventQueueSubmitPending : Nat → BceQueueSq → BceQueueSq
  | 0, sq => sq
  | count + 1, sq =>
    match sq.reserveSubmission [] none with
    | none => sq
    | some reserved => eventQueueSubmitPending count reserved.nextSubmission.2

/-- `bce_vhci_handle_firmware_events_w`: what it did, the queue it leaves and whether it
completes `queue_empty_completion`. -/
def handleFirmwareEventsW (env : FirmwareEnv) (sq : BceQueueSq) :
    List FirmwareEvent × BceQueueSq × Bool :=
  let w := FirmwareWorker.loop env sq.elCount ⟨sq, none, 0, []⟩
  let refilled := eventQueueSubmitPending w.cnt w.sq
  (w.events, refilled, refilled.availableCommands = (refilled.elCount : Int) - 1)

/-- One completion on the firmware command queue. -/
structure FirmwareCompletion where
  slot : Nat
  aborted : Bool
  deriving DecidableEq, Repr

def BceQueueSq.firmwareCompletion (sq : BceQueueSq) (slot : Nat) : FirmwareCompletion :=
  ⟨slot, (sq.completionData slot).status = bceCompletionAborted⟩

@[simp] theorem BceQueueSq.firmwareCompletion_slot (sq : BceQueueSq) (slot : Nat) :
    (sq.firmwareCompletion slot).slot = slot := rfl

@[simp] theorem BceQueueSq.firmwareCompletion_aborted (sq : BceQueueSq) (slot : Nat) :
    (sq.firmwareCompletion slot).aborted =
      decide ((sq.completionData slot).status = bceCompletionAborted) := rfl

/-- The completions the worker finds, oldest first. -/
def BceQueueSq.firmwareCompletions (sq : BceQueueSq) : List FirmwareCompletion :=
  window sq.elCount sq.firmwareCompletion sq.completionCidx
    ((sq.completionTail + sq.elCount - sq.completionCidx) % sq.elCount)

/-- `d` is a message that cancels the message of `c`. -/
def FirmwareCompletion.Cancels (env : FirmwareEnv) (c d : FirmwareCompletion) : Prop :=
  d.aborted = false ∧ env.Cancels c.slot d.slot

instance (env : FirmwareEnv) (c d : FirmwareCompletion) : Decidable (c.Cancels env d) :=
  inferInstanceAs (Decidable (_ ∧ _))

/-- What the worker is to do: aborted completions are passed over, a message followed by its
cancellation is answered with an abort together with it, and each other message is handled and
answered with its result. -/
def specifiedEvents (env : FirmwareEnv) : List FirmwareCompletion → List FirmwareEvent
  | [] => []
  | [c] => if c.aborted then [] else env.dispatched c.slot
  | c :: d :: rest =>
    if c.aborted then specifiedEvents env (d :: rest)
    else if c.Cancels env d then env.cancelled c.slot ++ specifiedEvents env rest
    else env.dispatched c.slot ++ specifiedEvents env (d :: rest)

/-- Somewhere an aborted completion comes right after a message that is handled. -/
def AbortAhead (env : FirmwareEnv) : List FirmwareCompletion → Prop
  | c :: d :: rest =>
    if c.aborted then AbortAhead env (d :: rest)
    else if c.Cancels env d then AbortAhead env rest
    else d.aborted ∨ AbortAhead env (d :: rest)
  | _ => False

/-- What the rounds do with the completions they find, with the one already looked at. -/
def workerEvents (env : FirmwareEnv) : Option FirmwareCompletion → List FirmwareCompletion →
    List FirmwareEvent
  | none, [] => []
  | none, c :: rest => if c.aborted then workerEvents env none rest else workerEvents env (some c) rest
  | some c, [] => env.dispatched c.slot
  | some c, d :: rest =>
    if c.Cancels env d then env.cancelled c.slot ++ workerEvents env none rest
    else env.dispatched c.slot ++ workerEvents env (some d) rest

/-- The queue `q` between two statements of the worker that found it as `sq`: `lead` completions
from ring position `pos` on are taken and not notified, and `h` are still to be taken. -/
structure RingAt (sq q : BceQueueSq) (pos lead h : Nat) : Prop where
  size : q.elCount = sq.elCount
  data : q.completionData = sq.completionData
  head : q.head = pos % sq.elCount
  cidx : q.completionCidx = (pos + lead) % sq.elCount
  tail : q.completionTail = (pos + lead + h) % sq.elCount
  bound : lead + h < sq.elCount

namespace RingAt

variable {sq q : BceQueueSq} {pos lead h : Nat}

theorem next_none (ring : RingAt sq q pos lead 0) : q.nextCompletion = none := by
  have bound := ring.bound
  rw [BceQueueSq.nextCompletion_of_distance ring.size (by omega) ring.cidx ring.tail, if_pos rfl]

theorem next_some (ring : RingAt sq q pos lead (h + 1)) :
    ∃ taken, q.nextCompletion = some (sq.completionData ((pos + lead) % sq.elCount), taken) ∧
      RingAt sq taken pos (lead + 1) h := by
  have bound := ring.bound
  refine ⟨{ q with completionCidx := (pos + lead + 1) % sq.elCount }, ?_, ?_⟩
  · rw [BceQueueSq.nextCompletion_of_distance ring.size (by omega) ring.cidx ring.tail,
      if_neg (Nat.succ_ne_zero h), ← ring.data]
  · refine ⟨ring.size, ring.data, ring.head, rfl, ring.tail.trans ?_, by omega⟩
    congr 1
    omega

theorem notify (ring : RingAt sq q pos (lead + 1) h) :
    RingAt sq q.notifySubmissionComplete (pos + 1) lead h := by
  have bound := ring.bound
  refine ⟨ring.size, ring.data, ?_, ring.cidx.trans ?_, ring.tail.trans ?_, by omega⟩
  · simp only [BceQueueSq.notifySubmissionComplete, ring.head, ring.size, Nat.mod_add_mod]
  · congr 1
    omega
  · congr 1
    omega

end RingAt

/-- The completion the worker has already looked at. -/
def BceQueueSq.ahead (sq : BceQueueSq) (pos lead : Nat) : Option FirmwareCompletion :=
  if lead = 0 then none else some (sq.firmwareCompletion (pos % sq.elCount))

/-- The completions from ring position `pos` on. -/
abbrev BceQueueSq.completionsFrom (sq : BceQueueSq) (pos h : Nat) : List FirmwareCompletion :=
  window sq.elCount sq.firmwareCompletion pos h

/-- The worker between two rounds. -/
structure FirmwareWorker.At (sq : BceQueueSq) (w : FirmwareWorker) (pos lead h : Nat) : Prop where
  ring : RingAt sq w.sq pos lead h
  msg2 : w.msg2 = if lead = 0 then none else some (pos % sq.elCount)
  lead_le : lead ≤ 1

/-- The counters of a worker that found the queue as `sq` and has notified `taken` completions. -/
structure FirmwareWorker.Counted (sq : BceQueueSq) (w : FirmwareWorker) (taken : Nat) : Prop where
  available : w.sq.availableCommands = sq.availableCommands + taken
  submitted : w.sq.tail = sq.tail
  cnt : w.cnt ≤ taken
  idle : w.cnt = 0 ↔ w.events = []

namespace FirmwareWorker

variable {env : FirmwareEnv} {sq q : BceQueueSq} {w : FirmwareWorker} {pos lead h : Nat}

theorem Counted.notify {q' : BceQueueSq} {taken : Nat} {es : List FirmwareEvent} (msg2 : Option Nat)
    (counted : Counted sq { w with sq := q } taken) (same : q'.availableCommands = q.availableCommands)
    (sameTail : q'.tail = q.tail) (some_event : es ≠ []) :
    Counted sq ⟨q'.notifySubmissionComplete, msg2, w.cnt + 1, w.events ++ es⟩ (taken + 1) := by
  have available := counted.available
  have cnt := counted.cnt
  constructor
  case available =>
    simp only [BceQueueSq.notifySubmissionComplete, same] at available ⊢
    omega
  case submitted => exact sameTail.trans counted.submitted
  case cnt => exact Nat.succ_le_succ cnt
  case idle => simp [some_event]

/-- What a round does once it has its message leaves the worker between two rounds again. -/
theorem handle_at (env : FirmwareEnv) (w : FirmwareWorker) (ring : RingAt sq q pos 1 h) :
    ∃ n lead' h', At sq (w.handle env (pos % sq.elCount) q) (pos + n) lead' h' ∧ lead' + h' ≤ h ∧
      pos + n + lead' + h' = pos + 1 + h ∧
      (w.handle env (pos % sq.elCount) q).events ++
          workerEvents env (sq.ahead (pos + n) lead') (sq.completionsFrom (pos + n + lead') h') =
        w.events ++ workerEvents env (sq.ahead pos 1) (sq.completionsFrom (pos + 1) h) ∧
      ∀ taken, Counted sq { w with sq := q } taken →
        Counted sq (w.handle env (pos % sq.elCount) q) (taken + n) := by
  cases h with
  | zero =>
    rw [handle, ring.next_none]
    refine ⟨1, 0, 0, ⟨ring.notify, rfl, by omega⟩, le_rfl, rfl, ?_, ?_⟩
    · simp [BceQueueSq.ahead, workerEvents]
    · intro taken counted
      exact counted.notify none rfl rfl (by simp [FirmwareEnv.dispatched])
  | succ h =>
    obtain ⟨looked, next, ring⟩ := ring.next_some
    obtain ⟨-, -, rest⟩ := BceQueueSq.nextCompletion_some next
    have same : looked.availableCommands = q.availableCommands := by rw [rest]
    have sameTail : looked.tail = q.tail := by rw [rest]
    have second : (looked.head + 1) % looked.elCount = (pos + 1) % sq.elCount := by
      rw [ring.head, ring.size, Nat.mod_add_mod]
    have behind : sq.completionsFrom (pos + 1) (h + 1) =
        sq.firmwareCompletion ((pos + 1) % sq.elCount) :: sq.completionsFrom (pos + 2) h :=
      window_succ ..
    have cancels : (sq.completionData ((pos + 1) % sq.elCount)).status ≠ bceCompletionAborted ∧
        env.Cancels (pos % sq.elCount) ((pos + 1) % sq.elCount) ↔
        (sq.firmwareCompletion (pos % sq.elCount)).Cancels env
          (sq.firmwareCompletion ((pos + 1) % sq.elCount)) := by
      simp [FirmwareCompletion.Cancels]
    rw [handle, next]
    simp only [second, behind]
    by_cases pair : (sq.firmwareCompletion (pos % sq.elCount)).Cancels env
        (sq.firmwareCompletion ((pos + 1) % sq.elCount))
    · rw [if_pos (cancels.mpr pair)]
      refine ⟨2, 0, h, ⟨ring.notify.notify, rfl, by omega⟩, by omega, by omega, ?_, ?_⟩
      · simp [BceQueueSq.ahead, workerEvents, pair]
      · intro taken counted
        have one := counted.notify none same sameTail
          (show env.cancelled (pos % sq.elCount) ≠ [] by simp [FirmwareEnv.cancelled])
        constructor
        case available =>
          have available := one.available
          simp only [BceQueueSq.notifySubmissionComplete] at available ⊢
          omega
        case submitted => exact one.submitted
        case cnt => exact Nat.succ_le_succ one.cnt
        case idle => simp [FirmwareEnv.cancelled]
    · rw [if_neg (mt cancels.mp pair)]
      refine ⟨1, 1, h, ⟨ring.notify, rfl, le_rfl⟩, by omega, by omega, ?_, ?_⟩
      · simp [BceQueueSq.ahead, workerEvents, pair]
      · intro taken counted
        exact counted.notify _ same sameTail (by simp [FirmwareEnv.dispatched])

/-- The loop takes and notifies every completion, and does what the rounds do with them. -/
theorem loop_at (env : FirmwareEnv) {rounds taken : Nat} (at_ : w.At sq pos lead h) (counted : w.Counted sq taken)
    (enough : lead + h ≤ rounds) :
    (loop env rounds w).events =
        w.events ++ workerEvents env (sq.ahead pos lead) (sq.completionsFrom (pos + lead) h) ∧
      At sq (loop env rounds w) (pos + lead + h) 0 0 ∧
      Counted sq (loop env rounds w) (taken + lead + h) := by
  induction rounds generalizing w pos lead h taken with
  | zero =>
    obtain ⟨rfl, rfl⟩ : lead = 0 ∧ h = 0 := by omega
    exact ⟨by simp [loop, BceQueueSq.ahead, workerEvents], at_, counted⟩
  | succ rounds ih =>
    rcases Nat.le_one_iff_eq_zero_or_eq_one.mp at_.lead_le with rfl | rfl
    · cases h with
      | zero =>
        have fetch : w.fetch = .done := by
          simp only [FirmwareWorker.fetch, at_.msg2, ↓reduceIte, at_.ring.next_none]
        rw [loop, fetch]
        exact ⟨by simp [BceQueueSq.ahead, workerEvents], at_, counted⟩
      | succ h =>
        obtain ⟨looked, next, ring⟩ := at_.ring.next_some
        obtain ⟨-, -, rest⟩ := BceQueueSq.nextCompletion_some next
        have here : Counted sq { w with sq := looked } taken := by
          rw [rest]
          exact ⟨counted.available, counted.submitted, counted.cnt, counted.idle⟩
        have first : sq.completionsFrom (pos + 0) (h + 1) =
            sq.firmwareCompletion (pos % sq.elCount) :: sq.completionsFrom (pos + 1) h :=
          window_succ ..
        by_cases aborted : (sq.completionData (pos % sq.elCount)).status = bceCompletionAborted
        · have fetch : w.fetch = .skipped looked.notifySubmissionComplete := by
            simp only [FirmwareWorker.fetch, at_.msg2, ↓reduceIte, next, Nat.add_zero, aborted]
          have skipped : At sq { w with sq := looked.notifySubmissionComplete } (pos + 1) 0 h :=
            ⟨ring.notify, at_.msg2, by omega⟩
          have notified : Counted sq { w with sq := looked.notifySubmissionComplete } (taken + 1) := by
            have available := here.available
            refine ⟨?_, here.submitted, Nat.le_succ_of_le here.cnt, here.idle⟩
            simp only [BceQueueSq.notifySubmissionComplete] at available ⊢
            omega
          obtain ⟨events, ends, total⟩ := ih skipped notified (by omega)
          rw [loop, fetch, first]
          refine ⟨events.trans ?_, ?_, ?_⟩
          · simp [BceQueueSq.ahead, workerEvents, aborted]
          · rwa [show pos + 1 + 0 + h = pos + 0 + (h + 1) by omega] at ends
          · rwa [show taken + 1 + 0 + h = taken + 0 + (h + 1) by omega] at total
        · have fetch : w.fetch = .message (pos % sq.elCount) looked := by
            simp only [FirmwareWorker.fetch, at_.msg2, ↓reduceIte, next, Nat.add_zero, aborted, ring.head]
          obtain ⟨n, lead', h', between, fewer, same, events', counts⟩ := handle_at env w ring
          obtain ⟨events, ends, total⟩ := ih between (counts taken here) (by omega)
          rw [loop, fetch, first]
          refine ⟨events.trans (events'.trans ?_), ?_, ?_⟩
          · simp [BceQueueSq.ahead, workerEvents, aborted]
          · rwa [same, show pos + 1 + h = pos + 0 + (h + 1) by omega] at ends
          · rwa [show taken + n + lead' + h' = taken + 0 + (h + 1) by omega] at total
    · have fetch : w.fetch = .message (pos % sq.elCount) w.sq := by
        simp [FirmwareWorker.fetch, at_.msg2]
      obtain ⟨n, lead', h', between, fewer, same, events', counts⟩ := handle_at env w at_.ring
      obtain ⟨events, ends, total⟩ := ih between (counts taken counted) (by omega)
      rw [loop, fetch]
      refine ⟨events.trans events', ?_, ?_⟩
      · rwa [same] at ends
      · rwa [show taken + n + lead' + h' = taken + 1 + h by omega] at total

end FirmwareWorker

/-- The slot an event is about. -/
def FirmwareEvent.slot : FirmwareEvent → Nat
  | .handle slot _ _ => slot
  | .respond slot _ _ => slot

section Lists

variable {env : FirmwareEnv} {c : FirmwareCompletion} {cs : List FirmwareCompletion}

theorem slot_dispatched {e : FirmwareEvent} {slot : Nat} (member : e ∈ env.dispatched slot) :
    e.slot = slot := by
  simp only [FirmwareEnv.dispatched, List.mem_cons, List.not_mem_nil, or_false] at member
  rcases member with rfl | rfl <;> rfl

theorem slot_cancelled {e : FirmwareEvent} {slot : Nat} (member : e ∈ env.cancelled slot) :
    e.slot = slot := by
  simp only [FirmwareEnv.cancelled, List.mem_singleton] at member
  rw [member]
  rfl

/-- The specification speaks only of completions that are not aborted. -/
theorem slot_specified {e : FirmwareEvent} (member : e ∈ specifiedEvents env cs) :
    ∃ c ∈ cs, c.aborted = false ∧ e.slot = c.slot := by
  induction cs using specifiedEvents.induct env with
  | case1 => cases member
  | case2 c aborted => simp [specifiedEvents, aborted] at member
  | case3 c normal =>
    simp only [specifiedEvents, normal] at member
    exact ⟨c, List.mem_cons_self .., by simpa using normal, slot_dispatched member⟩
  | case4 c d rest aborted ih =>
    simp only [specifiedEvents, aborted, ↓reduceIte] at member
    obtain ⟨x, inRest, normal, slot⟩ := ih member
    exact ⟨x, List.mem_cons_of_mem _ inRest, normal, slot⟩
  | case5 c d rest normal cancels ih =>
    simp only [specifiedEvents, normal, cancels] at member
    rcases List.mem_append.mp member with here | later
    · exact ⟨c, List.mem_cons_self .., by simpa using normal, slot_cancelled here⟩
    · obtain ⟨x, inRest, notAborted, slot⟩ := ih later
      exact ⟨x, List.mem_cons_of_mem _ (List.mem_cons_of_mem _ inRest), notAborted, slot⟩
  | case6 c d rest normal alone ih =>
    simp only [specifiedEvents, normal, alone] at member
    rcases List.mem_append.mp member with here | later
    · exact ⟨c, List.mem_cons_self .., by simpa using normal, slot_dispatched here⟩
    · obtain ⟨x, inRest, notAborted, slot⟩ := ih later
      exact ⟨x, List.mem_cons_of_mem _ inRest, notAborted, slot⟩

/-- A message already looked at is handled or answered, aborted or not. -/
theorem ahead_has_event (env : FirmwareEnv) (c : FirmwareCompletion) (cs : List FirmwareCompletion) :
    ∃ e ∈ workerEvents env (some c) cs, e.slot = c.slot := by
  have first : env.respond c.slot (handleFirmwareEvent (env.devices c.slot) (env.data c.slot)).1 ∈
      env.dispatched c.slot := by
    simp [FirmwareEnv.dispatched]
  cases cs with
  | nil => exact ⟨_, first, rfl⟩
  | cons d rest =>
    rw [workerEvents]
    split
    · exact ⟨env.respond c.slot .abort, List.mem_append_left _ (by simp [FirmwareEnv.cancelled]), rfl⟩
    · exact ⟨_, List.mem_append_left _ first, rfl⟩

/-- The rounds do nothing exactly if they find aborted completions only. -/
theorem workerEvents_eq_nil : workerEvents env none cs = [] ↔ ∀ c ∈ cs, c.aborted = true := by
  induction cs with
  | nil => simp [workerEvents]
  | cons c rest ih =>
    by_cases aborted : c.aborted = true
    · simp [workerEvents, aborted, ih]
    · obtain ⟨e, event, -⟩ := ahead_has_event env c rest
      have something : workerEvents env (some c) rest ≠ [] := List.ne_nil_of_mem event
      simp [workerEvents, aborted, something]

/-- Without an aborted completion behind a handled message the rounds do what is specified. -/
theorem workerEvents_of_not_abortAhead (clean : ¬AbortAhead env cs) :
    workerEvents env none cs = specifiedEvents env cs := by
  induction cs using specifiedEvents.induct env with
  | case1 => rfl
  | case2 c aborted => simp [specifiedEvents, workerEvents, aborted]
  | case3 c normal => simp [specifiedEvents, workerEvents, normal]
  | case4 c d rest aborted ih =>
    rw [AbortAhead, if_pos aborted] at clean
    rw [workerEvents, if_pos aborted, specifiedEvents, if_pos aborted, ih clean]
  | case5 c d rest normal cancels ih =>
    rw [AbortAhead, if_neg normal, if_pos cancels] at clean
    rw [workerEvents, if_neg normal, workerEvents, if_pos cancels, specifiedEvents, if_neg normal,
      if_pos cancels, ih clean]
  | case6 c d rest normal alone ih =>
    rw [AbortAhead, if_neg normal, if_neg alone, not_or] at clean
    have continued := ih clean.2
    rw [workerEvents, if_neg clean.1] at continued
    rw [workerEvents, if_neg normal, workerEvents, if_neg alone, specifiedEvents, if_neg normal,
      if_neg alone, continued]

/-- Otherwise the buffer of an aborted completion is handled or answered. -/
theorem aborted_event (ahead : AbortAhead env cs) :
    ∃ e ∈ workerEvents env none cs, ∃ c ∈ cs, c.aborted = true ∧ e.slot = c.slot := by
  induction cs using specifiedEvents.induct env with
  | case1 => cases ahead
  | case2 c aborted => cases ahead
  | case3 c normal => cases ahead
  | case4 c d rest aborted ih =>
    rw [AbortAhead, if_pos aborted] at ahead
    obtain ⟨e, event, x, member, here⟩ := ih ahead
    rw [workerEvents, if_pos aborted]
    exact ⟨e, event, x, List.mem_cons_of_mem _ member, here⟩
  | case5 c d rest normal cancels ih =>
    rw [AbortAhead, if_neg normal, if_pos cancels] at ahead
    obtain ⟨e, event, x, member, here⟩ := ih ahead
    rw [workerEvents, if_neg normal, workerEvents, if_pos cancels]
    exact ⟨e, List.mem_append_right _ event, x, List.mem_cons_of_mem _ (List.mem_cons_of_mem _ member), here⟩
  | case6 c d rest normal alone ih =>
    rw [AbortAhead, if_neg normal, if_neg alone] at ahead
    rw [workerEvents, if_neg normal, workerEvents, if_neg alone]
    by_cases aborted : d.aborted
    · obtain ⟨e, event, slot⟩ := ahead_has_event env d rest
      exact ⟨e, List.mem_append_right _ event, d, by simp, aborted, slot⟩
    · obtain ⟨e, event, x, member, here⟩ := ih (ahead.resolve_left aborted)
      rw [workerEvents, if_neg aborted] at event
      exact ⟨e, List.mem_append_right _ event, x, List.mem_cons_of_mem _ member, here⟩

/-- When every completion has a slot of its own, the rounds do what is specified exactly
without an aborted completion behind a handled message. -/
theorem workerEvents_iff (distinct : (cs.map FirmwareCompletion.slot).Nodup) :
    workerEvents env none cs = specifiedEvents env cs ↔ ¬AbortAhead env cs := by
  refine ⟨?_, workerEvents_of_not_abortAhead⟩
  intro same ahead
  obtain ⟨e, event, c, member, aborted, slot⟩ := aborted_event ahead
  rw [same] at event
  obtain ⟨d, member', normal, slot'⟩ := slot_specified event
  obtain rfl : c = d := List.inj_on_of_nodup_map distinct member member' (slot.symm.trans slot')
  rw [aborted] at normal
  cases normal

end Lists

/-- The worker begins with nothing taken and not notified. -/
structure FirmwareReady (sq : BceQueueSq) : Prop where
  head : sq.head = sq.completionCidx
  cidx : sq.completionCidx < sq.elCount
  tail : sq.completionTail < sq.elCount

/-- A run of the loop takes and notifies every completion that the worker finds. -/
theorem firmware_worker_loop (env : FirmwareEnv) {sq : BceQueueSq} {n pos h : Nat} (size : sq.elCount = n)
    (bound : h < n) (head : sq.head = pos % n) (cidx : sq.completionCidx = pos % n)
    (tail : sq.completionTail = (pos + h) % n) :
    let w := FirmwareWorker.loop env sq.elCount ⟨sq, none, 0, []⟩
    w.events = workerEvents env none (sq.completionsFrom pos h) ∧
      FirmwareWorker.At sq w (pos + h) 0 0 ∧ FirmwareWorker.Counted sq w h := by
  subst size
  have at_ : FirmwareWorker.At sq ⟨sq, none, 0, []⟩ pos 0 h :=
    ⟨⟨rfl, rfl, head, cidx, tail, by omega⟩, rfl, by omega⟩
  have counted : FirmwareWorker.Counted sq ⟨sq, none, 0, []⟩ 0 :=
    ⟨(Int.add_zero _).symm, rfl, le_rfl, by simp⟩
  obtain ⟨events, ends, total⟩ := FirmwareWorker.loop_at env at_ counted (show 0 + h ≤ sq.elCount by omega)
  refine ⟨events, ends, ?_⟩
  rwa [Nat.zero_add] at total

/-- The worker does what the rounds do with the completions it finds. -/
theorem firmware_worker_events {env : FirmwareEnv} {sq : BceQueueSq} (ready : FirmwareReady sq) :
    (handleFirmwareEventsW env sq).1 = workerEvents env none sq.firmwareCompletions := by
  have cidx := ready.cidx
  have tail := ready.tail
  let h := (sq.completionTail + sq.elCount - sq.completionCidx) % sq.elCount
  have bound : h < sq.elCount := Nat.mod_lt _ (by omega)
  have ends : sq.completionTail = (sq.completionCidx + h) % sq.elCount := by
    simp only [h, Nat.add_mod_mod]
    rw [show sq.completionCidx + (sq.completionTail + sq.elCount - sq.completionCidx) =
      sq.completionTail + sq.elCount by omega, Nat.add_mod_right, Nat.mod_eq_of_lt tail]
  have begins : sq.completionCidx = sq.completionCidx % sq.elCount := (Nat.mod_eq_of_lt cidx).symm
  exact (firmware_worker_loop env rfl bound (ready.head.trans begins) begins ends).1

/-- One run of the worker dispatches and answers exactly what is specified, if and only if no
aborted completion comes right after a message that is handled. -/
theorem firmware_events_specified_iff {env : FirmwareEnv} {sq : BceQueueSq} (ready : FirmwareReady sq) :
    (handleFirmwareEventsW env sq).1 = specifiedEvents env sq.firmwareCompletions ↔
      ¬AbortAhead env sq.firmwareCompletions := by
  rw [firmware_worker_events ready]
  refine workerEvents_iff ?_
  have cidx := ready.cidx
  have slots : sq.firmwareCompletions.map FirmwareCompletion.slot = slots sq.elCount sq.completionCidx
      ((sq.completionTail + sq.elCount - sq.completionCidx) % sq.elCount) := by
    simp [BceQueueSq.firmwareCompletions, window]
  rw [slots]
  exact slots_nodup (Nat.mod_lt _ (by omega)).le

/-- `VHCI_EVENT_QUEUE_EL_COUNT`. -/
def vhciEventQueueElCount : Nat := 256

/-- The firmware command queue after its first completions, with the given statuses. -/
def firmwareSq (statuses : List Nat) : BceQueueSq :=
  { bceAllocSq 5 vhciEventQueueElCount with
    completionTail := statuses.length
    completionData := fun slot => ⟨statuses.getD slot 0, 16, 0⟩ }

/-- The firmware asks to pause an endpoint. The buffer behind still holds an older request to
resume it. -/
def pauseThenStale : FirmwareEnv where
  data := fun slot => ⟨BceVhciCommand.endpointRequestState.code, 0, 0x8101, if slot = 0 then 1 else 0⟩
  devices := fun _ _ => some ⟨0xffffffff⟩
  room := fun _ => true

/-- The firmware asks to pause an endpoint and takes it back. -/
def pauseTakenBack : FirmwareEnv where
  data := fun slot =>
    if slot = 0 then ⟨BceVhciCommand.endpointRequestState.code, 0, 0x8101, 1⟩ else ⟨0x4043, 0, 0x8101, 1⟩
  devices := fun _ _ => some ⟨0xffffffff⟩
  room := fun _ => true

/-- The pair is answered once, and the aborted completions behind it are passed over. -/
theorem firmware_events_specified_pair :
    (handleFirmwareEventsW pauseTakenBack (firmwareSq [0, 0, 2, 2])).1 =
      specifiedEvents pauseTakenBack (firmwareSq [0, 0, 2, 2]).firmwareCompletions := by
  refine (firmware_events_specified_iff ⟨rfl, by decide, by decide⟩).mpr ?_
  have found : (firmwareSq [0, 0, 2, 2]).firmwareCompletions =
      [⟨0, false⟩, ⟨1, false⟩, ⟨2, true⟩, ⟨3, true⟩] := by
    decide
  have cancels : FirmwareCompletion.Cancels pauseTakenBack ⟨0, false⟩ ⟨1, false⟩ := by
    decide
  simp [found, AbortAhead, cancels]

/-- When the flush of the queue aborts the buffer behind a request to pause, the stale request
in it is handled as well: the endpoint is paused and resumed again. -/
theorem stale_event_handled :
    ¬∀ env sq, FirmwareReady sq →
      (handleFirmwareEventsW env sq).1 = specifiedEvents env sq.firmwareCompletions := by
  intro specified
  have same := specified pauseThenStale (firmwareSq [0, 2]) ⟨rfl, by decide, by decide⟩
  have handled : FirmwareEvent.handle 1 ⟨0x43, 0, 0x8101, 0⟩ (some (.resume 1 0x11)) ∈
      (handleFirmwareEventsW pauseThenStale (firmwareSq [0, 2])).1 := by
    decide
  rw [same] at handled
  exact absurd handled (by decide)

end AppleBce

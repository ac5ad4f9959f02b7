import AppleBce.Vhci.MessageQueue

namespace AppleBce

open Basis

/-- Where a run of `bce_vhci_event_queue_submit_pending` is: before a turn of its loop, in a turn with a
reservation or with the element of a slot, or before the doorbell. -/
inductive EventSubmitStage
  | looping (count : Nat)
  | reserved (count : Nat)
  | filling (count idx : Nat)
  | ringing
  deriving DecidableEq

/-- Where `bce_vhci_event_queue_completion` is: before `bce_next_completion`, with a completion, behind
the callback or the look at an aborted completion, before the look at `draining`, or in its submissions. -/
inductive EventHandlerStage
  | idle
  | looping (cnt : Nat)
  | taken (cnt : Nat) (cd : BceSqCompletionData)
  | handled (cnt : Nat)
  | aborted (cnt : Nat)
  | checking (cnt : Nat)
  | submitting (stage : EventSubmitStage)
  deriving DecidableEq

/-- Where the end of the create or a call of `bce_vhci_event_queue_resume` is: before the first or the
second look at `available_commands`, or in its submissions. -/
inductive EventCallerStage
  | checking (flushed : Bool)
  | submitting (stage : EventSubmitStage)

/-- An event queue with its callback and the T2 at its other end. `data` is the submission ring, `memory`
the coherent memory by the address of a message, and `doorbell` the tail that the T2 has been told of. The
last fields record the messages of the T2 and those given to the callback. -/
structure EventMessageRun where
  sq : SubmissionRun
  data : Nat → BceQeSubmission
  dmaAddr : BitVec 64
  memory : BitVec 64 → BceVhciMessage
  doorbell : Nat
  draining : Bool
  handler : EventHandlerStage
  caller : Option EventCallerStage
  sent : List BceVhciMessage
  heard : List BceVhciMessage

/-- The T2 writes to one of the elements that it has been told of, or completes the oldest. `handle` begins
a run of the handler, of which the thread of the interrupt has one at a time. `resume` begins a call of
`bce_vhci_event_queue_resume`, and only when no other is under way: a `bce_vhci_bus_resume` and a
`bce_vhci_recovery_w` that are both in it are left out. `handler` and `caller` are the next accesses. -/
inductive EventMessageStep
  | dma (k : Nat) (msg : BceVhciMessage)
  | complete (status dataSize result : Nat)
  | harvest
  | handle
  | handler
  | pause
  | resume
  | caller

/-- The completed slots of a queue behind the first `dealt`, each with the status of its completion and
what a table has for it, oldest first. -/
def SubmissionRun.completed {β : Type} (s : SubmissionRun) (dealt : Nat) (cell : Nat → β) : List (Nat × β) :=
  let statuses := window s.sq.elCount (fun sidx => (s.sq.completionData sidx).status) (s.sq.head + dealt)
    (s.consumed + s.harvested - dealt) ++ s.cq.map BceQeCompletion.status
  statuses.zip (window s.sq.elCount cell (s.sq.head + dealt) statuses.length)

namespace EventMessageRun

/-- The end of `bce_vhci_event_queue_create`, before its submissions. -/
def start (dmaAddr : BitVec 64) (data : Nat → BceQeSubmission) (memory : BitVec 64 → BceVhciMessage) :
    EventMessageRun where
  sq := .start vhciEventQueueElCount
  data := data
  dmaAddr := dmaAddr
  memory := memory
  doorbell := 0
  draining := false
  handler := .idle
  caller := some (.submitting (.looping vhciEventPendingCount))
  sent := []
  heard := []

/-- The elements that the T2 has been told of and has not completed. -/
def posted (s : EventMessageRun) : Nat :=
  (s.doorbell + vhciEventQueueElCount - s.sq.deviceIndex) % vhciEventQueueElCount

/-- The next access of `bce_vhci_event_queue_submit_pending`, and where it is then. -/
def submitStep (s : EventMessageRun) : EventSubmitStage → Option (EventMessageRun × Option EventSubmitStage)
  | .looping 0 => some (s, some .ringing)
  | .looping (count + 1) =>
    match s.sq.step .reserve with
    | none => some (s, some .ringing)
    | some sq => some ({ s with sq }, some (.reserved count))
  | .reserved count =>
    (s.sq.step .nextSubmission).map fun sq =>
      ({ s with sq }, some (.filling count s.sq.sq.nextSubmission.1))
  | .filling count idx =>
    some ({ s with
      data := Function.update s.data idx (bceSetSubmissionSingle (messageAddr s.dmaAddr idx) bceVhciMessageSize) },
      some (.looping count))
  | .ringing => some ({ s with doorbell := s.sq.sq.tail }, none)

def handlerStep (s : EventMessageRun) : Option EventMessageRun :=
  match s.handler with
  | .idle => none
  | .looping cnt =>
    match s.sq.sq.nextCompletion with
    | none => some { s with handler := .checking cnt }
    | some (cd, sq) =>
      some { s with
        sq := { s.sq with sq, harvested := s.sq.harvested - 1, consumed := s.sq.consumed + 1 }
        handler := .taken cnt cd }
  | .taken cnt cd =>
    if cd.status = bceCompletionAborted then some { s with handler := .aborted cnt }
    else
      some { s with
        heard := s.heard ++ [s.memory (messageAddr s.dmaAddr s.sq.sq.head)]
        handler := .handled cnt }
  | .handled cnt => (s.sq.step .notify).map fun sq => { s with sq, handler := .looping (cnt + 1) }
  | .aborted cnt => (s.sq.step .notify).map fun sq => { s with sq, handler := .looping cnt }
  | .checking cnt => some { s with handler := if s.draining then .idle else .submitting (.looping cnt) }
  | .submitting stage =>
    (s.submitStep stage).map fun after =>
      { after.1 with handler := (after.2.map EventHandlerStage.submitting).getD .idle }

/-- Whether every submission has been notified. -/
def drained (s : EventMessageRun) : Bool :=
  s.sq.sq.availableCommands = (s.sq.sq.elCount : Int) - 1

def callerStep (s : EventMessageRun) : Option EventMessageRun :=
  match s.caller with
  | none => none
  | some (.checking flushed) =>
    some { s with
      caller :=
        if s.drained then some (.submitting (.looping vhciEventPendingCount))
        else if flushed then none
        else some (.checking true) }
  | some (.submitting stage) =>
    (s.submitStep stage).map fun after =>
      { after.1 with caller := after.2.map EventCallerStage.submitting }

def step (s : EventMessageRun) : EventMessageStep → Option EventMessageRun
  | .dma k msg =>
    if k < s.posted then
      some { s with
        memory := Function.update s.memory (s.data ((s.sq.deviceIndex + k) % vhciEventQueueElCount)).addr msg }
    else none
  | .complete status dataSize result =>
    if s.posted = 0 then none
    else
      (s.sq.step (.deviceComplete status dataSize result)).map fun sq =>
        { s with
          sq
          sent := if status = bceCompletionAborted then s.sent
            else s.sent ++ [s.memory (s.data s.sq.deviceIndex).addr] }
  | .harvest => (s.sq.step .harvest).map fun sq => { s with sq }
  | .handle =>
    match s.handler with
    | .idle => if 0 < s.sq.harvested then some { s with handler := .looping 0 } else none
    | _ => none
  | .handler => s.handlerStep
  | .pause => some { s with draining := true }
  | .resume =>
    -- nothing in the driver keeps a second caller out
    match s.caller with
    | none => some { s with draining := false, caller := some (.checking false) }
    | some _ => none
  | .caller => s.callerStep

/-- All orders of the accesses of the handler and of the calls, one after the other, with what the T2 and
the interrupt do. -/
def machine : Machine EventMessageRun EventMessageStep where
  init s := ∃ dmaAddr data memory, s = start dmaAddr data memory
  step := step

/-- The next access is a look of resume that finds the queue drained. -/
def findsDrained (s : EventMessageRun) : EventMessageStep → Bool
  | .caller =>
    match s.caller with
    | some (.checking _) => s.drained
    | _ => false
  | _ => false

/-- A call of resume finds the queue drained only while no handler runs. -/
def ChecksApart (s : EventMessageRun) (a : EventMessageStep) : Prop :=
  s.findsDrained a = true → s.handler = .idle

instance (s : EventMessageRun) (a : EventMessageStep) : Decidable (s.ChecksApart a) :=
  inferInstanceAs (Decidable (_ → _))

/-- How many slots the handler has dealt with and not notified. -/
def dealt (s : EventMessageRun) : Nat :=
  match s.handler with
  | .handled _ | .aborted _ => 1
  | _ => 0

/-- The completed slots that the handler has not dealt with, with their messages. -/
def completed (s : EventMessageRun) : List (Nat × BceVhciMessage) :=
  s.sq.completed s.dealt fun sidx => s.memory (messageAddr s.dmaAddr sidx)

/-- The messages of the completions that are not aborted. -/
def messages (completed : List (Nat × BceVhciMessage)) : List BceVhciMessage :=
  (completed.filter fun c => c.1 ≠ bceCompletionAborted).map Prod.snd

/-- The messages that wait for the callback. -/
def unheard (s : EventMessageRun) : List BceVhciMessage :=
  messages s.completed

end EventMessageRun

namespace SubmissionRun

variable {β : Type} {s t : SubmissionRun} {n dealt : Nat} {cell other : Nat → β}

theorem Ok.places_lt (ok : s.Ok n) : s.consumed + s.harvested + s.cq.length + s.atDevice < n := by
  have count := ok.length_lt
  have phases := ok.phases
  omega

/-- Only the cells of the completed slots count. -/
theorem Ok.completed_congr (ok : s.Ok n) (below : dealt ≤ s.consumed)
    (same : ∀ k < s.consumed + s.harvested + s.cq.length,
      cell ((s.sq.head + k) % n) = other ((s.sq.head + k) % n)) :
    s.completed dealt cell = s.completed dealt other := by
  have length : ∀ k < s.consumed + s.harvested - dealt + s.cq.length,
      cell ((s.sq.head + dealt + k) % n) = other ((s.sq.head + dealt + k) % n) := by
    intro k before
    rw [Nat.add_assoc]
    exact same (dealt + k) (by omega)
  simp only [completed, ok.elCount, List.length_append, length_window, List.length_map]
  rw [window_congr length]

/-- The slot that the device completes comes last. -/
theorem Ok.completed_complete (ok : s.Ok n) (below : dealt ≤ s.consumed) {status dataSize result : Nat}
    (run : s.step (.deviceComplete status dataSize result) = some t) :
    t.completed dealt cell = s.completed dealt cell ++ [(status, cell s.deviceIndex)] := by
  obtain ⟨-, run⟩ := Option.ite_none_right_eq_some.mp run
  cases Option.some.inj run
  have behind : (s.sq.head + dealt + (s.consumed + s.harvested - dealt + s.cq.length)) % n = s.deviceIndex := by
    rw [ok.deviceIndex]
    congr 1
    omega
  simp only [completed, ok.elCount, List.map_append, List.map_cons, List.map_nil, ← List.append_assoc,
    List.length_append, length_window, List.length_map, List.length_singleton]
  rw [window_succ_last, behind, List.zip_append (by simp)]
  rfl

/-- An entry that is harvested keeps its place. -/
theorem Ok.completed_harvest (ok : s.Ok n) (below : dealt ≤ s.consumed) (run : s.step .harvest = some t) :
    t.completed dealt cell = s.completed dealt cell := by
  simp only [SubmissionRun.step] at run
  split at run
  next => cases run
  next e rest oldest =>
    have places := ok.places_lt
    rw [BceQueueSq.acceptCompletion_of_index (ok.accepts oldest)] at run
    cases Option.some.inj run
    rw [oldest, List.length_cons] at places
    have index : e.completionIndex = (s.sq.head + dealt + (s.consumed + s.harvested - dealt)) % n := by
      rw [← ok.accepts oldest, ok.completionTail]
      congr 1
      omega
    rw [index]
    have accepted (i : Nat) : (fun sidx => (Function.update s.sq.completionData i e.data sidx).status) =
        Function.update (fun sidx => (s.sq.completionData sidx).status) i e.status := by
      funext sidx
      by_cases here : sidx = i
      · subst here
        simp only [Function.update_self]
        rfl
      · simp only [Function.update_of_ne here]
    have length : s.consumed + (s.harvested + 1) - dealt = s.consumed + s.harvested - dealt + 1 := by omega
    simp only [completed, ok.elCount, oldest, accepted, length]
    rw [window_push _ _ (by omega), List.append_assoc, List.map_cons, List.singleton_append]

/-- Taking a completion leaves the slot in its place. -/
theorem Ok.completed_take (ok : s.Ok n) {c : BceSqCompletionData} {sq : BceQueueSq}
    (taken : s.sq.nextCompletion = some (c, sq)) :
    completed { s with sq, harvested := s.harvested - 1, consumed := s.consumed + 1 } dealt cell =
      s.completed dealt cell := by
  have after := ok.nextCompletion taken
  obtain ⟨unread, _, rfl⟩ := BceQueueSq.nextCompletion_some taken
  have waiting : 0 < s.harvested := by
    by_contra none
    have zero : s.harvested = 0 := by omega
    exact unread (by rw [ok.cidx, ok.completionTail, zero, Nat.add_zero])
  have length : s.consumed + 1 + (s.harvested - 1) = s.consumed + s.harvested := by omega
  simp only [completed, length]

/-- The oldest slot is dealt with. -/
theorem Ok.completed_deal (ok : s.Ok n) (taken : s.consumed = 1) :
    s.completed 0 cell = ((s.sq.completionData s.sq.head).status, cell s.sq.head) :: s.completed 1 cell := by
  have head : s.sq.head % n = s.sq.head := Nat.mod_eq_of_lt ok.headBound
  have length : s.consumed + s.harvested - 0 = s.consumed + s.harvested - 1 + 1 := by omega
  simp only [completed, ok.elCount, length, Nat.add_zero]
  rw [window_succ, List.cons_append, List.length_cons, window_succ, head, List.zip_cons_cons]

/-- The slot is given back. -/
theorem Ok.completed_notify (ok : s.Ok n) (run : s.step .notify = some t) :
    t.completed 0 cell = s.completed 1 cell := by
  obtain ⟨taken, run⟩ := Option.ite_none_right_eq_some.mp run
  cases Option.some.inj run
  have length : s.consumed - 1 + s.harvested - 0 = s.consumed + s.harvested - 1 := by omega
  simp only [completed, BceQueueSq.notifySubmissionComplete, ok.elCount, length, Nat.add_zero, window_mod]

end SubmissionRun

namespace EventMessageRun

variable {s t : EventMessageRun} {posted filled : Nat} {stage next : Option EventSubmitStage}

/-- The submissions made but not yet told to the T2 lie behind those it has been told of, and those up to
`filled` have their elements. -/
def Submits (sq : SubmissionRun) (posted filled : Nat) : Option EventSubmitStage → Prop
  | none => sq.atDevice = filled ∧ posted = filled
  | some (.filling _ idx) => sq.atDevice = filled + 1 ∧ idx = (sq.deviceIndex + filled) % vhciEventQueueElCount
  | some _ => sq.atDevice = filled

/-- Each element up to `filled` has the address of its own slot. -/
structure Ring (s : EventMessageRun) (posted filled : Nat) (stage : Option EventSubmitStage) : Prop where
  ok : s.sq.Ok vhciEventQueueElCount
  doorbell : s.doorbell = (s.sq.deviceIndex + posted) % vhciEventQueueElCount
  told : posted ≤ filled
  elements : ∀ k < filled, s.data ((s.sq.deviceIndex + k) % vhciEventQueueElCount) =
    bceSetSubmissionSingle
      (messageAddr s.dmaAddr ((s.sq.deviceIndex + k) % vhciEventQueueElCount)) bceVhciMessageSize
  submits : Submits s.sq posted filled stage

/-- What the calls of a submission leave as it is. -/
structure SubmitFrame (s t : EventMessageRun) : Prop where
  dmaAddr : t.dmaAddr = s.dmaAddr
  memory : t.memory = s.memory
  handler : t.handler = s.handler
  caller : t.caller = s.caller
  sent : t.sent = s.sent
  heard : t.heard = s.heard
  head : t.sq.sq.head = s.sq.sq.head
  completionData : t.sq.sq.completionData = s.sq.sq.completionData
  consumed : t.sq.consumed = s.sq.consumed
  harvested : t.sq.harvested = s.sq.harvested
  cq : t.sq.cq = s.sq.cq

theorem Submits.filled_le (submits : Submits s.sq posted filled stage) : filled ≤ s.sq.atDevice := by
  unfold Submits at submits
  split at submits
  next => omega
  next => omega
  next => omega

theorem Ring.posted_eq (ring : s.Ring posted filled stage) : s.posted = posted := by
  have index : s.sq.deviceIndex % vhciEventQueueElCount = s.sq.deviceIndex :=
    Nat.mod_eq_of_lt (MessageQueueRun.ok_device ring.ok).2.1
  have bound := (MessageQueueRun.ok_device ring.ok).1
  have filled := ring.submits.filled_le
  have told := ring.told
  have distance := ring_distance_nat s.sq.deviceIndex (show posted < vhciEventQueueElCount by omega)
  rw [index] at distance
  rw [EventMessageRun.posted, ring.doorbell, distance]

/-- The element of the slot behind the filled ones. -/
theorem Ring.fill {count idx : Nat} (ring : s.Ring posted filled (some (.filling count idx))) :
    Ring { s with
      data := Function.update s.data idx (bceSetSubmissionSingle (messageAddr s.dmaAddr idx) bceVhciMessageSize) }
      posted (filled + 1) (some (.looping count)) := by
  obtain ⟨places, rfl⟩ := ring.submits
  have bound := (MessageQueueRun.ok_device ring.ok).1
  refine ⟨ring.ok, ring.doorbell, ring.told.trans (Nat.le_succ _), ?_, places⟩
  intro k before
  obtain earlier | rfl := Nat.lt_succ_iff_lt_or_eq.mp before
  · have elsewhere : (s.sq.deviceIndex + k) % vhciEventQueueElCount ≠
        (s.sq.deviceIndex + filled) % vhciEventQueueElCount := ring_index_ne (by omega) (by omega) (by omega)
    exact (Function.update_of_ne elsewhere ..).trans (ring.elements k earlier)
  · exact Function.update_self ..

theorem Ring.submitStep {now : EventSubmitStage} (ring : s.Ring posted filled (some now))
    (run : s.submitStep now = some (t, next)) :
    (∃ posted' filled', t.Ring posted' filled' next ∧ (next ≠ none → posted' = posted)) ∧ s.SubmitFrame t := by
  unfold EventMessageRun.submitStep at run
  split at run
  case h_1 =>
    cases Option.some.inj run
    exact ⟨⟨posted, filled, { ring with submits := ring.submits }, fun _ => rfl⟩, by constructor <;> rfl⟩
  case h_2 count =>
    split at run
    next =>
      cases Option.some.inj run
      exact ⟨⟨posted, filled, { ring with submits := ring.submits }, fun _ => rfl⟩, by constructor <;> rfl⟩
    next sq reserved =>
      cases Option.some.inj run
      have ok := ring.ok.step reserved
      obtain ⟨taken, made, rfl⟩ := Option.map_eq_some_iff.mp reserved
      obtain ⟨-, rfl⟩ := BceQueueSq.decIfPositive_some made
      exact ⟨⟨posted, filled, ⟨ok, ring.doorbell, ring.told, ring.elements, ring.submits⟩, fun _ => rfl⟩,
        by constructor <;> rfl⟩
  case h_3 count =>
    obtain ⟨sq, taken, same⟩ := Option.map_eq_some_iff.mp run
    cases same
    have ok := ring.ok.step taken
    have tail := (MessageQueueRun.ok_device ring.ok).2.2
    have places := ring.submits
    obtain ⟨-, taken⟩ := Option.ite_none_right_eq_some.mp taken
    cases Option.some.inj taken
    refine ⟨⟨posted, filled, ⟨ok, ring.doorbell, ring.told, ring.elements, ?_, ?_⟩, fun _ => rfl⟩,
      by constructor <;> rfl⟩
    · exact congrArg (· + 1) places
    · rw [BceQueueSq.nextSubmission, tail, places]
  case h_4 count idx =>
    cases Option.some.inj run
    exact ⟨⟨posted, filled + 1, ring.fill, fun _ => rfl⟩, by constructor <;> rfl⟩
  case h_5 =>
    cases Option.some.inj run
    have tail := (MessageQueueRun.ok_device ring.ok).2.2
    have places : s.sq.atDevice = filled := ring.submits
    rw [places] at tail
    exact ⟨⟨filled, filled, ⟨ring.ok, tail, Nat.le_refl _, ring.elements, places, rfl⟩,
      fun going => absurd rfl going⟩, by constructor <;> rfl⟩

/-- How far the handler is with the completion it has taken. -/
def Handles (sq : SubmissionRun) : EventHandlerStage → Prop
  | .taken _ cd => sq.consumed = 1 ∧ cd = sq.sq.completionData sq.sq.head
  | .handled _ | .aborted _ => sq.consumed = 1
  | _ => sq.consumed = 0

/-- Whose submissions run, if any do. -/
def Submitter (s : EventMessageRun) : Option EventSubmitStage → Prop
  | none => (∀ stage, s.handler ≠ .submitting stage) ∧ ∀ stage, s.caller ≠ some (.submitting stage)
  | some stage =>
    (s.handler = .submitting stage ∧ ∀ stage, s.caller ≠ some (.submitting stage)) ∨
    (s.handler = .idle ∧ s.caller = some (.submitting stage))

/-- The handler and the callers submit in turn, the latter with a queue that has nothing else in it, and
what the T2 sent is what the callback has been given and what waits for it. -/
structure Sound (s : EventMessageRun) (posted filled : Nat) (stage : Option EventSubmitStage) : Prop
    extends Ring s posted filled stage where
  submitter : s.Submitter stage
  handles : Handles s.sq s.handler
  quiet : ∀ stage, s.caller = some (.submitting stage) → posted = 0 ∧ s.sq.harvested = 0 ∧ s.sq.cq = []
  kept : s.sent = s.heard ++ s.unheard

theorem Handles.dealt_le (handles : Handles s.sq s.handler) : s.dealt ≤ s.sq.consumed := by
  unfold dealt
  cases at_ : s.handler with
  | handled cnt | aborted cnt =>
    rw [at_] at handles
    exact Nat.le_of_eq (Eq.symm handles)
  | _ => exact Nat.zero_le _

theorem Handles.kept {sq : SubmissionRun} {handler : EventHandlerStage} (handles : Handles s.sq handler)
    (consumed : sq.consumed = s.sq.consumed)
    (data : s.sq.consumed = 1 → sq.sq.completionData sq.sq.head = s.sq.sq.completionData s.sq.sq.head) :
    Handles sq handler := by
  cases handler with
  | taken cnt cd =>
    obtain ⟨one, rfl⟩ := handles
    exact ⟨consumed.trans one, (data one).symm⟩
  | _ => exact consumed.trans handles

theorem messages_append (completed : List (Nat × BceVhciMessage)) (status : Nat) (msg : BceVhciMessage) :
    messages (completed ++ [(status, msg)]) =
      messages completed ++ if status = bceCompletionAborted then [] else [msg] := by
  simp only [messages, List.filter_append, List.map_append]
  by_cases aborted : status = bceCompletionAborted
  · simp [aborted]
  · simp [aborted]

theorem messages_cons (completed : List (Nat × BceVhciMessage)) (status : Nat) (msg : BceVhciMessage) :
    messages ((status, msg) :: completed) =
      (if status = bceCompletionAborted then [] else [msg]) ++ messages completed := by
  simp only [messages]
  by_cases aborted : status = bceCompletionAborted
  · simp [aborted]
  · simp [aborted]

/-- What waits in the queue stays as it is under the calls of a submission. -/
theorem SubmitFrame.completed (frame : s.SubmitFrame t) (size : t.sq.sq.elCount = s.sq.sq.elCount) (dealt : Nat) :
    (t.sq.completed dealt fun sidx => t.memory (messageAddr t.dmaAddr sidx)) =
      s.sq.completed dealt fun sidx => s.memory (messageAddr s.dmaAddr sidx) := by
  simp only [SubmissionRun.completed, size, frame.dmaAddr, frame.memory, frame.head, frame.completionData,
    frame.consumed, frame.harvested, frame.cq]

/-- The T2 writes to none of the slots that wait for the callback. -/
theorem Sound.dma {k : Nat} {msg : BceVhciMessage} (sound : s.Sound posted filled stage) (told : k < posted) :
    Sound { s with
      memory := Function.update s.memory (s.data ((s.sq.deviceIndex + k) % vhciEventQueueElCount)).addr msg }
      posted filled stage := by
  refine { sound with kept := ?_ }
  rw [sound.kept]
  congr 1
  have filled_le := sound.submits.filled_le
  have below : k < filled := Nat.lt_of_lt_of_le told sound.told
  have room := sound.ok.places_lt
  refine congrArg messages (sound.ok.completed_congr sound.handles.dealt_le fun j before => ?_)
  have elsewhere : messageAddr s.dmaAddr ((s.sq.sq.head + j) % vhciEventQueueElCount) ≠
      (s.data ((s.sq.deviceIndex + k) % vhciEventQueueElCount)).addr := by
    rw [sound.elements k below]
    intro same
    have slot := MessageQueueRun.messageAddr_inj (Nat.mod_lt _ (by decide)) (Nat.mod_lt _ (by decide)) same
    rw [sound.ok.deviceIndex, Nat.mod_add_mod, Nat.add_assoc] at slot
    exact ring_index_ne (by omega) (by omega) (by omega) slot
  exact (Function.update_of_ne elsewhere ..).symm

/-- The T2 completes the oldest of its slots. -/
theorem Sound.complete {status dataSize result : Nat} {sq : SubmissionRun} (sound : s.Sound posted filled stage)
    (told : posted ≠ 0) (run : s.sq.step (.deviceComplete status dataSize result) = some sq) :
    Sound { s with
      sq
      sent :=
        if status = bceCompletionAborted then s.sent else s.sent ++ [s.memory (s.data s.sq.deviceIndex).addr] }
      (posted - 1) (filled - 1) stage := by
  have ok := sound.ok.step run
  have completed : sq.completed s.dealt (fun sidx => s.memory (messageAddr s.dmaAddr sidx)) =
      s.sq.completed s.dealt (fun sidx => s.memory (messageAddr s.dmaAddr sidx)) ++
        [(status, s.memory (messageAddr s.dmaAddr s.sq.deviceIndex))] :=
    sound.ok.completed_complete sound.handles.dealt_le run
  have told_le := sound.told
  have inside : s.sq.deviceIndex % vhciEventQueueElCount = s.sq.deviceIndex :=
    Nat.mod_eq_of_lt (MessageQueueRun.ok_device sound.ok).2.1
  have element := sound.elements 0 (by omega)
  rw [Nat.add_zero, inside] at element
  have size := sound.ok.elCount
  obtain ⟨-, run⟩ := Option.ite_none_right_eq_some.mp run
  cases Option.some.inj run
  have behind (k : Nat) : ((s.sq.deviceIndex + 1) % vhciEventQueueElCount + k) % vhciEventQueueElCount =
      (s.sq.deviceIndex + (k + 1)) % vhciEventQueueElCount := by
    rw [Nat.mod_add_mod]
    congr 1
    omega
  refine ⟨⟨ok, ?_, by omega, ?_, ?_⟩, sound.submitter, sound.handles, ?_, ?_⟩
  · simp only [size, behind, Nat.sub_add_cancel (Nat.pos_of_ne_zero told)]
    exact sound.doorbell
  · intro k before
    simp only [size, behind]
    exact sound.elements (k + 1) (by omega)
  · have submits := sound.submits
    unfold Submits at submits ⊢
    simp only [size, behind]
    split at submits
    next => exact ⟨by omega, by omega⟩
    next =>
      obtain ⟨places, rfl⟩ := submits
      exact ⟨by omega, by rw [Nat.sub_add_cancel (by omega)]⟩
    next => omega
  · intro stage submits
    exact absurd (sound.quiet stage submits).1 told
  · refine Eq.trans ?_ (congrArg (fun completed => s.heard ++ messages completed) completed).symm
    have kept : s.sent = s.heard ++
        messages (s.sq.completed s.dealt fun sidx => s.memory (messageAddr s.dmaAddr sidx)) := sound.kept
    rw [messages_append, ← List.append_assoc, ← kept, element]
    by_cases aborted : status = bceCompletionAborted
    · rw [if_pos aborted, if_pos aborted, List.append_nil]
    · rw [if_neg aborted, if_neg aborted, bceSetSubmissionSingle]

theorem Sound.harvest {sq : SubmissionRun} (sound : s.Sound posted filled stage)
    (run : s.sq.step .harvest = some sq) : Sound { s with sq } posted filled stage := by
  have ok := sound.ok.step run
  have completed : sq.completed s.dealt (fun sidx => s.memory (messageAddr s.dmaAddr sidx)) =
      s.sq.completed s.dealt fun sidx => s.memory (messageAddr s.dmaAddr sidx) :=
    sound.ok.completed_harvest sound.handles.dealt_le run
  have room := sound.ok.places_lt
  have index := sound.ok.completionTail
  have headBound := sound.ok.headBound
  simp only [SubmissionRun.step] at run
  split at run
  next => cases run
  next e rest oldest =>
    rw [BceQueueSq.acceptCompletion_of_index (sound.ok.accepts oldest)] at run
    cases Option.some.inj run
    refine ⟨⟨ok, sound.doorbell, sound.told, sound.elements, sound.submits⟩, sound.submitter, ?_, ?_, ?_⟩
    · refine sound.handles.kept rfl fun one => Function.update_of_ne ?_ ..
      rw [← sound.ok.accepts oldest, index]
      rw [oldest, List.length_cons] at room
      have apart : (s.sq.sq.head + 0) % vhciEventQueueElCount ≠
          (s.sq.sq.head + (s.sq.consumed + s.sq.harvested)) % vhciEventQueueElCount :=
        ring_index_ne (by omega) (by omega) (by omega)
      rwa [Nat.add_zero, Nat.mod_eq_of_lt headBound] at apart
    · intro stage submits
      have none := (sound.quiet stage submits).2.2
      rw [oldest] at none
      cases none
    · exact sound.kept.trans (congrArg (fun completed => s.heard ++ messages completed) completed).symm

/-- The next access of the submissions of the handler. -/
theorem Sound.handlerSubmits {now : EventSubmitStage} (sound : s.Sound posted filled stage)
    (at_ : s.handler = .submitting now) (run : s.submitStep now = some (t, next)) :
    ∃ posted filled,
      Sound { t with handler := (next.map EventHandlerStage.submitting).getD .idle } posted filled next := by
  obtain ⟨rfl, alone⟩ : stage = some now ∧ ∀ stage, s.caller ≠ some (.submitting stage) := by
    have submitter := sound.submitter
    unfold Submitter at submitter
    split at submitter
    next => exact absurd at_ (submitter.1 now)
    next =>
      obtain ⟨here, alone⟩ | ⟨idle, -⟩ := submitter
      · cases here.symm.trans at_
        exact ⟨rfl, alone⟩
      · cases idle.symm.trans at_
  obtain ⟨⟨posted', filled', ring, -⟩, frame⟩ := sound.submitStep run
  have size := ring.ok.elCount.trans sound.ok.elCount.symm
  have consumed : t.sq.consumed = 0 := by
    have handles := sound.handles
    rw [at_] at handles
    exact frame.consumed.trans handles
  have quiet : ∀ stage, t.caller ≠ some (.submitting stage) := frame.caller ▸ alone
  refine ⟨posted', filled', ⟨⟨ring.ok, ring.doorbell, ring.told, ring.elements, ring.submits⟩, ?_, ?_, ?_, ?_⟩⟩
  · cases next with
    | none => exact ⟨fun stage => nofun, quiet⟩
    | some stage => exact Or.inl ⟨rfl, quiet⟩
  · cases next with
    | none => exact consumed
    | some stage => exact consumed
  · exact fun stage submits => absurd submits (quiet stage)
  · have dealt : EventMessageRun.dealt
        { t with handler := (next.map EventHandlerStage.submitting).getD .idle } = s.dealt := by
      simp only [EventMessageRun.dealt, at_]
      cases next with
      | none => rfl
      | some stage => rfl
    have kept : t.sent = t.heard ++ s.unheard := by rw [frame.sent, frame.heard, sound.kept]
    refine kept.trans (congrArg (fun completed => t.heard ++ messages completed) ?_)
    rw [EventMessageRun.completed, EventMessageRun.completed, dealt]
    exact (frame.completed size _).symm

/-- The next access of the submissions of a caller. -/
theorem Sound.callerSubmits {now : EventSubmitStage} (sound : s.Sound posted filled stage)
    (at_ : s.caller = some (.submitting now)) (run : s.submitStep now = some (t, next)) :
    ∃ posted filled, Sound { t with caller := next.map EventCallerStage.submitting } posted filled next := by
  obtain ⟨rfl, idle⟩ : stage = some now ∧ s.handler = .idle := by
    have submitter := sound.submitter
    unfold Submitter at submitter
    split at submitter
    next => exact absurd at_ (submitter.2 now)
    next =>
      obtain ⟨-, alone⟩ | ⟨idle, here⟩ := submitter
      · exact absurd at_ (alone now)
      · cases here.symm.trans at_
        exact ⟨rfl, idle⟩
  obtain ⟨nothing, harvested, cq⟩ := sound.quiet now at_
  obtain ⟨⟨posted', filled', ring, same⟩, frame⟩ := sound.submitStep run
  have size := ring.ok.elCount.trans sound.ok.elCount.symm
  have still : t.handler = .idle := frame.handler.trans idle
  refine ⟨posted', filled', ⟨⟨ring.ok, ring.doorbell, ring.told, ring.elements, ring.submits⟩, ?_, ?_, ?_, ?_⟩⟩
  · cases next with
    | none =>
      refine ⟨?_, fun stage => nofun⟩
      intro stage submits
      cases still.symm.trans submits
    | some stage => exact Or.inr ⟨still, rfl⟩
  · have handles := sound.handles
    rw [idle] at handles
    simp only [still]
    exact frame.consumed.trans handles
  · intro stage submits
    have going : next ≠ none := by
      rintro rfl
      cases submits
    exact ⟨(same going).trans nothing, frame.harvested.trans harvested, frame.cq.trans cq⟩
  · have dealt : EventMessageRun.dealt { t with caller := next.map EventCallerStage.submitting } = s.dealt := by
      simp only [EventMessageRun.dealt, still, idle]
    have kept : t.sent = t.heard ++ s.unheard := by rw [frame.sent, frame.heard, sound.kept]
    refine kept.trans (congrArg (fun completed => t.heard ++ messages completed) ?_)
    rw [EventMessageRun.completed, EventMessageRun.completed, dealt]
    exact (frame.completed size _).symm

/-- No caller submits while the handler runs. -/
theorem Sound.alone (sound : s.Sound posted filled stage) (before : ∀ stage, s.handler ≠ .submitting stage)
    (busy : s.handler ≠ .idle) : stage = none ∧ ∀ stage, s.caller ≠ some (.submitting stage) := by
  have submitter := sound.submitter
  unfold Submitter at submitter
  split at submitter
  next => exact ⟨rfl, submitter.2⟩
  next now =>
    obtain ⟨here, -⟩ | ⟨idle, -⟩ := submitter
    · exact absurd here (before now)
    · exact absurd idle busy

/-- Outside its submissions the handler moves on without the callers. -/
theorem Sound.moved {handler : EventHandlerStage} (sound : s.Sound posted filled stage)
    (before : ∀ stage, s.handler ≠ .submitting stage) (busy : s.handler ≠ .idle) {sq : SubmissionRun}
    {heard : List BceVhciMessage} (ok : sq.Ok vhciEventQueueElCount) (index : sq.deviceIndex = s.sq.deviceIndex)
    (count : sq.atDevice = s.sq.atDevice) (after : ∀ stage, handler ≠ .submitting stage)
    (handles : Handles sq handler) (kept : s.sent = heard ++ unheard { s with sq, handler, heard }) :
    Sound { s with sq, handler, heard } posted filled stage := by
  obtain ⟨rfl, alone⟩ := sound.alone before busy
  refine ⟨⟨ok, ?_, sound.told, ?_, ?_⟩, ⟨after, alone⟩, handles, ?_, kept⟩
  · simpa only [index] using sound.doorbell
  · simpa only [index] using sound.elements
  · exact ⟨count.trans sound.submits.1, sound.submits.2⟩
  · exact fun stage submits => absurd submits (alone stage)

/-- The handler takes a completion. -/
theorem Sound.take {cnt : Nat} {cd : BceSqCompletionData} {sq : BceQueueSq} (sound : s.Sound posted filled stage)
    (at_ : s.handler = .looping cnt) (found : s.sq.sq.nextCompletion = some (cd, sq)) :
    Sound { s with
      sq := { s.sq with sq, harvested := s.sq.harvested - 1, consumed := s.sq.consumed + 1 }
      handler := .taken cnt cd } posted filled stage := by
  have none : s.sq.consumed = 0 := by
    have handles := sound.handles
    rwa [at_] at handles
  have kept :
      s.sent = s.heard ++ messages (s.sq.completed 0 fun sidx => s.memory (messageAddr s.dmaAddr sidx)) := by
    have kept := sound.kept
    rwa [unheard, completed, dealt, at_] at kept
  rw [← sound.ok.completed_take found] at kept
  have ok := sound.ok.nextCompletion found
  obtain ⟨-, rfl, rfl⟩ := BceQueueSq.nextCompletion_some found
  refine sound.moved ?_ ?_ ok rfl rfl nofun ⟨congrArg (· + 1) none, ?_⟩ kept
  · simp [at_]
  · simp [at_]
  · rw [sound.ok.cidx, none, Nat.add_zero, Nat.mod_eq_of_lt sound.ok.headBound]

/-- The handler has dealt with a completion, by the callback when it has a message. -/
theorem Sound.deal {cnt : Nat} {cd : BceSqCompletionData} {handler : EventHandlerStage}
    {heard : List BceVhciMessage} (sound : s.Sound posted filled stage) (at_ : s.handler = .taken cnt cd)
    (after : handler = .handled cnt ∨ handler = .aborted cnt)
    (gave : heard = s.heard ++
      if cd.status = bceCompletionAborted then [] else [s.memory (messageAddr s.dmaAddr s.sq.sq.head)]) :
    Sound { s with handler, heard } posted filled stage := by
  obtain ⟨one, rfl⟩ : s.sq.consumed = 1 ∧ cd = s.sq.sq.completionData s.sq.sq.head := by
    have handles := sound.handles
    rwa [at_] at handles
  have kept :
      s.sent = s.heard ++ messages (s.sq.completed 0 fun sidx => s.memory (messageAddr s.dmaAddr sidx)) := by
    have kept := sound.kept
    rwa [unheard, completed, dealt, at_] at kept
  rw [sound.ok.completed_deal one, messages_cons, ← List.append_assoc, ← gave] at kept
  have before : ∀ stage, s.handler ≠ .submitting stage := by simp [at_]
  have busy : s.handler ≠ .idle := by simp [at_]
  obtain rfl | rfl := after
  · exact sound.moved before busy sound.ok rfl rfl nofun one kept
  · exact sound.moved before busy sound.ok rfl rfl nofun one kept

/-- The handler gives a slot back. -/
theorem Sound.notify {cnt cnt' : Nat} {sq : SubmissionRun} (sound : s.Sound posted filled stage)
    (at_ : s.handler = .handled cnt ∨ s.handler = .aborted cnt) (run : s.sq.step .notify = some sq) :
    Sound { s with sq, handler := .looping cnt' } posted filled stage := by
  have one : s.sq.consumed = 1 := by
    have handles := sound.handles
    obtain here | here := at_
    · rwa [here] at handles
    · rwa [here] at handles
  have kept :
      s.sent = s.heard ++ messages (s.sq.completed 1 fun sidx => s.memory (messageAddr s.dmaAddr sidx)) := by
    have kept := sound.kept
    obtain here | here := at_
    · rwa [unheard, completed, dealt, here] at kept
    · rwa [unheard, completed, dealt, here] at kept
  rw [← sound.ok.completed_notify run] at kept
  have ok := sound.ok.step run
  obtain ⟨-, run⟩ := Option.ite_none_right_eq_some.mp run
  cases Option.some.inj run
  refine sound.moved ?_ ?_ ok rfl rfl nofun (Nat.sub_eq_zero_of_le (Nat.le_of_eq one)) kept
  · obtain here | here := at_
    · simp [here]
    · simp [here]
  · obtain here | here := at_
    · simp [here]
    · simp [here]

/-- The handler looks at `draining` and goes or begins its submissions. -/
theorem Sound.check {cnt : Nat} (sound : s.Sound posted filled stage) (at_ : s.handler = .checking cnt) :
    ∃ stage,
      Sound { s with handler := if s.draining then .idle else .submitting (.looping cnt) } posted filled stage := by
  have none : s.sq.consumed = 0 := by
    have handles := sound.handles
    rwa [at_] at handles
  have kept := sound.kept
  rw [unheard, completed, dealt, at_] at kept
  split
  next => exact ⟨stage, sound.moved (by simp [at_]) (by simp [at_]) sound.ok rfl rfl nofun none kept⟩
  next =>
    obtain ⟨rfl, alone⟩ := sound.alone (by simp [at_]) (by simp [at_])
    refine ⟨some (.looping cnt), ⟨⟨sound.ok, sound.doorbell, sound.told, sound.elements, sound.submits.1⟩,
      .inl ⟨rfl, alone⟩, none, ?_, kept⟩⟩
    exact fun stage submits => absurd submits (alone stage)

/-- The handler begins, which it does only while no caller submits. -/
theorem Sound.handle (sound : s.Sound posted filled stage) (idle : s.handler = .idle)
    (waiting : 0 < s.sq.harvested) :
    Sound { s with handler := .looping 0 } posted filled stage := by
  have none : s.sq.consumed = 0 := by
    have handles := sound.handles
    rwa [idle] at handles
  have kept := sound.kept
  rw [unheard, completed, dealt, idle] at kept
  have alone : ∀ stage, s.caller ≠ some (.submitting stage) := by
    intro stage submits
    have quiet := (sound.quiet stage submits).2.1
    omega
  refine ⟨⟨sound.ok, sound.doorbell, sound.told, sound.elements, sound.submits⟩, ?_, none, sound.quiet, kept⟩
  have submitter := sound.submitter
  unfold Submitter at submitter ⊢
  split at submitter
  next => exact ⟨nofun, alone⟩
  next now =>
    obtain ⟨here, -⟩ | ⟨-, there⟩ := submitter
    · cases idle.symm.trans here
    · exact absurd there (alone now)

theorem Sound.handlerStep (sound : s.Sound posted filled stage) (run : s.handlerStep = some t) :
    ∃ posted filled stage, t.Sound posted filled stage := by
  unfold EventMessageRun.handlerStep at run
  cases at_ : s.handler with
  | idle =>
    rw [at_] at run
    cases run
  | looping cnt =>
    rw [at_] at run
    cases found : s.sq.sq.nextCompletion with
    | none =>
      rw [found] at run
      cases Option.some.inj run
      have handles := sound.handles
      have kept := sound.kept
      rw [unheard, completed, dealt, at_] at kept
      rw [at_] at handles
      refine ⟨posted, filled, stage, sound.moved ?_ ?_ sound.ok rfl rfl nofun handles kept⟩
      · simp [at_]
      · simp [at_]
    | some taken =>
      rw [found] at run
      cases Option.some.inj run
      exact ⟨posted, filled, stage, sound.take at_ found⟩
  | taken cnt cd =>
    rw [at_] at run
    dsimp only at run
    split at run
    next aborted =>
      cases Option.some.inj run
      exact ⟨posted, filled, stage, sound.deal at_ (.inr rfl) (by rw [if_pos aborted, List.append_nil])⟩
    next message =>
      cases Option.some.inj run
      exact ⟨posted, filled, stage, sound.deal at_ (.inl rfl) (by rw [if_neg message])⟩
  | handled cnt =>
    rw [at_] at run
    obtain ⟨sq, gave, rfl⟩ := Option.map_eq_some_iff.mp run
    exact ⟨posted, filled, stage, sound.notify (.inl at_) gave⟩
  | aborted cnt =>
    rw [at_] at run
    obtain ⟨sq, gave, rfl⟩ := Option.map_eq_some_iff.mp run
    exact ⟨posted, filled, stage, sound.notify (.inr at_) gave⟩
  | checking cnt =>
    rw [at_] at run
    cases Option.some.inj run
    obtain ⟨stage, sound⟩ := sound.check at_
    exact ⟨posted, filled, stage, sound⟩
  | submitting now =>
    rw [at_] at run
    obtain ⟨⟨u, next⟩, made, rfl⟩ := Option.map_eq_some_iff.mp run
    obtain ⟨posted, filled, sound⟩ := sound.handlerSubmits at_ made
    exact ⟨posted, filled, next, sound⟩

/-- A drained queue has nothing at the T2 and nothing that waits. -/
theorem Ring.of_drained (ring : s.Ring posted filled stage) (drained : s.drained = true) :
    s.sq.atDevice = 0 ∧ s.sq.consumed = 0 ∧ s.sq.harvested = 0 ∧ s.sq.cq = [] := by
  have empty : s.sq.sq.availableCommands = (s.sq.sq.elCount : Int) - 1 := of_decide_eq_true drained
  rw [ring.ok.elCount] at empty
  have count := ring.ok.count
  have phases := ring.ok.phases
  exact ⟨by omega, by omega, by omega, List.eq_nil_of_length_eq_zero (by omega)⟩

/-- A caller that does not submit leaves the queue alone. -/
theorem Sound.looks {caller : Option EventCallerStage} (sound : s.Sound posted filled stage) (draining : Bool)
    (before : ∀ stage, s.caller ≠ some (.submitting stage)) (after : ∀ stage, caller ≠ some (.submitting stage)) :
    Sound { s with draining, caller } posted filled stage := by
  refine ⟨⟨sound.ok, sound.doorbell, sound.told, sound.elements, sound.submits⟩, ?_, sound.handles, ?_, sound.kept⟩
  · have submitter := sound.submitter
    unfold Submitter at submitter ⊢
    split at submitter
    next => exact ⟨submitter.1, after⟩
    next now =>
      obtain ⟨here, -⟩ | ⟨-, there⟩ := submitter
      · exact Or.inl ⟨here, after⟩
      · exact absurd there (before now)
  · exact fun stage submits => absurd submits (after stage)

/-- A call of resume begins its submissions with a queue that has nothing in it. -/
theorem Sound.begins (sound : s.Sound posted filled stage) (before : ∀ stage, s.caller ≠ some (.submitting stage))
    (idle : s.handler = .idle) (drained : s.drained = true) (count : Nat) :
    Sound { s with caller := some (.submitting (.looping count)) } posted filled (some (.looping count)) := by
  have none : stage = none := by
    have submitter := sound.submitter
    unfold Submitter at submitter
    split at submitter
    next => rfl
    next now =>
      obtain ⟨here, -⟩ | ⟨-, there⟩ := submitter
      · cases idle.symm.trans here
      · exact absurd there (before now)
  subst none
  obtain ⟨atDevice, -, harvested, cq⟩ := sound.of_drained drained
  obtain ⟨places, same⟩ := sound.submits
  refine ⟨⟨sound.ok, sound.doorbell, sound.told, sound.elements, places⟩, .inr ⟨idle, rfl⟩, sound.handles, ?_,
    sound.kept⟩
  exact fun stage _ => ⟨by omega, harvested, cq⟩

theorem Sound.callerStep (sound : s.Sound posted filled stage) (apart : s.ChecksApart .caller)
    (run : s.callerStep = some t) : ∃ posted filled stage, t.Sound posted filled stage := by
  unfold EventMessageRun.callerStep at run
  cases at_ : s.caller with
  | none =>
    rw [at_] at run
    cases run
  | some now =>
    rw [at_] at run
    cases now with
    | checking flushed =>
      cases Option.some.inj run
      have before : ∀ stage, s.caller ≠ some (.submitting stage) := by simp [at_]
      by_cases drained : s.drained = true
      · rw [if_pos drained]
        exact ⟨posted, filled, _, sound.begins before (apart (by rw [findsDrained, at_, drained])) drained _⟩
      · rw [if_neg drained]
        refine ⟨posted, filled, stage, sound.looks s.draining before ?_⟩
        cases flushed with
        | false => exact nofun
        | true => exact nofun
    | submitting now =>
      obtain ⟨⟨u, next⟩, made, rfl⟩ := Option.map_eq_some_iff.mp run
      obtain ⟨posted, filled, sound⟩ := sound.callerSubmits at_ made
      exact ⟨posted, filled, next, sound⟩

theorem start_sound (dmaAddr : BitVec 64) (data : Nat → BceQeSubmission) (memory : BitVec 64 → BceVhciMessage) :
    (start dmaAddr data memory).Sound 0 0 (some (.looping vhciEventPendingCount)) where
  ok := SubmissionRun.ok_start (by decide)
  doorbell := rfl
  told := Nat.le_refl _
  elements _ before := absurd before (Nat.not_lt_zero _)
  submits := rfl
  submitter := .inr ⟨rfl, rfl⟩
  handles := rfl
  quiet _ _ := ⟨rfl, rfl, rfl⟩
  kept := rfl

theorem Sound.step {a : EventMessageStep} (sound : s.Sound posted filled stage) (apart : s.ChecksApart a)
    (run : s.step a = some t) : ∃ posted filled stage, t.Sound posted filled stage := by
  cases a with
  | dma k msg =>
    obtain ⟨told, run⟩ := Option.ite_none_right_eq_some.mp run
    cases Option.some.inj run
    exact ⟨posted, filled, stage, sound.dma (sound.posted_eq ▸ told)⟩
  | complete status dataSize result =>
    obtain ⟨told, run⟩ := Option.ite_none_left_eq_some.mp run
    obtain ⟨sq, ran, rfl⟩ := Option.map_eq_some_iff.mp run
    exact ⟨_, _, stage, sound.complete (sound.posted_eq ▸ told) ran⟩
  | harvest =>
    obtain ⟨sq, ran, rfl⟩ := Option.map_eq_some_iff.mp run
    exact ⟨posted, filled, stage, sound.harvest ran⟩
  | handle =>
    cases at_ : s.handler with
    | idle =>
      simp only [EventMessageRun.step, at_] at run
      obtain ⟨waiting, run⟩ := Option.ite_none_right_eq_some.mp run
      cases Option.some.inj run
      exact ⟨posted, filled, stage, sound.handle at_ waiting⟩
    | _ =>
      simp only [EventMessageRun.step, at_] at run
      cases run
  | handler => exact sound.handlerStep run
  | pause =>
    cases Option.some.inj run
    exact ⟨posted, filled, stage, { sound with submitter := sound.submitter }⟩
  | resume =>
    cases at_ : s.caller with
    | none =>
      simp only [EventMessageRun.step, at_] at run
      cases Option.some.inj run
      exact ⟨posted, filled, stage, sound.looks false (by simp [at_]) nofun⟩
    | some now =>
      simp only [EventMessageRun.step, at_] at run
      cases run
  | caller => exact sound.callerStep apart run

/-- Over every order of the accesses of the handler, of the end of the create and of the calls of resume
with the writes and completions of the T2 and with the interrupt, under two conditions that no lock sees
to: the calls of resume do not overlap, and none finds the queue drained during a run of the handler. What
the T2 has sent is what the callback has been given, in order, each message once, and what waits in the
completed slots. The T2 has been told of elements for other slots only, each with the address of its own
slot and the size of a message. -/
theorem events_in_order (reach : machine.ReachableUnder ChecksApart s) :
    s.sent = s.heard ++ s.unheard ∧ (s.drained = true → s.sent = s.heard) ∧
    ∀ sidx ∈ slots vhciEventQueueElCount s.sq.deviceIndex s.posted,
      s.data sidx = bceSetSubmissionSingle (messageAddr s.dmaAddr sidx) bceVhciMessageSize ∧
      sidx ∉ slots vhciEventQueueElCount s.sq.sq.head (s.sq.consumed + s.sq.harvested + s.sq.cq.length) := by
  obtain ⟨posted, filled, stage, sound⟩ : ∃ posted filled stage, s.Sound posted filled stage := by
    refine Machine.ReachableUnder.invariant (I := fun s => ∃ posted filled stage, s.Sound posted filled stage)
      ?_ ?_ reach
    · rintro _ ⟨dmaAddr, data, memory, rfl⟩
      exact ⟨0, 0, _, start_sound dmaAddr data memory⟩
    · rintro s a t ⟨posted, filled, stage, sound⟩ apart run
      exact sound.step apart run
  refine ⟨sound.kept, ?_, ?_⟩
  · intro drained
    obtain ⟨-, consumed, harvested, cq⟩ := sound.of_drained drained
    rw [sound.kept]
    simp [unheard, completed, messages, SubmissionRun.completed, consumed, harvested, cq]
  · intro sidx member
    have filled_le := sound.submits.filled_le
    have told := sound.told
    have room := sound.ok.places_lt
    rw [sound.posted_eq] at member
    obtain ⟨k, before, rfl⟩ := mem_window.mp member
    refine ⟨sound.elements k (by omega), ?_⟩
    intro waits
    obtain ⟨j, below, same⟩ := mem_window.mp waits
    simp only [id_eq] at same
    rw [sound.ok.deviceIndex, Nat.mod_add_mod, Nat.add_assoc] at same
    exact ring_index_ne (by omega) (by omega) (by omega) same

/-- A message of the T2 waits in the second slot while the handler is behind the callback for the first, and
a call of resume finds the queue in use. -/
theorem events_in_order_two : ∃ s, machine.ReachableUnder ChecksApart s ∧
    s.sent = [⟨0x10, 0, 1, 0⟩, ⟨0x20, 0, 2, 0⟩] ∧ s.heard = [⟨0x10, 0, 1, 0⟩] ∧ s.sent = s.heard ++ s.unheard := by
  set_option maxRecDepth 8000 in
  obtain ⟨s, ran, sent, heard⟩ : ∃ s, (machine.guard ChecksApart).run
      (start 0x8000 (fun _ => ⟨0, 0, 0, 0⟩) fun _ => ⟨0, 0, 0, 0⟩)
      (List.replicate (3 * vhciEventPendingCount + 2) .caller ++
        [.dma 0 ⟨0x10, 0, 1, 0⟩, .complete 0 16 0, .harvest, .handle, .dma 0 ⟨0x20, 0, 2, 0⟩, .handler, .handler,
          .complete 0 16 0, .resume, .caller]) = some s ∧
      s.sent = [⟨0x10, 0, 1, 0⟩, ⟨0x20, 0, 2, 0⟩] ∧ s.heard = [⟨0x10, 0, 1, 0⟩] := by
    refine ⟨_, rfl, ?_, ?_⟩
    · decide
    · decide
  have reach : machine.ReachableUnder ChecksApart s := .of_run ⟨_, _, _, rfl⟩ _ ran
  exact ⟨s, reach, sent, heard, (events_in_order reach).1⟩

end EventMessageRun

end AppleBce

import AppleBce.Basis.Machine
import AppleBce.Vhci.FirmwareEvents

namespace AppleBce

open Basis

/-- The firmware command queue from ring position `pos` on: `lead` completions taken and not notified,
`h` that are still to be taken, and `d` buffers with the T2. -/
structure SlotRing (sq : BceQueueSq) (pos lead h d : Nat) : Prop extends RingAt sq sq pos lead h where
  submitted : sq.tail = (pos + lead + h + d) % sq.elCount
  available : sq.availableCommands = (sq.elCount : Int) - 1 - ((lead + h + d : Nat) : Int)
  room : lead + h + d < sq.elCount

theorem RingAt.self {sq q : BceQueueSq} {pos lead h : Nat} (ring : RingAt sq q pos lead h) :
    RingAt q q pos lead h := by
  obtain ⟨size, data, head, cidx, tail, bound⟩ := ring
  rw [← size] at head cidx tail bound
  exact ⟨rfl, rfl, head, cidx, tail, bound⟩

namespace SlotRing

variable {sq taken : BceQueueSq} {pos lead h d : Nat}

theorem alloc {qid elCount : Nat} (positive : 0 < elCount) : SlotRing (bceAllocSq qid elCount) 0 0 0 0 :=
  ⟨⟨rfl, rfl, (Nat.zero_mod _).symm, (Nat.zero_mod _).symm, (Nat.zero_mod _).symm, positive⟩,
    (Nat.zero_mod _).symm, (Int.sub_zero _).symm, positive⟩

/-- Nothing is there to be taken, or the worker runs one further ahead of `head`. -/
theorem next (ring : SlotRing sq pos lead h d) :
    h = 0 ∧ sq.nextCompletion = none ∨
    ∃ h' cq taken, h = h' + 1 ∧ sq.nextCompletion = some (cq, taken) ∧ taken.elCount = sq.elCount ∧
      taken.head = sq.head ∧ SlotRing taken pos (lead + 1) h' d := by
  cases h with
  | zero => exact .inl ⟨rfl, ring.next_none⟩
  | succ h =>
    obtain ⟨taken, next, after⟩ := ring.next_some
    obtain ⟨-, -, rest⟩ := BceQueueSq.nextCompletion_some next
    have room := ring.room
    have size : taken.elCount = sq.elCount := by rw [rest]
    refine .inr ⟨h, _, taken, rfl, next, size, by rw [rest], after.self, ?_, ?_, by omega⟩
    · rw [size, show taken.tail = sq.tail by rw [rest], ring.submitted]
      congr 1
      omega
    · rw [size, show taken.availableCommands = sq.availableCommands by rw [rest], ring.available]
      push_cast
      omega

theorem notify (ring : SlotRing sq pos (lead + 1) h d) :
    SlotRing sq.notifySubmissionComplete (pos + 1) lead h d := by
  have room := ring.room
  have available := ring.available
  refine ⟨ring.toRingAt.notify.self, ring.submitted.trans ?_, ?_, by show _ < sq.elCount; omega⟩
  · show _ = _ % sq.elCount
    congr 1
    omega
  · show sq.availableCommands + 1 = (sq.elCount : Int) - 1 - _
    omega

/-- The T2 is done with its oldest buffer. -/
theorem accept {e : BceQeCompletion} (ring : SlotRing sq pos lead h d) (held : sq.completionTail ≠ sq.tail)
    (accepted : sq.acceptCompletion e = some taken) :
    ∃ d', d = d' + 1 ∧ taken.elCount = sq.elCount ∧ SlotRing taken pos lead (h + 1) d' := by
  cases d with
  | zero => exact absurd (ring.tail.trans ring.submitted.symm) held
  | succ d =>
    obtain ⟨-, after⟩ := Option.ite_none_left_eq_some.mp accepted
    cases after
    have room := ring.room
    have available := ring.available
    refine ⟨d, rfl, rfl, ⟨rfl, rfl, ring.head, ring.cidx, ?_, by show _ < sq.elCount; omega⟩,
      ring.submitted.trans ?_, ?_, by show _ < sq.elCount; omega⟩
    · show (sq.completionTail + 1) % sq.elCount = _
      rw [ring.tail, ring_succ]
    · show _ = _ % sq.elCount
      congr 1
      omega
    · show sq.availableCommands = (sq.elCount : Int) - 1 - _
      omega

/-- A buffer is given to the T2. -/
theorem submit {reserved : BceQueueSq} (ring : SlotRing sq pos lead h d)
    (run : sq.reserveSubmission [] none = some reserved) :
    reserved.nextSubmission.2.elCount = sq.elCount ∧ SlotRing reserved.nextSubmission.2 pos lead h (d + 1) := by
  obtain ⟨positive, after⟩ := BceQueueSq.decIfPositive_some run
  subst after
  have available := ring.available
  refine ⟨rfl, ⟨rfl, rfl, ring.head, ring.cidx, ring.tail, ring.bound⟩, ?_, ?_, by show _ < sq.elCount; omega⟩
  · show (sq.tail + 1) % sq.elCount = _
    rw [ring.submitted, ring_succ]
    rfl
  · show sq.availableCommands - 1 = (sq.elCount : Int) - 1 - _
    omega

end SlotRing

/-- Where the worker is in `bce_vhci_handle_firmware_events_w`, with the slots its pointers point to: at
the head of the loop, with an aborted completion to be passed over, about to look at the next
completion, with a pair to be answered, at the two notifications behind that, with a message to be
handled, at the notification behind that, and handing back buffers. -/
inductive EventStage
  | idle
  | top (msg2 : Option Nat)
  | aborted
  | look (msg : Nat)
  | pair (msg msg2 : Nat)
  | pairFirst
  | pairSecond
  | handle (msg : Nat) (msg2 : Option Nat)
  | handled (msg2 : Option Nat)
  | refill (left : Nat)
  deriving DecidableEq, Repr

/-- The worker in the middle of a run, with what this run has done so far: the completions it took, the
notifications, the buffers it handed back, its events, and whether it completed
`queue_empty_completion`. `held` are the slots of the completions it took and did not notify, oldest first. -/
structure FirmwareRun where
  sq : BceQueueSq
  stage : EventStage
  cnt : Nat
  held : List Nat
  taken : Nat
  notified : Nat
  handedBack : Nat
  events : List FirmwareEvent
  emptied : Bool

/-- The T2 completes its oldest buffer, another thread submits one, the work item is taken, or the worker
does its next statement. -/
inductive FirmwareStep
  | arrive (e : BceQeCompletion)
  | submit
  | start
  | work (env : FirmwareEnv)

namespace FirmwareRun

/-- What `bce_next_completion` changes, for the completion of the slot it was at. -/
def take (s : FirmwareRun) (sq : BceQueueSq) (stage : EventStage) : FirmwareRun :=
  { s with sq, stage, held := s.held ++ [s.sq.completionCidx], taken := s.taken + 1 }

def notify (s : FirmwareRun) (stage : EventStage) (more : Nat) : FirmwareRun :=
  { s with
    sq := s.sq.notifySubmissionComplete
    stage
    cnt := s.cnt + more
    held := s.held.tail
    notified := s.notified + 1 }

/-- The end of the worker. -/
def finish (s : FirmwareRun) : FirmwareRun :=
  { s with stage := .idle, emptied := s.sq.availableCommands = (s.sq.elCount : Int) - 1 }

/-- The next statement of the worker. -/
def workStep (env : FirmwareEnv) (s : FirmwareRun) : Option FirmwareRun :=
  match s.stage with
  | .idle => none
  | .top (some msg2) => some { s with stage := .look msg2 }
  | .top none =>
    match s.sq.nextCompletion with
    | none => some { s with stage := .refill s.cnt }
    | some (cq, sq) => some (s.take sq (if cq.status = bceCompletionAborted then .aborted else .look sq.head))
  | .aborted => some (s.notify (.top none) 0)
  | .look msg =>
    match s.sq.nextCompletion with
    | none => some { s with stage := .handle msg none }
    | some (cq, sq) =>
      let msg2 := (sq.head + 1) % sq.elCount
      some (s.take sq (if cq.status ≠ bceCompletionAborted ∧ env.Cancels msg msg2 then .pair msg msg2
        else .handle msg (some msg2)))
  | .pair msg _ => some { s with events := s.events ++ env.cancelled msg, stage := .pairFirst }
  | .pairFirst => some (s.notify .pairSecond 0)
  | .pairSecond => some (s.notify (.top none) 2)
  | .handle msg msg2 => some { s with events := s.events ++ env.dispatched msg, stage := .handled msg2 }
  | .handled msg2 => some (s.notify (.top msg2) 1)
  | .refill 0 => some s.finish
  | .refill (left + 1) =>
    match s.sq.reserveSubmission [] none with
    | none => some s.finish
    | some reserved =>
      some { s with sq := reserved.nextSubmission.2, stage := .refill left, handedBack := s.handedBack + 1 }

def step (s : FirmwareRun) : FirmwareStep → Option FirmwareRun
  | .arrive e =>
    if s.sq.completionTail = s.sq.tail then none
    else (s.sq.acceptCompletion e).map fun sq => { s with sq }
  | .submit => (s.sq.reserveSubmission [] none).map fun reserved => { s with sq := reserved.nextSubmission.2 }
  | .start =>
    if s.stage = .idle then
      some ⟨s.sq, .top none, 0, s.held, 0, 0, 0, [], false⟩
    else none
  | .work env => s.workStep env

/-- The life of the firmware command queue and of its worker. -/
def machine : Machine FirmwareRun FirmwareStep where
  init := fun s => ∃ qid elCount, 0 < elCount ∧
    s = ⟨bceAllocSq qid elCount, .idle, 0, [], 0, 0, 0, [], false⟩
  step := step

end FirmwareRun

/-- The pointers of a stage are those of the completions that are taken and not notified, and there is
one for each that is still to be handled. -/
def EventStage.Holds : EventStage → List Nat → Prop
  | .top (some msg2), held => held = [msg2]
  | .look msg, held => held = [msg]
  | .pair msg msg2, held => held = [msg, msg2]
  | .handle msg none, held => held = [msg]
  | .handle msg (some msg2), held => held = [msg, msg2]
  | .handled (some msg2), held => ∃ msg, held = [msg, msg2]
  | .handled none, held | .aborted, held | .pairSecond, held => ∃ slot, held = [slot]
  | .pairFirst, held => ∃ first second, held = [first, second]
  | .idle, held | .top none, held | .refill _, held => held = []

/-- The pointer to the message whose turn it is. -/
def EventStage.msg : EventStage → Option Nat
  | .top (some msg) | .look msg | .pair msg _ | .handle msg _ => some msg
  | _ => none

/-- The pointer to the message behind it. -/
def EventStage.msg2 : EventStage → Option Nat
  | .pair _ msg2 | .handle _ (some msg2) | .handled (some msg2) => some msg2
  | _ => none

/-- What a stage knows of the counters: each message handled and each half of a pair was notified, and
each buffer handed back is one of those. -/
def EventStage.Tallies (cnt notified handedBack : Nat) : EventStage → Prop
  | .idle => handedBack ≤ cnt ∧ cnt ≤ notified
  | .refill left => handedBack + left ≤ cnt ∧ cnt ≤ notified
  | .pairSecond => handedBack = 0 ∧ cnt + 1 ≤ notified
  | _ => handedBack = 0 ∧ cnt ≤ notified

/-- What a stage may still cost, in statements, with `h` completions to be taken. A completion costs at
most five, and a message handled is one buffer more to be handed back. -/
def EventStage.budget (h cnt : Nat) : EventStage → Nat
  | .idle => 0
  | .refill left => left + 1
  | .top none => 5 * h + cnt + 2
  | .aborted => 5 * h + cnt + 3
  | .handled none => 5 * h + cnt + 4
  | .handle _ none => 5 * h + cnt + 5
  | .look _ => 5 * h + cnt + 6
  | .top (some _) => 5 * h + cnt + 7
  | .pairSecond => 5 * h + cnt + 8
  | .pairFirst | .handled (some _) => 5 * h + cnt + 9
  | .pair _ _ | .handle _ (some _) => 5 * h + cnt + 10

theorem EventStage.budget_succ (h cnt : Nat) (stage : EventStage) :
    stage.budget (h + 1) cnt ≤ stage.budget h cnt + 5 := by
  cases stage with
  | top msg2 | handle _ msg2 | handled msg2 =>
    cases msg2 <;> simp only [EventStage.budget] <;> omega
  | _ =>
    simp only [EventStage.budget]
    omega

namespace FirmwareRun

variable {s t : FirmwareRun} {a : FirmwareStep} {env : FirmwareEnv} {sq : BceQueueSq} {stage : EventStage}
  {pos h d h' d' : Nat}

/-- Where the ring, the completions that are held and the pointers are. -/
structure At (s : FirmwareRun) (pos h d : Nat) : Prop where
  ring : SlotRing s.sq pos s.held.length h d
  held : s.held = slots s.sq.elCount pos s.held.length
  taken : s.taken = s.notified + s.held.length
  pointers : s.stage.Holds s.held
  tallies : s.stage.Tallies s.cnt s.notified s.handedBack

/-- The invariant of the worker. -/
def Slots (s : FirmwareRun) : Prop :=
  ∃ pos h d, s.At pos h d

theorem At.cidx (at_ : s.At pos h d) : s.sq.completionCidx = (s.sq.head + s.held.length) % s.sq.elCount := by
  rw [at_.ring.cidx, at_.ring.head, Nat.mod_add_mod]

/-- The stage and the ring behind what is taken may change. -/
theorem At.moved (at_ : s.At pos h d) (size : sq.elCount = s.sq.elCount)
    (ring : SlotRing sq pos s.held.length h' d')
    {handedBack : Nat} {events : List FirmwareEvent} (pointers : stage.Holds s.held)
    (tallies : stage.Tallies s.cnt s.notified handedBack) :
    At { s with sq, stage, handedBack, events } pos h' d' where
  ring := ring
  held := at_.held.trans (by rw [size])
  taken := at_.taken
  pointers := pointers
  tallies := tallies

theorem At.take (at_ : s.At pos h d) (size : sq.elCount = s.sq.elCount)
    (ring : SlotRing sq pos (s.held.length + 1) h' d)
    (pointers : stage.Holds (s.held ++ [s.sq.completionCidx]))
    (tallies : stage.Tallies s.cnt s.notified s.handedBack) : (s.take sq stage).At pos h' d where
  ring := by
    rw [FirmwareRun.take, List.length_append, List.length_singleton]
    exact ring
  held := by
    have last := window_succ_last s.sq.elCount id pos s.held.length
    rw [show window s.sq.elCount id pos s.held.length = s.held from at_.held.symm] at last
    show s.held ++ [s.sq.completionCidx] = slots sq.elCount pos (s.held ++ [s.sq.completionCidx]).length
    rw [List.length_append, List.length_singleton, size, slots, last, at_.ring.cidx]
    rfl
  taken := by
    have taken := at_.taken
    rw [FirmwareRun.take, List.length_append, List.length_singleton]
    show s.taken + 1 = s.notified + (s.held.length + 1)
    omega
  pointers := pointers
  tallies := tallies

theorem At.notify (at_ : s.At pos h d) (some_held : s.held ≠ []) {more : Nat} (pointers : stage.Holds s.held.tail)
    (tallies : stage.Tallies (s.cnt + more) (s.notified + 1) s.handedBack) :
    (s.notify stage more).At (pos + 1) h d := by
  obtain ⟨slot, rest, held⟩ := List.exists_cons_of_ne_nil some_held
  have length : s.held.length = s.held.tail.length + 1 := by rw [held]; rfl
  have ring := at_.ring
  have before := at_.held
  have taken := at_.taken
  rw [length] at ring before taken
  rw [slots, window_succ] at before
  refine ⟨ring.notify, ?_, ?_, pointers, tallies⟩
  · exact congrArg List.tail before
  · show s.taken = s.notified + 1 + s.held.tail.length
    omega

/-- Where the worker holds nothing it is at `head`. -/
theorem At.cidx_of_nil (at_ : s.At pos h d) (held : s.held = []) : s.sq.completionCidx = s.sq.head := by
  rw [at_.ring.cidx, at_.ring.head, held]
  rfl

/-- The completion behind the one it holds is that of the slot after `head`. -/
theorem At.cidx_of_one (at_ : s.At pos h d) {slot : Nat} (held : s.held = [slot]) :
    s.sq.completionCidx = (s.sq.head + 1) % s.sq.elCount := by
  rw [at_.cidx, held]
  rfl

theorem At.finish (at_ : s.At pos h d) (held : s.held = []) (handedBack : s.handedBack ≤ s.cnt)
    (cnt : s.cnt ≤ s.notified) : s.finish.At pos h d where
  ring := at_.ring
  held := at_.held
  taken := at_.taken
  pointers := held
  tallies := ⟨handedBack, cnt⟩

/-- A statement of the worker keeps the ring and the pointers, and uses up its budget. -/
theorem workStep_at (at_ : s.At pos h d) (run : s.workStep env = some t) :
    ∃ pos' h' d', t.At pos' h' d' ∧ t.stage.budget h' t.cnt < s.stage.budget h s.cnt := by
  have pointers := at_.pointers
  have tallies := at_.tallies
  cases stage : s.stage with
  | idle =>
    simp only [workStep, stage] at run
    cases run
  | top msg2 =>
    cases msg2 with
    | some msg2 =>
      simp only [workStep, stage, Option.some.injEq] at run pointers tallies
      subst run
      exact ⟨pos, h, d, at_.moved rfl at_.ring pointers tallies, Nat.lt_succ_self _⟩
    | none =>
      rw [stage] at pointers tallies
      have pointers : s.held = [] := pointers
      simp only [workStep, stage] at run
      rcases at_.ring.next with ⟨rfl, none⟩ | ⟨h', cq, taken, rfl, next, size, head, ring⟩
      · rw [none] at run
        cases Option.some.inj run
        refine ⟨pos, 0, d, at_.moved rfl at_.ring pointers ?_, ?_⟩
        · simp only [EventStage.Tallies] at tallies ⊢
          omega
        · simp only [EventStage.budget]
          omega
      · rw [next] at run
        cases Option.some.inj run
        refine ⟨pos, h', d, at_.take size ring ?_ ?_, ?_⟩
        · rw [pointers, List.nil_append, at_.cidx_of_nil pointers, head]
          split
          · exact ⟨_, rfl⟩
          · rfl
        · split <;> exact tallies
        · simp only [FirmwareRun.take]
          split <;> simp only [EventStage.budget] <;> omega
  | aborted =>
    simp only [workStep, stage, Option.some.injEq] at run pointers tallies
    subst run
    obtain ⟨slot, held⟩ := pointers
    refine ⟨pos + 1, h, d, at_.notify (by simp [held]) (by rw [held]; rfl) ?_, Nat.lt_succ_self _⟩
    exact ⟨tallies.1, Nat.le_succ_of_le tallies.2⟩
  | look msg =>
    rw [stage] at pointers tallies
    have pointers : s.held = [msg] := pointers
    simp only [workStep, stage] at run
    rcases at_.ring.next with ⟨rfl, none⟩ | ⟨h', cq, taken, rfl, next, size, head, ring⟩
    · rw [none] at run
      cases Option.some.inj run
      exact ⟨pos, 0, d, at_.moved rfl at_.ring pointers tallies, Nat.lt_succ_self _⟩
    · rw [next] at run
      cases Option.some.inj run
      refine ⟨pos, h', d, at_.take size ring ?_ ?_, ?_⟩
      · rw [pointers, List.singleton_append, at_.cidx_of_one pointers, head, size]
        split <;> rfl
      · split <;> exact tallies
      · simp only [FirmwareRun.take]
        split <;> simp only [EventStage.budget] <;> omega
  | pair msg msg2 =>
    simp only [workStep, stage, Option.some.injEq] at run pointers tallies
    subst run
    exact ⟨pos, h, d, at_.moved rfl at_.ring ⟨_, _, pointers⟩ tallies, Nat.lt_succ_self _⟩
  | pairFirst =>
    simp only [workStep, stage, Option.some.injEq] at run pointers tallies
    subst run
    obtain ⟨first, second, held⟩ := pointers
    refine ⟨pos + 1, h, d, at_.notify (by simp [held]) ⟨second, by rw [held]; rfl⟩ ?_, Nat.lt_succ_self _⟩
    exact ⟨tallies.1, Nat.succ_le_succ tallies.2⟩
  | pairSecond =>
    simp only [workStep, stage, Option.some.injEq] at run pointers tallies
    subst run
    obtain ⟨slot, held⟩ := pointers
    refine ⟨pos + 1, h, d, at_.notify (by simp [held]) (by rw [held]; rfl) ?_, ?_⟩
    · exact ⟨tallies.1, Nat.succ_le_succ tallies.2⟩
    · simp only [FirmwareRun.notify, EventStage.budget]
      omega
  | handle msg msg2 =>
    simp only [workStep, stage, Option.some.injEq] at run pointers tallies
    subst run
    refine ⟨pos, h, d, at_.moved rfl at_.ring ?_ tallies, ?_⟩
    · cases msg2 with
      | none => exact ⟨msg, pointers⟩
      | some msg2 => exact ⟨msg, pointers⟩
    · cases msg2 <;> exact Nat.lt_succ_self _
  | handled msg2 =>
    simp only [workStep, stage, Option.some.injEq] at run pointers tallies
    subst run
    refine ⟨pos + 1, h, d, at_.notify ?_ ?_ ⟨tallies.1, Nat.succ_le_succ tallies.2⟩, ?_⟩
    · cases msg2 <;> obtain ⟨slot, held⟩ := pointers <;> simp [held]
    · cases msg2 <;> obtain ⟨slot, held⟩ := pointers <;> rw [held] <;> rfl
    · cases msg2 <;> simp only [FirmwareRun.notify, EventStage.budget] <;> omega
  | refill left =>
    cases left with
    | zero =>
      simp only [workStep, stage, Option.some.injEq] at run pointers tallies
      subst run
      exact ⟨pos, h, d, at_.finish pointers tallies.1 tallies.2, Nat.lt_succ_self _⟩
    | succ left =>
      rw [stage] at pointers tallies
      simp only [workStep, stage] at run
      simp only [EventStage.Tallies] at tallies
      cases reserve : s.sq.reserveSubmission [] none with
      | none =>
        rw [reserve] at run
        cases Option.some.inj run
        exact ⟨pos, h, d, at_.finish pointers (by omega) tallies.2, Nat.succ_pos _⟩
      | some reserved =>
        rw [reserve] at run
        cases Option.some.inj run
        obtain ⟨size, ring⟩ := at_.ring.submit reserve
        refine ⟨pos, h, d + 1, at_.moved size ring pointers ?_, Nat.lt_succ_self _⟩
        simp only [EventStage.Tallies]
        omega

end FirmwareRun

/-- The step is a statement of the worker. -/
def FirmwareStep.works : FirmwareStep → Bool
  | .work _ => true
  | _ => false

/-- A completion comes in. -/
def FirmwareStep.arrives : FirmwareStep → Bool
  | .arrive _ => true
  | _ => false

namespace FirmwareRun

variable {s t : FirmwareRun} {a : FirmwareStep} {pos h d : Nat}

/-- Of the other steps only a completion that comes in adds to what the worker has to do. -/
theorem step_at (at_ : s.At pos h d) (run : machine.step s a = some t) :
    ∃ pos' h' d', t.At pos' h' d' ∧
      (a ≠ .start → t.stage.budget h' t.cnt + a.works.toNat ≤ s.stage.budget h s.cnt + 5 * a.arrives.toNat) := by
  cases a with
  | arrive e =>
    obtain ⟨held, run⟩ := Option.ite_none_left_eq_some.mp run
    obtain ⟨sq, accepted, after⟩ := Option.map_eq_some_iff.mp run
    subst after
    obtain ⟨d', -, size, ring⟩ := at_.ring.accept held accepted
    exact ⟨pos, h + 1, d', at_.moved size ring at_.pointers at_.tallies, fun _ => s.stage.budget_succ h s.cnt⟩
  | submit =>
    obtain ⟨reserved, reserve, after⟩ := Option.map_eq_some_iff.mp run
    subst after
    obtain ⟨size, ring⟩ := at_.ring.submit reserve
    exact ⟨pos, h, d + 1, at_.moved size ring at_.pointers at_.tallies, fun _ => le_rfl⟩
  | start =>
    obtain ⟨idle, after⟩ := Option.ite_none_right_eq_some.mp run
    cases after
    have pointers := at_.pointers
    rw [idle] at pointers
    have held : s.held = [] := pointers
    refine ⟨pos, h, d, ⟨at_.ring, at_.held, ?_, held, rfl, le_rfl⟩, fun other => absurd rfl other⟩
    rw [held]
    rfl
  | work env =>
    obtain ⟨pos', h', d', after, less⟩ := workStep_at at_ run
    exact ⟨pos', h', d', after, fun _ => less⟩

theorem slots_of_init (initial : machine.init s) : s.Slots := by
  obtain ⟨qid, elCount, positive, rfl⟩ := initial
  exact ⟨0, 0, 0, .alloc positive, rfl, rfl, rfl, le_rfl, le_rfl⟩

theorem slots_of_reach (reach : machine.Reachable s) : s.Slots := by
  refine reach.invariant (fun _ => slots_of_init) ?_
  rintro s a t ⟨pos, h, d, at_⟩ run
  obtain ⟨pos', h', d', after, -⟩ := step_at at_ run
  exact ⟨pos', h', d', after⟩

/-- The completions that are still to be taken. -/
def harvested (s : FirmwareRun) : Nat :=
  (s.sq.completionTail + s.sq.elCount - s.sq.completionCidx) % s.sq.elCount

theorem At.harvested (at_ : s.At pos h d) : s.harvested = h := by
  have room := at_.ring.room
  rw [FirmwareRun.harvested, at_.ring.tail, at_.ring.cidx]
  exact ring_distance_nat _ (by omega)

/-- What the worker may still do without a completion coming in. -/
def potential (s : FirmwareRun) : Nat :=
  s.stage.budget s.harvested s.cnt

theorem At.potential (at_ : s.At pos h d) : s.potential = s.stage.budget h s.cnt := by
  rw [FirmwareRun.potential, at_.harvested]

theorem step_pays (slots : s.Slots) (same : a ≠ .start) (run : machine.step s a = some t) :
    t.Slots ∧ t.potential + a.works.toNat ≤ s.potential + 5 * a.arrives.toNat := by
  obtain ⟨pos, h, d, at_⟩ := slots
  obtain ⟨pos', h', d', after, pays⟩ := step_at at_ run
  refine ⟨⟨pos', h', d', after⟩, ?_⟩
  rw [at_.potential, after.potential]
  exact pays same

/-- Until it is started again the worker does no more than what it has to do and what comes in. -/
theorem works_le {as : List FirmwareStep} (slots : s.Slots) (ran : machine.run s as = some t)
    (same : .start ∉ as) :
    as.countP FirmwareStep.works ≤ s.potential + 5 * as.countP FirmwareStep.arrives := by
  have pays := Machine.run_potential (M := machine) (fun s a t slots same run => step_pays slots same run) slots as
    (fun a member start => same (start ▸ member)) ran
  exact (Nat.le_add_left _ _).trans pays

/-- Until it is idle the worker has a next statement. -/
theorem workStep_exists (env : FirmwareEnv) (busy : s.stage ≠ .idle) :
    ∃ t, machine.step s (.work env) = some t := by
  show ∃ t, s.workStep env = some t
  unfold workStep
  split
  · rename_i idle
    exact absurd idle busy
  all_goals first | exact ⟨_, rfl⟩ | (split <;> exact ⟨_, rfl⟩)

/-- Left alone, the worker gets to the end of its run. -/
theorem works_off (slots : s.Slots) (env : Nat → FirmwareEnv) :
    ∃ n ≤ s.potential, ∃ t,
      machine.run s ((List.range n).map fun i => .work (env i)) = some t ∧ t.stage = .idle := by
  induction bound : s.potential using Nat.strong_induction_on generalizing s env with
  | _ p ih =>
    by_cases idle : s.stage = .idle
    · exact ⟨0, Nat.zero_le _, s, rfl, idle⟩
    · obtain ⟨r, run⟩ := workStep_exists (env 0) idle
      obtain ⟨after, pays⟩ := step_pays slots (a := .work (env 0)) nofun run
      have less : r.potential < p := by
        rw [← bound]
        exact pays
      obtain ⟨n, enough, t, ran, ends⟩ := ih r.potential less after (fun i => env (i + 1)) rfl
      refine ⟨n + 1, enough.trans_lt less, t, ?_, ends⟩
      rw [List.range_succ_eq_map, List.map_cons, List.map_map, Machine.run_cons, run, Option.bind_some]
      exact ran

/-- The worker gets from one state to another by its own statements. -/
def Works (env : FirmwareEnv) (s t : FirmwareRun) : Prop :=
  ∃ n, machine.run s (List.replicate n (.work env)) = some t

theorem Works.refl (env : FirmwareEnv) (s : FirmwareRun) : Works env s s :=
  ⟨0, rfl⟩

theorem Works.cons {env : FirmwareEnv} {r : FirmwareRun} (run : s.workStep env = some r) (later : Works env r t) :
    Works env s t := by
  obtain ⟨n, ran⟩ := later
  refine ⟨n + 1, ?_⟩
  rw [List.replicate_succ, Machine.run_cons, show machine.step s (.work env) = some r from run, Option.bind_some]
  exact ran

theorem Works.trans {env : FirmwareEnv} {r : FirmwareRun} (first : Works env s r) (later : Works env r t) :
    Works env s t := by
  obtain ⟨n, ran⟩ := first
  obtain ⟨m, rest⟩ := later
  refine ⟨n + m, ?_⟩
  rw [← List.replicate_append_replicate, Machine.run_append, ran, Option.bind_some]
  exact rest

/-- The worker is at the head of the loop, with the locals of the loop as a function. -/
structure AtTop (s : FirmwareRun) (w : FirmwareWorker) : Prop where
  sq : s.sq = w.sq
  stage : s.stage = .top w.msg2
  cnt : s.cnt = w.cnt
  events : s.events = w.events

section Loop

variable (env : FirmwareEnv) {w : FirmwareWorker}

/-- From the look at the next completion on, the statements of a round do what it does as a whole. -/
theorem handle_works {slot : Nat} (stage : s.stage = .look slot) (cnt : s.cnt = w.cnt)
    (events : s.events = w.events) :
    ∃ t, Works env s t ∧ t.AtTop (w.handle env slot s.sq) := by
  unfold FirmwareWorker.handle
  cases next : s.sq.nextCompletion with
  | none =>
    have looks : s.workStep env = some { s with stage := .handle slot none } := by
      simp only [workStep, stage, next]
    refine ⟨_, .cons looks (.cons rfl (.cons rfl (.refl env _))), rfl, rfl, ?_, ?_⟩
    · exact congrArg (· + 1) cnt
    · exact congrArg (· ++ _) events
  | some found =>
    obtain ⟨cq, sq⟩ := found
    simp only
    split
    · rename_i pair
      have looks : s.workStep env = some (s.take sq (.pair slot ((sq.head + 1) % sq.elCount))) := by
        simp only [workStep, stage, next, if_pos pair]
      refine ⟨_, .cons looks (.cons rfl (.cons rfl (.cons rfl (.refl env _)))), rfl, rfl, ?_, ?_⟩
      · exact congrArg (· + 2) cnt
      · exact congrArg (· ++ _) events
    · rename_i alone
      have looks : s.workStep env = some (s.take sq (.handle slot (some ((sq.head + 1) % sq.elCount)))) := by
        simp only [workStep, stage, next, if_neg alone]
      refine ⟨_, .cons looks (.cons rfl (.cons rfl (.refl env _))), rfl, rfl, ?_, ?_⟩
      · exact congrArg (· + 1) cnt
      · exact congrArg (· ++ _) events

theorem loop_works (rounds : Nat) (top : s.AtTop w) :
    ∃ t, Works env s t ∧ t.AtTop (FirmwareWorker.loop env rounds w) := by
  induction rounds generalizing s w with
  | zero => exact ⟨s, .refl env s, top⟩
  | succ rounds ih =>
    unfold FirmwareWorker.loop FirmwareWorker.fetch
    have stage := top.stage
    cases ahead : w.msg2 with
    | some slot =>
      rw [ahead] at stage
      have goes : s.workStep env = some { s with stage := .look slot } := by
        simp only [workStep, stage]
      obtain ⟨r, works, next⟩ := handle_works env (s := { s with stage := .look slot }) rfl top.cnt top.events
      rw [← top.sq]
      obtain ⟨t, rest, ends⟩ := ih next
      exact ⟨t, .cons goes (works.trans rest), ends⟩
    | none =>
      rw [ahead] at stage
      rw [← top.sq]
      cases next : s.sq.nextCompletion with
      | none => exact ⟨s, .refl env s, top⟩
      | some found =>
        obtain ⟨cq, sq⟩ := found
        by_cases aborted : cq.status = bceCompletionAborted
        · have takes : s.workStep env = some (s.take sq .aborted) := by
            simp only [workStep, stage, next, if_pos aborted]
          have passed :
              ((s.take sq .aborted).notify (.top none) 0).AtTop { w with sq := sq.notifySubmissionComplete } :=
            ⟨rfl, (congrArg EventStage.top ahead).symm, top.cnt, top.events⟩
          obtain ⟨t, works, ends⟩ := ih passed
          rw [ahead] at ends
          simp only [if_pos aborted]
          exact ⟨t, .cons takes (.cons rfl works), ends⟩
        · have takes : s.workStep env = some (s.take sq (.look sq.head)) := by
            simp only [workStep, stage, next, if_neg aborted]
          obtain ⟨r, works, next⟩ :=
            handle_works env (s := s.take sq (.look sq.head)) rfl top.cnt top.events
          obtain ⟨t, rest, ends⟩ := ih next
          simp only [if_neg aborted]
          exact ⟨t, .cons takes (works.trans rest), ends⟩

theorem refill_works (left : Nat) (stage : s.stage = .refill left) :
    ∃ t, Works env s t ∧ t.stage = .idle ∧ t.sq = eventQueueSubmitPending left s.sq ∧ t.events = s.events ∧
      t.emptied = decide (t.sq.availableCommands = (t.sq.elCount : Int) - 1) := by
  induction left generalizing s with
  | zero =>
    have ends : s.workStep env = some s.finish := by simp only [workStep, stage]
    exact ⟨_, .cons ends (.refl env _), rfl, rfl, rfl, rfl⟩
  | succ left ih =>
    unfold eventQueueSubmitPending
    cases reserve : s.sq.reserveSubmission [] none with
    | none =>
      have ends : s.workStep env = some s.finish := by simp only [workStep, stage, reserve]
      exact ⟨_, .cons ends (.refl env _), rfl, rfl, rfl, rfl⟩
    | some reserved =>
      have hands : s.workStep env = some { s with
          sq := reserved.nextSubmission.2, stage := .refill left, handedBack := s.handedBack + 1 } := by
        simp only [workStep, stage, reserve]
      obtain ⟨t, works, ends⟩ := ih (s := { s with
        sq := reserved.nextSubmission.2, stage := .refill left, handedBack := s.handedBack + 1 }) rfl
      exact ⟨t, .cons hands works, ends⟩

/-- Where nothing comes in while the worker runs and what it finds stays as it is, its statements are the
run of `bce_vhci_handle_firmware_events_w` as a whole. -/
theorem worker_run (slots : s.Slots) (stage : s.stage = .top none) (cnt : s.cnt = 0) (events : s.events = []) :
    ∃ t, Works env s t ∧ t.stage = .idle ∧ (t.events, t.sq, t.emptied) = handleFirmwareEventsW env s.sq := by
  obtain ⟨pos, h, d, at_⟩ := slots
  have held : s.held = [] := by
    have pointers := at_.pointers
    rw [stage] at pointers
    exact pointers
  have room := at_.ring.room
  have cidx := at_.ring.cidx
  have tail := at_.ring.tail
  rw [held] at room cidx tail
  obtain ⟨looped, ended, -⟩ := firmware_worker_loop env rfl (show h < s.sq.elCount by omega) at_.ring.head cidx tail
  have begun : s.AtTop ⟨s.sq, none, 0, []⟩ := ⟨rfl, stage, cnt, events⟩
  obtain ⟨r, works, top⟩ := loop_works env s.sq.elCount begun
  have stage : r.stage = .top none := top.stage.trans (congrArg EventStage.top ended.msg2)
  have nothing : r.sq.nextCompletion = none := by
    rw [top.sq]
    exact ended.ring.next_none
  have leaves : r.workStep env = some { r with stage := .refill r.cnt } := by
    simp only [workStep, stage, nothing]
  obtain ⟨t, refills, idle, sq, same, emptied⟩ := refill_works env (s := { r with stage := .refill r.cnt })
    r.cnt rfl
  refine ⟨t, works.trans (.cons leaves refills), idle, ?_⟩
  rw [emptied, same, sq]
  simp only [handleFirmwareEventsW, top.sq, top.cnt, top.events]

end Loop

/-- The completions that are held have consecutive slots, from `head` on. -/
theorem At.held_get (at_ : s.At pos h d) {k : Nat} (bound : k < s.held.length) :
    s.held[k]? = some ((s.sq.head + k) % s.sq.elCount) := by
  have held := at_.held
  rw [slots, ← window_mod, ← at_.ring.head] at held
  rw [held, List.getElem?_eq_getElem (by rw [length_window]; exact bound), getElem_window]
  rfl

theorem At.msg (at_ : s.At pos h d) {msg : Nat} (pointer : s.stage.msg = some msg) :
    s.held[0]? = some msg ∧ msg = s.sq.head := by
  have first : s.held[0]? = some msg := by
    have pointers := at_.pointers
    cases stage : s.stage with
    | top msg2 | handle _ msg2 =>
      rw [stage] at pointer pointers
      cases msg2 <;> cases pointer <;> rw [show s.held = _ from pointers] <;> rfl
    | look _ | pair _ _ =>
      rw [stage] at pointer pointers
      cases pointer
      rw [show s.held = _ from pointers]
      rfl
    | _ =>
      rw [stage] at pointer
      cases pointer
  have some_held : 0 < s.held.length := (List.getElem?_eq_some_iff.mp first).1
  refine ⟨first, Option.some.inj (first.symm.trans ((at_.held_get some_held).trans ?_))⟩
  rw [Nat.add_zero, at_.ring.head, Nat.mod_mod]

theorem At.msg2 (at_ : s.At pos h d) {msg2 : Nat} (pointer : s.stage.msg2 = some msg2) :
    s.held[1]? = some msg2 ∧ msg2 = (s.sq.head + 1) % s.sq.elCount := by
  have second : s.held[1]? = some msg2 := by
    have pointers := at_.pointers
    cases stage : s.stage with
    | pair _ _ =>
      rw [stage] at pointer pointers
      cases pointer
      rw [show s.held = _ from pointers]
      rfl
    | handle msg ahead =>
      rw [stage] at pointer pointers
      cases ahead <;> cases pointer
      rw [show s.held = _ from pointers]
      rfl
    | handled ahead =>
      rw [stage] at pointer pointers
      cases ahead <;> cases pointer
      obtain ⟨msg, held⟩ := pointers
      rw [held]
      rfl
    | top ahead =>
      rw [stage] at pointer
      cases pointer
    | _ =>
      rw [stage] at pointer
      cases pointer
  have two_held : 1 < s.held.length := (List.getElem?_eq_some_iff.mp second).1
  exact ⟨second, Option.some.inj (second.symm.trans (at_.held_get two_held))⟩

theorem At.handedBack_le (at_ : s.At pos h d) : s.handedBack ≤ s.taken := by
  have taken := at_.taken
  have tallies := at_.tallies
  cases stage : s.stage <;> rw [stage] at tallies <;> simp only [EventStage.Tallies] at tallies <;> omega

/-- A run of the worker takes at most five statements for each completion it finds or that comes in. -/
theorem start_works_le {as : List FirmwareStep} (slots : s.Slots) (ran : machine.run s (.start :: as) = some t)
    (same : .start ∉ as) :
    as.countP FirmwareStep.works ≤ 5 * (s.harvested + as.countP FirmwareStep.arrives) + 2 := by
  obtain ⟨pos, h, d, at_⟩ := slots
  obtain ⟨r, start, ran⟩ := Option.bind_eq_some_iff.mp ran
  obtain ⟨pos', h', d', after, -⟩ := step_at at_ start
  obtain ⟨-, started⟩ := Option.ite_none_right_eq_some.mp start
  cases started
  have works := works_le ⟨pos', h', d', after⟩ ran same
  have budget : FirmwareRun.potential ⟨s.sq, .top none, 0, s.held, 0, 0, 0, [], false⟩ = 5 * s.harvested + 2 := rfl
  omega

/-- In every state reached, whatever the completions and their messages are and whenever they come in, the
worker holds the completions from `head` up to `completion_cidx`, and `msg` and `msg2` point to the slots of
the first and the second of them. It has notified each completion it took but those it holds, so a run
that is over has notified all and leaves `head` at `completion_cidx`, and it hands back no more buffers than it
took. The worker has a next statement until its run is over, gets there when it is left alone, and takes no
more than five for each completion whatever comes in. -/
theorem firmware_slots (reach : machine.Reachable s) :
    s.held = slots s.sq.elCount s.sq.head s.held.length ∧
    s.sq.completionCidx = (s.sq.head + s.held.length) % s.sq.elCount ∧
    (∀ msg, s.stage.msg = some msg → s.held[0]? = some msg ∧ msg = s.sq.head) ∧
    (∀ msg2, s.stage.msg2 = some msg2 → s.held[1]? = some msg2 ∧ msg2 = (s.sq.head + 1) % s.sq.elCount) ∧
    s.taken = s.notified + s.held.length ∧
    s.handedBack ≤ s.taken ∧
    (s.stage = .idle → s.held = [] ∧ s.sq.head = s.sq.completionCidx ∧ s.notified = s.taken) ∧
    (∀ env, s.stage ≠ .idle → ∃ t, machine.step s (.work env) = some t) ∧
    (∀ env : Nat → FirmwareEnv, ∃ n t,
      machine.run s ((List.range n).map fun i => .work (env i)) = some t ∧ t.stage = .idle) ∧
    ∀ as t, machine.run s (.start :: as) = some t → .start ∉ as →
      as.countP FirmwareStep.works ≤ 5 * (s.harvested + as.countP FirmwareStep.arrives) + 2 := by
  have slots := slots_of_reach reach
  obtain ⟨pos, h, d, at_⟩ := slots
  refine ⟨?_, at_.cidx, fun _ => at_.msg, fun _ => at_.msg2, at_.taken, at_.handedBack_le, ?_,
    fun env busy => workStep_exists env busy, ?_, fun _ _ => start_works_le ⟨pos, h, d, at_⟩⟩
  · rw [at_.ring.head, Basis.slots, window_mod]
    exact at_.held
  · intro idle
    have pointers := at_.pointers
    rw [idle] at pointers
    have held : s.held = [] := pointers
    have taken := at_.taken
    rw [held] at taken
    exact ⟨held, (at_.cidx_of_nil held).symm, taken.symm⟩
  · intro env
    obtain ⟨n, -, t, ran, ends⟩ := works_off ⟨pos, h, d, at_⟩ env
    exact ⟨n, t, ran, ends⟩

/-- The entry the T2 writes for a buffer it has filled. -/
def filled (slot : Nat) : BceQeCompletion :=
  ⟨0, 16, 5, slot, bceCompletionSuccess, bceCompletionFlagPending⟩

/-- In a ring of three the second run looks ahead from the last slot to the first one, and ends with both
completions notified. -/
theorem firmware_slots_wrap : ∃ s t, machine.Reachable s ∧ s.stage = .handle 2 (some 0) ∧
    s.sq.head = 2 ∧ s.held = [2, 0] ∧
    machine.run s (List.replicate 10 (.work pauseThenStale)) = some t ∧ t.stage = .idle ∧
    t.sq.head = t.sq.completionCidx ∧ t.notified = t.taken ∧ t.handedBack ≤ t.taken ∧ t.taken = 2 := by
  have ran : (machine.run ⟨bceAllocSq 5 3, .idle, 0, [], 0, 0, 0, [], false⟩
      ([.submit, .submit, .arrive (filled 0), .arrive (filled 1), .start] ++
        List.replicate 12 (.work pauseThenStale) ++
        [.arrive (filled 2), .arrive (filled 0), .start, .work pauseThenStale, .work pauseThenStale])).map
        (fun s => (s.stage, s.held, (machine.run s (List.replicate 10 (.work pauseThenStale))).map
          fun t => (t.stage, t.taken))) =
      some (.handle 2 (some 0), [2, 0], some (.idle, 2)) := by
    decide
  obtain ⟨s, reached, seen⟩ := Option.map_eq_some_iff.mp ran
  simp only [Prod.mk.injEq, Option.map_eq_some_iff] at seen
  obtain ⟨stage, held, t, later, idle, taken⟩ := seen
  have reach : machine.Reachable s := .of_run (.start ⟨5, 3, by decide, rfl⟩) _ reached
  obtain ⟨-, -, first, -⟩ := firmware_slots reach
  obtain ⟨-, head⟩ := first 2 (by rw [stage]; rfl)
  obtain ⟨-, -, -, -, -, handedBack, ends, -⟩ := firmware_slots (reach.of_run _ later)
  obtain ⟨-, caught, notified⟩ := ends idle
  exact ⟨s, t, reach, stage, head.symm, held, later, idle, caught, notified, handedBack, taken⟩

end FirmwareRun

end AppleBce

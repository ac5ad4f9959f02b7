import AppleBce.Vhci.Linked
import AppleBce.Vhci.InactiveStarts
import AppleBce.Vhci.LoopRules

namespace AppleBce

open Basis

namespace BceVhciTransferQueue

/-- What holds of the queue of an outgoing data endpoint while URBs are only enqueued and completed:
nothing is outstanding but one transfer of the URB at the head. -/
structure Flows (q : BceVhciTransferQueue) : Prop where
  data : q.endp.num ≠ 0
  outgoing : q.endp.dirIn = false
  active : q.active = true
  ghosts : q.ghostOutCount = 0
  urbs : ∀ u ∈ q.urbList, u.isControl = false ∧ u.dir = .toDevice
  sqIn : q.sqIn = none
  sqOut : ∃ fifo, q.sqOut = some fifo ∧ fifo.reserved = 0 ∧ 0 < fifo.capacity ∧
    (fifo.items = [] ∨
      (∃ x, fifo.items = [x]) ∧ ∃ u ∈ q.urbList.head?, u.state = .waitingForCompletion)

variable {q r : BceVhciTransferQueue} {u v : BceVhciUrb} {rest : List BceVhciUrb} {msg : BceVhciMessage}

/-- The state in which an outgoing data URB is started. -/
def startState (u : BceVhciUrb) : BceVhciUrbState :=
  if 0 < u.urb.transferBufferLength then .waitingForTransferRequest else .dataTransferComplete

theorem init_outgoing (data : u.isControl = false) (outgoing : u.dir = .toDevice)
    (slots : q.remainingActiveRequests ≠ 0) :
    u.init q = ⟨none, some { u with state := startState u },
      { q with
        remainingActiveRequests := q.remainingActiveRequests - 1
        inits := q.inits ++ [u.id] }⟩ := by
  have start : u.dataStart q = ⟨none, some { u with state := startState u }, q⟩ := by
    unfold BceVhciUrb.dataStart startState
    rw [if_pos outgoing]
    split <;> rfl
  unfold BceVhciUrb.init
  rw [if_neg slots]
  simp [data, start]

/-- The URB at the head takes a `TRANSFER_REQUEST` it waits for, and refuses every other message. -/
theorem Flows.update (flows : Flows q) (linked : q.urbList = u :: rest) (msg : BceVhciMessage) :
    (¬(u.state = .waitingForTransferRequest ∧ msg.cmd = BceVhciCommand.transferRequest.code) ∧
      u.update msg q = ⟨some .again, some u, q⟩) ∨
    (u.state = .waitingForTransferRequest ∧ msg.cmd = BceVhciCommand.transferRequest.code ∧
      ∃ v next, u.update msg q = ⟨none, some v, { q with sqOut := some next, sqOutPending := q.sqOutPending + 1 }⟩ ∧
        u.Same v ∧ v.state = .waitingForCompletion ∧ next.reserved = 0 ∧ 0 < next.capacity ∧
        ∃ x, next.items = [x]) := by
  have data := (flows.urbs u (by simp [linked])).1
  by_cases asked : u.state = .waitingForTransferRequest ∧ msg.cmd = BceVhciCommand.transferRequest.code
  · refine .inr ⟨asked.1, asked.2, ?_⟩
    obtain ⟨fifo, present, reserved, capacity, idle | ⟨-, w, head, waiting⟩⟩ := flows.sqOut
    · unfold BceVhciUrb.update BceVhciUrb.dataUpdate
      rw [if_neg (by rw [asked.1]; decide), if_neg (by simp [data]), if_pos asked]
      simp only
      generalize (if u.urb.transferBufferLength - u.sendOffset ≤ BitVec.setWidth 32 msg.param2 then
        u.urb.transferBufferLength - u.sendOffset else BitVec.setWidth 32 msg.param2) = trLen
      rcases u.sendOutData_cases (u.urb.transferDma + u.sendOffset.setWidth 64) (trLen.setWidth 64) q with
        ⟨missing, -⟩ | ⟨other, present', full, -⟩ | ⟨other, next, present', room, eq⟩
      · rw [present] at missing
        cases missing
      · cases present.symm.trans present'
        have free := BoundedFifo.available_of_submit_none full
        simp only [BoundedFifo.available, idle, reserved, List.length_nil] at free
        omega
      · cases present.symm.trans present'
        obtain ⟨-, items, reserved', capacity'⟩ := BoundedFifo.submit_some room
        rw [eq]
        refine ⟨_, next, rfl, ⟨rfl, rfl, rfl, rfl⟩, rfl, reserved'.trans reserved, capacity' ▸ capacity, ?_⟩
        exact ⟨_, by rw [items, idle, List.nil_append]⟩
    · rw [linked] at head
      cases Option.some.inj head
      rw [asked.1] at waiting
      cases waiting
  · refine .inl ⟨asked, ?_⟩
    unfold BceVhciUrb.update BceVhciUrb.dataUpdate
    split
    · rfl
    · simp [data]

theorem Flows.loopSafe : LoopSafe Flows where
  start := by
    intro done v rest q pending held
    have urbs : ∀ x ∈ done ++ v :: rest, x.isControl = false ∧ x.dir = .toDevice := held.urbs
    obtain ⟨data, outgoing⟩ := urbs v (by simp)
    by_cases slots : q.remainingActiveRequests = 0
    · have same : v.init q = ⟨some .inval, some v, q⟩ := if_pos slots
      rw [same]
      exact held
    · rw [init_outgoing data outgoing slots]
      refine ⟨held.data, held.outgoing, held.active, held.ghosts, ?_, held.sqIn, ?_⟩
      · intro w member
        simp only [afterUrb, Option.toList_some, List.mem_append, List.mem_singleton] at member
        rcases member with passed | rfl | later
        · exact urbs w (by simp [passed])
        · exact ⟨data, outgoing⟩
        · exact urbs w (by simp [later])
      · obtain ⟨fifo, present, reserved, capacity, idle | ⟨made, w, head, waiting⟩⟩ := held.sqOut
        · exact ⟨fifo, present, reserved, capacity, .inl idle⟩
        · refine ⟨fifo, present, reserved, capacity, .inr ⟨made, w, ?_, waiting⟩⟩
          cases done with
          | nil =>
            cases Option.some.inj head
            rw [pending] at waiting
            cases waiting
          | cons x done => exact head
  update := by
    intro v rest msg q linked held
    have urbs := held.urbs
    rw [linked] at urbs
    obtain ⟨data, outgoing⟩ := urbs v (by simp)
    rcases held.update linked msg with ⟨-, eq⟩ | ⟨-, -, w, next, eq, same, waiting, reserved, capacity, made⟩
    · have same : afterUrb [] rest (v.update msg q) = q := by
        rw [eq]
        show { q with urbList := v :: rest } = q
        rw [← linked]
      rw [same]
      exact held
    · rw [eq]
      refine ⟨held.data, held.outgoing, held.active, held.ghosts, ?_, held.sqIn, ?_⟩
      · intro x member
        simp only [afterUrb, Option.toList_some, List.nil_append, List.mem_append, List.mem_singleton] at member
        rcases member with rfl | later
        · exact ⟨same.isControl.trans data, same.dir.trans outgoing⟩
        · exact urbs x (by simp [later])
      · exact ⟨next, rfl, reserved, capacity, .inr ⟨made, w, rfl, waiting⟩⟩
  defer := fun q evq held => ⟨held.data, held.outgoing, held.active, held.ghosts, held.urbs, held.sqIn, held.sqOut⟩

theorem Flows.event (flows : Flows q) (msg : BceVhciMessage) (allocated : Bool) : Flows (q.event msg allocated) :=
  Flows.loopSafe.event
    (fun _ held => ⟨held.data, held.outgoing, held.active, held.ghosts, held.urbs, held.sqIn, held.sqOut⟩)
    flows msg allocated

theorem Flows.create (flows : Flows q) {urb : Urb} (takes : q.Takes urb) (allocated : Bool)
    (link : Option Errno) : Flows (q.urbCreate urb allocated link).2 := by
  have data : (q.newUrb urb).isControl = false := decide_eq_false flows.data
  have outgoing : (q.newUrb urb).dir = .toDevice := by
    have dirIn : urb.dirIn = false := (takes.resolve_left flows.data).trans flows.outgoing
    simp [newUrb, dirIn]
  have linked : Flows { q with urbList := q.urbList ++ [q.newUrb urb] } := by
    refine ⟨flows.data, flows.outgoing, flows.active, flows.ghosts, ?_, flows.sqIn, ?_⟩
    · intro v member
      rcases List.mem_append.mp member with old | new
      · exact flows.urbs v old
      · cases List.mem_singleton.mp new
        exact ⟨data, outgoing⟩
    · obtain ⟨fifo, present, reserved, capacity, idle | ⟨made, w, head, waiting⟩⟩ := flows.sqOut
      · exact ⟨fifo, present, reserved, capacity, .inl idle⟩
      · refine ⟨fifo, present, reserved, capacity, .inr ⟨made, w, ?_, waiting⟩⟩
        simp only [List.head?_append, Option.mem_def.mp head, Option.some_or, Option.mem_def]
  rcases q.urbCreate_outcomes urb allocated link with
    ⟨e, ran⟩ | ⟨e, -, room, failed, -⟩ | ⟨-, -, -, ran⟩ | ⟨-, -, -, wReset, wResume, ran⟩
  · rw [ran]
    exact flows
  · have slots : q.remainingActiveRequests ≠ 0 := by
      simp only [canInitUrb, decide_eq_true_eq] at room
      omega
    rw [init_outgoing data outgoing slots] at failed
    cases failed
  · rw [ran]
    exact Flows.loopSafe.deliverPending (Flows.loopSafe.start q.urbList (q.newUrb urb) [] q rfl linked)
  · rw [ran]
    exact Flows.loopSafe.deliverPending ⟨linked.data, linked.outgoing, linked.active, linked.ghosts, linked.urbs,
      linked.sqIn, linked.sqOut⟩

/-- A completion for a data URB changes nothing of the queue but its slots and the give-back. -/
theorem dataTransferCompletion_q (u : BceVhciUrb) (c : BceSqCompletionData) (q : BceVhciTransferQueue) :
    ∃ givebackUrbList remainingActiveRequests, (u.dataTransferCompletion c q).q =
      { q with givebackUrbList, remainingActiveRequests } := by
  unfold BceVhciUrb.dataTransferCompletion
  split
  · simp only
    split
    · split
      · split <;> exact ⟨_, _, rfl⟩
      · exact ⟨_, _, rfl⟩
    · exact ⟨_, _, rfl⟩
  · exact ⟨_, _, rfl⟩

theorem Flows.completionBody (flows : Flows q) (c : BceSqCompletionData) :
    ∃ urbList givebackUrbList remainingActiveRequests, q.completionBody true c =
      { q with urbList, givebackUrbList, remainingActiveRequests } ∧
        ∀ u ∈ urbList, u.isControl = false ∧ u.dir = .toDevice := by
  rcases q.completionBody_cases true c with same | ⟨-, ghost, -⟩ | ⟨urb, rest, -, -, linked, -, taken⟩
  · rw [same]
    exact ⟨_, _, _, rfl, flows.urbs⟩
  · exact absurd ghost (by simp [ghostCount, flows.ghosts])
  · have urbs := flows.urbs
    rw [linked] at urbs
    obtain ⟨data, outgoing⟩ := urbs urb (by simp)
    have call : urb.transferCompletion c q = urb.dataTransferCompletion c q := by
      unfold BceVhciUrb.transferCompletion
      rw [if_neg (by simp [data])]
    obtain ⟨giveback, remaining, eq⟩ := dataTransferCompletion_q urb c q
    refine ⟨(urb.transferCompletion c q).urb.toList ++ rest, giveback, remaining, ?_, ?_⟩
    · rw [taken, afterUrb, call, eq]
      rfl
    · intro v member
      rcases List.mem_append.mp member with kept | later
      · obtain ⟨same, -⟩ := (urb.transferCompletion_fits c q).kept v (Option.mem_toList.mp kept)
        exact ⟨same.isControl.trans data, same.dir.trans outgoing⟩
      · exact urbs v (by simp [later])

theorem Flows.completion (flows : Flows q) (c : BceSqCompletionData) : Flows (q.completion true c) := by
  obtain ⟨fifo, present, reserved, capacity, shape⟩ := flows.sqOut
  obtain ⟨urbList, giveback, remaining, eq, urbs⟩ := flows.completionBody c
  have idle : fifo.pop.items = [] := by
    rcases shape with idle | ⟨⟨x, made⟩, -⟩
    · simp [BoundedFifo.pop, idle]
    · simp [BoundedFifo.pop, made]
  obtain ⟨pending, wakeups, accounted⟩ := (q.completionBody true c).outputDone_eq true
  rw [eq] at accounted
  unfold BceVhciTransferQueue.completion notifySubmissionComplete
  rw [eq, accounted]
  simp only [sq, present]
  exact ⟨flows.data, flows.outgoing, flows.active, flows.ghosts, urbs, flows.sqIn,
    fifo.pop, rfl, reserved, capacity, .inl idle⟩

/-- Starting URBs leaves one at the head that is started already. -/
theorem initPendingUrbs_head (linked : q.urbList = u :: rest) (begun : u.state ≠ .initPending) :
    ∃ behind, q.initPendingUrbs.urbList = u :: behind ∧ q.initPendingUrbs.evq = q.evq := by
  refine initLoop_invariant (I := fun r => ∃ behind, r.urbList = u :: behind ∧ r.evq = q.evq) ?_
    [] q.urbList q ⟨rest, linked, rfl⟩
  intro done v behind r pending held
  obtain ⟨tail, head, evq⟩ := held
  cases done with
  | nil =>
    cases (List.cons.inj head).1
    exact absurd pending begun
  | cons w done =>
    obtain ⟨rfl, -⟩ := List.cons.inj head
    exact ⟨done ++ ((v.init r).urb.toList ++ behind), rfl, (v.init_frame r).1.evq.trans evq⟩

/-- One that is pending is started, if there is a slot. -/
theorem Flows.init_head (flows : Flows q) (linked : q.urbList = u :: rest) (pending : u.state = .initPending)
    (slots : q.canInitUrb) : ∃ v behind, q.initPendingUrbs.urbList = v :: behind ∧
      v.state = startState u ∧ q.initPendingUrbs.evq = q.evq := by
  obtain ⟨data, outgoing⟩ := flows.urbs u (by simp [linked])
  have remaining : q.remainingActiveRequests ≠ 0 := by
    simp only [canInitUrb, decide_eq_true_eq] at slots
    omega
  have first : q.initPendingUrbs = initLoop [{ u with state := startState u }] rest (u.init q).q := by
    unfold initPendingUrbs
    rw [linked, initLoop, if_neg (not_not.mpr slots), if_pos pending]
    simp only [init_outgoing data outgoing remaining]
    rfl
  rw [first]
  refine initLoop_invariant (I := fun r => ∃ v behind, r.urbList = v :: behind ∧ v.state = startState u ∧
    r.evq = q.evq) ?_ _ rest _ ⟨_, rest, rfl, rfl, (u.init_frame q).1.evq⟩
  intro done v behind r pending' held
  obtain ⟨w, tail, head, state, evq⟩ := held
  cases done with
  | nil =>
    cases (List.cons.inj head).1
    rw [pending'] at state
    unfold startState at state
    split at state <;> cases state
  | cons x done =>
    obtain ⟨rfl, -⟩ := List.cons.inj head
    exact ⟨x, done ++ ((v.init r).urb.toList ++ behind), rfl, state, (v.init_frame r).1.evq.trans evq⟩

/-- What delivering does for the URB at the head: it takes the request it waits for, it is started
without seeing what is deferred, or all stays as it is. -/
theorem Flows.deliverPending_head (flows : Flows q) (linked : q.urbList = u :: rest) :
    ∃ v behind, q.deliverPending.urbList = v :: behind ∧
      ((u.state = .waitingForTransferRequest ∧ v.state = .waitingForCompletion ∧
          ∃ msg ∈ q.evq.head?, msg.cmd = BceVhciCommand.transferRequest.code) ∨
        (q.deliverPending.evq = q.evq ∧
          ((u.state = .initPending ∧ q.canInitUrb ∧ v.state = startState u) ∨
            (v.state = u.state ∧ (u.state = .initPending → ¬q.canInitUrb) ∧
              (u.state = .waitingForTransferRequest →
                ∀ msg ∈ q.evq.head?, msg.cmd ≠ BceVhciCommand.transferRequest.code))))) := by
  have unchanged : deliverLoop q.evq q = q → (u.state = .waitingForTransferRequest →
      ∀ msg ∈ q.evq.head?, msg.cmd ≠ BceVhciCommand.transferRequest.code) →
        ∃ v behind, q.deliverPending.urbList = v :: behind ∧ q.deliverPending.evq = q.evq ∧
          ((u.state = .initPending ∧ q.canInitUrb ∧ v.state = startState u) ∨
            (v.state = u.state ∧ (u.state = .initPending → ¬q.canInitUrb) ∧
              (u.state = .waitingForTransferRequest →
                ∀ msg ∈ q.evq.head?, msg.cmd ≠ BceVhciCommand.transferRequest.code))) := by
    intro same other
    unfold deliverPending
    rw [same]
    by_cases pending : u.state = .initPending
    · by_cases slots : q.canInitUrb
      · obtain ⟨v, behind, head, state, evq⟩ := flows.init_head linked pending slots
        exact ⟨v, behind, head, evq, .inl ⟨pending, slots, state⟩⟩
      · have idle : q.initPendingUrbs = q := initPendingUrbs_idle (.inl (by simpa [canInitUrb] using slots))
        rw [idle]
        exact ⟨u, rest, linked, rfl, .inr ⟨rfl, fun _ => slots, other⟩⟩
    · obtain ⟨behind, head, evq⟩ := initPendingUrbs_head linked pending
      exact ⟨u, behind, head, evq, .inr ⟨rfl, fun now => absurd now pending, other⟩⟩
  cases deferred : q.evq with
  | nil =>
    have same : deliverLoop q.evq q = q := by
      rw [deferred, deliverLoop, ← deferred]
    obtain ⟨v, behind, head, evq, state⟩ := unchanged same (by simp [deferred])
    rw [deferred] at evq state
    exact ⟨v, behind, head, .inr ⟨evq, state⟩⟩
  | cons msg msgs =>
    rcases flows.update linked msg with ⟨refused, eq⟩ | ⟨waiting, request, v, next, eq, same, sent, -⟩
    · have same : deliverLoop q.evq q = q := by
        rw [deferred, deliverLoop, linked]
        simp only [eq, ↓reduceIte]
        show { q with urbList := u :: rest, evq := msg :: msgs } = q
        rw [← linked, ← deferred]
      obtain ⟨v, behind, head, evq, state⟩ := unchanged same (by
        intro waits m member
        rw [deferred] at member
        cases Option.some.inj member
        exact fun request => refused ⟨waits, request⟩)
      rw [deferred] at evq state
      exact ⟨v, behind, head, .inr ⟨evq, state⟩⟩
    · have data := (flows.urbs u (by simp [linked])).1
      have delivered : deliverLoop q.evq q =
          { q with sqOut := some next, sqOutPending := q.sqOutPending + 1, urbList := v :: rest, evq := msgs } := by
        rw [deferred, deliverLoop, linked]
        simp only [eq, reduceCtorEq, ↓reduceIte]
        exact deliverLoop_refused msgs rfl fun msg =>
          update_waiting (same.isControl.trans data) sent msg _
      have linked' : (deliverLoop q.evq q).urbList = v :: rest := by rw [delivered]
      obtain ⟨behind, head, -⟩ := initPendingUrbs_head linked' (by rw [sent]; decide)
      exact ⟨v, behind, head, .inl ⟨waiting, sent, msg, rfl, request⟩⟩

/-- What an event does behind the delivery: the URB at the head takes it, or it is deferred. -/
theorem Flows.eventDelivered_head (flows : Flows q) (linked : q.urbList = u :: rest) (msg : BceVhciMessage)
    (allocated : Bool) : ∃ v behind, (q.eventDelivered msg allocated).urbList = v :: behind ∧
      ((u.state = .waitingForTransferRequest ∧ q.evq = [] ∧ v.state = .waitingForCompletion) ∨
        (v.state = u.state ∧ (q.eventDelivered msg allocated).evq = q.evq ++ (if allocated then [msg] else []) ∧
          (u.state = .waitingForTransferRequest → msg.cmd = BceVhciCommand.transferRequest.code →
            q.evq ≠ []))) := by
  have deferred : ∀ r : BceVhciTransferQueue, r.urbList = q.urbList → r.evq = q.evq →
      (r.deferEvent msg allocated).urbList = u :: rest ∧
        (r.deferEvent msg allocated).evq = q.evq ++ (if allocated then [msg] else []) := by
    intro r urbs evq
    unfold deferEvent
    cases allocated with
    | false => exact ⟨urbs.trans linked, by simp [BceVhciTransferQueue.requestReset, evq]⟩
    | true => exact ⟨urbs.trans linked, by simp [evq]⟩
  unfold eventDelivered
  split
  case isTrue behind =>
    have nonempty : q.evq ≠ [] := behind.2.resolve_right (by simp [linked])
    obtain ⟨urbs, evq⟩ := deferred q rfl rfl
    exact ⟨u, rest, urbs, .inr ⟨rfl, evq, fun _ _ => nonempty⟩⟩
  case isFalse first =>
    rcases flows.update linked msg with ⟨refused, eq⟩ | ⟨waiting, request, v, next, eq, same, sent, -⟩
    · simp only [linked, eq, ↓reduceIte]
      obtain ⟨urbs, evq⟩ := deferred (afterUrb [] rest ⟨some .again, some u, q⟩) linked.symm rfl
      exact ⟨u, rest, urbs, .inr ⟨rfl, evq, fun waits request => absurd ⟨waits, request⟩ refused⟩⟩
    · simp only [linked, eq, reduceCtorEq, ↓reduceIte]
      have empty : q.evq = [] := by
        by_contra nonempty
        exact first ⟨request, .inl nonempty⟩
      have linked' : (afterUrb [] rest ⟨none, some v,
          { q with sqOut := some next, sqOutPending := q.sqOutPending + 1 }⟩).urbList = v :: rest := rfl
      obtain ⟨behind, head, -⟩ := initPendingUrbs_head linked' (by rw [sent]; decide)
      exact ⟨v, behind, head, .inl ⟨waiting, empty, sent⟩⟩

/-- No URB waits for a request that is deferred. -/
def RequestsPassed (q : BceVhciTransferQueue) : Prop :=
  ∀ u ∈ q.urbList.head?, u.state = .waitingForTransferRequest →
    ∀ msg ∈ q.evq, msg.cmd ≠ BceVhciCommand.transferRequest.code

instance (q : BceVhciTransferQueue) : Decidable q.RequestsPassed :=
  inferInstanceAs (Decidable (∀ u ∈ q.urbList.head?, _ → ∀ msg ∈ q.evq, _))

/-- No request is deferred, and none that arrives has to wait behind another message. -/
def NoneBehind (q : BceVhciTransferQueue) (arrives : Prop) : Prop :=
  (∀ msg ∈ q.evq, msg.cmd ≠ BceVhciCommand.transferRequest.code) ∧ (arrives → q.evq = [])

/-- What delivering has to find: an URB that waits for a request meets one at the front of the
deferred messages or none behind others, and an URB that is about to be started meets none. -/
def Unjammed (q : BceVhciTransferQueue) (arrives : Prop) : Prop :=
  ∀ u ∈ q.urbList.head?,
    (u.state = .waitingForTransferRequest →
      (∃ msg ∈ q.evq.head?, msg.cmd = BceVhciCommand.transferRequest.code) ∨ q.NoneBehind arrives) ∧
    (u.state = .initPending → q.canInitUrb → 0 < u.urb.transferBufferLength → q.NoneBehind arrives)

theorem startState_waiting (u : BceVhciUrb) :
    startState u = .waitingForTransferRequest ↔ 0 < u.urb.transferBufferLength := by
  unfold startState
  split <;> simp_all

/-- The URB at the head waits once messages are delivered if it waits already and no request is at the
front, or if it is started only then. -/
theorem Flows.waits_iff (flows : Flows q) (linked : q.urbList = u :: rest) (arrives : Prop) :
    ∃ v behind, q.deliverPending.urbList = v :: behind ∧
      (v.state = .waitingForTransferRequest → q.deliverPending.evq = q.evq) ∧
      (q.Unjammed arrives ↔ (v.state = .waitingForTransferRequest → q.NoneBehind arrives)) := by
  obtain ⟨v, behind, head, cases⟩ := flows.deliverPending_head linked
  refine ⟨v, behind, head, ?_⟩
  have unjammed : q.Unjammed arrives ↔ (u.state = .waitingForTransferRequest →
      (∃ msg ∈ q.evq.head?, msg.cmd = BceVhciCommand.transferRequest.code) ∨ q.NoneBehind arrives) ∧
    (u.state = .initPending → q.canInitUrb → 0 < u.urb.transferBufferLength → q.NoneBehind arrives) := by
    simp [Unjammed, linked]
  rw [unjammed]
  rcases cases with ⟨waits, sent, front⟩ | ⟨evq, ⟨pending, slots, state⟩ | ⟨state, noSlots, other⟩⟩
  · refine ⟨fun now => (by rw [sent] at now; cases now), ?_⟩
    refine iff_of_true ⟨fun _ => .inl front, fun now => ?_⟩ fun now => ?_
    · rw [waits] at now
      cases now
    · rw [sent] at now
      cases now
  · refine ⟨fun _ => evq, ?_⟩
    rw [state, startState_waiting]
    simp [pending, slots]
  · refine ⟨fun _ => evq, ?_⟩
    rw [state]
    constructor
    · rintro ⟨passes, -⟩ waits
      refine (passes waits).resolve_left ?_
      rintro ⟨msg, front, request⟩
      exact other waits msg front request
    · intro passes
      exact ⟨fun waits => .inr (passes waits), fun pending slots => absurd slots (noSlots pending)⟩

theorem requestsPassed_cons (linked : q.urbList = u :: rest) : q.RequestsPassed ↔
    (u.state = .waitingForTransferRequest → ∀ msg ∈ q.evq, msg.cmd ≠ BceVhciCommand.transferRequest.code) := by
  simp [RequestsPassed, linked]

theorem deliverPending_nil (none : q.urbList = []) : q.deliverPending.urbList = [] := by
  have still : (deliverLoop q.evq q).urbList = [] := by
    cases q.evq with
    | nil => exact none
    | cons msg msgs =>
      rw [deliverLoop]
      simp only [none]
  unfold deliverPending initPendingUrbs
  rw [still]
  rfl

/-- At the end of a completion handler. -/
theorem Flows.deliverPending_passed (flows : Flows q) : q.deliverPending.RequestsPassed ↔ q.Unjammed False := by
  cases linked : q.urbList with
  | nil =>
    exact iff_of_true (by simp [RequestsPassed, deliverPending_nil linked]) (by simp [Unjammed, linked])
  | cons u rest =>
    obtain ⟨v, behind, head, evq, unjammed⟩ := flows.waits_iff linked False
    rw [unjammed, requestsPassed_cons head]
    refine forall_congr' fun waits => ?_
    rw [evq waits]
    exact ⟨fun passed => ⟨passed, nofun⟩, fun passed => passed.1⟩

/-- After an event. -/
theorem Flows.event_passed (flows : Flows q) (msg : BceVhciMessage) (allocated : Bool) :
    (q.event msg allocated).RequestsPassed ↔
      q.Unjammed (msg.cmd = BceVhciCommand.transferRequest.code ∧ allocated) := by
  have eq : q.event msg allocated = q.deliverPending.eventDelivered msg allocated := by
    unfold BceVhciTransferQueue.event
    rw [if_neg (by simp [flows.active])]
  rw [eq]
  cases linked : q.urbList with
  | nil =>
    refine iff_of_true ?_ (by simp [Unjammed, linked])
    have none := deliverPending_nil linked
    have after : (q.deliverPending.eventDelivered msg allocated).urbList = [] := by
      unfold eventDelivered deferEvent
      split
      · split <;> exact none
      · simp only [none]
    simp [RequestsPassed, after]
  | cons u rest =>
    obtain ⟨v, behind, head, evq, unjammed⟩ :=
      flows.waits_iff linked (msg.cmd = BceVhciCommand.transferRequest.code ∧ allocated)
    obtain ⟨w, behind', head', taken | ⟨state, evq', other⟩⟩ :=
      (Flows.loopSafe.deliverPending flows).eventDelivered_head head msg allocated
    · obtain ⟨waits, empty, sent⟩ := taken
      rw [unjammed, requestsPassed_cons head']
      have empty : q.evq = [] := (evq waits).symm.trans empty
      refine iff_of_true (fun now => ?_) fun _ => ⟨by simp [empty], fun _ => empty⟩
      rw [sent] at now
      cases now
    · rw [unjammed, requestsPassed_cons head', state]
      refine forall_congr' fun waits => ?_
      have behind := other waits
      rw [evq waits] at behind evq'
      rw [evq']
      constructor
      · intro passed
        refine ⟨fun m member => passed m (List.mem_append_left _ member), ?_⟩
        rintro ⟨request, rfl⟩
        exact absurd request (passed msg (by simp))
      · rintro ⟨passed, free⟩ m member
        rcases List.mem_append.mp member with earlier | here
        · exact passed m earlier
        · cases allocated with
          | false => cases here
          | true =>
            cases List.mem_singleton.mp here
            exact fun request => behind request (free ⟨request, rfl⟩)

end BceVhciTransferQueue

namespace TransferRun

open BceVhciTransferQueue

variable {s t : TransferRun} {a : TransferStep}

/-- The T2 sends events and completes transfers while URBs are enqueued and given back. -/
def Exchanges : TransferStep → Prop
  | .op (.create _ _ _) | .op (.event _ _) | .op (.completion _ _) | .op .completionEnd | .giveback => True
  | _ => False

instance (a : TransferStep) : Decidable (Exchanges a) := by
  unfold Exchanges
  split <;> infer_instance

/-- What is claimed of a step: no URB waits for a deferred request when an event was taken or the
completion handler returns. -/
def Delivers (_ : TransferRun) (a : TransferStep) (t : TransferRun) : Prop :=
  match a with
  | .op (.event _ _) | .op .completionEnd => t.q.RequestsPassed
  | _ => True

/-- What it depends on. -/
def FindsPassage (s : TransferRun) (a : TransferStep) (_ : TransferRun) : Prop :=
  match a with
  | .op (.event msg allocated) =>
    s.q.Unjammed (msg.cmd = BceVhciCommand.transferRequest.code ∧ allocated)
  | .op .completionEnd => s.q.Unjammed False
  | _ => True

theorem step_flows (flows : s.q.Flows) (exchanges : Exchanges a) (run : s.step a = some t) : t.q.Flows := by
  unfold step at run
  obtain ⟨-, run⟩ := Option.ite_none_left_eq_some.mp run
  cases a with
  | op op =>
    cases op with
    | create urb allocated link =>
      obtain ⟨⟨-, -, -, takes⟩, after⟩ := Option.ite_none_right_eq_some.mp run
      cases after
      rw [created_q]
      exact flows.create takes allocated link
    | event msg allocated =>
      obtain ⟨-, after⟩ := Option.ite_none_right_eq_some.mp run
      cases after
      exact flows.event msg allocated
    | completion out c =>
      obtain ⟨⟨-, made⟩, after⟩ := Option.ite_none_right_eq_some.mp run
      cases after
      cases out with
      | true => exact flows.completion c
      | false => exact absurd (by simp [outstanding, BceVhciTransferQueue.sq, flows.sqIn]) made
    | completionEnd =>
      cases Option.some.inj run
      exact Flows.loopSafe.deliverPending flows
    | cancel id status => exact exchanges.elim
  | giveback =>
    simp only at run
    split at run
    · cases run
    · obtain ⟨-, after⟩ := Option.ite_none_right_eq_some.mp run
      cases after
      exact ⟨flows.data, flows.outgoing, flows.active, flows.ghosts, flows.urbs, flows.sqIn, flows.sqOut⟩
  | _ => exact exchanges.elim

theorem fresh_flows {endp : UsbEndpoint} {devAddr : BitVec 8} {memory : TransferQueueMemory}
    {reservations : List Bool} {q : BceVhciTransferQueue}
    (create : bceVhciCreateTransferQueue endp devAddr endp.queueDir memory reservations = some q)
    (data : endp.num ≠ 0) (outgoing : endp.dirIn = false) : q.Flows := by
  have unused := createTransferQueue_unused create
  have dir : endp.queueDir = .toDevice := by
    rw [UsbEndpoint.queueDir, if_neg data, if_neg (by simp [outgoing])]
  refine ⟨by rw [unused.endp]; exact data, by rw [unused.endp]; exact outgoing, unused.active,
    unused.ghostOutCount, by simp [unused.urbList], by simp [unused.sqIn, dir], ?_⟩
  exact ⟨.empty transferSqCapacity, by simp [unused.sqOut, dir], rfl, by decide, .inl rfl⟩

theorem step_delivers (flows : s.q.Flows) (run : s.step a = some t) : s.Delivers a t ↔ s.FindsPassage a t := by
  unfold step at run
  obtain ⟨-, run⟩ := Option.ite_none_left_eq_some.mp run
  cases a with
  | op op =>
    cases op with
    | event msg allocated =>
      obtain ⟨-, after⟩ := Option.ite_none_right_eq_some.mp run
      cases after
      exact flows.event_passed msg allocated
    | completionEnd =>
      cases Option.some.inj run
      exact flows.deliverPending_passed
    | _ => exact Iff.rfl
  | _ => exact Iff.rfl

/-- The queue of an outgoing data endpoint while nothing else happens to it than events, completions
and new URBs. -/
def exchange : Machine TransferRun TransferStep :=
  machine.guard fun _ a => Exchanges a

/-- In every run no URB ever waits for a request that is deferred, if and only if every delivery on the
way finds requests in front of what else is deferred, and none when it is about to start an URB. -/
theorem delivers_iff (begins : exchange.init s) (data : s.q.endp.num ≠ 0) (outgoing : s.q.endp.dirIn = false)
    (steps : List TransferStep) : exchange.Along Delivers s steps ↔ exchange.Along FindsPassage s steps := by
  obtain ⟨endp, devAddr, memory, reservations, q, create, rfl⟩ := begins
  have same : q.endp = endp := (createTransferQueue_unused create).endp
  have held : (fresh q).q.Flows := fresh_flows create (same ▸ data) (same ▸ outgoing)
  refine Machine.along_iff (I := fun s => s.q.Flows) ?_ ?_ held steps
  · intro s a t flows _ run
    obtain ⟨exchanges, run⟩ := Option.ite_none_right_eq_some.mp run
    exact step_flows flows exchanges run
  · intro s a t flows run
    obtain ⟨-, run⟩ := Option.ite_none_right_eq_some.mp run
    exact step_delivers flows run

def requestEvent : TransferStep :=
  .op (.event (bytesRequest 512) true)

def statusEvent : TransferStep :=
  .op (.event ⟨BceVhciCommand.controlTransferStatus.code, 1, 0x101, 0⟩ true)

/-- An URB that waits takes a request, and a status that is misplaced stays behind. -/
theorem delivers_iff_bulk :
    (∃ t, exchange.run bulkOutFresh
      [.op (.create (sampleUrb 1 false) true none), requestEvent, statusEvent] = some t) ∧
      (exchange.Along Delivers bulkOutFresh
        [.op (.create (sampleUrb 1 false) true none), requestEvent, statusEvent] ↔
        exchange.Along FindsPassage bulkOutFresh
          [.op (.create (sampleUrb 1 false) true none), requestEvent, statusEvent]) := by
  refine ⟨Option.isSome_iff_exists.mp (by decide), ?_⟩
  exact delivers_iff bulkOutFresh_init (by decide) (by decide) _

/-- A status that comes first keeps the request behind it from the URB. -/
theorem status_keeps_request : ¬∀ s steps, exchange.init s → s.q.endp.num ≠ 0 → s.q.endp.dirIn = false →
    exchange.Along Delivers s steps := by
  intro all
  have along := all bulkOutFresh [.op (.create (sampleUrb 1 false) true none), statusEvent, requestEvent]
    bulkOutFresh_init (by decide) (by decide)
  have ran : (exchange.run bulkOutFresh
      [.op (.create (sampleUrb 1 false) true none), statusEvent, requestEvent]).map
      (fun t => decide t.q.RequestsPassed) = some false := by decide
  obtain ⟨t, ran, seen⟩ := Option.map_eq_some_iff.mp ran
  obtain ⟨r, delivers⟩ := Machine.Along.last [_, _] along ran
  exact of_decide_eq_false seen delivers

end TransferRun

end AppleBce

import AppleBce.Vhci.LoopRules
import AppleBce.Vhci.Submissions
import AppleBce.Vhci.TransferRun

namespace AppleBce

open Basis

/-- The submissions are consecutive chunks of a buffer, from the byte `first` on and up to the byte
`last`. -/
def Covers (buffer : BitVec 64) : Nat → List UrbSubmission → Nat → Prop
  | first, [], last => first = last
  | first, x :: xs, last =>
    x.addr = buffer + BitVec.ofNat 64 first ∧ Covers buffer (first + x.length.toNat) xs last

/-- The bytes the T2 asks for. -/
def requested (msgs : List BceVhciMessage) : Nat :=
  (msgs.map fun msg => msg.param2.toNat).sum

/-- No second request is needed: the first one asks for all `n` bytes, or it is the only one so far. -/
def AsksAtOnce (n : BitVec 32) : List BceVhciMessage → Prop
  | [] => True
  | msg :: msgs => n ≤ msg.param2.setWidth 32 ∨ msgs = [] ∧ msg.param2.toNat < n.toNat

namespace BceVhciTransferQueue

/-- The T2 completes in full what is outstanding on `sq_out`, in one run of the handler. -/
def completeOutput (q : BceVhciTransferQueue) : BceVhciTransferQueue :=
  let complete := fun (q : BceVhciTransferQueue) (x : UrbSubmission) =>
    q.completion true ⟨bceCompletionSuccess, x.length.toNat, 0⟩
  ((q.outstanding true).foldl complete q).deliverPending

/-- A message of the T2 and the completion of what the driver submits for it, if it submits
anything. The submissions come with the queue. -/
def served (q : BceVhciTransferQueue) (msg : BceVhciMessage) : List UrbSubmission × BceVhciTransferQueue :=
  let asked := q.event msg true
  (asked.outstanding true, if asked.outstanding true = [] then asked else asked.completeOutput)

def servedAll (q : BceVhciTransferQueue) : List BceVhciMessage → List UrbSubmission × BceVhciTransferQueue
  | [] => ([], q)
  | msg :: msgs =>
    let rest := (q.served msg).2.servedAll msgs
    ((q.served msg).1 ++ rest.1, rest.2)

/-- An URB that is about to send is at the head of an active queue with nothing in its way. -/
structure Sending (u : BceVhciUrb) (q : BceVhciTransferQueue) : Prop where
  outgoing : u.dir = .toDevice
  data : u.isControl = false
  state : u.state = .waitingForTransferRequest
  sendOffset : u.sendOffset = 0
  receiveOffset : u.receiveOffset = 0
  positive : 0 < u.urb.transferBufferLength
  active : q.active = true
  linked : ∃ rest, q.urbList = u :: rest ∧ ∀ v ∈ rest, v.id ≠ u.id
  evq : q.evq = []
  ghosts : q.ghostOutCount = 0
  sqOut : ∃ fifo, q.sqOut = some fifo ∧ fifo.items = [] ∧ fifo.reserved < fifo.capacity

/-- What the T2 asked for of an URB was submitted in consecutive chunks, and the URB is completed
without an error once that is all of it. -/
structure Transfers (u : BceVhciUrb) (msgs : List BceVhciMessage) (q : BceVhciTransferQueue) : Prop where
  covered : Covers u.urb.transferDma 0 ((q.servedAll msgs).1.filter fun x => x.urb = u.id)
    (min u.urb.transferBufferLength.toNat (requested msgs))
  finished : u.urb.transferBufferLength.toNat ≤ requested msgs → ∃ urb ∈ (q.servedAll msgs).2.givebackUrbList,
    urb.id = u.id ∧ urb.status = 0 ∧ urb.actualLength = u.urb.transferBufferLength

/-- The URB is at the head of an active queue, with the submissions and the deferred messages named. -/
structure Heads (u : BceVhciUrb) (fifo : BoundedFifo UrbSubmission) (evq : List BceVhciMessage)
    (q : BceVhciTransferQueue) : Prop where
  active : q.active = true
  ghosts : q.ghostOutCount = 0
  sqOut : q.sqOut = some fifo
  evq : q.evq = evq
  linked : ∃ rest, q.urbList = u :: rest ∧ ∀ v ∈ rest, v.id ≠ u.id

variable {q : BceVhciTransferQueue} {u : BceVhciUrb} {fifo : BoundedFifo UrbSubmission}
  {evq msgs : List BceVhciMessage} {msg : BceVhciMessage}

/-- Starting URBs behind it changes nothing for the URB at the head. -/
theorem Heads.initPendingUrbs (heads : Heads u fifo evq q) (begun : u.state ≠ .initPending) :
    Heads u fifo evq q.initPendingUrbs := by
  refine initLoop_invariant (I := Heads u fifo evq) ?_ [] q.urbList q heads
  intro done v rest q pending held
  obtain ⟨frame, active, -⟩ := v.init_frame q
  refine ⟨active.trans held.active, frame.ghostOutCount.trans held.ghosts, (v.init_sqOut q).trans held.sqOut,
    frame.evq.trans held.evq, ?_⟩
  obtain ⟨behind, linked, others⟩ := held.linked
  have linked : done ++ v :: rest = u :: behind := linked
  cases done with
  | nil =>
    cases (List.cons.inj linked).1
    exact absurd pending begun
  | cons w done =>
    obtain ⟨rfl, -⟩ := List.cons.inj linked
    refine ⟨done ++ ((v.init q).urb.toList ++ rest), rfl, ?_⟩
    have tail : done ++ v :: rest = behind := (List.cons.inj linked).2
    have others' : ∀ x ∈ done ++ v :: rest, x.id ≠ w.id := by
      rw [tail]
      exact others
    intro x member
    rcases List.mem_append.mp member with passed | member
    · exact others' x (List.mem_append_left _ passed)
    · rcases List.mem_append.mp member with started | later
      · rw [BceVhciUrb.init_id (Option.mem_toList.mp started)]
        exact others' v (by simp)
      · exact others' x (by simp [later])

/-- What is deferred stays so while the URB at the head refuses it. -/
theorem Heads.deliverPending (heads : Heads u fifo evq q) (begun : u.state ≠ .initPending)
    (refuses : ∀ msg q, u.update msg q = ⟨some .again, some u, q⟩) : Heads u fifo evq q.deliverPending := by
  refine Heads.initPendingUrbs ?_ begun
  obtain ⟨rest, linked, others⟩ := heads.linked
  rw [deliverLoop_refused q.evq linked fun msg => refuses msg q]
  exact ⟨heads.active, heads.ghosts, heads.sqOut, heads.evq, rest, linked, others⟩

theorem Heads.deliverNothing (heads : Heads u fifo [] q) (begun : u.state ≠ .initPending) :
    Heads u fifo [] q.deliverPending := by
  refine Heads.initPendingUrbs ?_ begun
  rw [heads.evq]
  exact ⟨heads.active, heads.ghosts, heads.sqOut, rfl, heads.linked⟩

/-- A request that finds the URB waiting for a completion is deferred. -/
theorem Heads.event_deferred (heads : Heads u fifo evq q) (data : u.isControl = false)
    (waiting : u.state = .waitingForCompletion) (msg : BceVhciMessage) :
    Heads u fifo (evq ++ [msg]) (q.event msg true) := by
  have delivered := heads.deliverPending (by rw [waiting]; decide) (update_waiting data waiting)
  obtain ⟨rest, linked, others⟩ := delivered.linked
  unfold event eventDelivered
  rw [if_neg (by simp [heads.active])]
  split
  · refine ⟨delivered.active, delivered.ghosts, delivered.sqOut, ?_, rest, linked, others⟩
    simp [deferEvent, delivered.evq]
  · simp only [linked, update_waiting data waiting, ↓reduceIte]
    refine ⟨delivered.active, delivered.ghosts, delivered.sqOut, ?_, rest, rfl, others⟩
    simp [deferEvent, afterUrb, delivered.evq]

/-- It is never served again: after part of its data was sent nothing more is submitted. -/
theorem Heads.servedAll_nothing (heads : Heads u fifo evq q) (data : u.isControl = false)
    (waiting : u.state = .waitingForCompletion) (idle : fifo.items = []) (msgs : List BceVhciMessage) :
    (q.servedAll msgs).1 = [] := by
  induction msgs generalizing q evq with
  | nil => rfl
  | cons msg msgs ih =>
    have asked := heads.event_deferred data waiting msg
    have nothing : (q.event msg true).outstanding true = [] := by
      simp only [outstanding, sq, asked.sqOut, idle]
    have same : q.served msg = ([], q.event msg true) := by
      simp only [served, nothing, ↓reduceIte]
    rw [servedAll, same]
    exact ih asked

/-- What a request for an URB that has sent nothing makes the driver send. -/
def firstLength (u : BceVhciUrb) (msg : BceVhciMessage) : BitVec 32 :=
  if u.urb.transferBufferLength ≤ msg.param2.setWidth 32 then u.urb.transferBufferLength
  else msg.param2.setWidth 32

def firstChunk (u : BceVhciUrb) (msg : BceVhciMessage) : UrbSubmission where
  urb := u.id
  addr := u.urb.transferDma
  length := (firstLength u msg).setWidth 64

/-- The URB once that is submitted. -/
def afterFirst (u : BceVhciUrb) (msg : BceVhciMessage) : BceVhciUrb :=
  { u with sendOffset := firstLength u msg, state := .waitingForCompletion }

/-- The first request is answered with as much as it asks for. -/
theorem Sending.update (sending : Sending u q) (request : msg.cmd = BceVhciCommand.transferRequest.code)
    {r : BceVhciTransferQueue} (sqOut : r.sqOut = some fifo) {next : BoundedFifo UrbSubmission}
    (room : fifo.submit (firstChunk u msg) = some next) :
    u.update msg r = ⟨none, some (afterFirst u msg),
      { r with sqOut := some next, sqOutPending := r.sqOutPending + 1 }⟩ := by
  have length : (if u.urb.transferBufferLength - u.sendOffset ≤ msg.param2.setWidth 32 then
      u.urb.transferBufferLength - u.sendOffset else msg.param2.setWidth 32) = firstLength u msg := by
    simp [sending.sendOffset, firstLength]
  have sent : u.sendOutData (u.urb.transferDma + u.sendOffset.setWidth 64) ((firstLength u msg).setWidth 64) r =
      (none, { r with sqOut := some next, sqOutPending := r.sqOutPending + 1 }) := by
    have start : u.urb.transferDma + u.sendOffset.setWidth 64 = u.urb.transferDma := by
      simp [sending.sendOffset]
    rw [start]
    unfold BceVhciUrb.sendOutData submit
    simp only [sq, sqOut]
    rw [show fifo.submit ⟨u.id, u.urb.transferDma, (firstLength u msg).setWidth 64⟩ = some next from room]
    rfl
  unfold BceVhciUrb.update BceVhciUrb.dataUpdate
  rw [if_neg (by rw [sending.state]; decide), if_neg (by simp [sending.data]), if_pos ⟨sending.state, request⟩]
  simp only [length, sent, afterFirst]
  simp [sending.sendOffset]

/-- So is the request that comes as an event. -/
theorem Sending.event (sending : Sending u q) (request : msg.cmd = BceVhciCommand.transferRequest.code) :
    ∃ fifo, fifo.items = [firstChunk u msg] ∧ Heads (afterFirst u msg) fifo [] (q.event msg true) := by
  obtain ⟨fifo, present, idle, free⟩ := sending.sqOut
  have heads : Heads u fifo [] q := ⟨sending.active, sending.ghosts, present, sending.evq, sending.linked⟩
  have delivered := heads.deliverNothing (by rw [sending.state]; decide)
  obtain ⟨next, room⟩ := Option.isSome_iff_exists.mp
    (BoundedFifo.submit_isSome (f := fifo) (x := firstChunk u msg) (by simpa [idle] using free))
  obtain ⟨-, items, -⟩ := BoundedFifo.submit_some room
  refine ⟨next, by rw [items, idle, List.nil_append], ?_⟩
  obtain ⟨rest, linked, others⟩ := delivered.linked
  unfold BceVhciTransferQueue.event eventDelivered
  rw [if_neg (by simp [sending.active]), if_neg (by simp [delivered.evq, linked])]
  simp only [linked, sending.update request delivered.sqOut room]
  refine Heads.initPendingUrbs ?_ nofun
  exact ⟨delivered.active, delivered.ghosts, rfl, delivered.evq, rest, rfl, others⟩

/-- The URB is done for: it was given back as `urb`, and nothing of it is linked or outstanding. -/
structure Done (urb : Urb) (q : BceVhciTransferQueue) : Prop where
  given : urb ∈ q.givebackUrbList
  unlinked : ∀ v ∈ q.urbList, v.id ≠ urb.id
  quiet : ∀ x ∈ q.outstanding true, x.urb ≠ urb.id

/-- A call for another URB that submits nothing in its name. -/
theorem Done.head {urb : Urb} {v : BceVhciUrb} {rest : List BceVhciUrb} {call : UrbCall} (held : Done urb q)
    (linked : q.urbList = v :: rest) (fits : UrbCall.Fits v q call)
    (quiet : ∀ x ∈ call.q.outstanding true, x.urb ≠ urb.id) : Done urb (afterUrb [] rest call) where
  given := by
    show urb ∈ call.q.givebackUrbList
    cases present : call.urb with
    | some w =>
      rw [(fits.kept w present).2.2.2]
      exact held.given
    | none =>
      obtain ⟨given, -, giveback, -⟩ := fits.completed present
      rw [giveback]
      exact List.mem_append_left _ held.given
  unlinked := by
    intro w member
    simp only [afterUrb, List.nil_append, List.mem_append, Option.mem_toList] at member
    rcases member with present | later
    · rw [(fits.kept w present).1.id]
      exact held.unlinked v (by simp [linked])
    · exact held.unlinked w (by simp [linked, later])
  quiet := quiet

/-- Done with an URB the driver stays done with it. -/
theorem Done.loopSafe (urb : Urb) : LoopSafe (Done urb) where
  start := by
    intro done v rest q pending held
    obtain ⟨frame, -, giveback⟩ := v.init_frame q
    refine ⟨?_, ?_, ?_⟩
    · show urb ∈ (v.init q).q.givebackUrbList
      rw [giveback]
      exact held.given
    · intro w member
      simp only [afterUrb, List.mem_append, Option.mem_toList] at member
      have others : ∀ x ∈ done ++ v :: rest, x.id ≠ urb.id := held.unlinked
      rcases member with passed | present | later
      · exact others w (by simp [passed])
      · rw [BceVhciUrb.init_id present]
        exact others v (by simp)
      · exact others w (by simp [later])
    · have same : (afterUrb done rest (v.init q)).outstanding true = q.outstanding true :=
        outstanding_of_sq (v.init_sqOut q)
      rw [same]
      exact held.quiet
  update := by
    intro v rest msg q linked held
    have here : v.id ≠ urb.id := held.unlinked v (by simp [linked])
    refine held.head linked (v.update_fits msg q) ?_
    intro x member
    rcases v.update_uses msg q with ⟨kept, -⟩ | ⟨refuses, -⟩ | ⟨y, owner, submits, -⟩
    · rw [kept.outstanding true] at member
      exact held.quiet x member
    · rw [outstanding_of_sq (refuses.sq true)] at member
      exact held.quiet x member
    · rw [submits.outstanding] at member
      rcases List.mem_append.mp member with earlier | made
      · exact held.quiet x earlier
      · cases List.mem_singleton.mp made
        rw [owner]
        exact here
  defer := fun q evq held => ⟨held.given, held.unlinked, held.quiet⟩

theorem Done.completion {urb : Urb} (held : Done urb q) (c : BceSqCompletionData) :
    Done urb (q.completion true c) := by
  have body : Done urb (q.completionBody true c) := by
    rcases q.completionBody_cases true c with same | ⟨-, -, absorbs⟩ | ⟨v, rest, -, -, linked, -, taken⟩
    · rw [same]
      exact held
    · rw [absorbs]
      exact (Done.loopSafe urb).initPendingUrbs ⟨held.given, held.unlinked, held.quiet⟩
    · rw [taken]
      refine held.head linked (v.transferCompletion_fits c q) ?_
      have same : (v.transferCompletion c q).q.outstanding true = q.outstanding true :=
        outstanding_of_sq (v.transferCompletion_sqOut c q)
      rw [same]
      exact held.quiet
  have accounted : Done urb ((q.completionBody true c).outputDone true) := by
    obtain ⟨pending, wakeups, counted⟩ := (q.completionBody true c).outputDone_eq true
    rw [counted]
    exact ⟨body.given, body.unlinked, body.quiet⟩
  unfold BceVhciTransferQueue.completion notifySubmissionComplete
  split
  · exact accounted
  · rename_i fifo present
    refine ⟨accounted.given, accounted.unlinked, ?_⟩
    intro x member
    refine accounted.quiet x ?_
    simp only [outstanding, present]
    exact List.mem_of_mem_tail member

theorem Done.completeOutput {urb : Urb} (held : Done urb q) : Done urb q.completeOutput := by
  unfold BceVhciTransferQueue.completeOutput
  refine (Done.loopSafe urb).deliverPending ?_
  generalize q.outstanding true = xs
  induction xs generalizing q with
  | nil => exact held
  | cons x xs ih => exact ih (held.completion _)

/-- Requests that come later leave it alone. -/
theorem Done.servedAll {urb : Urb} (held : Done urb q) (msgs : List BceVhciMessage) :
    (q.servedAll msgs).1.filter (fun x => x.urb = urb.id) = [] ∧
      urb ∈ (q.servedAll msgs).2.givebackUrbList := by
  induction msgs generalizing q with
  | nil => exact ⟨rfl, held.given⟩
  | cons msg msgs ih =>
    have asked : Done urb (q.event msg true) :=
      (Done.loopSafe urb).event (fun q held => ⟨held.given, held.unlinked, held.quiet⟩) held msg true
    have served : Done urb (q.served msg).2 := by
      unfold BceVhciTransferQueue.served
      simp only
      split
      · exact asked
      · exact asked.completeOutput
    obtain ⟨silent, given⟩ := ih served
    refine ⟨?_, given⟩
    have here : (q.served msg).1.filter (fun x => x.urb = urb.id) = [] := by
      refine List.filter_eq_nil_iff.mpr ?_
      intro x member
      simpa using asked.quiet x member
    rw [BceVhciTransferQueue.servedAll, List.filter_append, here, silent, List.append_nil]

/-- The completion of what the URB at the head submitted reaches it. -/
theorem Heads.completeOutput (heads : Heads u fifo evq q) (begun : u.state ≠ .initPending) {x : UrbSubmission}
    (made : fifo.items = [x]) : ∃ rest, q.urbList = u :: rest ∧ (∀ v ∈ rest, v.id ≠ u.id) ∧
      q.completeOutput = (notifySubmissionComplete (outputDone (afterUrb [] rest
        (u.transferCompletion ⟨bceCompletionSuccess, x.length.toNat, 0⟩ q)) true) true).deliverPending := by
  obtain ⟨rest, linked, others⟩ := heads.linked
  refine ⟨rest, linked, others, ?_⟩
  have outstanding : q.outstanding true = [x] := by
    simp only [BceVhciTransferQueue.outstanding, sq, heads.sqOut, made]
  have body : q.completionBody true ⟨bceCompletionSuccess, x.length.toNat, 0⟩ =
      afterUrb [] rest (u.transferCompletion ⟨bceCompletionSuccess, x.length.toNat, 0⟩ q) := by
    unfold completionBody
    rw [if_neg (show bceCompletionSuccess ≠ bceCompletionAborted by decide),
      if_neg (by simp [ghostCount, heads.ghosts])]
    simp only [linked, begun, ↓reduceIte]
  simp only [BceVhciTransferQueue.completeOutput, outstanding, List.foldl_cons, List.foldl_nil, completion, body]

/-- The account of `sq_out` at the end of a round leaves the URB at the head alone. -/
theorem Heads.accounted (heads : Heads u fifo evq q) :
    Heads u fifo.pop evq ((q.outputDone true).notifySubmissionComplete true) := by
  have done : Heads u fifo evq (q.outputDone true) := by
    obtain ⟨pending, wakeups, counted⟩ := q.outputDone_eq true
    rw [counted]
    exact ⟨heads.active, heads.ghosts, heads.sqOut, heads.evq, heads.linked⟩
  unfold notifySubmissionComplete
  simp only [sq, done.sqOut]
  exact ⟨done.active, done.ghosts, rfl, done.evq, done.linked⟩

theorem received_offset (sending : Sending u q) (msg : BceVhciMessage) :
    (afterFirst u msg).receiveOffset + BitVec.ofNat 32 (firstChunk u msg).length.toNat = firstLength u msg := by
  have wide : (firstChunk u msg).length.toNat = (firstLength u msg).toNat := by
    simp only [firstChunk, BitVec.toNat_setWidth]
    have := (firstLength u msg).isLt
    omega
  rw [wide, BitVec.ofNat_toNat, BitVec.setWidth_eq]
  simp [afterFirst, sending.receiveOffset]

/-- A completion of less than the whole buffer leaves the URB in the state in which it was. -/
theorem Sending.partly {r : BceVhciTransferQueue} (sending : Sending u q)
    (heads : Heads (afterFirst u msg) fifo [] r) (made : fifo.items = [firstChunk u msg])
    (less : firstLength u msg < u.urb.transferBufferLength) :
    Heads { afterFirst u msg with receiveOffset := firstLength u msg } fifo.pop [] r.completeOutput := by
  obtain ⟨rest, linked, others, eq⟩ := heads.completeOutput nofun made
  rw [eq]
  have call : (afterFirst u msg).transferCompletion
      ⟨bceCompletionSuccess, (firstChunk u msg).length.toNat, 0⟩ r =
        ⟨none, some { afterFirst u msg with receiveOffset := firstLength u msg }, r⟩ := by
    unfold BceVhciUrb.transferCompletion BceVhciUrb.dataTransferCompletion
    rw [if_neg (by simp [afterFirst, sending.data]),
      if_pos (show (afterFirst u msg).state = .waitingForCompletion from rfl)]
    simp only [received_offset sending]
    rw [if_neg]
    rw [not_or]
    exact ⟨by simp [afterFirst, sending.outgoing], by simpa [afterFirst] using less⟩
  rw [call]
  refine Heads.deliverNothing (Heads.accounted ?_) nofun
  exact ⟨heads.active, heads.ghosts, heads.sqOut, heads.evq, rest, rfl, others⟩

/-- One of the whole buffer completes it. -/
theorem Sending.wholly {r : BceVhciTransferQueue} (sending : Sending u q)
    (heads : Heads (afterFirst u msg) fifo [] r) (made : fifo.items = [firstChunk u msg])
    (whole : firstLength u msg = u.urb.transferBufferLength) : ∃ urb, Done urb r.completeOutput ∧
      urb.id = u.id ∧ urb.status = 0 ∧ urb.actualLength = u.urb.transferBufferLength := by
  obtain ⟨rest, linked, others, eq⟩ := heads.completeOutput nofun made
  obtain ⟨urb, s, call, giveback, kept, id, status, actualLength⟩ : ∃ urb s, (afterFirst u msg).transferCompletion
      ⟨bceCompletionSuccess, (firstChunk u msg).length.toNat, 0⟩ r = ⟨some .noent, none, s⟩ ∧
      s.givebackUrbList = r.givebackUrbList ++ [urb] ∧ r.SqKept s ∧
      urb.id = u.id ∧ urb.status = 0 ∧ urb.actualLength = u.urb.transferBufferLength := by
    unfold BceVhciUrb.transferCompletion BceVhciUrb.dataTransferCompletion
    rw [if_neg (by simp [afterFirst, sending.data]),
      if_pos (show (afterFirst u msg).state = .waitingForCompletion from rfl)]
    simp only [received_offset sending]
    rw [if_pos (.inr (by simp [afterFirst, whole])), if_pos (by simp [afterFirst, sending.data])]
    split
    · exact ⟨_, _, rfl, rfl, ⟨rfl, rfl, rfl, rfl⟩, rfl, rfl, whole⟩
    · exact ⟨_, _, rfl, rfl, ⟨rfl, rfl, rfl, rfl⟩, rfl, rfl, whole⟩
  refine ⟨urb, ?_, id, status, actualLength⟩
  rw [eq, call]
  refine (Done.loopSafe urb).deliverPending ?_
  obtain ⟨pending, wakeups, counted⟩ := (afterUrb [] rest ⟨some .noent, none, s⟩).outputDone_eq true
  have present : (afterUrb [] rest ⟨some .noent, none, s⟩).sqOut = some fifo := kept.sqOut.trans heads.sqOut
  rw [counted]
  unfold notifySubmissionComplete
  simp only [sq, present]
  refine ⟨?_, ?_, ?_⟩
  · show urb ∈ s.givebackUrbList
    simp [giveback]
  · show ∀ v ∈ (afterUrb [] rest ⟨some .noent, none, s⟩).urbList, v.id ≠ urb.id
    rw [id]
    exact others
  · show ∀ x ∈ fifo.pop.items, x.urb ≠ urb.id
    simp [BoundedFifo.pop, made]

theorem Sending.served (sending : Sending u q) (request : msg.cmd = BceVhciCommand.transferRequest.code) :
    ∃ fifo, fifo.items = [firstChunk u msg] ∧ Heads (afterFirst u msg) fifo [] (q.event msg true) ∧
      q.served msg = ([firstChunk u msg], (q.event msg true).completeOutput) := by
  obtain ⟨fifo, made, heads⟩ := sending.event request
  have outstanding : (q.event msg true).outstanding true = [firstChunk u msg] := by
    simp only [BceVhciTransferQueue.outstanding, sq, heads.sqOut, made]
  exact ⟨fifo, made, heads, by simp [BceVhciTransferQueue.served, outstanding]⟩

theorem firstChunk_covers (u : BceVhciUrb) (msg : BceVhciMessage) (last : Nat) :
    Covers u.urb.transferDma 0 (([firstChunk u msg]).filter fun x => x.urb = u.id) last ↔
      (firstLength u msg).toNat = last := by
  have own : ([firstChunk u msg]).filter (fun x => x.urb = u.id) = [firstChunk u msg] := by
    simp [firstChunk]
  have wide : (firstChunk u msg).length.toNat = (firstLength u msg).toNat := by
    simp only [firstChunk, BitVec.toNat_setWidth]
    have := (firstLength u msg).isLt
    omega
  rw [own, Covers, Covers, wide, Nat.zero_add]
  exact and_iff_right (by simp [firstChunk])

/-- A request for the whole buffer is enough. -/
theorem Sending.transfers_whole (sending : Sending u q)
    (request : msg.cmd = BceVhciCommand.transferRequest.code)
    (whole : u.urb.transferBufferLength ≤ msg.param2.setWidth 32) : Transfers u (msg :: msgs) q := by
  obtain ⟨fifo, made, heads, served⟩ := sending.served request
  have length : firstLength u msg = u.urb.transferBufferLength := if_pos whole
  obtain ⟨urb, done, id, status, actualLength⟩ := sending.wholly heads made length
  obtain ⟨silent, given⟩ := done.servedAll msgs
  have enough : u.urb.transferBufferLength.toNat ≤ requested (msg :: msgs) := by
    have narrow : (msg.param2.setWidth 32).toNat ≤ msg.param2.toNat := by
      rw [BitVec.toNat_setWidth]
      exact Nat.mod_le _ _
    have whole : u.urb.transferBufferLength.toNat ≤ (msg.param2.setWidth 32).toNat := whole
    have total : requested (msg :: msgs) = msg.param2.toNat + requested msgs := rfl
    omega
  constructor
  · rw [servedAll, served, List.filter_append, ← id, silent, id, List.append_nil, firstChunk_covers,
      Nat.min_eq_left enough, length]
  · intro _
    rw [servedAll, served]
    exact ⟨urb, given, id, status, actualLength⟩

/-- After a request for a part of it no other one is answered. -/
theorem Sending.servedAll_partly (sending : Sending u q)
    (request : msg.cmd = BceVhciCommand.transferRequest.code)
    (less : firstLength u msg < u.urb.transferBufferLength) (msgs : List BceVhciMessage) :
    (q.servedAll (msg :: msgs)).1 = [firstChunk u msg] := by
  obtain ⟨fifo, made, heads, served⟩ := sending.served request
  have stuck := sending.partly heads made less
  rw [servedAll, served, stuck.servedAll_nothing sending.data rfl (by simp [BoundedFifo.pop, made]) msgs]
  rfl

/-- An URB with data for the device is sent in order and in full, as much as the T2 asks for, if and
only if no request has to follow the first one: the completion of a part leaves the URB waiting for a
completion, where it refuses the next request. -/
theorem transfers_iff (sending : Sending u q)
    (requests : ∀ msg ∈ msgs, msg.cmd = BceVhciCommand.transferRequest.code ∧ 0 < msg.param2.toNat) :
    Transfers u msgs q ↔ AsksAtOnce u.urb.transferBufferLength msgs := by
  have positive : 0 < u.urb.transferBufferLength.toNat := sending.positive
  cases msgs with
  | nil =>
    refine ⟨fun _ => trivial, fun _ => ⟨(Nat.min_zero _).symm, ?_⟩⟩
    intro all
    exact absurd positive (Nat.not_lt.mpr all)
  | cons msg msgs =>
    obtain ⟨request, -⟩ := requests msg (by simp)
    by_cases whole : u.urb.transferBufferLength ≤ msg.param2.setWidth 32
    · exact ⟨fun _ => .inl whole, fun _ => sending.transfers_whole request whole⟩
    have length : firstLength u msg = msg.param2.setWidth 32 := if_neg whole
    have less : (msg.param2.setWidth 32).toNat < u.urb.transferBufferLength.toNat := BitVec.not_le.mp whole
    have covered : ∀ last, Covers u.urb.transferDma 0
        ((q.servedAll (msg :: msgs)).1.filter fun x => x.urb = u.id) last ↔
          msg.param2.toNat % 2 ^ 32 = last := by
      intro last
      rw [sending.servedAll_partly request (by rw [length]; exact less) msgs, firstChunk_covers, length,
        BitVec.toNat_setWidth]
    have total : requested (msg :: msgs) = msg.param2.toNat + requested msgs := rfl
    rw [BitVec.toNat_setWidth] at less
    have narrow := Nat.mod_le msg.param2.toNat (2 ^ 32)
    constructor
    · rintro ⟨sent, -⟩
      have reached := (covered _).mp sent
      -- What was sent falls short of the buffer, so it is all that was asked for.
      have all : msg.param2.toNat + requested msgs = msg.param2.toNat % 2 ^ 32 := by omega
      refine .inr ⟨?_, by omega⟩
      cases msgs with
      | nil => rfl
      | cons next msgs =>
        have asks := (requests next (by simp)).2
        have more : requested (next :: msgs) = next.param2.toNat + requested msgs := rfl
        omega
    · rintro (whole' | ⟨rfl, short⟩)
      · exact absurd whole' whole
      · have below := u.urb.transferBufferLength.isLt
        have total : requested [msg] = msg.param2.toNat := rfl
        refine ⟨(covered _).mpr ?_, ?_⟩
        · rw [total, Nat.mod_eq_of_lt (by omega)]
          omega
        · intro enough
          omega

/-- The queue of a bulk endpoint with one URB of 512 bytes to send. -/
def bulkSending : BceVhciTransferQueue :=
  (TransferRun.bulkOutFresh.q.urbCreate (sampleUrb 0 false) true none).2

def bulkSendingUrb : BceVhciUrb where
  urb := sampleUrb 0 false
  dir := .toDevice
  isControl := false
  state := .waitingForTransferRequest

theorem bulk_sending : Sending bulkSendingUrb bulkSending where
  outgoing := rfl
  data := rfl
  state := rfl
  sendOffset := rfl
  receiveOffset := rfl
  positive := by decide
  active := by decide
  linked := ⟨[], by decide, by simp⟩
  evq := by decide
  ghosts := by decide
  sqOut := ⟨.empty transferSqCapacity, rfl, rfl, by decide⟩

theorem transfers_iff_bulk : Transfers bulkSendingUrb [bytesRequest 512] bulkSending :=
  (transfers_iff bulk_sending (by decide)).mpr (.inl (by decide))

/-- Two requests for half of the buffer each: only the first one is answered. -/
theorem second_request_unanswered : ¬∀ u msgs q, Sending u q →
    (∀ msg ∈ msgs, msg.cmd = BceVhciCommand.transferRequest.code ∧ 0 < msg.param2.toNat) →
      Transfers u msgs q := by
  intro all
  obtain ⟨-, finished⟩ := all bulkSendingUrb [bytesRequest 256, bytesRequest 256] bulkSending bulk_sending
    (by decide)
  obtain ⟨urb, given, -⟩ := finished (by decide)
  have nothing : (bulkSending.servedAll [bytesRequest 256, bytesRequest 256]).2.givebackUrbList = [] := by
    decide
  rw [nothing] at given
  cases given

end BceVhciTransferQueue

end AppleBce

import AppleBce.Vhci.CommandQueue

namespace AppleBce

open Basis BceVhciMessage

/-- With this reply in `res`, a call of `req` that reads it returns 0. -/
def Succeeds (req res : BceVhciMessage) : Prop :=
  res.answeredCmd = req.cmd ∧ (res.status = BceVhciMessageStatus.success.code ∨ res.status = 0)

instance (req res : BceVhciMessage) : Decidable (Succeeds req res) :=
  inferInstanceAs (Decidable (_ ∧ _))

namespace CommandQueueRun

/-- The T2 sends nothing to the command queue but replies to its messages. -/
def onlyReplies : CommandQueueStep → Bool
  | .deliverOther _ => false
  | _ => true

/-- The reply to be delivered next is not one to an earlier call that looks like the success of
the call that waits now. -/
def LateHarmless (s : CommandQueueRun) (label : CommandQueueStep) : Prop :=
  label = .deliver → ∀ c ∈ s.running, ∀ reply ∈ s.replies.head?,
    s.result = some c.id → reply.1.call ≠ c.id → ¬Succeeds c.req reply.2

instance (s : CommandQueueRun) (label : CommandQueueStep) : Decidable (s.LateHarmless label) :=
  inferInstanceAs (Decidable (_ → ∀ c ∈ s.running, ∀ reply ∈ s.replies.head?, _))

/-- The code of the message `tag` of a call of `req`. -/
def sentCmd (req : BceVhciMessage) (cancel : Bool) : BitVec 16 :=
  if cancel then req.cancellation.cmd else req.cmd

/-- Before its cancellation is written. -/
def beforeCancel : ExecutePc → Bool
  | .waitCancel | .giveUp _ | .checkCancelled | .checkReply | .checkStatus => false
  | _ => true

/-- A message in `res` either comes from the call's own messages or does not look like the
success of the call. -/
structure ReceivedOk (s : CommandQueueRun) (c : ExecuteCall) (r : Received) : Prop where
  own : ∀ tag, r.origin = some tag → tag.call = c.id → (tag, r.msg) ∈ s.answered ∧
    r.msg.cmd = sentCmd c.req tag.cancel ||| replyBit ∧ (beforeCancel c.pc → tag.cancel = false)
  other : (∀ tag, r.origin = some tag → tag.call ≠ c.id) → ¬Succeeds c.req r.msg

/-- The messages of the running call on their way to the T2 and back. -/
structure CallReplies (s : CommandQueueRun) (c : ExecuteCall) : Prop where
  below : c.id < s.nextId
  sent : ∀ x ∈ s.requests, x.1.call = c.id →
    x.2.cmd = sentCmd c.req x.1.cancel ∧ (beforeCancel c.pc → x.1.cancel = false)
  replied : ∀ x ∈ s.replies, x.1.call = c.id →
    x.2.cmd = sentCmd c.req x.1.cancel ||| replyBit ∧ (beforeCancel c.pc → x.1.cancel = false)
  received : ∀ r ∈ c.received, s.ReceivedOk c r
  checked : c.pc = .checkReply ∨ c.pc = .checkStatus → ∀ r ∈ c.received, Succeeds c.req r.msg →
    ∀ tag, r.origin = some tag → tag.cancel = false
  matched : c.pc = .checkStatus → ∀ r ∈ c.received, r.msg.answeredCmd = c.req.cmd

/-- A call that returned 0 holds the reply to its own request. -/
def Matched (answered : List (MessageTag × BceVhciMessage)) (f : ExecuteResult) : Prop :=
  f.status = 0 → ∃ res, f.res = some res ∧ f.received = [⟨some ⟨f.id, false⟩, res⟩] ∧
    (⟨f.id, false⟩, res) ∈ answered

structure RepliesOk (s : CommandQueueRun) : Prop where
  requestsBelow : ∀ x ∈ s.requests, x.1.call < s.nextId
  repliesBelow : ∀ x ∈ s.replies, x.1.call < s.nextId
  answered : ∀ x ∈ s.replies, x ∈ s.answered
  call : ∀ c, s.running = some c → s.CallReplies c
  finished : ∀ f ∈ s.finished, Matched s.answered f

variable {s t : CommandQueueRun} {c : ExecuteCall}

/-- Only a message of the call itself looks like its success. -/
theorem ReceivedOk.own_of_succeeds {r : Received} {tag : MessageTag} (ok : s.ReceivedOk c r)
    (succeeds : Succeeds c.req r.msg) (origin : r.origin = some tag) : tag.call = c.id := by
  by_contra foreign
  refine ok.other ?_ succeeds
  intro tag' origin'
  obtain rfl := Option.some.inj (origin.symm.trans origin')
  exact foreign

theorem ReceivedOk.goto {r : Received} {pc : ExecutePc} (ok : s.ReceivedOk c r)
    (earlier : beforeCancel pc → beforeCancel c.pc) : (s.goto c pc).ReceivedOk { c with pc } r where
  own := fun tag origin own =>
    ⟨(ok.own tag origin own).1, (ok.own tag origin own).2.1,
      fun before => (ok.own tag origin own).2.2 (earlier before)⟩
  other := ok.other

theorem CallReplies.goto (call : s.CallReplies c) (pc : ExecutePc)
    (earlier : beforeCancel pc → beforeCancel c.pc)
    (checked : pc = .checkReply ∨ pc = .checkStatus → ∀ r ∈ c.received, Succeeds c.req r.msg →
      ∀ tag, r.origin = some tag → tag.cancel = false)
    (matched : pc = .checkStatus → ∀ r ∈ c.received, r.msg.answeredCmd = c.req.cmd) :
    (s.goto c pc).CallReplies { c with pc } where
  below := call.below
  sent := fun x member own =>
    ⟨(call.sent x member own).1, fun before => (call.sent x member own).2 (earlier before)⟩
  replied := fun x member own =>
    ⟨(call.replied x member own).1, fun before => (call.replied x member own).2 (earlier before)⟩
  received := fun r member => (call.received r member).goto earlier
  checked := checked
  matched := matched

namespace RepliesOk

/-- A step that leaves the messages and the finished calls alone. -/
theorem goto {pc : ExecutePc} (ok : s.RepliesOk) (call : (s.goto c pc).CallReplies { c with pc }) :
    (s.goto c pc).RepliesOk where
  requestsBelow := ok.requestsBelow
  repliesBelow := ok.repliesBelow
  answered := ok.answered
  call := by
    intro c' running
    obtain rfl := Option.some.inj running
    exact call
  finished := ok.finished

/-- The completion itself plays no part. -/
theorem completion (ok : s.RepliesOk) (result : Option Nat) (done : Nat) (lock : CompletionLock)
    (recoveries : Nat) (deadWrite unwrittenRead : Bool) :
    RepliesOk { s with result, done, lock, recoveries, deadWrite, unwrittenRead } where
  requestsBelow := ok.requestsBelow
  repliesBelow := ok.repliesBelow
  answered := ok.answered
  call := by
    intro c running
    have call := ok.call c running
    exact ⟨call.below, call.sent, call.replied,
      fun r member => ⟨(call.received r member).own, (call.received r member).other⟩, call.checked, call.matched⟩
  finished := ok.finished

theorem finish {status : Int} (ok : s.RepliesOk)
    (matched : Matched s.answered ⟨c.id, c.req, c.res, c.received, status⟩) :
    (s.finish c status).RepliesOk where
  requestsBelow := ok.requestsBelow
  repliesBelow := ok.repliesBelow
  answered := ok.answered
  call := by simp [CommandQueueRun.finish]
  finished := by
    intro f member
    rcases List.mem_append.mp member with old | new
    · exact ok.finished f old
    · obtain rfl := List.mem_singleton.mp new
      exact matched

theorem finish_error {e : Errno} (ok : s.RepliesOk) : (s.finish c e.neg).RepliesOk :=
  ok.finish fun zero => absurd zero e.neg_ne_zero

end RepliesOk

/-- The running call writes one of its messages. -/
theorem send_replies {pc : ExecutePc} {cancel : Bool} {msg : BceVhciMessage} (ok : s.RepliesOk)
    (running : s.running = some c) (cmd : msg.cmd = sentCmd c.req cancel)
    (earlier : beforeCancel pc → beforeCancel c.pc) (before : beforeCancel pc → cancel = false)
    (waits : ¬pc.inspects) : ((s.goto c pc).send ⟨c.id, cancel⟩ msg).RepliesOk := by
  have call := ok.call c running
  constructor
  case requestsBelow =>
    intro x member
    rcases List.mem_append.mp member with old | new
    · exact ok.requestsBelow x old
    · obtain rfl := List.mem_singleton.mp new
      exact call.below
  case repliesBelow => exact ok.repliesBelow
  case answered => exact ok.answered
  case call =>
    intro c' running'
    obtain rfl := Option.some.inj running'
    have moved := call.goto pc earlier
      (by rintro (rfl | rfl) <;> simp [ExecutePc.inspects] at waits)
      (by rintro rfl; simp [ExecutePc.inspects] at waits)
    refine ⟨moved.below, ?_, moved.replied,
      fun r member => ⟨(moved.received r member).own, (moved.received r member).other⟩, moved.checked,
      moved.matched⟩
    intro x member own
    rcases List.mem_append.mp member with old | new
    · exact moved.sent x old own
    · obtain rfl := List.mem_singleton.mp new
      exact ⟨cmd, before⟩
  case finished => exact ok.finished

/-- The reply to a cancellation does not get past the check for it. -/
theorem cancelReply_checked {req res : BceVhciMessage} (cmd : res.cmd = sentCmd req true ||| replyBit)
    (passed : res.answeredCmd ≠ req.cancellation.cmd) : ¬Succeeds req res := by
  rintro ⟨same, -⟩
  have sent : res.cmd = (req.cmd ||| cancelBit) ||| replyBit := cmd
  rw [answeredCmd, sent] at same passed
  exact passed (cancellation_answered same)

/-- A call whose last check succeeds holds the reply to its own request. -/
theorem matched_of_zero {r : Received} (call : s.CallReplies c) (pc : c.pc = .checkStatus)
    (received : c.received = [r]) (written : c.res = some r.msg) :
    Matched s.answered ⟨c.id, c.req, c.res, c.received,
      if r.msg.status = BceVhciMessageStatus.success.code then 0 else r.msg.status.toNat⟩ := by
  have member : r ∈ c.received := by simp [received]
  intro zero
  have succeeds : Succeeds c.req r.msg := by
    refine ⟨call.matched pc r member, ?_⟩
    by_cases success : r.msg.status = BceVhciMessageStatus.success.code
    · exact Or.inl success
    · simp only [success, ↓reduceIte, Int.natCast_eq_zero] at zero
      exact Or.inr (BitVec.eq_of_toNat_eq zero)
  obtain ⟨tag, origin, own⟩ : ∃ tag, r.origin = some tag ∧ tag.call = c.id := by
    by_contra foreign
    push Not at foreign
    exact (call.received r member).other foreign succeeds
  have request : tag.cancel = false := call.checked (Or.inr pc) r member succeeds tag origin
  have tagged : tag = ⟨c.id, false⟩ := by
    rw [← own, ← request]
  subst tagged
  refine ⟨r.msg, written, ?_, ((call.received r member).own _ origin own).1⟩
  rw [received, ← origin]

theorem execute_replies {label : ExecuteStep} (ok : s.Ok) (replies : s.RepliesOk)
    (running : s.running = some c) (run : s.execute c label = some t) : t.RepliesOk := by
  have call := replies.call c running
  cases label with
  | checkDead dead =>
    simp only [execute] at run
    split at run
    case h_2 => cases run
    case h_1 pc =>
      obtain rfl := Option.some.inj run
      split
      · exact replies.finish_error
      · exact replies.goto (call.goto _ (by simp [pc, beforeCancel]) (by simp) (by simp))
  | reserve success =>
    simp only [execute] at run
    split at run
    case h_3 => cases run
    case h_1 pc =>
      obtain rfl := Option.some.inj run
      split
      · exact replies.goto (call.goto _ (by simp [pc, beforeCancel]) (by simp) (by simp))
      · exact replies.finish_error
    case h_2 pc =>
      obtain rfl := Option.some.inj run
      split
      · exact replies.goto (call.goto _ (by simp [pc, beforeCancel]) (by simp) (by simp))
      · exact replies.goto (call.goto _ (by simp [beforeCancel]) (by simp) (by simp))
  | arm =>
    simp only [execute, Option.ite_none_right_eq_some, Option.some.injEq] at run
    obtain ⟨⟨pc, -⟩, rfl⟩ := run
    have moved := replies.goto (call.goto .writeRequest (by simp [pc, beforeCancel]) (by simp) (by simp))
    exact moved.completion ..
  | write =>
    simp only [execute] at run
    split at run
    case h_3 => cases run
    case h_1 pc =>
      obtain rfl := Option.some.inj run
      exact send_replies replies running rfl (by simp [pc, beforeCancel]) (fun _ => rfl)
        (by simp [ExecutePc.inspects])
    case h_2 pc =>
      obtain rfl := Option.some.inj run
      exact send_replies replies running rfl (by simp [beforeCancel]) (by simp [beforeCancel])
        (by simp [ExecutePc.inspects])
  | woken =>
    simp only [execute, Option.ite_none_right_eq_some] at run
    obtain ⟨-, run⟩ := run
    split at run
    case h_3 => cases run
    case h_1 pc =>
      obtain rfl := Option.some.inj run
      have moved := replies.goto (call.goto .checkReply (by simp [beforeCancel]) ?_ (by simp))
      · exact moved.completion ..
      · -- no cancellation is written yet, so none is answered
        intro _ r member succeeds tag origin
        have received := call.received r member
        have own := received.own_of_succeeds succeeds origin
        exact (received.own tag origin own).2.2 (by simp [pc, beforeCancel])
    case h_2 pc =>
      obtain rfl := Option.some.inj run
      have moved := replies.goto (call.goto .checkCancelled (by simp [beforeCancel]) (by simp) (by simp))
      exact moved.completion ..
  | expired =>
    simp only [execute, Option.ite_none_right_eq_some] at run
    obtain ⟨-, run⟩ := run
    split at run
    case h_3 => cases run
    case h_1 pc =>
      obtain rfl := Option.some.inj run
      exact replies.goto (call.goto _ (by simp [pc, beforeCancel]) (by simp) (by simp))
    case h_2 pc =>
      obtain rfl := Option.some.inj run
      exact replies.goto (call.goto _ (by simp [beforeCancel]) (by simp) (by simp))
  | giveUp recovering =>
    simp only [execute] at run
    split at run
    case h_2 => cases run
    case h_1 pc =>
      simp only [Option.ite_none_right_eq_some, Option.some.injEq] at run
      obtain ⟨-, rfl⟩ := run
      exact replies.finish_error.completion ..
  | inspect =>
    by_cases inspects : c.pc.inspects
    · obtain ⟨-, r, received, written⟩ := (ok.call c running).inspects inspects
      have read : s.readRes c = (s, r.msg) := by
        simp only [readRes, written]
      simp only [execute, read] at run
      split at run
      case h_4 => cases run
      case h_1 pc =>
        obtain rfl := Option.some.inj run
        split
        · exact replies.finish_error
        · rename_i passed
          refine replies.goto (call.goto _ (by simp [beforeCancel]) ?_ (by simp))
          intro _ x member succeeds tag origin
          obtain rfl : x = r := by simpa [received] using member
          have received := call.received x member
          have cmd := (received.own tag origin (received.own_of_succeeds succeeds origin)).2.1
          by_contra cancel
          rw [Bool.not_eq_false] at cancel
          rw [cancel] at cmd
          exact cancelReply_checked cmd passed succeeds
      case h_2 pc =>
        obtain rfl := Option.some.inj run
        split
        · exact replies.finish_error
        · rename_i same
          refine replies.goto (call.goto _ (by simp [beforeCancel]) (fun _ => call.checked (Or.inl pc)) ?_)
          intro _ x member
          obtain rfl : x = r := by simpa [received] using member
          exact not_not.mp same
      case h_3 pc =>
        obtain rfl := Option.some.inj run
        exact replies.finish (matched_of_zero call pc received written)
    · cases pc : c.pc <;> simp [pc, ExecutePc.inspects] at inspects <;> simp [execute, pc] at run

/-- A message stored under the lock reaches the call that waits for one. -/
theorem store_replies {r : Received} (ok : s.Ok) (replies : s.RepliesOk) (free : s.lock = .free)
    (fits : ∀ c, s.running = some c → s.result = some c.id → s.ReceivedOk c r) :
    (s.lockAndStore r).RepliesOk := by
  cases armed : s.result with
  | none => simpa only [lockAndStore, armed] using replies
  | some k =>
    obtain ⟨c, running, own, -, waits, -, empty, -⟩ := ok.owner free armed
    subst own
    have call := replies.call c running
    have received := fits c running armed
    simp only [lockAndStore, armed, store, running, ↓reduceIte]
    constructor
    case requestsBelow => exact replies.requestsBelow
    case repliesBelow => exact replies.repliesBelow
    case answered => exact replies.answered
    case call =>
      intro c' running'
      obtain rfl := Option.some.inj running'
      refine ⟨call.below, call.sent, call.replied, ?_, ?_, ?_⟩
      · intro x member
        obtain rfl : x = r := by simpa [empty] using member
        exact ⟨received.own, received.other⟩
      · rintro (pc | pc) <;> simp [show c.pc = _ from pc, ExecutePc.inspects] at waits
      · intro pc
        simp [show c.pc = _ from pc, ExecutePc.inspects] at waits
    case finished => exact replies.finished

/-- The T2 answers its oldest message. -/
theorem answer_replies {tag : MessageTag} {msg reply : BceVhciMessage}
    {rest : List (MessageTag × BceVhciMessage)} (replies : s.RepliesOk)
    (oldest : s.requests = (tag, msg) :: rest) (cmd : reply.cmd = msg.cmd ||| replyBit) :
    RepliesOk { s with
      requests := rest
      replies := s.replies ++ [(tag, reply)]
      answered := s.answered ++ [(tag, reply)] } := by
  have first : (tag, msg) ∈ s.requests := by simp [oldest]
  have later : ∀ x ∈ rest, x ∈ s.requests := fun x member => by simp [oldest, member]
  constructor
  case requestsBelow => exact fun x member => replies.requestsBelow x (later x member)
  case repliesBelow =>
    intro x member
    rcases List.mem_append.mp member with old | new
    · exact replies.repliesBelow x old
    · obtain rfl := List.mem_singleton.mp new
      exact replies.requestsBelow (tag, msg) first
  case answered =>
    intro x member
    rcases List.mem_append.mp member with old | new
    · exact List.mem_append_left _ (replies.answered x old)
    · exact List.mem_append_right _ new
  case call =>
    intro c running
    have call := replies.call c running
    refine ⟨call.below, fun x member => call.sent x (later x member), ?_, ?_, call.checked, call.matched⟩
    · intro x member own
      rcases List.mem_append.mp member with old | new
      · exact call.replied x old own
      · obtain rfl := List.mem_singleton.mp new
        have sent := call.sent (tag, msg) first own
        exact ⟨by rw [cmd, sent.1], sent.2⟩
    · intro r member
      have received := call.received r member
      refine ⟨fun tag origin own => ⟨?_, (received.own tag origin own).2⟩, received.other⟩
      exact List.mem_append_left _ (received.own tag origin own).1
  case finished =>
    intro f member zero
    obtain ⟨res, written, received, answered⟩ := replies.finished f member zero
    exact ⟨res, written, received, List.mem_append_left _ answered⟩

/-- Messages leave the queues. -/
theorem drop_replies {requests replies : List (MessageTag × BceVhciMessage)} (ok : s.RepliesOk)
    (fewerRequests : requests ⊆ s.requests) (fewerReplies : replies ⊆ s.replies) :
    RepliesOk { s with requests, replies } where
  requestsBelow := fun x member => ok.requestsBelow x (fewerRequests member)
  repliesBelow := fun x member => ok.repliesBelow x (fewerReplies member)
  answered := fun x member => ok.answered x (fewerReplies member)
  call := by
    intro c running
    have call := ok.call c running
    exact ⟨call.below, fun x member => call.sent x (fewerRequests member),
      fun x member => call.replied x (fewerReplies member),
      fun r member => ⟨(call.received r member).own, (call.received r member).other⟩,
      call.checked, call.matched⟩
  finished := ok.finished

theorem step_replies {label : CommandQueueStep} (ok : s.Ok) (replies : s.RepliesOk)
    (expected : onlyReplies label) (harmless : s.LateHarmless label) (run : s.step label = some t) :
    t.RepliesOk := by
  cases label with
  | call req =>
    simp only [step] at run
    split at run
    · obtain rfl := Option.some.inj run
      have fresh : ∀ x : MessageTag × BceVhciMessage, x.1.call < s.nextId → x.1.call ≠ s.nextId :=
        fun x below => Nat.ne_of_lt below
      constructor
      case requestsBelow => exact fun x member => Nat.lt_succ_of_lt (replies.requestsBelow x member)
      case repliesBelow => exact fun x member => Nat.lt_succ_of_lt (replies.repliesBelow x member)
      case answered => exact replies.answered
      case call =>
        intro c running
        obtain rfl := Option.some.inj running
        exact ⟨Nat.lt_succ_self _,
          fun x member own => absurd own (fresh x (replies.requestsBelow x member)),
          fun x member own => absurd own (fresh x (replies.repliesBelow x member)),
          by simp, by simp, by simp⟩
      case finished => exact replies.finished
    · cases run
  | execute label =>
    obtain ⟨c, running, run⟩ := Option.bind_eq_some_iff.mp run
    exact execute_replies ok replies running run
  | answer status param1 param2 =>
    simp only [step] at run
    split at run
    · cases run
    · rename_i oldest
      obtain rfl := Option.some.inj run
      exact answer_replies replies oldest rfl
  | skip =>
    simp only [step] at run
    split at run
    · cases run
    · rename_i oldest
      obtain rfl := Option.some.inj run
      exact drop_replies replies (by simp [oldest]) (fun _ member => member)
  | deliver =>
    simp only [step] at run
    split at run
    · cases run
    · rename_i tag msg rest oldest
      simp only [Option.ite_none_right_eq_some, Option.some.injEq] at run
      obtain ⟨free, rfl⟩ := run
      have taken : RepliesOk { s with replies := rest } :=
        drop_replies replies (fun _ member => member) (by simp [oldest])
      refine store_replies (ok.messages ..) taken free ?_
      intro c running armed
      have first : (tag, msg) ∈ s.replies := by simp [oldest]
      constructor
      case own =>
        intro tag' origin own
        obtain rfl := Option.some.inj origin
        exact ⟨replies.answered _ first, (replies.call c running).replied _ first own⟩
      case other =>
        exact fun foreign => harmless rfl c running (tag, msg) (by simp [oldest]) armed (foreign tag rfl)
  | deliverOther msg => simp [onlyReplies] at expected
  | destroy =>
    simp only [step, Option.ite_none_right_eq_some, Option.some.injEq] at run
    obtain ⟨free, rfl⟩ := run
    refine store_replies ok replies free fun c running armed => ⟨by simp, fun _ succeeds => ?_⟩
    rcases succeeds.2 with success | zero
    · exact absurd success (by decide)
    · exact absurd zero (by decide)
  | complete =>
    simp only [step, Option.ite_none_right_eq_some, Option.some.injEq] at run
    obtain ⟨-, rfl⟩ := run
    exact replies.completion ..
  | clear =>
    simp only [step, Option.ite_none_right_eq_some, Option.some.injEq] at run
    obtain ⟨-, rfl⟩ := run
    exact replies.completion ..

end CommandQueueRun

open CommandQueueRun

/-- In every run in which no reply that comes after its call gave up looks like the success of
a later call, each call that returns 0 holds the reply to its own request. -/
theorem command_replies_matched {s : CommandQueueRun}
    (reach : commandQueueMachine.ReachableUnder
      (fun s label => onlyReplies label ∧ s.LateHarmless label) s) :
    ∀ f ∈ s.finished, Matched s.answered f := by
  have replies : s.RepliesOk := by
    refine Machine.ReachableUnder.invariant_of (fun _ before => command_queue_ok before.reachable)
      ?_ ?_ reach
    · rintro _ rfl
      exact ⟨by simp [create], by simp [create], by simp [create], by simp [create], by simp [create]⟩
    · exact fun _ _ _ ok replies conditions run => step_replies ok replies conditions.1 conditions.2 run
  exact replies.finished

/-- The status of two ports is asked for. The first call gives up; the second one waits. -/
def twoPorts : List CommandQueueStep :=
  [.call (portStatus 1), .execute (.checkDead false), .execute (.reserve true), .execute .arm,
    .execute .write, .execute .expired, .execute (.reserve true), .execute .write, .execute .expired,
    .execute (.giveUp false), .call (portStatus 2), .execute (.checkDead false),
    .execute (.reserve true), .execute .arm, .execute .write]

/-- The waiting call is given the reply and returns. -/
def replyRead : List CommandQueueStep :=
  [.complete, .clear, .execute .woken, .execute .inspect, .execute .inspect]

/-- The T2 answers the second request only. -/
def secondAnswered : List CommandQueueStep :=
  [.skip, .skip, .answer BceVhciMessageStatus.success.code 2 0x100]

theorem command_replies_matched_second : ∃ s,
    commandQueueMachine.run .create (twoPorts ++ secondAnswered ++ [.deliver] ++ replyRead) = some s ∧
      (∀ f ∈ s.finished, Matched s.answered f) ∧
      s.finished.map ExecuteResult.status = [Errno.timedout.neg, 0] := by
  refine ⟨_, rfl, ?_, rfl⟩
  exact command_replies_matched (.of_run rfl (twoPorts ++ secondAnswered ++ [.deliver] ++ replyRead) rfl)

/-- The T2 answers the first request after its call gave up. The second call asked with the
same code, takes the reply for its own and returns 0 with the status of the other port. -/
theorem late_reply_taken :
    ¬∀ s, commandQueueMachine.ReachableUnder (fun _ label => onlyReplies label) s →
      ∀ f ∈ s.finished, Matched s.answered f := by
  intro matched
  let taken : BceVhciMessage := ⟨0x8016, 1, 1, 0x501⟩
  have ends : (((commandQueueMachine.guard fun _ label => onlyReplies label).run .create
      (twoPorts ++ [.answer 1 1 0x501, .deliver] ++ replyRead)).map CommandQueueRun.finished) =
      some [⟨0, portStatus 1, none, [], -110⟩,
        ⟨1, portStatus 2, some taken, [⟨some ⟨0, false⟩, taken⟩], 0⟩] := by
    decide
  obtain ⟨s, ran, finished⟩ := Option.map_eq_some_iff.mp ends
  obtain ⟨res, -, received, -⟩ := matched s (.of_run rfl _ ran) _
    (by rw [finished]; exact List.mem_cons_of_mem _ (List.mem_cons_self ..)) rfl
  simp at received

end AppleBce

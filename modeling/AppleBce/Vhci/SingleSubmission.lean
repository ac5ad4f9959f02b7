import AppleBce.Vhci.Tracking

namespace AppleBce

open Basis

namespace BceVhciTransferQueue

variable {q : BceVhciTransferQueue} {u v : BceVhciUrb} {done rest : List BceVhciUrb}

/-- A completion that is taken for the setup packet of an URB leaves the URB no submission. -/
def TakesSetup (q : BceVhciTransferQueue) (out : Bool) (c : BceSqCompletionData) : Prop :=
  c.status ≠ bceCompletionAborted → q.ghostCount out = 0 →
    ∀ u ∈ q.urbList.head?, u.isControl → u.state = .controlWaitingForSetupCompletion →
      q.loads u.id ≤ due (q.completing out) u.id

instance (q : BceVhciTransferQueue) (out : Bool) (c : BceSqCompletionData) : Decidable (q.TakesSetup out c) :=
  inferInstanceAs (Decidable (_ → _ → ∀ u ∈ q.urbList.head?, _ → _ → _))

/-- The T2 has completed what was submitted for the URBs that `do_resume` submits again. -/
def Reclaimed (q : BceVhciTransferQueue) : Prop :=
  q.sqIn.isSome → ∀ u ∈ q.urbList, u.state = .waitingForCompletion → q.loads u.id = 0

instance (q : BceVhciTransferQueue) : Decidable q.Reclaimed :=
  inferInstanceAs (Decidable (_ → ∀ u ∈ q.urbList, _ → _))

theorem completionBody_tracked {known : List Nat} {out : Bool} {first : UrbSubmission}
    {c : BceSqCompletionData} (tracked : Tracked known none q)
    (front : (q.outstanding out).head? = some first) (takes : q.TakesSetup out c) :
    Tracked known (some first.urb) (q.completionBody out c) := by
  have handled : Tracked known (some first.urb) q := by
    refine { tracked with most := ?_, unsent := ?_ }
    · intro id
      exact (tracked.most id).trans (by simp [due])
    · intro u member waits
      exact (tracked.unsent u member waits).trans (by simp [due])
  have completes : q.completing out = some first.urb := by
    rw [completing, front, Option.map_some]
  rcases q.completionBody_cases out c with
    same | ⟨-, -, absorbs⟩ | ⟨urb, rest, answered, none, linked, -, taken⟩
  · rw [same]
    exact handled
  · rw [absorbs]
    refine (tracked_loopSafe known (some first.urb)).initPendingUrbs ?_
    cases out <;>
      exact tracked_of_same handled ⟨tracked.wf.urbs, tracked.wf.present, tracked.wf.distinct⟩
        (fun _ member => member) (fun _ => rfl) rfl
  · have here : urb ∈ q.urbList := by simp [linked]
    have setup := takes answered none urb (by simp [linked])
    rw [completes] at setup
    have tracks := transferCompletion_tracks c (handled.most urb.id) (handled.unsent urb here) setup
      (handled.starts urb here)
    have handled : Tracked known (some first.urb) { q with urbList := [] ++ urb :: rest } := by
      rw [List.nil_append, ← linked]
      exact handled
    rw [taken]
    exact afterUrb_tracked handled tracks

theorem outputDone_tracked {known : List Nat} {x : Option Nat} (tracked : Tracked known x q)
    (out : Bool) : Tracked known x (q.outputDone out) := by
  obtain ⟨pending, wakeups, accounted⟩ := q.outputDone_eq out
  rw [accounted]
  exact tracked_of_same tracked ⟨tracked.wf.urbs, tracked.wf.present, tracked.wf.distinct⟩
    (fun _ member => member) (fun _ => rfl) rfl

/-- A round of the completion handler, with the completion it takes out of the queue. -/
theorem completion_tracked {known : List Nat} {out : Bool} {c : BceSqCompletionData}
    (tracked : Tracked known none q) (held : q.outstanding out ≠ []) (takes : q.TakesSetup out c) :
    Tracked known none (q.completion out c) := by
  obtain ⟨first, front⟩ : ∃ first, (q.outstanding out).head? = some first :=
    ⟨_, List.head?_eq_some_head held⟩
  have body := outputDone_tracked (completionBody_tracked tracked front takes) out
  have front' : (((q.completionBody out c).outputDone out).outstanding out).head? = some first := by
    obtain ⟨pending, wakeups, accounted⟩ := (q.completionBody out c).outputDone_eq out
    rw [accounted]
    cases out <;> exact completionBody_front c front
  have loads := notify_loads front'
  have urbs : (q.completion out c).urbList = ((q.completionBody out c).outputDone out).urbList ∧
      (q.completion out c).inits = ((q.completionBody out c).outputDone out).inits := by
    obtain ⟨sqIn, sqOut, notified⟩ := ((q.completionBody out c).outputDone out).notifySubmissionComplete_eq out
    rw [completion, notified]
    exact ⟨rfl, rfl⟩
  refine ⟨completion_wellFormed tracked.wf out c, ?_, ?_, ?_, ?_, ?_, ?_, ?_⟩
  · rw [urbs.1]
    exact body.settled
  · rw [urbs.1]
    exact body.created
  · intro id stranger
    have before := body.unknown id stranger
    have after := loads id
    rw [urbs.2]
    exact ⟨before.1, show (q.completion out c).loads id = 0 by rw [completion]; omega⟩
  · intro id
    have before := body.most id
    have after := loads id
    show (q.completion out c).loads id ≤ 1 + due none id
    rw [completion]
    omega
  · rw [urbs.1]
    intro u member waits
    have before := body.unsent u member waits
    have after := loads u.id
    show (q.completion out c).loads u.id ≤ due none u.id
    rw [completion]
    omega
  · rw [urbs.2]
    exact body.once
  · rw [urbs.1, urbs.2]
    exact body.starts

/-- The loop of `do_resume` submits for URBs that have nothing outstanding. -/
theorem resumeLoop_tracked {known : List Nat} (done rest : List BceVhciUrb) (q : BceVhciTransferQueue)
    (tracked : Tracked known none { q with urbList := done ++ rest })
    (empty : (q.sq false).isSome → ∀ u ∈ rest, u.state = .waitingForCompletion → q.loads u.id = 0) :
    Tracked known none (resumeLoop done rest q) := by
  induction rest generalizing done q with
  | nil =>
    rw [List.append_nil] at tracked
    exact tracked
  | cons urb rest ih =>
    have here : urb ∈ done ++ urb :: rest := by simp
    have next : ∀ call, Tracks none urb q call →
        Tracked known none (resumeLoop (done ++ call.urb.toList) rest call.q) := by
      intro call tracks
      have after := afterUrb_tracked tracked tracks
      rw [afterUrb, ← List.append_assoc] at after
      refine ih _ _ after ?_
      intro present w later waits
      rw [tracks.touches.present] at present
      rw [tracks.touches.loads_other (apart_of_distinct tracked.wf w (by simp [later]))]
      exact empty present w (List.mem_cons_of_mem _ later) waits
    rw [resumeLoop]
    split
    case isTrue pending =>
      split
      · exact tracked
      · have idle : urb.started = false := by
          simp [BceVhciUrb.started, pending]
        have starts := tracked.starts urb here
        rw [idle] at starts
        exact next _ (init_tracks pending (tracked.unsent urb here (.inl pending)) starts)
    case isFalse =>
      refine next _ (resume_tracks (tracked.most urb.id) (tracked.unsent urb here) ?_ (tracked.starts urb here))
      intro waits present
      rw [empty present urb (by simp) waits]
      exact Nat.zero_le _

theorem resumeSection_tracked {known : List Nat} (tracked : Tracked known none q)
    (reclaimed : q.Reclaimed) : Tracked known none q.resumeSection := by
  have activated : Tracked known none { q with active := true } :=
    tracked_of_same tracked ⟨tracked.wf.urbs, tracked.wf.present, tracked.wf.distinct⟩
      (fun _ member => member) (fun _ => rfl) rfl
  exact (tracked_loopSafe known none).deliverPending
    (resumeLoop_tracked [] q.urbList { q with active := true } activated reclaimed)

theorem cancelLoop_same (rest : List BceVhciUrb) (q : BceVhciTransferQueue) :
    (cancelLoop rest q).urbList = [] ∧ q.SqKept (cancelLoop rest q) ∧
      (cancelLoop rest q).inits = q.inits := by
  induction rest generalizing q with
  | nil => exact ⟨rfl, ⟨rfl, rfl, rfl, rfl⟩, rfl⟩
  | cons urb rest ih =>
    obtain ⟨urbs, kept, inits⟩ := ih (urb.complete Errno.connreset.neg q)
    exact ⟨urbs, (urb.complete_sqKept _ q).trans kept, inits⟩

theorem cancelAll_tracked {known : List Nat} (tracked : Tracked known none q) :
    Tracked known none q.cancelAll := by
  obtain ⟨urbs, kept, inits⟩ := cancelLoop_same q.urbList { q with active := false }
  refine tracked_of_same tracked (cancelLoop_wellFormed q.urbList { q with active := false }
    ⟨tracked.wf.urbs, tracked.wf.present, tracked.wf.distinct⟩) ?_ kept.loads inits
  intro v member
  rw [cancelAll, urbs] at member
  cases member

theorem cancelSlot_same (q : BceVhciTransferQueue) (vurb : BceVhciUrb) :
    q.SqKept (q.cancelSlot vurb) ∧ (q.cancelSlot vurb).inits = q.inits := by
  obtain ⟨_, _, _, cancelled⟩ := q.cancelSlot_eq vurb
  rw [cancelled]
  exact ⟨⟨rfl, rfl, rfl, rfl⟩, rfl⟩

theorem urbRequestCancel_tracked {known : List Nat} (tracked : Tracked known none q) (id : Nat)
    (status : Int) : Tracked known none (q.urbRequestCancel id status).2 := by
  have wf := urbRequestCancel_wellFormed tracked.wf id status
  rcases q.urbRequestCancel_cases id status with ⟨e, run⟩ | run | ⟨before, vurb, after, linked, -, cases⟩
  · rw [run]
    exact tracked
  · rw [run]
    exact tracked
  · obtain ⟨kept, inits⟩ := q.cancelSlot_same vurb
    have old : ∀ v ∈ before ++ after, v ∈ q.urbList := by
      intro v member
      rw [linked]
      simp only [List.mem_append, List.mem_cons] at member ⊢
      exact member.imp_right .inr
    rcases cases with ⟨run, -⟩ | run
    · rw [run] at wf ⊢
      exact tracked_of_same tracked wf old kept.loads inits
    · rw [run] at wf ⊢
      exact tracked_of_same tracked wf old kept.loads inits

/-- A new URB that is linked behind the others. -/
theorem linked_tracked {known : List Nat} {urb : Urb} (tracked : Tracked known none q)
    (wf : WellFormed { q with urbList := q.urbList ++ [q.newUrb urb] }) (fresh : urb.id ∉ known) :
    Tracked (known ++ [urb.id]) none { q with urbList := q.urbList ++ [q.newUrb urb] } := by
  obtain ⟨inits, loads⟩ := tracked.unknown urb.id fresh
  refine ⟨wf, ?_, ?_, ?_, tracked.most, ?_, tracked.once, ?_⟩
  · intro v member
    rcases List.mem_append.mp member with old | new
    · exact tracked.settled v old
    · rw [List.mem_singleton.mp new]
      exact BceVhciUrb.settled_of_state nofun
  · intro v member
    rcases List.mem_append.mp member with old | new
    · exact List.mem_append_left _ (tracked.created v old)
    · rw [List.mem_singleton.mp new]
      exact List.mem_append_right _ (List.mem_singleton.mpr rfl)
  · intro id stranger
    exact tracked.unknown id fun member => stranger (List.mem_append_left _ member)
  · intro v member waits
    rcases List.mem_append.mp member with old | new
    · exact tracked.unsent v old waits
    · rw [List.mem_singleton.mp new]
      exact loads.trans_le (Nat.zero_le _)
  · intro v member
    rcases List.mem_append.mp member with old | new
    · exact tracked.starts v old
    · rw [List.mem_singleton.mp new]
      exact inits

theorem urbCreate_tracked {known : List Nat} (urb : Urb) (allocated : Bool) (link : Option Errno)
    (tracked : Tracked known none q) (way : q.endp.num ≠ 0 → urb.dirIn = q.endp.dirIn)
    (fresh : urb.id ∉ known) :
    (∃ e, (q.urbCreate urb allocated link).1 = some e ∧ Tracked known none (q.urbCreate urb allocated link).2) ∨
    ((q.urbCreate urb allocated link).1 = none ∧
      Tracked (known ++ [urb.id]) none (q.urbCreate urb allocated link).2) := by
  have apart : ∀ u ∈ q.urbList, u.id ≠ urb.id := fun u member same => fresh (same ▸ tracked.created u member)
  have linked := linked_tracked tracked (linked_wellFormed tracked.wf urb way apart) fresh
  have safe := tracked_loopSafe (known ++ [urb.id]) none
  rcases q.urbCreate_outcomes urb allocated link with
    ⟨e, ran⟩ | ⟨e, -, -, failed, ran⟩ | ⟨-, -, -, ran⟩ | ⟨-, -, -, wReset, wResume, ran⟩
  · rw [ran]
    exact .inl ⟨e, rfl, tracked⟩
  · rw [ran]
    refine .inl ⟨e, rfl, ?_⟩
    have refuses := BceVhciUrb.init_refuses failed
    have frame := BceVhciUrb.init_failed failed
    refine tracked_of_same tracked (init_failed_wellFormed tracked.wf failed) ?_ refuses.loads frame.inits
    intro v member
    rwa [frame.urbList] at member
  · rw [ran]
    exact .inr ⟨rfl, safe.deliverPending (safe.start q.urbList (q.newUrb urb) [] q rfl linked)⟩
  · rw [ran]
    refine .inr ⟨rfl, safe.deliverPending ?_⟩
    exact tracked_of_same linked ⟨linked.wf.urbs, linked.wf.present, linked.wf.distinct⟩
      (fun _ member => member) (fun _ => rfl) rfl

end BceVhciTransferQueue

namespace TransferRun

variable {s t : TransferRun} {a : TransferStep}

/-- The holder of `pause_lock` is at the locked section of `do_resume`. -/
def atResume (s : TransferRun) : Bool :=
  match s.holder with
  | some (_, .resumeSection _) => true
  | _ => false

/-- A completion is not taken for the setup packet of an URB that keeps a submission, and
`do_resume` finds nothing outstanding that it submits again. -/
def KeepsOne (s : TransferRun) : TransferStep → Prop
  | .op (.completion out c) => s.q.TakesSetup out c
  | .advance _ => s.atResume → s.q.Reclaimed
  | _ => True

instance (s : TransferRun) : (a : TransferStep) → Decidable (s.KeepsOne a)
  | .op (.completion out c) => inferInstanceAs (Decidable (s.q.TakesSetup out c))
  | .advance _ => inferInstanceAs (Decidable (_ → _))
  | .op (.create ..) | .op (.cancel ..) | .op (.event ..) | .op .completionEnd => .isTrue trivial
  | .giveback | .queueFlush | .endpointReset | .cancelAll | .startWork _ | .work | .lock _ | .destroy =>
    .isTrue trivial

theorem afterCancel_accepted (s : TransferRun) (id : Nat) (result : CancelOutcome × BceVhciTransferQueue) :
    (s.afterCancel id result).accepted = s.accepted := by
  unfold afterCancel
  split <;> rfl

theorem opStep_tracked {op : TransferOp} (tracked : s.q.Tracked s.accepted none)
    (keeps : s.KeepsOne (.op op)) (run : s.opStep op = some t) : t.q.Tracked t.accepted none := by
  cases op with
  | create urb allocated link =>
    obtain ⟨⟨-, fresh, -, takes⟩, after⟩ := Option.ite_none_right_eq_some.mp run
    cases after
    rw [created_q]
    rcases BceVhciTransferQueue.urbCreate_tracked urb allocated link tracked
      (fun data => takes.resolve_left data) fresh with ⟨e, failed, after⟩ | ⟨succeeded, after⟩
    · rwa [created, failed]
    · rwa [created, succeeded]
  | cancel id status =>
    obtain ⟨-, after⟩ := Option.ite_none_right_eq_some.mp run
    cases after
    rw [afterCancel_q, afterCancel_accepted]
    exact BceVhciTransferQueue.urbRequestCancel_tracked tracked id status
  | event msg allocated =>
    obtain ⟨-, after⟩ := Option.ite_none_right_eq_some.mp run
    cases after
    exact BceVhciTransferQueue.event_tracked tracked msg allocated
  | completion out c =>
    obtain ⟨⟨-, held⟩, after⟩ := Option.ite_none_right_eq_some.mp run
    cases after
    exact BceVhciTransferQueue.completion_tracked tracked held keeps
  | completionEnd =>
    cases Option.some.inj run
    exact (BceVhciTransferQueue.tracked_loopSafe s.accepted none).deliverPending tracked

/-- A step that meets the condition starts no URB twice and submits none twice. -/
theorem step_tracked (tracked : s.q.Tracked s.accepted none) (keeps : s.KeepsOne a)
    (run : s.step a = some t) : t.q.Tracked t.accepted none := by
  cases step_effect run with
  | op op label ran =>
    subst label
    exact opStep_tracked tracked keeps ran
  | giveback urb rest _ _ _ after =>
    subst after
    exact BceVhciTransferQueue.tracked_of_same tracked ⟨tracked.wf.urbs, tracked.wf.present, tracked.wf.distinct⟩
      (fun _ member => member) (fun _ => rfl) rfl
  | resumed env onWorker src label held _ after =>
    subst label after
    refine BceVhciTransferQueue.resumeSection_tracked tracked (keeps ?_)
    rw [atResume, held]
  | flushed rest _ _ _ after =>
    subst after
    exact BceVhciTransferQueue.tracked_of_same tracked ⟨tracked.wf.urbs, tracked.wf.present, tracked.wf.distinct⟩
      (fun _ member => member) (fun _ => rfl) rfl
  | cancelledAll _ _ after =>
    subst after
    exact BceVhciTransferQueue.cancelAll_tracked tracked
  | spliced _ _ _ after =>
    subst after
    exact BceVhciTransferQueue.tracked_of_same tracked ⟨tracked.wf.urbs, tracked.wf.present, tracked.wf.distinct⟩
      (fun _ member => member) (fun _ => rfl) rfl
  | quiet same logs =>
    have sqs : ∀ out, t.q.sq out = s.q.sq out := by
      intro out
      cases out
      · exact same.sqIn
      · exact same.sqOut
    rw [logs.accepted]
    refine BceVhciTransferQueue.tracked_of_same tracked
      (BceVhciTransferQueue.wellFormed_of_same tracked.wf same.endp ?_ ?_ ?_) ?_ ?_ same.inits
    · intro out
      rw [sqs out]
    · intro v member
      rwa [same.urbList] at member
    · rw [same.urbList]
    · intro v member
      rwa [same.urbList] at member
    · intro id
      rw [BceVhciTransferQueue.loads, BceVhciTransferQueue.loads,
        BceVhciTransferQueue.load_of_outstanding (BceVhciTransferQueue.outstanding_of_sq (sqs true)),
        BceVhciTransferQueue.load_of_outstanding (BceVhciTransferQueue.outstanding_of_sq (sqs false))]

theorem fresh_tracked {endp : UsbEndpoint} {devAddr : BitVec 8} {memory : TransferQueueMemory}
    {reservations : List Bool} {q : BceVhciTransferQueue}
    (create : bceVhciCreateTransferQueue endp devAddr endp.queueDir memory reservations = some q) :
    (fresh q).q.Tracked (fresh q).accepted none := by
  have wf := fresh_wellFormed create
  have unused := createTransferQueue_unused create
  have inits := unused.inits
  have loads : ∀ id, q.loads id = 0 := by
    intro id
    rw [BceVhciTransferQueue.loads, BceVhciTransferQueue.load, BceVhciTransferQueue.load,
      BceVhciTransferQueue.outstanding_of_unused unused, BceVhciTransferQueue.outstanding_of_unused unused]
    rfl
  have none : ∀ u, u ∉ q.urbList := by
    intro u member
    rw [unused.urbList] at member
    cases member
  refine ⟨wf, fun u member => absurd member (none u), fun u member => absurd member (none u), ?_, ?_,
    fun u member => absurd member (none u), ?_, fun u member => absurd member (none u)⟩
  · intro id _
    exact ⟨by rw [fresh, inits, List.count_nil], loads id⟩
  · intro id
    exact (loads id).trans_le (Nat.zero_le _)
  · intro id
    rw [fresh, inits, List.count_nil]
    exact Nat.zero_le 1

theorem tracked_of_reach (reach : machine.ReachableUnder KeepsOne s) : s.q.Tracked s.accepted none := by
  refine Machine.ReachableUnder.invariant (I := fun s => s.q.Tracked s.accepted none) ?_ ?_ reach
  · rintro s ⟨endp, devAddr, memory, reservations, q, create, rfl⟩
    exact fresh_tracked create
  · exact fun s a t tracked keeps run => step_tracked tracked keeps run

end TransferRun

end AppleBce

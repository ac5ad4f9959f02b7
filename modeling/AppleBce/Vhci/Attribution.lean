import AppleBce.Vhci.HeadOwner
import AppleBce.Vhci.Slots

namespace AppleBce

open Basis

namespace BceVhciTransferQueue

variable {q r : BceVhciTransferQueue} {out : Bool} {known more : List Nat} {u : BceVhciUrb}

instance (q : BceVhciTransferQueue) (out : Bool) : Decidable (q.Tells out) :=
  decidable_of_iff (q.ghostCount out ≤ q.unlinkedCount out ∧
      ∀ id ∈ (q.owners out).head?, id ∈ q.linkedIds → ∀ u ∈ q.urbList.head?, u.id ∈ q.owners out)
    ⟨fun ⟨counted, heads⟩ => ⟨counted, heads⟩, fun tells => ⟨tells.counted, tells.heads⟩⟩

/-- Nothing is outstanding for a linked URB. -/
def Finished (q : BceVhciTransferQueue) : Prop :=
  ∀ out, ∀ id ∈ q.owners out, id ∉ q.linkedIds

/-- Nothing is outstanding for an URB that is not linked. -/
def AllLinked (q : BceVhciTransferQueue) : Prop :=
  ∀ out, ∀ id ∈ q.owners out, id ∈ q.linkedIds

instance (q : BceVhciTransferQueue) : Decidable q.Finished :=
  inferInstanceAs (Decidable (∀ out, ∀ id ∈ q.owners out, id ∉ q.linkedIds))

instance (q : BceVhciTransferQueue) : Decidable q.AllLinked :=
  inferInstanceAs (Decidable (∀ out, ∀ id ∈ q.owners out, id ∈ q.linkedIds))

theorem InLine.of_same (inLine : q.InLine out known) (urbs : r.urbList = q.urbList)
    (owned : r.owners out = q.owners out) (ghosts : r.ghostCount out = q.ghostCount out) : r.InLine out known := by
  obtain ⟨dead, lost, expected, accepted, aligned⟩ := inLine
  exact ⟨dead, lost, expected.trans ghosts.ge, accepted, aligned.of_same urbs owned⟩

theorem InLine.mono (inLine : q.InLine out known) (all : ∀ id ∈ known, id ∈ more) : q.InLine out more := by
  obtain ⟨dead, lost, expected, accepted, aligned⟩ := inLine
  exact ⟨dead, lost, expected, fun id member => all id (accepted id member), aligned⟩

/-- The flush worker may forget the ghosts when no submission of a cancelled URB is outstanding. -/
theorem InLine.flushSection (inLine : q.InLine out known) (linked : q.AllLinked) :
    q.flushSection.InLine out known := by
  obtain ⟨dead, lost, -, -, waiting, rest, line⟩ := inLine
  obtain rfl : dead = [] := by
    refine List.eq_nil_iff_forall_not_mem.mpr fun id member => line.unlinked id member (linked out id ?_)
    rw [line.owned]
    exact List.mem_append_left _ member
  exact ⟨[], lost, Nat.zero_le _, List.forall_mem_nil _, waiting, rest, line.of_same rfl rfl⟩

/-- A data endpoint has submissions on the queue of its direction only. -/
theorem side_of_outstanding (wf : q.WellFormed) (data : q.endp.num ≠ 0) (held : q.outstanding out ≠ []) :
    out = !q.endp.dirIn := by
  have there : (q.sq out).isSome := by
    by_contra missing
    rw [Bool.not_eq_true, Option.isSome_eq_false_iff, Option.isNone_iff_eq_none] at missing
    simp [outstanding, missing] at held
  have side := ((wf.present out).mp there).resolve_left data
  rw [side, Bool.not_not]

theorem urbCreate_ghostCount (q : BceVhciTransferQueue) (urb : Urb) (allocated : Bool) (link : Option Errno) :
    (q.urbCreate urb allocated link).2.ghostCount out = q.ghostCount out := by
  rcases q.urbCreate_cases urb allocated link with ⟨_, -, conserves⟩ | ⟨-, conserves⟩
  · exact conserves.ghostCount out
  · exact conserves.ghostCount out

theorem InLine.create {urb : Urb} {allocated : Bool} {link : Option Errno} (inLine : q.InLine (!q.endp.dirIn) known)
    (data : q.endp.num ≠ 0) (way : urb.dirIn = q.endp.dirIn) (fresh : urb.id ∉ known)
    (begun : q.endp.dirIn → q.active → q.canInitUrb → ∀ u ∈ q.urbList, u.started)
    (granted : ∀ call ∈ q.createCalls urb allocated link, call.action = .init → call.Received) :
    (q.urbCreate urb allocated link).2.InLine (!q.endp.dirIn) known := by
  obtain ⟨dead, lost, expected, accepted, aligned⟩ := inLine
  refine ⟨dead, lost, expected.trans (q.urbCreate_ghostCount urb allocated link).ge, accepted, ?_⟩
  refine aligned.create data ?_ (fun gone => fresh (accepted _ gone)) (fun incoming => begun ?_) granted
  · rw [way]
    cases q.endp.dirIn <;> rfl
  · simpa using incoming

end BceVhciTransferQueue

namespace TransferRun

open BceVhciTransferQueue

variable {s t : TransferRun} {a : TransferStep} {out : Bool}

/-- Completions keep finding the URB they are of. On a data endpoint an URB is not started at once while
another one is pending, an URB is cancelled while its submission is the oldest of those of linked URBs or
when it has none, a normal completion finds a queue that can tell whose it is, and no URB pending if it is
that of a ghost, and URBs are submitted again or given back together when nothing is outstanding for them.
The flush worker comes to its section when nothing is outstanding for a cancelled URB, on a control endpoint
when none holds a slot. -/
def KeepsLine (s : TransferRun) : TransferStep → Prop
  | .op (.create ..) =>
    s.q.endp.num ≠ 0 → s.q.endp.dirIn → s.q.active → s.q.canInitUrb → ∀ u ∈ s.q.urbList, u.started
  | .op (.cancel id _) =>
    s.q.endp.num ≠ 0 → id ∈ s.q.owners (!s.q.endp.dirIn) → id ∈ s.q.linkedIds →
      (s.q.owners (!s.q.endp.dirIn)).find? (fun id => id ∈ s.q.linkedIds) = some id
  | .op (.completion out c) => s.q.endp.num ≠ 0 → c.status ≠ bceCompletionAborted →
      s.q.Tells out ∧ (0 < s.q.ghostCount out → ∀ u ∈ s.q.urbList, u.started)
  | .advance _ => s.q.endp.num ≠ 0 → s.atResume → s.q.Finished
  | .cancelAll => s.q.endp.num ≠ 0 → s.q.Finished
  | .work => s.worker.head? = some .flushSection →
      s.q.AllLinked ∧ (s.q.endp.num = 0 → startedCount s.q.urbList = 0)
  | _ => True

/-- And what is reserved to start a transfer in is granted. -/
def InTurn (s : TransferRun) (a : TransferStep) : Prop :=
  (∀ call ∈ s.calls a, call.action = .init → call.Received) ∧ s.KeepsLine a

instance (s : TransferRun) : (a : TransferStep) → Decidable (s.KeepsLine a)
  | .op (.create ..) => inferInstanceAs (Decidable (_ → _ → _ → _ → ∀ u ∈ s.q.urbList, _))
  | .op (.cancel _ _) => inferInstanceAs (Decidable (_ → _ → _ → _ = _))
  | .op (.completion _ _) => inferInstanceAs (Decidable (_ → _ → _ ∧ (_ → ∀ u ∈ s.q.urbList, _)))
  | .advance _ => inferInstanceAs (Decidable (_ → _ → _))
  | .cancelAll => inferInstanceAs (Decidable (_ → _))
  | .work => inferInstanceAs (Decidable (_ → _ ∧ (_ → _)))
  | .op (.event ..) | .op .completionEnd | .giveback | .queueFlush | .endpointReset | .startWork _ | .lock _
  | .destroy => .isTrue trivial

instance (s : TransferRun) (a : TransferStep) : Decidable (s.InTurn a) :=
  inferInstanceAs (Decidable ((∀ call ∈ s.calls a, _) ∧ _))

theorem opStep_inLine {op : TransferOp} (owned : s.Owned) (wf : s.q.WellFormed) (data : s.q.endp.num ≠ 0)
    (inLine : s.q.InLine (!s.q.endp.dirIn) s.accepted) (inTurn : s.InTurn (.op op)) (run : s.opStep op = some t) :
    t.q.InLine (!s.q.endp.dirIn) t.accepted := by
  obtain ⟨granted, keeps⟩ := inTurn
  cases op with
  | create urb allocated link =>
    obtain ⟨⟨-, fresh, -, takes⟩, after⟩ := Option.ite_none_right_eq_some.mp run
    cases after
    have created := inLine.create data (takes.resolve_left data) fresh (keeps data) granted
    rw [created_q]
    refine created.mono fun id member => ?_
    unfold TransferRun.created
    split
    · exact List.mem_append_left _ member
    · exact member
  | cancel id status =>
    obtain ⟨-, after⟩ := Option.ite_none_right_eq_some.mp run
    cases after
    rw [afterCancel_q, afterCancel_accepted]
    refine inLine.cancel wf.distinct ?_ id status (keeps data)
    intro id linked
    obtain ⟨u, member, rfl⟩ := List.mem_map.mp linked
    exact accepted_of_linked owned member
  | event msg allocated =>
    obtain ⟨-, after⟩ := Option.ite_none_right_eq_some.mp run
    cases after
    refine inLine.of_aligned (s.q.event_conserves msg allocated) fun dead lost aligned => ?_
    exact (aligned_startSafe _ dead lost).event aligned msg allocated granted
  | completion out c =>
    obtain ⟨⟨-, held⟩, after⟩ := Option.ite_none_right_eq_some.mp run
    cases after
    obtain rfl := side_of_outstanding wf data held
    obtain ⟨x, items, front⟩ := List.exists_cons_of_ne_nil held
    exact inLine.completion wf.distinct front (fun normal => (keeps data normal).1) granted
  | completionEnd =>
    cases Option.some.inj run
    refine inLine.of_aligned s.q.deliverPending_conserves fun dead lost aligned => ?_
    exact (aligned_startSafe _ dead lost).deliverPending aligned granted

theorem step_inLine (owned : s.Owned) (wf : s.q.WellFormed) (data : s.q.endp.num ≠ 0)
    (inLine : s.q.InLine (!s.q.endp.dirIn) s.accepted) (inTurn : s.InTurn a) (run : s.step a = some t) :
    t.q.InLine (!s.q.endp.dirIn) t.accepted := by
  cases step_effect run with
  | op op label ran =>
    subst label
    exact opStep_inLine owned wf data inLine inTurn ran
  | giveback _ _ _ _ _ after | spliced _ _ _ after =>
    subst after
    exact inLine.of_same rfl rfl rfl
  | resumed env onWorker src label held _ after =>
    subst label after
    have here : s.atResume := by rw [atResume, held]
    have calls : s.calls (.advance env) = s.q.resumeSectionCalls := by simp [TransferRun.calls, held]
    exact inLine.resumeSection (inTurn.2 data here _) (calls ▸ inTurn.1)
  | flushed rest label ahead _ after =>
    subst label after
    exact inLine.flushSection (inTurn.2 (by rw [ahead]; rfl)).1
  | cancelledAll label _ after =>
    subst label after
    exact inLine.cancelAll (inTurn.2 data _)
  | quiet same logs =>
    rw [logs.accepted]
    refine inLine.of_same same.urbList (owners_of_outstanding (outstanding_of_sq ?_)) ?_
    · cases s.q.endp.dirIn
      · exact same.sqOut
      · exact same.sqIn
    · cases s.q.endp.dirIn
      · exact same.ghostOutCount
      · exact same.ghostInCount

theorem inLine_of_reach (reach : machine.ReachableUnder InTurn s) (data : s.q.endp.num ≠ 0) :
    s.q.InLine (!s.q.endp.dirIn) s.accepted := by
  suffices s.q.endp.num ≠ 0 → s.q.InLine (!s.q.endp.dirIn) s.accepted from this data
  refine reach.invariant_of (J := fun s => s.Owned ∧ s.q.WellFormed)
    (I := fun s => s.q.endp.num ≠ 0 → s.q.InLine (!s.q.endp.dirIn) s.accepted) ?_ ?_ ?_
  · exact fun s reach => ⟨(owned_of_reach reach.reachable).1, wellFormed_of_reach reach.reachable⟩
  · rintro s ⟨endp, devAddr, memory, reservations, q, create, rfl⟩ -
    have unused := createTransferQueue_unused create
    refine ⟨[], [], Nat.zero_le _, List.forall_mem_nil _, [], [], unused.urbList, ?_, ?_, List.forall_mem_nil _,
      List.forall_mem_nil _, List.forall_mem_nil _, fun _ => Nat.zero_le 1, fun _ => List.forall_mem_nil _⟩
    · rw [fresh, unused.urbList]
      exact List.forall_mem_nil _
    · rw [BceVhciTransferQueue.owners, fresh, outstanding_of_unused unused]
      rfl
  · rintro s a t ⟨owned, wf⟩ held inTurn run data
    rw [step_endp run] at data ⊢
    exact step_inLine owned wf data (held data) inTurn run

/-- What holds of a control endpoint: only the URB at the head has submissions, there is one slot, and while
submissions of an URB cancelled after its start may be outstanding, it is neither free nor held by a linked
URB. -/
structure ControlKept (s : TransferRun) : Prop where
  head : s.q.HeadOwned s.accepted s.controlFlushes (0 < s.q.slots)
  slots : s.q.slots ≤ 1
  flushes : ∀ id ∈ s.controlFlushes, id ∈ s.accepted

/-- A step that keeps the slots and records no cancel. -/
theorem controlKept_of_slots (kept : s.ControlKept) (slots : t.q.slots = s.q.slots)
    (head : t.q.HeadOwned s.accepted s.controlFlushes (0 < s.q.slots)) (accepted : t.accepted = s.accepted)
    (controls : t.controlFlushes = s.controlFlushes) : t.ControlKept := by
  refine ⟨?_, slots.trans_le kept.slots, ?_⟩
  · rwa [accepted, controls, slots]
  · rw [accepted, controls]
    exact kept.flushes

theorem create_controlKept {urb : Urb} {allocated : Bool} {link : Option Errno} (kept : s.ControlKept)
    (fresh : urb.id ∉ s.accepted) : (s.created urb.id (s.q.urbCreate urb allocated link)).ControlKept := by
  have slots : (s.q.urbCreate urb allocated link).2.slots = s.q.slots := by
    rcases s.q.urbCreate_cases urb allocated link with ⟨_, -, conserves⟩ | ⟨-, conserves⟩
    · exact conserves.balanced.slots
    · rw [conserves.balanced.slots]
      simp [BceVhciTransferQueue.slots, newUrb, BceVhciUrb.started]
  have apart : urb.id ∉ s.controlFlushes := fun flushed => fresh (kept.flushes _ flushed)
  rcases kept.head.create allocated link ⟨fresh, apart⟩ with ⟨e, failed, head⟩ | ⟨linked, head⟩
  · rw [created, failed]
    refine ⟨?_, slots.trans_le kept.slots, kept.flushes⟩
    rwa [slots]
  · rw [created, linked]
    refine ⟨?_, slots.trans_le kept.slots, fun id member => List.mem_append_left _ (kept.flushes id member)⟩
    rwa [slots]

theorem cancel_controlKept (kept : s.ControlKept) (id : Nat) (status : Int) :
    (s.afterCancel id (s.q.urbRequestCancel id status)).ControlKept := by
  rcases s.q.urbRequestCancel_cases id status with ⟨e, run⟩ | run | ⟨before, vurb, after, linked, own, cases⟩
  · rw [run]
    exact kept
  · rw [run]
    exact kept
  · have slots := unlinked_slots s.q vurb before after linked
    have member : vurb ∈ s.q.urbList := by simp [linked]
    have isControl : vurb.isControl = true :=
      (kept.head.wf.urbs vurb member).isControl.trans (decide_eq_true kept.head.control)
    have fewer : (before ++ after).Sublist s.q.urbList := linked ▸ unlinked_sublist before vurb after
    have others : ∀ w ∈ before ++ after, w.id ∉ s.controlFlushes := fun w there =>
      (kept.head.created w (fewer.subset there)).2
    have same : ∀ q : BceVhciTransferQueue, q.HeadOwned s.accepted s.controlFlushes (0 < q.slots) →
        ∀ flush, HeadOwned s.accepted s.controlFlushes (0 < q.slots) { q with flushGivebackList := flush } :=
      fun q head _ => head.of_same ⟨head.wf.urbs, head.wf.present, head.wf.distinct⟩ rfl rfl fun _ => rfl
    -- an URB that was not started leaves nothing behind
    have idle : vurb.started = false → (s.q.unlinked vurb (before ++ after)).slots = s.q.slots ∧
        (s.q.unlinked vurb (before ++ after)).HeadOwned s.accepted s.controlFlushes
          (0 < (s.q.unlinked vurb (before ++ after)).slots) := by
      intro pending
      rw [pending, Bool.false_and, Bool.toNat_false, Nat.add_zero] at slots
      refine ⟨slots, kept.head.cancel linked others ?_⟩
      rw [slots]
      exact fun now out id owner => (kept.head.owned out id owner).2 now
    rcases cases with ⟨run, slotless⟩ | run
    · obtain ⟨slots, head⟩ := idle (by simp [BceVhciUrb.started, slotless isControl])
      rw [run]
      exact ⟨head, slots.trans_le kept.slots, kept.flushes⟩
    · rw [run]
      cases begun : vurb.started with
      | false =>
        obtain ⟨slots, head⟩ := idle begun
        exact ⟨same _ head _, slots.trans_le kept.slots, kept.flushes⟩
      | true =>
        rw [begun, isControl, Bool.and_self, Bool.toNat_true] at slots
        have none : (s.q.unlinked vurb (before ++ after)).slots = 0 := by
          have most := kept.slots
          omega
        have distinct := kept.head.wf.distinct
        rw [linked, List.map_append, List.map_cons] at distinct
        have alone := (List.nodup_cons.mp (List.nodup_middle.mp distinct)).1
        rw [← List.map_append] at alone
        have head : (s.q.unlinked vurb (before ++ after)).HeadOwned s.accepted (s.controlFlushes ++ [id])
            (0 < (s.q.unlinked vurb (before ++ after)).slots) := by
          refine kept.head.cancel linked ?_ ?_
          · intro w there flushed
            rcases List.mem_append.mp flushed with old | new
            · exact others w there old
            · refine alone (own.trans (List.mem_singleton.mp new).symm ▸ List.mem_map_of_mem there)
          · rw [none]
            exact fun now => absurd now (Nat.lt_irrefl 0)
        simp only [afterCancel, isControl, Bool.and_self, ↓reduceIte]
        refine ⟨?_, none.trans_le (Nat.zero_le 1), ?_⟩
        · exact head.of_same ⟨head.wf.urbs, head.wf.present, head.wf.distinct⟩ rfl rfl fun _ => rfl
        · intro other flushed
          rcases List.mem_append.mp flushed with old | new
          · exact kept.flushes other old
          · rw [List.mem_singleton.mp new, ← own]
            exact (kept.head.created vurb member).1

/-- The endpoint keeps the number of requests that may be active at once. -/
theorem max_of_reach (reach : machine.Reachable s) : s.q.maxActiveRequests = s.q.endp.maxActiveRequests := by
  refine Machine.Reachable.invariant (I := fun s => s.q.maxActiveRequests = s.q.endp.maxActiveRequests) ?_ ?_ reach
  · rintro s ⟨endp, devAddr, memory, reservations, q, create, rfl⟩
    exact (createTransferQueue_counts create).1
  · intro s a t held run
    rw [(step_fixed run).2, (step_fixed run).1]
    exact held

theorem opStep_controlKept {op : TransferOp} (kept : s.ControlKept) (run : s.opStep op = some t) :
    t.ControlKept := by
  cases op with
  | create urb allocated link =>
    obtain ⟨⟨-, fresh, -⟩, after⟩ := Option.ite_none_right_eq_some.mp run
    cases after
    exact create_controlKept kept fresh
  | cancel id status =>
    obtain ⟨-, after⟩ := Option.ite_none_right_eq_some.mp run
    cases after
    exact cancel_controlKept kept id status
  | event msg allocated =>
    obtain ⟨-, after⟩ := Option.ite_none_right_eq_some.mp run
    cases after
    exact controlKept_of_slots kept (s.q.event_conserves msg allocated).balanced.slots
      (kept.head.event msg allocated)
      rfl rfl
  | completion out c =>
    obtain ⟨-, after⟩ := Option.ite_none_right_eq_some.mp run
    cases after
    exact controlKept_of_slots kept (s.q.completion_balanced out c).slots (kept.head.completion out c) rfl rfl
  | completionEnd =>
    cases Option.some.inj run
    exact controlKept_of_slots kept s.q.deliverPending_conserves.balanced.slots
      ((headOwned_loopSafe _ _ _).deliverPending kept.head) rfl rfl

theorem step_controlKept (wf : t.q.WellFormed) (one : s.q.maxActiveRequests = 1) (kept : s.ControlKept)
    (keeps : s.KeepsLine a) (run : s.step a = some t) : t.ControlKept := by
  have wf' := kept.head.wf
  cases step_effect run with
  | op op _ ran => exact opStep_controlKept kept ran
  | giveback _ _ _ _ _ after | spliced _ _ _ after =>
    subst after
    exact controlKept_of_slots kept rfl
      (kept.head.of_same ⟨wf'.urbs, wf'.present, wf'.distinct⟩ rfl rfl fun _ => rfl) rfl rfl
  | resumed _ _ _ _ _ _ after =>
    subst after
    exact controlKept_of_slots kept s.q.resumeSection_conserves.balanced.slots kept.head.resumeSection rfl rfl
  | flushed rest label ahead _ after =>
    subst label after
    obtain ⟨linked, idle⟩ := keeps (by rw [ahead]; rfl)
    have slots : s.q.flushSection.slots = 1 := by
      simp [BceVhciTransferQueue.slots, flushSection, one, idle kept.head.control]
    refine ⟨?_, slots.le, kept.flushes⟩
    refine kept.head.of_fewer wf rfl ?_ (fun _ member => member) (fun _ => .refl _) ?_
    · exact fun u member => ⟨member, (kept.head.created u member).2⟩
    · intro _ out id owner
      obtain ⟨u, member, rfl⟩ := List.mem_map.mp (linked out id owner)
      exact (kept.head.created u member).2
  | cancelledAll _ _ after =>
    subst after
    exact controlKept_of_slots kept s.q.cancelAll_conserves.balanced.slots kept.head.cancelAll rfl rfl
  | quiet same logs =>
    refine controlKept_of_slots kept ?_ ?_ logs.accepted logs.controlFlushes
    · simp only [BceVhciTransferQueue.slots, same.remaining, same.urbList, same.ghostInCount, same.ghostOutCount]
    · refine kept.head.of_same wf same.endp same.urbList fun out => owners_of_outstanding (outstanding_of_sq ?_)
      cases out
      · exact same.sqIn
      · exact same.sqOut

theorem controlKept_of_reach (reach : machine.ReachableUnder InTurn s) (control : s.q.endp.num = 0)
    (xfer : s.q.endp.xfer = .control) : s.ControlKept := by
  suffices s.q.endp.num = 0 → s.q.endp.xfer = .control → s.ControlKept from this control xfer
  refine reach.invariant_of (J := fun s => machine.Reachable s)
    (I := fun s => s.q.endp.num = 0 → s.q.endp.xfer = .control → s.ControlKept) ?_ ?_ ?_
  · exact fun s reach => reach.reachable
  · rintro s ⟨endp, devAddr, memory, reservations, q, create, rfl⟩ control xfer
    have unused := createTransferQueue_unused create
    have most := max_of_reach (.start ⟨endp, devAddr, memory, reservations, q, create, rfl⟩)
    have owned : ∀ out, BceVhciTransferQueue.owners q out = [] := by
      intro out
      rw [BceVhciTransferQueue.owners, outstanding_of_unused unused]
      rfl
    have none : q.urbList = [] := unused.urbList
    refine ⟨⟨fresh_wellFormed create, control, ?_, ?_, ?_, ?_⟩, ?_, List.forall_mem_nil _⟩
    · rw [fresh, none]
      exact List.forall_mem_nil _
    · intro out
      rw [fresh, owned]
      exact List.forall_mem_nil _
    · rw [fresh, none]
      exact List.forall_mem_nil _
    · rw [fresh, none]
      exact List.forall_mem_nil _
    · have one : q.maxActiveRequests = 1 := by
        refine most.trans ?_
        rw [UsbEndpoint.maxActiveRequests, xfer]
      simp [fresh, BceVhciTransferQueue.slots, unused.remaining, one, none, unused.ghostInCount,
        unused.ghostOutCount]
  · intro s a t reach held inTurn run control xfer
    have one : s.q.maxActiveRequests = 1 := by
      rw [max_of_reach reach, ← step_endp run, UsbEndpoint.maxActiveRequests, xfer]
    rw [step_endp run] at control xfer
    exact step_controlKept (wellFormed_of_reach (reach.next run)) one (held control xfer) inTurn.2 run

/-- The URB was cancelled, and on a control endpoint after it had been started. -/
def Cancelled (s : TransferRun) (id : Nat) : Prop :=
  id ∉ s.q.linkedIds ∧ (s.q.endp.num = 0 → id ∈ s.controlFlushes)

/-- On a control endpoint a completion is attributed to the URB at the head, and changes nothing while no URB is
started. -/
theorem control_attributed {x : UrbSubmission} {items : List UrbSubmission} {c : BceSqCompletionData} {out : Bool}
    (reach : machine.Reachable s) (kept : s.ControlKept) (front : s.q.outstanding out = x :: items)
    (normal : c.status ≠ bceCompletionAborted) : Attributed s.Cancelled x c s.q (s.q.completion out c) := by
  have pops := s.q.completion_pops out c
  have none : s.q.ghostCount out = 0 := ghosts_eq_zero.mp (ghosts_control reach kept.head.control) out
  have owner : x.urb ∈ s.q.owners out := by simp [owners_of_front front]
  refine ⟨?_, ?_⟩
  · intro before u after linked own
    obtain ⟨rest, urbs, started⟩ := kept.head.front (own ▸ owner) (u := u) (by simp [linked])
    have first : s.q.urbList = [] ++ u :: rest := urbs
    obtain ⟨rfl, -, rfl⟩ := split_unique kept.head.wf.distinct first linked rfl
    rw [pops.urbList, pops.givebackUrbList, completionBody_normal normal urbs started, if_pos none]
    exact ⟨rfl, rfl⟩
  · rintro ⟨-, flushed⟩
    have taken : s.q.slots = 0 := by
      by_contra free
      exact (kept.head.owned out x.urb owner).2 (Nat.pos_of_ne_zero free) (flushed kept.head.control)
    have idle : startedCount s.q.urbList = 0 := by
      unfold BceVhciTransferQueue.slots at taken
      omega
    have same : s.q.completionBody out c = s.q := by
      unfold completionBody
      rw [if_neg normal, none, if_neg (Nat.lt_irrefl 0)]
      cases linked : s.q.urbList with
      | nil => rfl
      | cons u rest =>
        have pending : u.state = .initPending := by
          rw [startedCount, List.countP_eq_zero] at idle
          simpa [BceVhciUrb.started] using idle u (by simp [linked])
        exact if_pos pending
    rw [pops.urbList, pops.givebackUrbList, same]
    exact ⟨rfl, rfl⟩

/-- In every run whose steps keep the submissions in line, a normal completion is applied to the URB of the
submission it completes if that is linked, and absorbed without a trace on any other URB if that was
cancelled. -/
theorem completion_attributed {x : UrbSubmission} {items : List UrbSubmission} {c : BceSqCompletionData}
    {out : Bool}
    (reach : machine.ReachableUnder InTurn s) (control : s.q.endp.num = 0 → s.q.endp.xfer = .control)
    (front : s.q.outstanding out = x :: items) (normal : c.status ≠ bceCompletionAborted)
    (inTurn : s.InTurn (.op (.completion out c))) : Attributed s.Cancelled x c s.q (s.q.completion out c) := by
  by_cases zero : s.q.endp.num = 0
  · exact control_attributed reach.reachable (controlKept_of_reach reach zero (control zero)) front normal
  · have wf := wellFormed_of_reach reach.reachable
    have held : s.q.outstanding out ≠ [] := by simp [front]
    obtain rfl := side_of_outstanding wf zero held
    obtain ⟨tells, started⟩ := inTurn.2 zero normal
    have attributed := (inLine_of_reach reach zero).attributed wf.distinct front normal tells started
    exact ⟨attributed.applied, fun cancelled => attributed.absorbed cancelled.1⟩

/-- The head of two URBs in flight is cancelled, and its completion comes. -/
theorem completion_attributed_ghost : ∃ s x items c, machine.ReachableUnder InTurn s ∧
    s.q.outstanding false = x :: items ∧ x.urb = 1 ∧ s.q.linkedIds = [2] ∧
    Attributed s.Cancelled x c s.q (s.q.completion false c) := by
  have ran : (ranUnder InTurn bulkIn []
      [.op (.create (sampleUrb 1 true) true none), .op (.create (sampleUrb 2 true) true none),
        .op (.cancel 1 Errno.connreset.neg)]).map
      (fun s => decide (s.q.endp.num ≠ 0 ∧ (s.q.outstanding false).head?.map UrbSubmission.urb = some 1 ∧
        s.q.linkedIds = [2] ∧ s.InTurn (.op (.completion false ⟨0, 512, 0⟩)))) = some true := by
    decide
  obtain ⟨s, reach, seen⟩ := reachableUnder_of_ran ran
  obtain ⟨data, first, linked, inTurn⟩ := of_decide_eq_true seen
  obtain ⟨x, head, own⟩ := Option.map_eq_some_iff.mp first
  obtain ⟨items, front⟩ := List.head?_eq_some_iff.mp head
  exact ⟨s, x, items, ⟨0, 512, 0⟩, reach, front, own, linked,
    completion_attributed reach (fun control => absurd control data) front (by decide) inTurn⟩

/-- An URB behind the head is cancelled, and the next completion, which is that of the URB at the head, is
absorbed for it. -/
theorem completion_absorbed_for_other : ¬∀ s x items c out, machine.Reachable s →
    (s.q.endp.num = 0 → s.q.endp.xfer = .control) → s.q.outstanding out = x :: items →
    c.status ≠ bceCompletionAborted → Attributed s.Cancelled x c s.q (s.q.completion out c) := by
  intro all
  have ran : (ranUnder (fun _ _ => True) bulkIn []
      [.op (.create (sampleUrb 1 true) true none), .op (.create (sampleUrb 2 true) true none),
        .op (.cancel 2 Errno.connreset.neg)]).map
      (fun s => decide (s.q.endp.num ≠ 0 ∧ s.q.urbList.length = 1 ∧ ∃ x ∈ (s.q.outstanding false).head?,
        ∀ u ∈ s.q.urbList, u.id = x.urb ∧ (u.transferCompletion ⟨0, 512, 0⟩ s.q).urb = none ∧
          (s.q.completion false ⟨0, 512, 0⟩).urbList = [u])) = some true := by
    decide
  obtain ⟨s, reach, seen⟩ := reachableUnder_of_ran ran
  obtain ⟨data, single, x, head, left⟩ := of_decide_eq_true seen
  obtain ⟨items, front⟩ := List.head?_eq_some_iff.mp head
  obtain ⟨u, linked⟩ := List.length_eq_one_iff.mp single
  obtain ⟨own, completes, kept⟩ := left u (by simp [linked])
  have attributed := all s x items ⟨0, 512, 0⟩ false reach (fun control => absurd control data) front (by decide)
  have applied := (attributed.applied [] u [] linked own).1
  rw [kept, completes] at applied
  cases applied

end TransferRun

end AppleBce

import AppleBce.Vhci.Giveback

namespace AppleBce

open Basis

namespace TransferRun

variable {s t : TransferRun} {a : TransferStep}

/-- The control URBs that were cancelled after they had been started and wait for the flush
worker. -/
def flushedControls (s : TransferRun) : Nat :=
  s.q.flushGivebackList.countP fun urb => urb.id ∈ s.controlFlushes

/-- All the slots of the endpoint: those free, those of linked URBs and of ghosts, and those of
the control URBs left to the flush worker. -/
def allSlots (s : TransferRun) : Nat :=
  s.q.slots + s.flushedControls

/-- The queue is not torn down, and no linked URB holds a slot when the flush worker declares all
of them free. -/
def FlushesIdle (s : TransferRun) : TransferStep → Prop
  | .work => s.worker.head? = some .flushSection →
      BceVhciTransferQueue.startedCount s.q.urbList = 0
  | .destroy => False
  | _ => True

instance (s : TransferRun) (a : TransferStep) : Decidable (s.FlushesIdle a) := by
  unfold FlushesIdle
  split <;> infer_instance

/-- The slots add up. What is needed for it: a started control URB that was cancelled is not
linked any more. -/
structure SlotsKept (s : TransferRun) : Prop where
  slots : s.allSlots = s.q.maxActiveRequests
  controls : ∀ id ∈ s.controlFlushes, id ∈ s.accepted ∧ ∀ u ∈ s.q.urbList, u.id ≠ id

/-- Slots only pass between URBs, ghosts and the free ones. -/
theorem slotsKept_of_balanced (kept : s.SlotsKept) (balanced : s.q.Balanced t.q)
    (accepted : t.accepted = s.accepted) (controls : t.controlFlushes = s.controlFlushes) :
    t.SlotsKept where
  slots := by
    have before := kept.slots
    simp only [allSlots, flushedControls] at before ⊢
    rw [balanced.slots, balanced.flushGivebackList, balanced.maxActiveRequests, controls]
    exact before
  controls := by
    intro id member
    rw [controls] at member
    rw [accepted]
    obtain ⟨known, apart⟩ := kept.controls id member
    refine ⟨known, ?_⟩
    intro v linked same
    obtain ⟨u, linked', same'⟩ := balanced.comes v linked
    exact apart u linked' (same'.id.symm.trans same)

theorem create_slotsKept {urb : Urb} {allocated : Bool} {link : Option Errno} (kept : s.SlotsKept)
    (fresh : urb.id ∉ s.accepted) :
    (s.created urb.id (s.q.urbCreate urb allocated link)).SlotsKept := by
  rcases s.q.urbCreate_cases urb allocated link with ⟨e, failed, conserved⟩ | ⟨linked, conserved⟩
  · rw [created, failed]
    exact slotsKept_of_balanced kept conserved.balanced rfl rfl
  · rw [created, linked]
    -- the new URB is linked first, without a slot
    let middle : TransferRun :=
      { s with
        q := { s.q with urbList := s.q.urbList ++ [s.q.newUrb urb] }
        accepted := s.accepted ++ [urb.id] }
    have began : middle.SlotsKept := by
      refine ⟨?_, ?_⟩
      · have before := kept.slots
        simp only [allSlots, flushedControls, BceVhciTransferQueue.slots] at before ⊢
        simp only [middle, BceVhciTransferQueue.startedCount_append,
          BceVhciTransferQueue.startedCount_cons, BceVhciTransferQueue.startedCount_nil]
        exact before
      · intro id member
        obtain ⟨known, apart⟩ := kept.controls id member
        refine ⟨List.mem_append_left _ known, ?_⟩
        intro u linked
        rcases List.mem_append.mp linked with old | new
        · exact apart u old
        · rw [List.mem_singleton.mp new]
          rintro rfl
          exact fresh known
    exact slotsKept_of_balanced began conserved.balanced rfl rfl

/-- What a cancel does to the slots of the queue. -/
theorem unlinked_slots (q : BceVhciTransferQueue) (vurb : BceVhciUrb) (before after : List BceVhciUrb)
    (linked : q.urbList = before ++ vurb :: after) :
    (q.unlinked vurb (before ++ after)).slots + (vurb.started && vurb.isControl).toNat = q.slots := by
  simp only [BceVhciTransferQueue.slots, BceVhciTransferQueue.unlinked, linked,
    BceVhciTransferQueue.startedCount_append, BceVhciTransferQueue.startedCount_cons]
  unfold BceVhciTransferQueue.cancelSlot
  split
  case isTrue pending =>
    simp [BceVhciUrb.started, pending]
  case isFalse begun =>
    rw [BceVhciUrb.started_of_ne begun]
    split
    case isTrue control =>
      simp only [control, Bool.and_self, Bool.toNat_true]
      omega
    case isFalse data =>
      simp only [Bool.not_eq_true] at data
      simp only [data, Bool.and_false, Bool.toNat_true, Bool.toNat_false]
      split
      · split <;> simp only [] <;> omega
      · simp only []
        omega

theorem cancel_slotsKept {id : Nat} {status : Int} (owned : s.Owned) (kept : s.SlotsKept) :
    (s.afterCancel id (s.q.urbRequestCancel id status)).SlotsKept := by
  rcases s.q.urbRequestCancel_cases id status with ⟨e, run⟩ | run | ⟨before, vurb, after, linked, here, cases⟩
  · rw [run]
    exact kept
  · rw [run]
    exact kept
  · obtain ⟨flush, giveback, -, max, -⟩ := s.q.cancelSlot_frame vurb
    have moved := unlinked_slots s.q vurb before after linked
    have sum := kept.slots
    have distinct : s.owners.Nodup := owned.owners.nodup_iff.mpr owned.accepted
    have apart : ∀ id ∈ s.controlFlushes, id ∈ s.accepted ∧
        ∀ u ∈ before ++ after, u.id ≠ id := by
      intro id member
      obtain ⟨known, apart⟩ := kept.controls id member
      refine ⟨known, fun u linked' => apart u ?_⟩
      rw [linked]
      simp only [List.mem_append, List.mem_cons] at linked' ⊢
      exact linked'.imp_right .inr
    have own : vurb.id ∉ s.controlFlushes := by
      intro member
      exact (kept.controls _ member).2 vurb (by simp [linked]) rfl
    rcases cases with ⟨run, slotless⟩ | run
    · rw [run]
      have plain : (vurb.started && vurb.isControl) = false := by
        cases isControl : vurb.isControl with
        | false => simp
        | true => simp [BceVhciUrb.started, slotless isControl]
      rw [plain, Bool.toNat_false, Nat.add_zero] at moved
      refine ⟨?_, apart⟩
      show (s.q.unlinked vurb (before ++ after)).slots +
        (s.q.cancelSlot vurb).flushGivebackList.countP _ = (s.q.cancelSlot vurb).maxActiveRequests
      rw [moved, flush, max]
      exact sum
    · rw [run]
      have once := List.nodup_iff_count_le_one.mp distinct vurb.id
      simp only [owners, linked, List.map_append, List.map_cons, List.count_append,
        List.count_cons_self] at once
      -- nothing else left to the flush worker or linked has the number of this URB
      have others : ∀ urb ∈ s.q.flushGivebackList, urb.id ≠ vurb.id := by
        intro urb left same
        have inList := List.count_pos_iff.mpr (List.mem_map_of_mem (f := Urb.id) left)
        rw [same] at inList
        omega
      have alone : ∀ u ∈ before ++ after, u.id ≠ vurb.id := by
        intro u member same
        have inList := List.count_pos_iff.mpr (List.mem_map_of_mem (f := BceVhciUrb.id) member)
        rw [same, List.map_append, List.count_append] at inList
        omega
      have known : vurb.id ∈ s.accepted :=
        owned.owners.subset (by simp [owners, linked])
      cases flushes : (vurb.started && vurb.isControl) with
      | true =>
        have counted : s.q.flushGivebackList.countP (fun urb => urb.id ∈ s.controlFlushes ++ [id]) =
            s.flushedControls := by
          refine List.countP_congr ?_
          intro urb left
          have other := others urb left
          rw [here] at other
          simp [other]
        rw [flushes, Bool.toNat_true] at moved
        refine ⟨?_, ?_⟩
        · show (s.q.unlinked vurb (before ++ after)).slots +
            (s.q.flushGivebackList ++ [{ vurb.urb with status }]).countP
              (fun urb : Urb => urb.id ∈ s.controlFlushes ++ [id]) = (s.q.cancelSlot vurb).maxActiveRequests
          rw [List.countP_append, counted, max, ← sum, allSlots, ← moved]
          simp only [List.countP_singleton, here, List.mem_append, List.mem_singleton, or_true,
            decide_true, ↓reduceIte]
          omega
        · intro other member
          rcases List.mem_append.mp member with old | new
          · exact apart other old
          · rw [List.mem_singleton.mp new, ← here]
            exact ⟨known, alone⟩
      | false =>
        rw [flushes, Bool.toNat_false, Nat.add_zero] at moved
        refine ⟨?_, apart⟩
        show (s.q.unlinked vurb (before ++ after)).slots +
            (s.q.flushGivebackList ++ [{ vurb.urb with status }]).countP
              (fun urb : Urb => urb.id ∈ s.controlFlushes) = (s.q.cancelSlot vurb).maxActiveRequests
        rw [List.countP_append, max, moved, ← sum]
        simp [own, allSlots, flushedControls]

theorem opStep_slotsKept {op : TransferOp} (owned : s.Owned) (kept : s.SlotsKept)
    (run : s.opStep op = some t) : t.SlotsKept := by
  cases op with
  | create urb allocated link =>
    obtain ⟨⟨-, fresh, -⟩, after⟩ := Option.ite_none_right_eq_some.mp run
    cases after
    exact create_slotsKept kept fresh
  | cancel id status =>
    obtain ⟨-, after⟩ := Option.ite_none_right_eq_some.mp run
    cases after
    exact cancel_slotsKept owned kept
  | event msg allocated =>
    obtain ⟨-, after⟩ := Option.ite_none_right_eq_some.mp run
    cases after
    exact slotsKept_of_balanced kept (s.q.event_conserves msg allocated).balanced rfl rfl
  | completion out c =>
    obtain ⟨-, after⟩ := Option.ite_none_right_eq_some.mp run
    cases after
    exact slotsKept_of_balanced kept (s.q.completion_balanced out c) rfl rfl
  | completionEnd =>
    cases Option.some.inj run
    exact slotsKept_of_balanced kept s.q.deliverPending_conserves.balanced rfl rfl

/-- The flush worker frees all slots, which is right when no linked URB holds one. -/
theorem flush_slotsKept (rest : List WorkCall) (kept : s.SlotsKept)
    (idle : BceVhciTransferQueue.startedCount s.q.urbList = 0) :
    SlotsKept { s with q := s.q.flushSection, worker := rest } where
  slots := by
    simp [allSlots, flushedControls, BceVhciTransferQueue.slots, BceVhciTransferQueue.flushSection, idle]
  controls := kept.controls

theorem step_slotsKept (owned : s.Owned) (kept : s.SlotsKept) (idle : s.FlushesIdle a)
    (run : s.step a = some t) : t.SlotsKept := by
  cases step_effect run with
  | op op _ run => exact opStep_slotsKept owned kept run
  | giveback urb rest _ _ _ after =>
    subst after
    exact ⟨kept.slots, kept.controls⟩
  | resumed _ onWorker src _ _ _ after =>
    subst after
    exact slotsKept_of_balanced kept s.q.resumeSection_conserves.balanced rfl rfl
  | flushed rest label ahead _ after =>
    subst label after
    exact flush_slotsKept rest kept (idle (by rw [ahead]; rfl))
  | spliced label _ _ _ =>
    subst label
    cases idle
  | cancelledAll _ _ after =>
    subst after
    exact slotsKept_of_balanced kept s.q.cancelAll_conserves.balanced rfl rfl
  | quiet same logs =>
    refine ⟨?_, ?_⟩
    · have before := kept.slots
      simp only [allSlots, flushedControls, BceVhciTransferQueue.slots] at before ⊢
      rw [same.remaining, same.urbList, same.ghostInCount, same.ghostOutCount, same.flushGivebackList,
        same.maxActiveRequests, logs.controlFlushes]
      exact before
    · rw [logs.controlFlushes, logs.accepted, same.urbList]
      exact kept.controls

theorem fresh_slotsKept {endp : UsbEndpoint} {devAddr : BitVec 8} {dir : DmaDataDirection}
    {memory : TransferQueueMemory} {reservations : List Bool} {q : BceVhciTransferQueue}
    (create : bceVhciCreateTransferQueue endp devAddr dir memory reservations = some q) :
    (fresh q).SlotsKept := by
  have unused := createTransferQueue_unused create
  refine ⟨?_, nofun⟩
  simp [fresh, allSlots, flushedControls, BceVhciTransferQueue.slots, unused.remaining, unused.urbList,
    unused.ghostInCount, unused.ghostOutCount, unused.flushGivebackList]

theorem slotsKept_of_reach (reach : machine.ReachableUnder FlushesIdle s) : s.SlotsKept := by
  refine reach.invariant_of (J := Owned) ?_ ?_ ?_
  · exact fun s reach => (owned_of_reach reach.reachable).1
  · rintro s ⟨endp, devAddr, memory, reservations, q, create, rfl⟩
    exact fresh_slotsKept create
  · exact fun s a t owned kept idle run => step_slotsKept owned kept idle run

end TransferRun

end AppleBce

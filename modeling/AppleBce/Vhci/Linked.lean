import AppleBce.Vhci.Giveback
import AppleBce.Vhci.Loads

namespace AppleBce

open Basis

namespace TransferRun

variable {s t : TransferRun} {a : TransferStep}

/-- A linked URB was accepted. -/
theorem accepted_of_linked (owned : s.Owned) {u : BceVhciUrb} (linked : u ∈ s.q.urbList) :
    u.id ∈ s.accepted := by
  refine owned.owners.mem_iff.mp ?_
  simp only [owners, List.mem_append]
  exact .inl (.inl (.inl (List.mem_map_of_mem linked)))

/-- No linked URB is the one a create links. -/
theorem unlinked_of_fresh (owned : s.Owned) {id : Nat} (fresh : id ∉ s.accepted) :
    ∀ u ∈ s.q.urbList, u.id ≠ id := by
  intro u linked same
  exact fresh (same ▸ accepted_of_linked owned linked)

theorem created_q (s : TransferRun) (id : Nat) (result : Option Errno × BceVhciTransferQueue) :
    (s.created id result).q = result.2 := by
  unfold created
  split <;> rfl

theorem afterCancel_q (s : TransferRun) (id : Nat) (result : CancelOutcome × BceVhciTransferQueue) :
    (s.afterCancel id result).q = result.2 := by
  unfold afterCancel
  split <;> rfl

theorem opStep_wellFormed {op : TransferOp} (owned : s.Owned) (wf : s.q.WellFormed)
    (run : s.opStep op = some t) : t.q.WellFormed := by
  cases op with
  | create urb allocated link =>
    obtain ⟨⟨-, fresh, -, takes⟩, after⟩ := Option.ite_none_right_eq_some.mp run
    cases after
    rw [created_q]
    exact BceVhciTransferQueue.urbCreate_wellFormed wf urb allocated link
      (fun data => takes.resolve_left data) (unlinked_of_fresh owned fresh)
  | cancel id status =>
    obtain ⟨-, after⟩ := Option.ite_none_right_eq_some.mp run
    cases after
    rw [afterCancel_q]
    exact BceVhciTransferQueue.urbRequestCancel_wellFormed wf id status
  | event msg allocated =>
    obtain ⟨-, after⟩ := Option.ite_none_right_eq_some.mp run
    cases after
    exact BceVhciTransferQueue.event_wellFormed wf msg allocated
  | completion out c =>
    obtain ⟨-, after⟩ := Option.ite_none_right_eq_some.mp run
    cases after
    exact BceVhciTransferQueue.completion_wellFormed wf out c
  | completionEnd =>
    cases Option.some.inj run
    exact BceVhciTransferQueue.deliverPending_wellFormed wf

theorem step_wellFormed (owned : s.Owned) (wf : s.q.WellFormed) (run : s.step a = some t) :
    t.q.WellFormed := by
  cases step_effect run with
  | op op _ run => exact opStep_wellFormed owned wf run
  | giveback urb rest _ _ _ after =>
    subst after
    exact ⟨wf.urbs, wf.present, wf.distinct⟩
  | resumed _ onWorker src _ _ _ after =>
    subst after
    exact BceVhciTransferQueue.resumeSection_wellFormed wf
  | flushed rest _ _ _ after =>
    subst after
    exact ⟨wf.urbs, wf.present, wf.distinct⟩
  | cancelledAll _ _ after =>
    subst after
    have stopped : BceVhciTransferQueue.WellFormed { s.q with active := false } :=
      ⟨wf.urbs, wf.present, wf.distinct⟩
    exact BceVhciTransferQueue.cancelLoop_wellFormed _ _ stopped
  | spliced _ _ _ after =>
    subst after
    exact ⟨wf.urbs, wf.present, wf.distinct⟩
  | quiet same logs =>
    refine BceVhciTransferQueue.wellFormed_of_same wf same.endp ?_ ?_ ?_
    · intro out
      cases out <;> simp only [BceVhciTransferQueue.sq, same.sqIn, same.sqOut]
    · intro v member
      rwa [same.urbList] at member
    · rw [same.urbList]

/-- The driver creates the queues of the directions of the endpoint. -/
theorem equipped_of_unused {endp : UsbEndpoint} {q : BceVhciTransferQueue}
    (unused : q.Unused endp endp.queueDir) : q.Equipped := by
  intro out
  rw [unused.endp]
  by_cases control : endp.num = 0
  · have dir : endp.queueDir = .bidirectional := if_pos control
    cases out <;> simp [BceVhciTransferQueue.sq, unused.sqIn, unused.sqOut, dir, control]
  · have data : ¬endp.num = 0#8 := control
    cases dirIn : endp.dirIn with
    | true =>
      have dir : endp.queueDir = .fromDevice := by
        rw [UsbEndpoint.queueDir, if_neg control, if_pos dirIn]
      cases out <;> simp [BceVhciTransferQueue.sq, unused.sqIn, unused.sqOut, dir, data]
    | false =>
      have dir : endp.queueDir = .toDevice := by
        rw [UsbEndpoint.queueDir, if_neg control, if_neg (by simp [dirIn])]
      cases out <;> simp [BceVhciTransferQueue.sq, unused.sqIn, unused.sqOut, dir, data]

theorem fresh_wellFormed {endp : UsbEndpoint} {devAddr : BitVec 8} {memory : TransferQueueMemory}
    {reservations : List Bool} {q : BceVhciTransferQueue}
    (create : bceVhciCreateTransferQueue endp devAddr endp.queueDir memory reservations = some q) :
    q.WellFormed := by
  have unused := createTransferQueue_unused create
  refine ⟨?_, ?_, ?_⟩
  · rw [unused.urbList]
    exact List.forall_mem_nil _
  · exact equipped_of_unused unused
  · rw [unused.urbList]
    exact List.nodup_nil

theorem wellFormed_of_reach (reach : machine.Reachable s) : s.q.WellFormed := by
  refine Machine.ReachableUnder.invariant_of (J := Owned) (I := fun s => s.q.WellFormed)
    (fun s reach => (owned_of_reach reach).1) ?_ ?_ reach
  · rintro s ⟨endp, devAddr, memory, reservations, q, create, rfl⟩
    exact fresh_wellFormed create
  · exact fun s a t owned wf _ run => step_wellFormed owned wf run

end TransferRun

end AppleBce

import AppleBce.Vhci.TransferRun
import AppleBce.Vhci.UrbRelations

namespace AppleBce

open Basis

/-- What the work on URBs does to a pause: it neither sets nor clears a source, never activates
the queue, and deactivates it only together with a stall, which it never takes back. -/
structure BceVhciTransferQueue.Stops (q r : BceVhciTransferQueue) : Prop where
  pausedBy : r.pausedBy = q.pausedBy
  active : r.active = q.active ∨ r.active = false ∧ r.stalled
  stalled : q.stalled → r.stalled

namespace BceVhciTransferQueue

variable {q r s : BceVhciTransferQueue}

theorem Stops.refl (q : BceVhciTransferQueue) : q.Stops q :=
  ⟨rfl, .inl rfl, id⟩

theorem Stops.trans (first : q.Stops r) (second : r.Stops s) : q.Stops s where
  pausedBy := second.pausedBy.trans first.pausedBy
  active := by
    rcases second.active with same | stopped
    · rcases first.active with before | ⟨inactive, stalled⟩
      · exact .inl (same.trans before)
      · exact .inr ⟨same.trans inactive, second.stalled stalled⟩
    · exact .inr stopped
  stalled := fun before => second.stalled (first.stalled before)

theorem DmaFrame.stops (frame : q.DmaFrame r) : q.Stops r :=
  ⟨frame.pausedBy, .inl frame.active, fun before => frame.stalled.trans before⟩

/-- A queue that differs only in what a pause does not look at. -/
theorem stops_of_same (pausedBy : r.pausedBy = q.pausedBy) (active : r.active = q.active)
    (stalled : r.stalled = q.stalled) : q.Stops r :=
  ⟨pausedBy, .inl active, fun before => stalled.trans before⟩

/-- All work on URBs only stops a queue. -/
theorem stops_relation : UrbRelation Stops where
  refl := .refl
  trans := .trans
  receive u q := (u.dataTransferIn_starts q).frame.stops
  send u addr size q := (u.sendOutData_frame addr size q).stops
  complete _ _ _ := stops_of_same rfl rfl rfl
  stop _ := ⟨rfl, .inr ⟨rfl, rfl⟩, fun _ => rfl⟩
  stall _ := ⟨rfl, .inl rfl, fun _ => rfl⟩
  account := stops_of_same rfl rfl rfl

theorem completion_stops (q : BceVhciTransferQueue) (out : Bool) (c : BceSqCompletionData) :
    q.Stops (q.completion out c) := by
  obtain ⟨_, _, _, _, ended⟩ := q.completion_eq out c
  rw [ended]
  exact (stops_relation.completionBody q out c).trans (stops_of_same rfl rfl rfl)

end BceVhciTransferQueue

namespace TransferRun

open BceVhciTransferQueue

variable {s t : TransferRun}

/-- The operations on URBs leave `pause_lock` alone and only stop a queue. -/
theorem opStep_stops {op : TransferOp} (run : s.opStep op = some t) :
    s.q.Stops t.q ∧ t.holder = s.holder ∧ t.worker = s.worker := by
  cases op with
  | create urb allocated link =>
    obtain ⟨-, after⟩ := Option.ite_none_right_eq_some.mp run
    cases after
    have stops := stops_relation.urbCreate s.q urb allocated link
    unfold created
    split
    · exact ⟨stops, rfl, rfl⟩
    · exact ⟨stops, rfl, rfl⟩
  | cancel id status =>
    obtain ⟨-, after⟩ := Option.ite_none_right_eq_some.mp run
    cases after
    have stops := stops_relation.urbRequestCancel s.q id status
    unfold afterCancel
    split
    · exact ⟨stops, rfl, rfl⟩
    · exact ⟨stops, rfl, rfl⟩
    · exact ⟨stops, rfl, rfl⟩
  | event msg allocated =>
    obtain ⟨-, after⟩ := Option.ite_none_right_eq_some.mp run
    cases after
    exact ⟨stops_relation.event s.q msg allocated, rfl, rfl⟩
  | completion out c =>
    obtain ⟨-, after⟩ := Option.ite_none_right_eq_some.mp run
    cases after
    exact ⟨s.q.completion_stops out c, rfl, rfl⟩
  | completionEnd =>
    cases Option.some.inj run
    exact ⟨stops_relation.deliverPending s.q, rfl, rfl⟩

end TransferRun

end AppleBce

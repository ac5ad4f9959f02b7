import AppleBce.Vhci.LoopRules
import AppleBce.Vhci.Submissions

namespace AppleBce

open Basis

/-- An URB as the driver makes it for an endpoint, in a state such an URB can have. -/
structure BceVhciUrb.Belongs (endp : UsbEndpoint) (u : BceVhciUrb) : Prop where
  isControl : u.isControl = decide (endp.num = 0)
  dir : u.dir = if u.urb.dirIn then .fromDevice else .toDevice
  way : endp.num ≠ 0 → u.urb.dirIn = endp.dirIn
  sends : u.state = .waitingForTransferRequest → u.dir = .toDevice

/-- Whether the submission an URB waits for has to be on `sq_out`: it is a setup packet or goes to
the device. -/
def BceVhciUrb.out (u : BceVhciUrb) : Bool :=
  u.state = .controlWaitingForSetupCompletion ∨ u.dir = .toDevice

namespace BceVhciTransferQueue

variable {q r s : BceVhciTransferQueue} {u v : BceVhciUrb} {done rest : List BceVhciUrb}

/-- The endpoint has the queues of its directions. -/
def Equipped (q : BceVhciTransferQueue) : Prop :=
  ∀ out, (q.sq out).isSome ↔ (q.endp.num = 0 ∨ q.endp.dirIn = !out)

/-- The URBs belong to the endpoint, the endpoint has the queues of its directions, and the URBs
are different. -/
structure WellFormed (q : BceVhciTransferQueue) : Prop where
  urbs : ∀ u ∈ q.urbList, u.Belongs q.endp
  present : q.Equipped
  distinct : (q.urbList.map BceVhciUrb.id).Nodup

/-- The submissions of an URB on one of the queues. -/
def load (q : BceVhciTransferQueue) (out : Bool) (id : Nat) : Nat :=
  (q.outstanding out).countP fun x => x.urb = id

/-- A call that leaves the submissions of other URBs alone. -/
structure Touches (id : Nat) (q r : BceVhciTransferQueue) : Prop where
  loads : ∀ out other, other ≠ id → r.load out other = q.load out other
  present : ∀ out, (r.sq out).isSome = (q.sq out).isSome
  faults : q.nullSq → r.nullSq

/-- The load of an URB is read off the outstanding submissions. -/
theorem load_of_outstanding {out : Bool} (same : r.outstanding out = q.outstanding out) (id : Nat) :
    r.load out id = q.load out id := by
  rw [load, load, same]

theorem SqKept.load (kept : q.SqKept r) (out : Bool) (id : Nat) : r.load out id = q.load out id :=
  load_of_outstanding (kept.outstanding out) id

theorem Refuses.load {side : Bool} (refuses : Refuses side q r) (out : Bool) (id : Nat) :
    r.load out id = q.load out id :=
  load_of_outstanding (outstanding_of_sq (refuses.sq out)) id

theorem Submits.load_same {out : Bool} {x : UrbSubmission} (submits : Submits out x q r) (id : Nat) :
    r.load out id = q.load out id + if x.urb = id then 1 else 0 := by
  rw [BceVhciTransferQueue.load, submits.outstanding, List.countP_append, BceVhciTransferQueue.load,
    List.countP_singleton]
  simp only [decide_eq_true_eq]

/-- A submission is no load in the other direction. -/
theorem Submits.load_other {out : Bool} {x : UrbSubmission} (submits : Submits out x q r) (id : Nat) :
    r.load (!out) id = q.load (!out) id :=
  load_of_outstanding (outstanding_of_sq submits.other) id

theorem SqKept.touches (kept : q.SqKept r) (id : Nat) : Touches id q r where
  loads := fun out other _ => kept.load out other
  present := fun out => by rw [kept.sq out]
  faults := fun fault => kept.nullSq.trans fault

theorem Refuses.touches {out : Bool} (refuses : Refuses out q r) (id : Nat) : Touches id q r where
  loads := fun side other _ => refuses.load side other
  present := fun side => by rw [refuses.sq side]
  faults := refuses.faults

theorem Submits.touches {out : Bool} {x : UrbSubmission} (submits : Submits out x q r) :
    Touches x.urb q r where
  loads := by
    intro side other apart
    rcases Bool.eq_or_eq_not side out with rfl | rfl
    · rw [submits.load_same, if_neg (Ne.symm apart), Nat.add_zero]
    · exact submits.load_other other
  present := by
    intro side
    rcases Bool.eq_or_eq_not side out with rfl | rfl
    · rw [submits.present, submits.before]
    · rw [submits.other]
  faults := fun fault => submits.nullSq.trans fault

end BceVhciTransferQueue

namespace BceVhciUrb

open BceVhciTransferQueue

variable {u v : BceVhciUrb} {q : BceVhciTransferQueue} {endp : UsbEndpoint}

/-- An URB stays one of its endpoint as long as it keeps its identity and its direction. -/
theorem belongs_of_same (belongs : u.Belongs endp) (same : u.Same v)
    (sends : v.state = .waitingForTransferRequest → u.dir = .toDevice) : v.Belongs endp where
  isControl := same.isControl.trans belongs.isControl
  dir := by
    rw [same.dir, same.dirIn]
    exact belongs.dir
  way := fun data => same.dirIn.trans (belongs.way data)
  sends := fun waits => same.dir.trans (sends waits)

/-- Each call on an URB submits for this URB only. -/
theorem update_touches (u : BceVhciUrb) (msg : BceVhciMessage) (q : BceVhciTransferQueue) :
    Touches u.id q (u.update msg q).q := by
  rcases u.update_uses msg q with ⟨kept, -⟩ | ⟨refuses, -⟩ | ⟨x, own, submits, -⟩
  · exact kept.touches u.id
  · exact refuses.touches u.id
  · rw [← own]
    exact submits.touches

theorem init_touches (u : BceVhciUrb) (q : BceVhciTransferQueue) : Touches u.id q (u.init q).q := by
  rcases u.init_uses q with ⟨refuses, -⟩ | ⟨kept, -⟩ | ⟨submits, -⟩
  · exact refuses.touches u.id
  · exact kept.touches u.id
  · exact submits.touches

theorem resume_touches (u : BceVhciUrb) (q : BceVhciTransferQueue) : Touches u.id q (u.resume q).q := by
  rcases u.resume_uses q with ⟨-, eq⟩ | ⟨-, refuses, -⟩ | ⟨-, submits, -⟩
  · rw [eq]
    exact (SqKept.refl q).touches u.id
  · exact refuses.touches u.id
  · exact submits.touches

theorem transferCompletion_touches (u : BceVhciUrb) (c : BceSqCompletionData)
    (q : BceVhciTransferQueue) : Touches u.id q (u.transferCompletion c q).q := by
  rcases u.transferCompletion_uses c q with ⟨kept, -⟩ | ⟨-, -, -, refuses, -⟩ | ⟨-, -, -, submits, -⟩
  · exact kept.touches u.id
  · exact refuses.touches u.id
  · exact submits.touches

/-- What a call leaves of an URB belongs to the endpoint as before. -/
theorem update_belongs {msg : BceVhciMessage} (belongs : u.Belongs endp)
    (present : (u.update msg q).urb = some v) : v.Belongs endp := by
  refine belongs_of_same belongs ((u.update_fits msg q).kept v present).1 ?_
  intro waits
  rcases u.update_uses msg q with ⟨-, states⟩ | ⟨-, -, -, states⟩ | ⟨-, -, -, -, ⟨-, states⟩ | ⟨-, -, states⟩⟩
  · exact belongs.sends ((states v present).symm.trans waits)
  · exact belongs.sends ((states v present).symm.trans waits)
  · exact absurd ((states v present).symm.trans waits) nofun
  · exact absurd ((states v present).symm.trans waits) nofun

theorem init_belongs (belongs : u.Belongs endp) (present : (u.init q).urb = some v) :
    v.Belongs endp := by
  rcases u.init_uses q with ⟨-, -, kept⟩ | ⟨-, -, plain, w, began, same, -, states⟩ |
    ⟨-, -, -, -, w, began, same, -, state⟩
  · cases kept.symm.trans present
    exact belongs
  · cases began.symm.trans present
    refine belongs_of_same belongs same ?_
    intro waits
    rcases states with ⟨-, state⟩ | ⟨data, -⟩
    · exact absurd (state.symm.trans waits) nofun
    · exact plain.resolve_left (by rw [data]; nofun)
  · cases began.symm.trans present
    exact belongs_of_same belongs same fun waits => absurd (state.symm.trans waits) nofun

theorem resume_belongs (belongs : u.Belongs endp) (present : (u.resume q).urb = some v) :
    v.Belongs endp := by
  rcases u.resume_uses q with ⟨-, eq⟩ | ⟨-, -, gone⟩ | ⟨-, -, began⟩
  · rw [eq] at present
    cases present
    exact belongs
  · rw [gone] at present
    cases present
  · cases began.symm.trans present
    exact belongs_of_same belongs ⟨rfl, rfl, rfl, rfl⟩ nofun

theorem transferCompletion_belongs {c : BceSqCompletionData} (belongs : u.Belongs endp)
    (present : (u.transferCompletion c q).urb = some v) : v.Belongs endp := by
  refine belongs_of_same belongs ((u.transferCompletion_fits c q).kept v present).1 ?_
  intro waits
  rcases u.transferCompletion_uses c q with ⟨-, states⟩ | ⟨-, -, -, -, gone⟩ | ⟨-, -, -, -, states⟩
  · rcases states v present with state | ⟨-, state⟩ | ⟨-, -, outgoing, -⟩
    · exact belongs.sends (state.symm.trans waits)
    · exact absurd (state.symm.trans waits) nofun
    · exact outgoing
  · rw [gone] at present
    cases present
  · exact absurd ((states v present).symm.trans waits) nofun

end BceVhciUrb

namespace BceVhciTransferQueue

variable {q r s : BceVhciTransferQueue} {u v : BceVhciUrb} {done rest : List BceVhciUrb}

/-- Putting the URB back after a call that keeps it one of the endpoint. -/
theorem afterUrb_wellFormed {call : UrbCall} (wf : WellFormed { q with urbList := done ++ u :: rest })
    (frame : q.Frame call.q) (touches : Touches u.id q call.q)
    (kept : ∀ v, call.urb = some v → v.Belongs q.endp ∧ v.id = u.id) :
    WellFormed (afterUrb done rest call) where
  urbs := by
    intro v member
    show v.Belongs call.q.endp
    rw [frame.endp]
    simp only [afterUrb, List.mem_append, Option.mem_toList] at member
    rcases member with passed | here | later
    · exact wf.urbs v (List.mem_append_left _ passed)
    · exact (kept v here).1
    · exact wf.urbs v (by simp [later])
  present := by
    intro out
    show (call.q.sq out).isSome ↔ (call.q.endp.num = 0 ∨ call.q.endp.dirIn = !out)
    rw [touches.present, frame.endp]
    exact wf.present out
  distinct := by
    have distinct := wf.distinct
    cases present : call.urb with
    | none =>
      simp only [afterUrb, present, Option.toList_none, List.nil_append]
      refine distinct.sublist ?_
      simp
    | some v =>
      simp only [afterUrb, present, Option.toList_some, List.singleton_append, List.map_append,
        List.map_cons, (kept v present).2] at distinct ⊢
      exact distinct

/-- A queue that differs in nothing the well-formedness is about. -/
theorem wellFormed_of_same (wf : q.WellFormed) (endp : r.endp = q.endp)
    (present : ∀ out, (r.sq out).isSome = (q.sq out).isSome)
    (urbs : ∀ v ∈ r.urbList, v ∈ q.urbList)
    (distinct : (r.urbList.map BceVhciUrb.id).Sublist (q.urbList.map BceVhciUrb.id)) :
    r.WellFormed where
  urbs := by
    intro v member
    rw [endp]
    exact wf.urbs v (urbs v member)
  present := by
    intro out
    rw [present, endp]
    exact wf.present out
  distinct := wf.distinct.sublist distinct

/-- Starting a pending URB in its place keeps the queue well formed. -/
theorem init_wellFormed (wf : WellFormed { q with urbList := done ++ u :: rest }) :
    WellFormed (afterUrb done rest (u.init q)) := by
  have belongs : u.Belongs q.endp := wf.urbs u (by simp)
  refine afterUrb_wellFormed wf (u.init_frame q).1 (u.init_touches q) ?_
  intro v present
  exact ⟨BceVhciUrb.init_belongs belongs present, BceVhciUrb.init_id present⟩

/-- A call for the URB at the head of the list keeps the queue well formed. -/
theorem head_wellFormed {call : UrbCall} (wf : q.WellFormed) (linked : q.urbList = u :: rest)
    (fits : UrbCall.Fits u q call) (touches : Touches u.id q call.q)
    (belongs : ∀ v, call.urb = some v → v.Belongs q.endp) : (afterUrb [] rest call).WellFormed := by
  have here : WellFormed { q with urbList := [] ++ u :: rest } := by
    rw [List.nil_append, ← linked]
    exact wf
  refine afterUrb_wellFormed here fits.frame touches ?_
  · intro v present
    exact ⟨belongs v present, (fits.kept v present).1.id⟩

theorem update_wellFormed (wf : q.WellFormed) (linked : q.urbList = u :: rest)
    (msg : BceVhciMessage) : (afterUrb [] rest (u.update msg q)).WellFormed := by
  refine head_wellFormed wf linked (u.update_fits msg q) (u.update_touches msg q) ?_
  intro v present
  exact BceVhciUrb.update_belongs (wf.urbs u (by simp [linked])) present

theorem wellFormed_loopSafe : LoopSafe WellFormed where
  start _ _ _ _ _ wf := init_wellFormed wf
  update _ _ msg _ linked wf := update_wellFormed wf linked msg
  defer _ _ wf := ⟨wf.urbs, wf.present, wf.distinct⟩

theorem deliverLoop_wellFormed (msgs : List BceVhciMessage) (wf : q.WellFormed) :
    (deliverLoop msgs q).WellFormed :=
  wellFormed_loopSafe.deliverLoop msgs wf

theorem deliverPending_wellFormed (wf : q.WellFormed) : q.deliverPending.WellFormed :=
  wellFormed_loopSafe.deliverPending wf

theorem resume_wellFormed (wf : WellFormed { q with urbList := done ++ u :: rest }) :
    WellFormed (afterUrb done rest (u.resume q)) := by
  have belongs : u.Belongs q.endp := wf.urbs u (by simp)
  have fits := u.resume_fits q
  refine afterUrb_wellFormed wf fits.frame (u.resume_touches q) ?_
  intro v present
  exact ⟨BceVhciUrb.resume_belongs belongs present, (fits.kept v present).1.id⟩

theorem resumeLoop_wellFormed (done rest : List BceVhciUrb) (q : BceVhciTransferQueue)
    (wf : WellFormed { q with urbList := done ++ rest }) : (resumeLoop done rest q).WellFormed :=
  resumeLoop_invariant (fun _ _ _ _ _ wf => init_wellFormed wf)
    (fun _ _ _ _ _ wf => resume_wellFormed wf) done rest q wf

theorem event_wellFormed (wf : q.WellFormed) (msg : BceVhciMessage) (allocated : Bool) :
    (q.event msg allocated).WellFormed :=
  wellFormed_loopSafe.event (fun _ wf => ⟨wf.urbs, wf.present, wf.distinct⟩) wf msg allocated

theorem notify_present (q : BceVhciTransferQueue) (out side : Bool) :
    ((q.notifySubmissionComplete out).sq side).isSome = (q.sq side).isSome := by
  unfold notifySubmissionComplete
  split
  · rfl
  · rename_i fifo present
    rcases Bool.eq_or_eq_not side out with rfl | rfl
    · rw [setSq_sq_same, present, Option.isSome_some, Option.isSome_some]
    · rw [setSq_sq_other]

/-- A completion keeps it, also one that a ghost absorbs. -/
theorem completion_wellFormed (wf : q.WellFormed) (out : Bool) (c : BceSqCompletionData) :
    (q.completion out c).WellFormed := by
  have body : (q.completionBody out c).WellFormed := by
    rcases q.completionBody_cases out c with same | ⟨-, -, absorbs⟩ | ⟨urb, rest, -, -, linked, -, taken⟩
    · rw [same]
      exact wf
    · rw [absorbs]
      refine wellFormed_loopSafe.initPendingUrbs ?_
      cases out <;> exact ⟨wf.urbs, wf.present, wf.distinct⟩
    · rw [taken]
      refine head_wellFormed wf linked (urb.transferCompletion_fits c q)
        (urb.transferCompletion_touches c q) ?_
      intro v present
      exact BceVhciUrb.transferCompletion_belongs (wf.urbs urb (by simp [linked])) present
  have counted : ((q.completionBody out c).outputDone out).WellFormed := by
    obtain ⟨pending, wakeups, accounted⟩ := (q.completionBody out c).outputDone_eq out
    rw [accounted]
    exact ⟨body.urbs, body.present, body.distinct⟩
  have urbs : (q.completion out c).urbList = ((q.completionBody out c).outputDone out).urbList ∧
      (q.completion out c).endp = ((q.completionBody out c).outputDone out).endp := by
    obtain ⟨sqIn, sqOut, notified⟩ := ((q.completionBody out c).outputDone out).notifySubmissionComplete_eq out
    rw [completion, notified]
    exact ⟨rfl, rfl⟩
  refine wellFormed_of_same counted urbs.2 (notify_present _ out) ?_ ?_
  · intro v member
    rwa [urbs.1] at member
  · rw [urbs.1]

theorem resumeSection_wellFormed (wf : q.WellFormed) : q.resumeSection.WellFormed := by
  have activated : WellFormed { q with active := true } := ⟨wf.urbs, wf.present, wf.distinct⟩
  exact deliverPending_wellFormed (resumeLoop_wellFormed [] _ _ activated)

/-- Cancelling takes URBs away and adds none. -/
theorem cancelLoop_wellFormed (rest : List BceVhciUrb) (q : BceVhciTransferQueue)
    (wf : WellFormed { q with urbList := rest }) : (cancelLoop rest q).WellFormed := by
  induction rest generalizing q with
  | nil => exact wf
  | cons urb rest ih =>
    refine ih _ ⟨?_, wf.present, ?_⟩
    · exact fun v member => wf.urbs v (List.mem_cons_of_mem _ member)
    · exact (List.nodup_cons.mp wf.distinct).2

theorem newUrb_belongs (q : BceVhciTransferQueue) (urb : Urb)
    (way : q.endp.num ≠ 0 → urb.dirIn = q.endp.dirIn) : (q.newUrb urb).Belongs q.endp :=
  ⟨rfl, rfl, way, nofun⟩

/-- A new URB that is linked behind the others. -/
theorem linked_wellFormed (wf : q.WellFormed) (urb : Urb)
    (way : q.endp.num ≠ 0 → urb.dirIn = q.endp.dirIn) (fresh : ∀ u ∈ q.urbList, u.id ≠ urb.id) :
    WellFormed { q with urbList := q.urbList ++ [q.newUrb urb] } where
  urbs := by
    intro v member
    rcases List.mem_append.mp member with old | new
    · exact wf.urbs v old
    · rw [List.mem_singleton.mp new]
      exact q.newUrb_belongs urb way
  present := wf.present
  distinct := by
    rw [List.map_append, List.nodup_append]
    refine ⟨wf.distinct, List.nodup_singleton _, ?_⟩
    intro id old _ new same
    obtain ⟨u, member, rfl⟩ := List.mem_map.mp old
    rw [List.map_singleton, List.mem_singleton] at new
    exact fresh u member (same.trans new)

/-- An URB that cannot be started is not linked. -/
theorem init_failed_wellFormed {e : Errno} (wf : q.WellFormed) (failed : (u.init q).ret = some e) :
    (u.init q).q.WellFormed := by
  have frame := BceVhciUrb.init_failed failed
  refine wellFormed_of_same wf frame.endp (u.init_touches q).present ?_ ?_
  · intro v member
    rwa [frame.urbList] at member
  · rw [frame.urbList]

/-- A new URB is linked behind the others, with an id that none of them has. -/
theorem urbCreate_wellFormed (wf : q.WellFormed) (urb : Urb) (allocated : Bool) (link : Option Errno)
    (way : q.endp.num ≠ 0 → urb.dirIn = q.endp.dirIn) (fresh : ∀ u ∈ q.urbList, u.id ≠ urb.id) :
    (q.urbCreate urb allocated link).2.WellFormed := by
  have linked := linked_wellFormed wf urb way fresh
  rcases q.urbCreate_outcomes urb allocated link with
    ⟨e, ran⟩ | ⟨e, -, -, failed, ran⟩ | ⟨-, -, -, ran⟩ | ⟨-, -, -, wReset, wResume, ran⟩
  · rw [ran]
    exact wf
  · rw [ran]
    exact init_failed_wellFormed wf failed
  · rw [ran]
    exact deliverPending_wellFormed (init_wellFormed linked)
  · rw [ran]
    exact deliverPending_wellFormed ⟨linked.urbs, linked.present, linked.distinct⟩

theorem urbRequestCancel_wellFormed (wf : q.WellFormed) (id : Nat) (status : Int) :
    (q.urbRequestCancel id status).2.WellFormed := by
  rcases q.urbRequestCancel_cases id status with ⟨e, run⟩ | run | ⟨before, vurb, after, linked, -, cases⟩
  · rw [run]
    exact wf
  · rw [run]
    exact wf
  · have slot : ∀ out, ((q.cancelSlot vurb).sq out).isSome = (q.sq out).isSome := by
      intro out
      obtain ⟨_, _, _, cancelled⟩ := q.cancelSlot_eq vurb
      rw [cancelled]
      rfl
    have removed : WellFormed (q.unlinked vurb (before ++ after)) := by
      refine wellFormed_of_same wf (q.cancelSlot_frame vurb).2.2.1 slot ?_ ?_
      · intro v member
        have member : v ∈ before ++ after := member
        rw [linked]
        simp only [List.mem_append, List.mem_cons] at member ⊢
        exact member.imp_right .inr
      · show ((before ++ after).map BceVhciUrb.id).Sublist _
        rw [linked]
        simp
    rcases cases with ⟨run, -⟩ | run
    · rw [run]
      exact removed
    · rw [run]
      exact ⟨removed.urbs, removed.present, removed.distinct⟩

end BceVhciTransferQueue

end AppleBce

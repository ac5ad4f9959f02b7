import AppleBce.Vhci.SubmissionLine

namespace AppleBce

open Basis

namespace BceVhciTransferQueue

variable {known gone : List Nat} {clear : Prop} {out : Bool} {q r : BceVhciTransferQueue} {u v : BceVhciUrb}
  {done rest : List BceVhciUrb} {call : UrbCall}

/-- Going from `q` to `r` an URB may get submissions, behind those there are. -/
def Adds (id : Nat) (q r : BceVhciTransferQueue) : Prop :=
  ∀ out, r.owners out = q.owners out ∨ r.owners out = q.owners out ++ [id]

theorem SqKept.adds (kept : q.SqKept r) (id : Nat) : Adds id q r :=
  fun out => .inl (owners_of_outstanding (kept.outstanding out))

theorem Refuses.adds {side : Bool} (refuses : Refuses side q r) (id : Nat) : Adds id q r :=
  fun out => .inl (owners_of_outstanding (outstanding_of_sq (refuses.sq out)))

theorem Submits.adds {side : Bool} {x : UrbSubmission} (submits : Submits side x q r) : Adds x.urb q r := by
  intro out
  rcases Bool.eq_or_eq_not out side with rfl | rfl
  · exact .inr submits.owners
  · exact .inl (owners_of_outstanding (outstanding_of_sq submits.other))

theorem not_owner_of_loads {id : Nat} (none : q.loads id = 0) (out : Bool) : id ∉ q.owners out := by
  have empty : q.load out id = 0 := by
    unfold loads at none
    cases out <;> omega
  intro owner
  obtain ⟨x, member, own⟩ := List.mem_map.mp owner
  simpa [own] using List.countP_eq_zero.mp empty x member

theorem loads_of_not_owner {id : Nat} (none : ∀ out, id ∉ q.owners out) : q.loads id = 0 := by
  have empty : ∀ out, q.load out id = 0 := by
    intro out
    refine List.countP_eq_zero.mpr ?_
    intro x member own
    exact none out (List.mem_map.mpr ⟨x, member, by simpa using own⟩)
  rw [loads, empty, empty]

end BceVhciTransferQueue

namespace BceVhciUrb

open BceVhciTransferQueue

variable {u v : BceVhciUrb} {q : BceVhciTransferQueue}

theorem init_adds (u : BceVhciUrb) (q : BceVhciTransferQueue) : Adds u.id q (u.init q).q := by
  rcases u.init_uses q with ⟨refuses, -⟩ | ⟨kept, -⟩ | ⟨submits, -⟩
  · exact refuses.adds u.id
  · exact kept.adds u.id
  · exact submits.adds

theorem update_adds (u : BceVhciUrb) (msg : BceVhciMessage) (q : BceVhciTransferQueue) :
    Adds u.id q (u.update msg q).q := by
  rcases u.update_uses msg q with ⟨kept, -⟩ | ⟨refuses, -⟩ | ⟨x, own, submits, -⟩
  · exact kept.adds u.id
  · exact refuses.adds u.id
  · rw [← own]
    exact submits.adds

theorem transferCompletion_adds (u : BceVhciUrb) (c : BceSqCompletionData) (q : BceVhciTransferQueue) :
    Adds u.id q (u.transferCompletion c q).q := by
  rcases u.transferCompletion_uses c q with ⟨kept, -⟩ | ⟨-, -, -, refuses, -⟩ | ⟨-, -, -, submits, -⟩
  · exact kept.adds u.id
  · exact refuses.adds u.id
  · exact submits.adds

theorem resume_adds (u : BceVhciUrb) (q : BceVhciTransferQueue) : Adds u.id q (u.resume q).q := by
  rcases u.resume_uses q with ⟨-, eq⟩ | ⟨-, refuses, -⟩ | ⟨-, submits, -⟩
  · rw [eq]
    exact (SqKept.refl q).adds u.id
  · exact refuses.adds u.id
  · exact submits.adds

end BceVhciUrb

namespace BceVhciTransferQueue

variable {known gone : List Nat} {clear : Prop} {out : Bool} {q r : BceVhciTransferQueue} {u v : BceVhciUrb}
  {done rest : List BceVhciUrb} {call : UrbCall}

/-- On a control endpoint at most the URB at the head has submissions, and only once it is started. The
others are of URBs created before, and none of the URBs `gone` when it is `clear` that these left nothing
behind. -/
structure HeadOwned (known gone : List Nat) (clear : Prop) (q : BceVhciTransferQueue) : Prop where
  wf : q.WellFormed
  control : q.endp.num = 0
  created : ∀ u ∈ q.urbList, u.id ∈ known ∧ u.id ∉ gone
  owned : ∀ out, ∀ id ∈ q.owners out, id ∈ known ∧ (clear → id ∉ gone)
  tail : ∀ u ∈ q.urbList.tail, u.state ≠ .waitingForCompletion ∧ q.loads u.id = 0
  idle : ∀ u ∈ q.urbList, u.state = .initPending → q.loads u.id = 0

/-- The URB whose submission is the oldest is at the head and was started. -/
theorem HeadOwned.front (held : q.HeadOwned known gone clear) (owner : u.id ∈ q.owners out)
    (linked : u ∈ q.urbList) :
    ∃ rest, q.urbList = u :: rest ∧ u.state ≠ .initPending := by
  have loaded : q.loads u.id ≠ 0 := fun none => not_owner_of_loads none out owner
  have started : u.state ≠ .initPending := fun pending => loaded (held.idle u linked pending)
  cases urbs : q.urbList with
  | nil => simp [urbs] at linked
  | cons w rest =>
    rw [urbs] at linked
    rcases List.mem_cons.mp linked with rfl | later
    · exact ⟨rest, rfl, started⟩
    · exact absurd (held.tail u (by simp [urbs, later])).2 loaded

/-- Putting an URB back that has a submission, or waits for one, at most at the head. -/
theorem HeadOwned.afterUrb (held : HeadOwned known gone clear { q with urbList := done ++ u :: rest })
    (wf : (afterUrb done rest call).WellFormed) (frame : q.Frame call.q) (touches : Touches u.id q call.q)
    (adds : Adds u.id q call.q)
    (kept : ∀ v, call.urb = some v → v.id = u.id ∧ (v.state = .initPending → call.q.loads u.id = 0) ∧
      (done ≠ [] → v.state ≠ .waitingForCompletion ∧ call.q.loads u.id = 0)) :
    (afterUrb done rest call).HeadOwned known gone clear := by
  have apart := apart_of_distinct held.wf
  have here := held.created u (by simp)
  have others : ∀ w ∈ done ++ rest, call.q.loads w.id = q.loads w.id := fun w member =>
    touches.loads_other (apart w member)
  have old : ∀ w ∈ done ++ rest, w ∈ done ++ u :: rest := by
    intro w member
    simp only [List.mem_append, List.mem_cons] at member ⊢
    exact member.imp_right .inr
  have linked : ∀ w ∈ (BceVhciTransferQueue.afterUrb done rest call).urbList,
    call.urb = some w ∨ w ∈ done ++ rest := by
    intro w member
    simp only [BceVhciTransferQueue.afterUrb, List.mem_append, Option.mem_toList] at member ⊢
    rcases member with passed | kept | later
    · exact .inr (.inl passed)
    · exact .inl kept
    · exact .inr (.inr later)
  refine ⟨wf, frame.endp ▸ held.control, ?_, ?_, ?_, ?_⟩
  · intro w member
    rcases linked w member with back | other
    · rw [(kept w back).1]
      exact here
    · exact held.created w (old w other)
  · intro out id owner
    have owner : id ∈ call.q.owners out := owner
    rcases adds out with same | more
    · exact held.owned out id (same ▸ owner)
    · rw [more] at owner
      rcases List.mem_append.mp owner with before | new
      · exact held.owned out id before
      · rw [List.mem_singleton.mp new]
        exact ⟨here.1, fun _ => here.2⟩
  · intro w member
    -- what is behind the head was there before, or is the URB that is put back
    have behind : (call.urb = some w ∧ done ≠ []) ∨ (w ∈ done ++ rest ∧ w ∈ (done ++ u :: rest).tail) := by
      cases done with
      | nil =>
        right
        have later : w ∈ rest := by
          cases present : call.urb with
          | none =>
            simp only [BceVhciTransferQueue.afterUrb, present, Option.toList_none, List.nil_append] at member
            exact List.mem_of_mem_tail member
          | some v =>
            simp only [BceVhciTransferQueue.afterUrb, present, Option.toList_some, List.nil_append,
              List.singleton_append, List.tail_cons] at member
            exact member
        exact ⟨later, later⟩
      | cons d ds =>
        simp only [BceVhciTransferQueue.afterUrb, List.cons_append, List.tail_cons, List.mem_append,
          Option.mem_toList] at member
        rcases member with passed | back | later
        · exact .inr (by simp [passed])
        · exact .inl ⟨back, by simp⟩
        · exact .inr (by simp [later])
    rcases behind with ⟨back, passed⟩ | ⟨other, tail⟩
    · obtain ⟨same, -, quiet⟩ := kept w back
      show w.state ≠ .waitingForCompletion ∧ call.q.loads w.id = 0
      rw [same]
      exact quiet passed
    · show w.state ≠ .waitingForCompletion ∧ call.q.loads w.id = 0
      rw [others w other]
      exact held.tail w tail
  · intro w member pending
    show call.q.loads w.id = 0
    rcases linked w member with back | other
    · obtain ⟨same, idle, -⟩ := kept w back
      rw [same]
      exact idle pending
    · rw [others w other]
      exact held.idle w (old w other) pending

/-- Starting a control URB needs no submission. -/
theorem HeadOwned.init (held : HeadOwned known gone clear { q with urbList := done ++ u :: rest })
    (pending : u.state = .initPending) :
    (BceVhciTransferQueue.afterUrb done rest (u.init q)).HeadOwned known gone clear := by
  have member : u ∈ done ++ u :: rest := by simp
  have none : q.loads u.id = 0 := held.idle u member pending
  have isControl : u.isControl = true := (held.wf.urbs u member).isControl.trans (decide_eq_true held.control)
  refine held.afterUrb (init_wellFormed held.wf) (u.init_frame q).1 (u.init_touches q) (u.init_adds q) ?_
  intro v present
  refine ⟨BceVhciUrb.init_id present, ?_⟩
  rcases u.init_uses q with ⟨refuses, -, same⟩ | ⟨kept, -, -, w, began, -, -, states⟩ | ⟨-, -, data, -⟩
  · cases same.symm.trans present
    rw [refuses.loads]
    exact ⟨fun _ => none, fun _ => ⟨by rw [pending]; nofun, none⟩⟩
  · cases began.symm.trans present
    rw [kept.loads]
    refine ⟨fun _ => none, fun _ => ⟨?_, none⟩⟩
    rcases states with ⟨-, state⟩ | ⟨-, state | state⟩ <;> rw [state] <;> nofun
  · rw [isControl] at data
    cases data

/-- What happens to the URB at the head. -/
theorem HeadOwned.head (held : q.HeadOwned known gone clear) (linked : q.urbList = u :: rest)
    (wf : (BceVhciTransferQueue.afterUrb [] rest call).WellFormed) (frame : q.Frame call.q)
    (touches : Touches u.id q call.q) (adds : Adds u.id q call.q)
    (kept : ∀ v, call.urb = some v → v.id = u.id ∧ (v.state = .initPending → call.q.loads u.id = 0)) :
    (BceVhciTransferQueue.afterUrb [] rest call).HeadOwned known gone clear := by
  have here : HeadOwned known gone clear { q with urbList := [] ++ u :: rest } := by
    rw [List.nil_append, ← linked]
    exact held
  refine here.afterUrb wf frame touches adds ?_
  intro v present
  exact ⟨(kept v present).1, (kept v present).2, fun passed => absurd rfl passed⟩

theorem HeadOwned.update (held : q.HeadOwned known gone clear) (linked : q.urbList = u :: rest)
    (msg : BceVhciMessage) :
    (BceVhciTransferQueue.afterUrb [] rest (u.update msg q)).HeadOwned known gone clear := by
  have fits := u.update_fits msg q
  refine held.head linked (update_wellFormed held.wf linked msg) fits.frame (u.update_touches msg q)
    (u.update_adds msg q) ?_
  intro v present
  refine ⟨(fits.kept v present).1.id, ?_⟩
  intro pending
  have idle := held.idle u (by simp [linked])
  rcases u.update_uses msg q with ⟨kept, state⟩ | ⟨refuses, -, -, state⟩ | ⟨-, -, -, -, ⟨-, state⟩ | ⟨-, -, state⟩⟩
  · rw [kept.loads]
    exact idle ((state v present).symm.trans pending)
  · rw [refuses.loads]
    exact idle ((state v present).symm.trans pending)
  · exact absurd ((state v present).symm.trans pending) nofun
  · exact absurd ((state v present).symm.trans pending) nofun

/-- A queue with the URBs and the submissions of another one, or fewer. -/
theorem HeadOwned.of_fewer {gone' : List Nat} {clear' : Prop} (held : q.HeadOwned known gone clear)
    (wf : r.WellFormed) (endp : r.endp = q.endp) (urbs : ∀ u ∈ r.urbList, u ∈ q.urbList ∧ u.id ∉ gone')
    (tail : ∀ u ∈ r.urbList.tail, u ∈ q.urbList.tail)
    (owned : ∀ out, (r.owners out).Sublist (q.owners out))
    (left : clear' → ∀ out, ∀ id ∈ r.owners out, id ∉ gone') : r.HeadOwned known gone' clear' := by
  have loads : ∀ id, q.loads id = 0 → r.loads id = 0 := fun id none =>
    loads_of_not_owner fun out owner => not_owner_of_loads none out ((owned out).subset owner)
  refine ⟨wf, endp ▸ held.control, ?_, ?_, ?_, ?_⟩
  · exact fun u member => ⟨(held.created u (urbs u member).1).1, (urbs u member).2⟩
  · exact fun out id owner => ⟨(held.owned out id ((owned out).subset owner)).1, fun now => left now out id owner⟩
  · exact fun u member => (held.tail u (tail u member)).imp_right (loads u.id)
  · exact fun u member pending => loads u.id (held.idle u (urbs u member).1 pending)

theorem HeadOwned.of_same (held : q.HeadOwned known gone clear) (wf : r.WellFormed) (endp : r.endp = q.endp)
    (urbs : r.urbList = q.urbList) (owned : ∀ out, r.owners out = q.owners out) : r.HeadOwned known gone clear := by
  refine held.of_fewer wf endp ?_ ?_ ?_ ?_
  · intro u member
    rw [urbs] at member
    exact ⟨member, (held.created u member).2⟩
  · intro u member
    rwa [urbs] at member
  · intro out
    rw [owned]
  · intro now out id owner
    rw [owned] at owner
    exact (held.owned out id owner).2 now

theorem headOwned_loopSafe (known gone : List Nat) (clear : Prop) : LoopSafe (HeadOwned known gone clear) where
  start := fun _ _ _ _ pending held => held.init pending
  update := fun _ _ msg _ linked held => held.update linked msg
  defer := fun _ _ held => held.of_same ⟨held.wf.urbs, held.wf.present, held.wf.distinct⟩ rfl rfl fun _ => rfl

theorem HeadOwned.event (held : q.HeadOwned known gone clear) (msg : BceVhciMessage) (allocated : Bool) :
    (q.event msg allocated).HeadOwned known gone clear := by
  refine (headOwned_loopSafe known gone clear).event ?_ held msg allocated
  exact fun r held => held.of_same ⟨held.wf.urbs, held.wf.present, held.wf.distinct⟩ rfl rfl fun _ => rfl

theorem HeadOwned.completionBody (held : q.HeadOwned known gone clear) (out : Bool) (c : BceSqCompletionData) :
    (q.completionBody out c).HeadOwned known gone clear := by
  rcases q.completionBody_cases out c with same | ⟨-, -, absorbs⟩ | ⟨urb, rest, -, -, linked, started, taken⟩
  · rw [same]
    exact held
  · rw [absorbs]
    refine (headOwned_loopSafe known gone clear).initPendingUrbs ?_
    have wf := held.wf
    cases out <;>
      exact held.of_same ⟨wf.urbs, wf.present, wf.distinct⟩ rfl rfl fun side => by cases side <;> rfl
  · rw [taken]
    have fits := urb.transferCompletion_fits c q
    refine held.head linked ?_ fits.frame (urb.transferCompletion_touches c q) (urb.transferCompletion_adds c q) ?_
    · exact head_wellFormed held.wf linked fits (urb.transferCompletion_touches c q) fun v present =>
        BceVhciUrb.transferCompletion_belongs (held.wf.urbs urb (by simp [linked])) present
    · intro v present
      obtain ⟨same, begun, -⟩ := fits.kept v present
      refine ⟨same.id, fun pending => ?_⟩
      rw [BceVhciUrb.started_of_ne started] at begun
      simp [BceVhciUrb.started, pending] at begun

theorem HeadOwned.completion (held : q.HeadOwned known gone clear) (out : Bool) (c : BceSqCompletionData) :
    (q.completion out c).HeadOwned known gone clear := by
  have body := held.completionBody out c
  have pops := q.completion_pops out c
  have fewer : ∀ side, ((q.completion out c).owners side).Sublist ((q.completionBody out c).owners side) := by
    intro side
    rcases Bool.eq_or_eq_not side out with rfl | rfl
    · rw [pops.owners]
      exact List.tail_sublist _
    · rw [owners_of_outstanding pops.other]
  refine body.of_fewer (completion_wellFormed held.wf out c) ?_ ?_ ?_ fewer ?_
  · exact (q.completion_balanced out c).endp.trans (q.completionBody_balanced out c).endp.symm
  · intro u member
    rw [pops.urbList] at member
    exact ⟨member, (body.created u member).2⟩
  · rw [pops.urbList]
    exact fun u member => member
  · exact fun now side id owner => (body.owned side id ((fewer side).subset owner)).2 now

theorem HeadOwned.resume {urb : BceVhciUrb}
    (held : HeadOwned known gone clear { q with urbList := done ++ urb :: rest })
    (started : urb.state ≠ .initPending) :
    (BceVhciTransferQueue.afterUrb done rest (urb.resume q)).HeadOwned known gone clear := by
  have fits := urb.resume_fits q
  refine held.afterUrb (resume_wellFormed held.wf) fits.frame (urb.resume_touches q) (urb.resume_adds q) ?_
  intro v present
  refine ⟨(fits.kept v present).1.id, ?_, ?_⟩
  · intro pending
    have kept := (fits.kept v present).2.1
    simp [BceVhciUrb.started, pending, started] at kept
  · -- only the URB at the head may be submitted again
    intro passed
    have behind : urb ∈ (done ++ urb :: rest).tail := by
      cases done with
      | nil => exact absurd rfl passed
      | cons d ds => simp
    obtain ⟨quiet, none⟩ := held.tail urb behind
    have same := BceVhciUrb.resume_idle (q := q) quiet
    rw [same] at present ⊢
    cases present
    exact ⟨quiet, none⟩

theorem HeadOwned.resumeLoop (done rest : List BceVhciUrb) (q : BceVhciTransferQueue)
    (held : HeadOwned known gone clear { q with urbList := done ++ rest }) :
    (resumeLoop done rest q).HeadOwned known gone clear :=
  resumeLoop_invariant (fun _ _ _ _ pending held => held.init pending)
    (fun _ _ _ _ started held => held.resume started)
    done rest q held

theorem HeadOwned.resumeSection (held : q.HeadOwned known gone clear) :
    q.resumeSection.HeadOwned known gone clear := by
  refine (headOwned_loopSafe known gone clear).deliverPending
    (HeadOwned.resumeLoop [] q.urbList { q with active := true } ?_)
  exact held.of_same ⟨held.wf.urbs, held.wf.present, held.wf.distinct⟩ rfl rfl fun _ => rfl

theorem HeadOwned.cancelAll (held : q.HeadOwned known gone clear) : q.cancelAll.HeadOwned known gone clear := by
  obtain ⟨urbs, kept, -⟩ := cancelLoop_same q.urbList { q with active := false }
  have none : q.cancelAll.urbList = [] := urbs
  have owned : ∀ out, q.cancelAll.owners out = q.owners out :=
    fun out => owners_of_outstanding (kept.outstanding out)
  refine held.of_fewer (cancelLoop_wellFormed q.urbList { q with active := false } ⟨held.wf.urbs, held.wf.present,
    held.wf.distinct⟩) q.cancelAll_conserves.endp ?_ ?_ ?_ ?_
  · rw [none]
    exact List.forall_mem_nil _
  · rw [none]
    exact List.forall_mem_nil _
  · intro out
    rw [owned]
  · intro now out id owner
    rw [owned] at owner
    exact (held.owned out id owner).2 now

/-- A new URB is linked behind the others. -/
theorem HeadOwned.linked {urb : Urb} (held : q.HeadOwned known gone clear)
    (fresh : urb.id ∉ known ∧ urb.id ∉ gone) :
    HeadOwned (known ++ [urb.id]) gone clear { q with urbList := q.urbList ++ [q.newUrb urb] } := by
  have apart : ∀ u ∈ q.urbList, u.id ≠ urb.id := fun u member same => fresh.1 (same ▸ (held.created u member).1)
  have none : q.loads urb.id = 0 :=
    loads_of_not_owner fun out owner => fresh.1 (held.owned out urb.id owner).1
  refine ⟨linked_wellFormed held.wf urb (fun data => absurd held.control data) apart, held.control, ?_, ?_, ?_, ?_⟩
  · intro v member
    rcases List.mem_append.mp member with old | new
    · exact (held.created v old).imp_left (List.mem_append_left _)
    · rw [List.mem_singleton.mp new]
      exact ⟨List.mem_append_right _ (List.mem_singleton.mpr rfl), fresh.2⟩
  · exact fun out id owner => (held.owned out id owner).imp_left (List.mem_append_left _)
  · intro v member
    have member : v ∈ (q.urbList ++ [q.newUrb urb]).tail := member
    cases urbs : q.urbList with
    | nil => simp [urbs] at member
    | cons w rest =>
      simp only [urbs, List.cons_append, List.tail_cons] at member
      rcases List.mem_append.mp member with old | new
      · exact held.tail v (by simp [urbs, old])
      · rw [List.mem_singleton.mp new]
        exact ⟨nofun, none⟩
  · intro v member pending
    rcases List.mem_append.mp member with old | new
    · exact held.idle v old pending
    · rw [List.mem_singleton.mp new]
      exact none

theorem HeadOwned.create {urb : Urb} (held : q.HeadOwned known gone clear) (allocated : Bool) (link : Option Errno)
    (fresh : urb.id ∉ known ∧ urb.id ∉ gone) :
    (∃ e, (q.urbCreate urb allocated link).1 = some e ∧
      (q.urbCreate urb allocated link).2.HeadOwned known gone clear) ∨
    ((q.urbCreate urb allocated link).1 = none ∧
      (q.urbCreate urb allocated link).2.HeadOwned (known ++ [urb.id]) gone clear) := by
  have linked := held.linked fresh
  have safe := headOwned_loopSafe (known ++ [urb.id]) gone clear
  rcases q.urbCreate_outcomes urb allocated link with
    ⟨e, ran⟩ | ⟨e, -, -, failed, ran⟩ | ⟨-, -, -, ran⟩ | ⟨-, -, -, wReset, wResume, ran⟩
  · rw [ran]
    exact .inl ⟨e, rfl, held⟩
  · rw [ran]
    refine .inl ⟨e, rfl, ?_⟩
    have frame := BceVhciUrb.init_failed failed
    refine held.of_same (init_failed_wellFormed held.wf failed) frame.endp frame.urbList fun out => ?_
    have refuses := BceVhciUrb.init_refuses failed
    exact owners_of_outstanding (outstanding_of_sq (refuses.sq out))
  · rw [ran]
    exact .inr ⟨rfl, safe.deliverPending (safe.start q.urbList (q.newUrb urb) [] q rfl linked)⟩
  · rw [ran]
    have wf := linked.wf
    exact .inr ⟨rfl, safe.deliverPending (linked.of_same ⟨wf.urbs, wf.present, wf.distinct⟩ rfl rfl fun _ => rfl)⟩

/-- A cancel takes an URB out of the list. -/
theorem HeadOwned.cancel {gone' : List Nat} {clear' : Prop} {before after : List BceVhciUrb}
    (held : q.HeadOwned known gone clear) (linked : q.urbList = before ++ u :: after)
    (more : ∀ w ∈ before ++ after, w.id ∉ gone') (left : clear' → ∀ out, ∀ id ∈ q.owners out, id ∉ gone') :
    (q.unlinked u (before ++ after)).HeadOwned known gone' clear' := by
  have kept := (q.cancelSlot_same u).1
  have owned : ∀ out, (q.unlinked u (before ++ after)).owners out = q.owners out := fun out =>
    owners_of_outstanding (kept.outstanding out)
  have fewer : (before ++ after).Sublist q.urbList := linked ▸ unlinked_sublist before u after
  refine held.of_fewer ?_ (q.cancelSlot_frame u).2.2.1 ?_ ?_ ?_ ?_
  · refine wellFormed_of_same held.wf (q.cancelSlot_frame u).2.2.1 ?_ ?_ (fewer.map _)
    · exact fun out => congrArg Option.isSome (kept.sq out)
    · exact fun w member => fewer.subset member
  · exact fun w member => ⟨fewer.subset member, more w member⟩
  · intro w member
    have member : w ∈ (before ++ after).tail := member
    rw [linked]
    cases before with
    | nil => exact List.mem_of_mem_tail member
    | cons b bs =>
      simp only [List.cons_append, List.tail_cons, List.mem_append, List.mem_cons] at member ⊢
      exact member.imp_right .inr
  · intro out
    rw [owned]
  · intro now out id owner
    rw [owned] at owner
    exact left now out id owner

end BceVhciTransferQueue

end AppleBce

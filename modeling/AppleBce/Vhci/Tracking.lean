import AppleBce.Vhci.Linked
import AppleBce.Vhci.LoopRules
import AppleBce.Vhci.Resume

namespace AppleBce

open Basis

namespace BceVhciUrb

open BceVhciTransferQueue

variable {u v : BceVhciUrb} {q : BceVhciTransferQueue}

/-- A control URB that waits to send its data has received no status of a failure. -/
def Settled (u : BceVhciUrb) : Prop :=
  u.isControl → u.state = .waitingForTransferRequest →
    u.receivedStatus = 0 ∨ u.receivedStatus = BceVhciMessageStatus.success.code

/-- Nothing of the URB's next transfer was submitted. -/
def Unsent (u : BceVhciUrb) : Prop :=
  u.state = .initPending ∨ u.state = .waitingForTransferRequest ∨
    u.state = .controlWaitingForSetupRequest

theorem settled_of_state (other : u.state ≠ .waitingForTransferRequest) : u.Settled :=
  fun _ waits => absurd waits other

theorem settled_of_data (data : u.isControl = false) : u.Settled := by
  intro control
  rw [data] at control
  cases control

/-- What is left after a look at the received status is settled. -/
theorem controlCheckStatus_settled (present : (u.controlCheckStatus q).urb = some v) : v.Settled := by
  unfold controlCheckStatus at present
  split at present
  · rename_i none
    cases present
    exact fun _ _ => .inl none
  · split at present
    · simp only at present
      split at present <;> cases present
    · rename_i fine
      cases present
      intro _ waits
      rw [not_or, not_and_or, not_not] at fine
      rcases fine.2 with success | setup
      · exact .inr success
      · simp only [waits, ne_eq, reduceCtorEq, not_false_eq_true, and_self, not_true_eq_false] at setup

theorem andThen_settled {call : UrbCall} (present : (call.andThen controlCheckStatus).urb = some v) :
    v.Settled ∨ call.urb = some v := by
  unfold UrbCall.andThen at present
  split at present
  · exact .inl (controlCheckStatus_settled present)
  · exact .inr present

theorem update_settled {msg : BceVhciMessage} (settled : u.Settled)
    (present : (u.update msg q).urb = some v) : v.Settled := by
  have same := ((u.update_fits msg q).kept v present).1
  cases control : u.isControl with
  | false => exact settled_of_data (same.isControl.trans control)
  | true =>
    unfold update at present
    rw [control, if_pos rfl] at present
    unfold controlUpdate at present
    split at present
    · cases present
      exact settled
    · split at present
      · exact controlCheckStatus_settled present
      · split at present
        · split at present
          · cases present
            exact settled
          · cases present
            exact settled_of_state nofun
        · split at present
          · rcases andThen_settled present with done | kept
            · exact done
            · rcases u.dataUpdate_uses msg q with ⟨-, eq⟩ | ⟨-, -, -, -, same⟩ |
                ⟨-, -, -, x, w, -, -, began, -, state, -⟩
              · rw [eq] at kept
                cases kept
                exact settled
              · cases same.symm.trans kept
                exact settled
              · cases began.symm.trans kept
                exact settled_of_state (by rw [state]; nofun)
          · cases present
            exact settled

theorem transferCompletion_settled {c : BceSqCompletionData} (settled : u.Settled)
    (present : (u.transferCompletion c q).urb = some v) : v.Settled := by
  have same := ((u.transferCompletion_fits c q).kept v present).1
  cases control : u.isControl with
  | false => exact settled_of_data (same.isControl.trans control)
  | true =>
    unfold transferCompletion at present
    rw [control, if_pos rfl] at present
    unfold controlTransferCompletion at present
    split at present
    · simp only at present
      split at present
      · cases present
      · rename_i began
        unfold UrbCall.andThen at present
        split at present
        · exact controlCheckStatus_settled present
        · rename_i ended
          cases result : (u.dataStart q).ret with
          | none => exact absurd present (ended v result)
          | some e => exact absurd present (began e v result)
    · split at present
      · rcases andThen_settled present with done | kept
        · exact done
        · rcases u.dataTransferCompletion_uses c q with ⟨-, ⟨-, eq⟩ | ⟨-, -, -, gone⟩ |
            ⟨-, -, -, -, w, left, -, state, -⟩ | ⟨-, -, -, -, w, left, -, state, -⟩⟩
          · rw [eq] at kept
            cases kept
            exact settled
          · rw [gone] at kept
            cases kept
          · cases left.symm.trans kept
            exact settled_of_state (by rw [state]; nofun)
          · cases left.symm.trans kept
            exact settled_of_state (by rw [state]; nofun)
      · cases present
        exact settled

theorem resume_settled (settled : u.Settled) (present : (u.resume q).urb = some v) : v.Settled := by
  rcases u.resume_uses q with ⟨-, eq⟩ | ⟨-, -, gone⟩ | ⟨-, -, began⟩
  · rw [eq] at present
    cases present
    exact settled
  · rw [gone] at present
    cases present
  · cases began.symm.trans present
    exact settled_of_state nofun

theorem init_settled (settled : u.Settled) (present : (u.init q).urb = some v) : v.Settled := by
  rcases u.init_uses q with ⟨-, -, kept⟩ | ⟨-, -, -, w, began, same, -, states⟩ |
    ⟨-, -, -, -, w, began, -, -, state⟩
  · cases kept.symm.trans present
    exact settled
  · cases began.symm.trans present
    rcases states with ⟨-, state⟩ | ⟨data, -⟩
    · exact settled_of_state (by rw [state]; nofun)
    · exact settled_of_data (same.isControl.trans data)
  · cases began.symm.trans present
    exact settled_of_state (by rw [state]; nofun)

end BceVhciUrb

namespace BceVhciTransferQueue

variable {q r s : BceVhciTransferQueue} {u v : BceVhciUrb} {done rest : List BceVhciUrb}

/-- The submissions of an URB that the T2 has not completed. -/
def loads (q : BceVhciTransferQueue) (id : Nat) : Nat :=
  q.load true id + q.load false id

theorem SqKept.loads (kept : q.SqKept r) (id : Nat) : r.loads id = q.loads id := by
  rw [BceVhciTransferQueue.loads, kept.load, kept.load, BceVhciTransferQueue.loads]

theorem Refuses.loads {out : Bool} (refuses : Refuses out q r) (id : Nat) : r.loads id = q.loads id := by
  rw [BceVhciTransferQueue.loads, refuses.load, refuses.load, BceVhciTransferQueue.loads]

theorem Submits.loads {out : Bool} {x : UrbSubmission} (submits : Submits out x q r) :
    r.loads x.urb = q.loads x.urb + 1 := by
  have same := submits.load_same x.urb
  have other := submits.load_other x.urb
  rw [if_pos rfl] at same
  unfold BceVhciTransferQueue.loads
  cases out <;> simp only [Bool.not_false, Bool.not_true] at other <;> omega

theorem Touches.loads_other {id other : Nat} (touches : Touches id q r) (apart : other ≠ id) :
    r.loads other = q.loads other := by
  rw [BceVhciTransferQueue.loads, touches.loads _ _ apart, touches.loads _ _ apart,
    BceVhciTransferQueue.loads]

/-- The submission whose completion is handled still counts for its URB. -/
def due (x : Option Nat) (id : Nat) : Nat :=
  if x = some id then 1 else 0

/-- No URB is started twice or has two submissions, given the URBs that were created and the
one whose submission is being completed. -/
structure Tracked (known : List Nat) (x : Option Nat) (q : BceVhciTransferQueue) : Prop where
  wf : q.WellFormed
  settled : ∀ u ∈ q.urbList, u.Settled
  created : ∀ u ∈ q.urbList, u.id ∈ known
  unknown : ∀ id, id ∉ known → q.inits.count id = 0 ∧ q.loads id = 0
  most : ∀ id, q.loads id ≤ 1 + due x id
  unsent : ∀ u ∈ q.urbList, u.Unsent → q.loads u.id ≤ due x u.id
  once : ∀ id, q.inits.count id ≤ 1
  starts : ∀ u ∈ q.urbList, q.inits.count u.id = u.started.toNat

/-- A call on an URB that starts it at most once and leaves it one submission. -/
structure Tracks (x : Option Nat) (u : BceVhciUrb) (q : BceVhciTransferQueue) (call : UrbCall) : Prop where
  frame : q.Frame call.q
  touches : Touches u.id q call.q
  inits : ∀ id, id ≠ u.id → call.q.inits.count id = q.inits.count id
  once : call.q.inits.count u.id ≤ 1
  most : call.q.loads u.id ≤ 1 + due x u.id
  belongs : u.Belongs q.endp → ∀ v, call.urb = some v → v.Belongs q.endp
  settled : u.Settled → ∀ v, call.urb = some v → v.Settled
  kept : ∀ v, call.urb = some v → v.id = u.id ∧ (v.Unsent → call.q.loads u.id ≤ due x u.id) ∧
    call.q.inits.count u.id = v.started.toNat

theorem bool_toNat_le (b : Bool) : b.toNat ≤ 1 := by
  cases b <;> decide

theorem update_tracks {x : Option Nat} (msg : BceVhciMessage) (most : q.loads u.id ≤ 1 + due x u.id)
    (unsent : u.Unsent → q.loads u.id ≤ due x u.id) (starts : q.inits.count u.id = u.started.toNat) :
    Tracks x u q (u.update msg q) := by
  have fits := u.update_fits msg q
  have same : ∀ v, (u.update msg q).urb = some v →
      v.id = u.id ∧ (u.update msg q).q.inits.count u.id = v.started.toNat := by
    intro v present
    obtain ⟨same, started, -⟩ := fits.kept v present
    exact ⟨same.id, by rw [fits.inits, starts, started]⟩
  refine ⟨fits.frame, u.update_touches msg q, fun id _ => by rw [fits.inits], ?_, ?_,
    fun belongs v present => BceVhciUrb.update_belongs belongs present,
    fun settled v present => BceVhciUrb.update_settled settled present, ?_⟩
  · rw [fits.inits, starts]
    exact bool_toNat_le _
  · rcases u.update_uses msg q with ⟨kept, -⟩ | ⟨refuses, -⟩ | ⟨y, own, submits, -, states⟩
    · rw [kept.loads]
      exact most
    · rw [refuses.loads]
      exact most
    · have before : q.loads u.id ≤ due x u.id :=
        unsent (states.elim (fun state => .inr (.inl state.1)) fun state => .inr (.inr state.2.1))
      rw [← own, submits.loads, own]
      omega
  · intro v present
    refine ⟨(same v present).1, ?_, (same v present).2⟩
    intro waits
    rcases u.update_uses msg q with ⟨kept, state⟩ | ⟨refuses, -, -, state⟩ |
      ⟨-, -, -, -, ⟨-, state⟩ | ⟨-, -, state⟩⟩
    · rw [kept.loads]
      refine unsent ?_
      rwa [BceVhciUrb.Unsent, state v present] at waits
    · rw [refuses.loads]
      refine unsent ?_
      rwa [BceVhciUrb.Unsent, state v present] at waits
    · simp only [BceVhciUrb.Unsent, state v present, reduceCtorEq, or_self] at waits
    · simp only [BceVhciUrb.Unsent, state v present, reduceCtorEq, or_self] at waits

/-- Starting an URB that nothing was submitted for. -/
theorem init_tracks {x : Option Nat} (pending : u.state = .initPending)
    (unsent : q.loads u.id ≤ due x u.id) (starts : q.inits.count u.id = 0) :
    Tracks x u q (u.init q) := by
  have idle : u.started = false := by
    simp [BceVhciUrb.started, pending]
  have most : (u.init q).q.loads u.id ≤ 1 + due x u.id := by
    rcases u.init_uses q with ⟨refuses, -⟩ | ⟨kept, -⟩ | ⟨submits, -⟩
    · rw [refuses.loads]
      omega
    · rw [kept.loads]
      omega
    · have after : (u.init q).q.loads u.id = q.loads u.id + 1 := submits.loads
      omega
  have left : ∀ v, (u.init q).urb = some v → v.Unsent → (u.init q).q.loads u.id ≤ due x u.id := by
    intro v present waits
    rcases u.init_uses q with ⟨refuses, -⟩ | ⟨kept, -⟩ | ⟨-, -, -, -, w, began, -, -, state⟩
    · rw [refuses.loads]
      exact unsent
    · rw [kept.loads]
      exact unsent
    · cases began.symm.trans present
      simp only [BceVhciUrb.Unsent, state, reduceCtorEq, or_self] at waits
  rcases u.init_cases q with ⟨e, -, kept, frame⟩ | ⟨w, -, began, same, started, frame, inits, -, -⟩
  · refine ⟨frame.toFrame, u.init_touches q, fun id _ => by rw [frame.inits], ?_, most,
      fun belongs v present => BceVhciUrb.init_belongs belongs present,
      fun settled v present => BceVhciUrb.init_settled settled present, ?_⟩
    · rw [frame.inits, starts]
      exact Nat.zero_le 1
    · intro v present
      refine ⟨?_, left v present, ?_⟩
      · cases kept.symm.trans present
        rfl
      · cases kept.symm.trans present
        rw [frame.inits, starts, idle]
        rfl
  · refine ⟨frame, u.init_touches q, ?_, ?_, most,
      fun belongs v present => BceVhciUrb.init_belongs belongs present,
      fun settled v present => BceVhciUrb.init_settled settled present, ?_⟩
    · intro id apart
      rw [inits, List.count_append, List.count_singleton, if_neg (by simpa using Ne.symm apart), Nat.add_zero]
    · rw [inits, List.count_append, starts, List.count_singleton_self]
    · intro v present
      refine ⟨?_, left v present, ?_⟩
      · cases began.symm.trans present
        exact same.id
      · cases began.symm.trans present
        rw [inits, List.count_append, starts, List.count_singleton_self, started]
        rfl

/-- A completion begins the data stage of an URB only when its setup packet is done. -/
theorem transferCompletion_tracks {x : Option Nat} (c : BceSqCompletionData)
    (most : q.loads u.id ≤ 1 + due x u.id) (unsent : u.Unsent → q.loads u.id ≤ due x u.id)
    (setup : u.isControl → u.state = .controlWaitingForSetupCompletion → q.loads u.id ≤ due x u.id)
    (starts : q.inits.count u.id = u.started.toNat) : Tracks x u q (u.transferCompletion c q) := by
  have fits := u.transferCompletion_fits c q
  refine ⟨fits.frame, u.transferCompletion_touches c q, fun id _ => by rw [fits.inits], ?_, ?_,
    fun belongs v present => BceVhciUrb.transferCompletion_belongs belongs present,
    fun settled v present => BceVhciUrb.transferCompletion_settled settled present, ?_⟩
  · rw [fits.inits, starts]
    exact bool_toNat_le _
  · rcases u.transferCompletion_uses c q with ⟨kept, -⟩ | ⟨-, -, -, refuses, -⟩ |
      ⟨control, state, -, submits, -⟩
    · rw [kept.loads]
      exact most
    · rw [refuses.loads]
      exact most
    · have after : (u.transferCompletion c q).q.loads u.id = q.loads u.id + 1 := submits.loads
      have before := setup control state
      omega
  · intro v present
    obtain ⟨same, started, -⟩ := fits.kept v present
    refine ⟨same.id, ?_, by rw [fits.inits, starts, started]⟩
    intro waits
    rcases u.transferCompletion_uses c q with ⟨kept, states⟩ | ⟨-, -, -, -, gone⟩ | ⟨-, -, -, -, states⟩
    · rw [kept.loads]
      rcases states v present with state | ⟨-, state⟩ | ⟨control, stage, -, -⟩
      · refine unsent ?_
        rwa [BceVhciUrb.Unsent, state] at waits
      · simp only [BceVhciUrb.Unsent, state, reduceCtorEq, or_self] at waits
      · exact setup control stage
    · rw [gone] at present
      cases present
    · simp only [BceVhciUrb.Unsent, states v present, reduceCtorEq, or_self] at waits

/-- Resuming an URB submits once more for one that waits for a completion, when there is an
`sq_in`. -/
theorem resume_tracks {x : Option Nat} (most : q.loads u.id ≤ 1 + due x u.id)
    (unsent : u.Unsent → q.loads u.id ≤ due x u.id)
    (waiting : u.state = .waitingForCompletion → (q.sq false).isSome → q.loads u.id ≤ due x u.id)
    (starts : q.inits.count u.id = u.started.toNat) : Tracks x u q (u.resume q) := by
  have fits := u.resume_fits q
  refine ⟨fits.frame, u.resume_touches q, fun id _ => by rw [fits.inits], ?_, ?_,
    fun belongs v present => BceVhciUrb.resume_belongs belongs present,
    fun settled v present => BceVhciUrb.resume_settled settled present, ?_⟩
  · rw [fits.inits, starts]
    exact bool_toNat_le _
  · rcases u.resume_uses q with ⟨-, eq⟩ | ⟨-, refuses, -⟩ | ⟨state, submits, -⟩
    · rw [eq]
      exact most
    · rw [refuses.loads]
      exact most
    · have after : (u.resume q).q.loads u.id = q.loads u.id + 1 := submits.loads
      have before := waiting state submits.before
      omega
  · intro v present
    obtain ⟨same, started, -⟩ := fits.kept v present
    refine ⟨same.id, ?_, by rw [fits.inits, starts, started]⟩
    intro waits
    rcases u.resume_uses q with ⟨-, eq⟩ | ⟨-, -, gone⟩ | ⟨-, -, began⟩
    · rw [eq] at present ⊢
      cases present
      exact unsent waits
    · rw [gone] at present
      cases present
    · cases began.symm.trans present
      simp only [BceVhciUrb.Unsent, reduceCtorEq, or_self] at waits

/-- Putting the URB back after such a call. -/
theorem afterUrb_tracked {known : List Nat} {x : Option Nat} {call : UrbCall}
    (tracked : Tracked known x { q with urbList := done ++ u :: rest }) (tracks : Tracks x u q call) :
    Tracked known x (afterUrb done rest call) := by
  have here : u ∈ done ++ u :: rest := by simp
  have here' : u.id ∈ known := tracked.created u here
  have apart := apart_of_distinct tracked.wf
  have linked : ∀ v ∈ (afterUrb done rest call).urbList, call.urb = some v ∨ v ∈ done ++ rest := by
    intro v member
    simp only [afterUrb, List.mem_append, Option.mem_toList] at member ⊢
    rcases member with passed | kept | later
    · exact .inr (.inl passed)
    · exact .inl kept
    · exact .inr (.inr later)
  have old : ∀ v ∈ done ++ rest, v ∈ done ++ u :: rest := by
    intro v member
    simp only [List.mem_append, List.mem_cons] at member ⊢
    exact member.imp_right .inr
  refine ⟨?_, ?_, ?_, ?_, ?_, ?_, ?_, ?_⟩
  · refine afterUrb_wellFormed tracked.wf tracks.frame tracks.touches ?_
    intro v present
    exact ⟨tracks.belongs (tracked.wf.urbs u here) v present, (tracks.kept v present).1⟩
  · intro v member
    rcases linked v member with kept | other
    · exact tracks.settled (tracked.settled u here) v kept
    · exact tracked.settled v (old v other)
  · intro v member
    rcases linked v member with kept | other
    · rw [(tracks.kept v kept).1]
      exact here'
    · exact tracked.created v (old v other)
  · intro id stranger
    have distinct : id ≠ u.id := fun same => stranger (same ▸ here')
    obtain ⟨inits, loads⟩ := tracked.unknown id stranger
    exact ⟨(tracks.inits id distinct).trans inits, (tracks.touches.loads_other distinct).trans loads⟩
  · intro id
    by_cases same : id = u.id
    · rw [same]
      exact tracks.most
    · exact (tracks.touches.loads_other same).trans_le (tracked.most id)
  · intro v member waits
    rcases linked v member with kept | other
    · rw [(tracks.kept v kept).1]
      exact (tracks.kept v kept).2.1 waits
    · exact (tracks.touches.loads_other (apart v other)).trans_le (tracked.unsent v (old v other) waits)
  · intro id
    by_cases same : id = u.id
    · rw [same]
      exact tracks.once
    · exact (tracks.inits id same).trans_le (tracked.once id)
  · intro v member
    rcases linked v member with kept | other
    · rw [(tracks.kept v kept).1]
      exact (tracks.kept v kept).2.2
    · exact (tracks.inits v.id (apart v other)).trans (tracked.starts v (old v other))

/-- A queue that has the same submissions and starts, and no more URBs. -/
theorem tracked_of_same {known : List Nat} {x : Option Nat} (tracked : Tracked known x q)
    (wf : r.WellFormed) (urbs : ∀ v ∈ r.urbList, v ∈ q.urbList) (loads : ∀ id, r.loads id = q.loads id)
    (inits : r.inits = q.inits) : Tracked known x r where
  wf := wf
  settled := fun v member => tracked.settled v (urbs v member)
  created := fun v member => tracked.created v (urbs v member)
  unknown := by
    intro id stranger
    rw [inits, loads]
    exact tracked.unknown id stranger
  most := by
    intro id
    rw [loads]
    exact tracked.most id
  unsent := by
    intro v member waits
    rw [loads]
    exact tracked.unsent v (urbs v member) waits
  once := by
    intro id
    rw [inits]
    exact tracked.once id
  starts := by
    intro v member
    rw [inits]
    exact tracked.starts v (urbs v member)

theorem tracked_loopSafe (known : List Nat) (x : Option Nat) : LoopSafe (Tracked known x) where
  start := by
    intro done u rest q pending tracked
    have here : u ∈ done ++ u :: rest := by simp
    have idle : u.started = false := by
      simp [BceVhciUrb.started, pending]
    have starts := tracked.starts u here
    rw [idle] at starts
    exact afterUrb_tracked tracked (init_tracks pending (tracked.unsent u here (.inl pending)) starts)
  update := by
    intro u rest msg q linked tracked
    have here : u ∈ q.urbList := by simp [linked]
    have tracks := update_tracks msg (tracked.most u.id) (tracked.unsent u here) (tracked.starts u here)
    have tracked : Tracked known x { q with urbList := [] ++ u :: rest } := by
      rw [List.nil_append, ← linked]
      exact tracked
    exact afterUrb_tracked tracked tracks
  defer := fun q _ tracked => tracked_of_same tracked ⟨tracked.wf.urbs, tracked.wf.present, tracked.wf.distinct⟩
    (fun _ member => member) (fun _ => rfl) rfl

theorem event_tracked {known : List Nat} (tracked : Tracked known none q) (msg : BceVhciMessage)
    (allocated : Bool) : Tracked known none (q.event msg allocated) := by
  refine (tracked_loopSafe known none).event ?_ tracked msg allocated
  intro r held
  exact tracked_of_same held ⟨held.wf.urbs, held.wf.present, held.wf.distinct⟩
    (fun _ member => member) (fun _ => rfl) rfl

/-- The URB whose submission the T2 completes next. -/
def completing (q : BceVhciTransferQueue) (out : Bool) : Option Nat :=
  (q.outstanding out).head?.map UrbSubmission.urb

theorem SqKept.front {out : Bool} {first : UrbSubmission} (kept : q.SqKept r)
    (front : (q.outstanding out).head? = some first) : (r.outstanding out).head? = some first := by
  rwa [kept.outstanding]

theorem Refuses.front {out side : Bool} {first : UrbSubmission} (refuses : Refuses side q r)
    (front : (q.outstanding out).head? = some first) : (r.outstanding out).head? = some first := by
  rwa [outstanding_of_sq (refuses.sq out)]

theorem Submits.front {out side : Bool} {x first : UrbSubmission} (submits : Submits side x q r)
    (front : (q.outstanding out).head? = some first) : (r.outstanding out).head? = some first := by
  rcases Bool.eq_or_eq_not out side with rfl | rfl
  · rw [submits.outstanding, List.head?_append, front]
    rfl
  · rwa [outstanding_of_sq submits.other]

/-- While a completion is handled its submission stays the oldest. -/
theorem front_loopSafe (out : Bool) (first : UrbSubmission) :
    LoopSafe fun q => (q.outstanding out).head? = some first where
  start := by
    intro done u rest q _ front
    show ((u.init q).q.outstanding out).head? = some first
    have front : (q.outstanding out).head? = some first := front
    rcases u.init_uses q with ⟨refuses, -⟩ | ⟨kept, -⟩ | ⟨submits, -⟩
    · exact refuses.front front
    · exact kept.front front
    · exact submits.front front
  update := by
    intro u rest msg q _ front
    show ((u.update msg q).q.outstanding out).head? = some first
    rcases u.update_uses msg q with ⟨kept, -⟩ | ⟨refuses, -⟩ | ⟨_, -, submits, -⟩
    · exact kept.front front
    · exact refuses.front front
    · exact submits.front front
  defer := fun _ _ front => front

theorem completionBody_front {out : Bool} {first : UrbSubmission} (c : BceSqCompletionData)
    (front : (q.outstanding out).head? = some first) :
    ((q.completionBody out c).outstanding out).head? = some first := by
  rcases q.completionBody_cases out c with same | ⟨-, -, absorbs⟩ | ⟨urb, rest, -, -, -, -, taken⟩
  · rw [same]
    exact front
  · rw [absorbs]
    refine (front_loopSafe out first).initPendingUrbs ?_
    cases out <;> exact front
  · rw [taken]
    show ((urb.transferCompletion c q).q.outstanding out).head? = some first
    rcases urb.transferCompletion_uses c q with ⟨kept, -⟩ | ⟨-, -, -, refuses, -⟩ |
      ⟨-, -, -, submits, -⟩
    · exact kept.front front
    · exact refuses.front front
    · exact submits.front front

/-- Taking the completion out of the queue. -/
theorem notify_loads {out : Bool} {first : UrbSubmission}
    (front : (q.outstanding out).head? = some first) (id : Nat) :
    (q.notifySubmissionComplete out).loads id + due (some first.urb) id = q.loads id := by
  obtain ⟨items, eq⟩ : ∃ items, q.outstanding out = first :: items := by
    cases held : q.outstanding out with
    | nil =>
      rw [held] at front
      cases front
    | cons x items =>
      rw [held] at front
      cases Option.some.inj front
      exact ⟨items, rfl⟩
  obtain ⟨fifo, present⟩ : ∃ fifo, q.sq out = some fifo := by
    cases missing : q.sq out with
    | none =>
      rw [outstanding, missing] at eq
      cases eq
    | some fifo => exact ⟨fifo, rfl⟩
  have held : fifo.items = first :: items := by
    rwa [outstanding, present] at eq
  have popped : (q.notifySubmissionComplete out).outstanding out = items := by
    rw [notifySubmissionComplete, present]
    show (q.setSq fifo.pop out).outstanding out = items
    rw [outstanding, setSq_sq_same]
    show fifo.items.tail = items
    rw [held, List.tail_cons]
  have other : (q.notifySubmissionComplete out).outstanding (!out) = q.outstanding (!out) := by
    rw [notifySubmissionComplete, present]
    exact outstanding_of_sq (setSq_sq_other q _ out)
  have same : (q.notifySubmissionComplete out).load out id + due (some first.urb) id = q.load out id := by
    rw [load, load, popped, eq, List.countP_cons, due]
    simp only [decide_eq_true_eq, Option.some.injEq]
  have apart : (q.notifySubmissionComplete out).load (!out) id = q.load (!out) id :=
    load_of_outstanding other id
  unfold loads
  cases out <;> simp only [Bool.not_false, Bool.not_true] at apart <;> omega

end BceVhciTransferQueue

end AppleBce

import AppleBce.Vhci.Attribution

namespace AppleBce

open Basis

/-- The URB has its setup packet at the T2. -/
def BceVhciUrb.awaitsSetup (u : BceVhciUrb) : Bool :=
  u.isControl ∧ u.state = .controlWaitingForSetupCompletion

/-- The URB has a request at the T2, as far as its state tells. -/
def BceVhciUrb.awaits (u : BceVhciUrb) : Bool :=
  u.state = .waitingForCompletion ∨ u.awaitsSetup

namespace BceVhciTransferQueue

/-- The requests of the endpoint that the T2 has not completed. -/
def inFlight (q : BceVhciTransferQueue) : Nat :=
  (q.outstanding false).length + (q.outstanding true).length

end BceVhciTransferQueue

/-- A control URB is started when the T2 has no request of the endpoint left. -/
def CalledUrb.StartsClear (call : CalledUrb) : Prop :=
  call.action = .init → call.urb.isControl → call.q.inFlight = 0

instance (call : CalledUrb) : Decidable call.StartsClear :=
  inferInstanceAs (Decidable (_ → _ → _ = _))

namespace BceVhciTransferQueue

variable {q r : BceVhciTransferQueue} {u : BceVhciUrb} {done rest : List BceVhciUrb} {call : UrbCall}
  {k k' x credit c : Nat}

def awaitedCount (urbs : List BceVhciUrb) : Nat :=
  urbs.countP BceVhciUrb.awaits

def setupCount (urbs : List BceVhciUrb) : Nat :=
  urbs.countP BceVhciUrb.awaitsSetup

@[simp] theorem awaitedCount_nil : awaitedCount [] = 0 := rfl

@[simp] theorem awaitedCount_cons (u : BceVhciUrb) (urbs : List BceVhciUrb) :
    awaitedCount (u :: urbs) = u.awaits.toNat + awaitedCount urbs := by
  rw [awaitedCount, List.countP_cons, Nat.add_comm, awaitedCount]
  cases u.awaits <;> rfl

@[simp] theorem awaitedCount_append (urbs more : List BceVhciUrb) :
    awaitedCount (urbs ++ more) = awaitedCount urbs + awaitedCount more :=
  List.countP_append

@[simp] theorem setupCount_cons (u : BceVhciUrb) (urbs : List BceVhciUrb) :
    setupCount (u :: urbs) = u.awaitsSetup.toNat + setupCount urbs := by
  rw [setupCount, List.countP_cons, Nat.add_comm, setupCount]
  cases u.awaitsSetup <;> rfl

theorem setupCount_le (urbs : List BceVhciUrb) : setupCount urbs ≤ awaitedCount urbs := by
  refine List.countP_mono_left fun u _ setup => ?_
  simp [BceVhciUrb.awaits, setup]

theorem awaits_started (awaits : u.awaits) : u.started := by
  refine BceVhciUrb.started_of_ne fun pending => ?_
  simp [BceVhciUrb.awaits, BceVhciUrb.awaitsSetup, pending] at awaits

theorem awaitedCount_le (urbs : List BceVhciUrb) : awaitedCount urbs ≤ startedCount urbs :=
  List.countP_mono_left fun _ _ => awaits_started

theorem inFlight_of_sq (same : ∀ out, r.sq out = q.sq out) : r.inFlight = q.inFlight := by
  rw [inFlight, inFlight, outstanding_of_sq (same false), outstanding_of_sq (same true)]

theorem SqKept.inFlight (kept : q.SqKept r) : r.inFlight = q.inFlight :=
  inFlight_of_sq kept.sq

theorem Refuses.inFlight {out : Bool} (refuses : Refuses out q r) : r.inFlight = q.inFlight :=
  inFlight_of_sq refuses.sq

theorem Submits.inFlight {out : Bool} {s : UrbSubmission} (submits : Submits out s q r) :
    r.inFlight = q.inFlight + 1 := by
  have other := outstanding_of_sq submits.other
  cases out with
  | true =>
    rw [Bool.not_true] at other
    rw [BceVhciTransferQueue.inFlight, other, submits.outstanding, List.length_append, List.length_singleton,
      BceVhciTransferQueue.inFlight]
    omega
  | false =>
    rw [Bool.not_false] at other
    rw [BceVhciTransferQueue.inFlight, other, submits.outstanding, List.length_append, List.length_singleton,
      BceVhciTransferQueue.inFlight]
    omega

end BceVhciTransferQueue

namespace BceVhciUrb

open BceVhciTransferQueue

variable {u v : BceVhciUrb} {q : BceVhciTransferQueue}

theorem awaits_of_waiting (waiting : u.state = .waitingForCompletion) : u.awaits := by
  simp [awaits, waiting]

theorem awaits_of_same (state : v.state = u.state) (isControl : v.isControl = u.isControl) :
    v.awaits = u.awaits := by
  rw [awaits, awaits, awaitsSetup, awaitsSetup, state, isControl]

/-- An URB that is started waits for what it submits. -/
theorem init_inFlight (u : BceVhciUrb) (q : BceVhciTransferQueue) :
    (u.init q).q.inFlight ≤ q.inFlight + awaitedCount (u.init q).urb.toList ∧
      (u.isControl → (u.init q).q.inFlight = q.inFlight) := by
  rcases u.init_uses q with ⟨refuses, -, -⟩ | ⟨kept, -⟩ | ⟨submits, -, data, -, v, present, -, -, state⟩
  · rw [refuses.inFlight]
    exact ⟨Nat.le_add_right .., fun _ => rfl⟩
  · rw [kept.inFlight]
    exact ⟨Nat.le_add_right .., fun _ => rfl⟩
  · rw [submits.inFlight, present]
    refine ⟨?_, fun control => ?_⟩
    · simp [awaits_of_waiting state]
    · rw [data] at control
      cases control

/-- A call that answers for what is submitted with an URB that waits for it. Or it completes a control URB,
whose request may be left over. -/
structure Answers (u : BceVhciUrb) (q : BceVhciTransferQueue) (y : Nat) (call : UrbCall) : Prop where
  most : call.q.inFlight + u.awaits.toNat ≤ q.inFlight + awaitedCount call.urb.toList + y ∨
    call.urb = none ∧ u.isControl ∧ u.started ∧ call.q.inFlight + u.awaits.toNat ≤ q.inFlight + 1 + y

theorem update_answers (u : BceVhciUrb) (msg : BceVhciMessage) (q : BceVhciTransferQueue) :
    Answers u q 0 (u.update msg q) := by
  have fits := u.update_fits msg q
  -- an URB that is completed is a control URB that was started
  have completed : (u.update msg q).urb = none → u.isControl ∧ u.started := by
    intro gone
    refine ⟨?_, started_of_ne fun pending => ?_⟩
    · cases control : u.isControl with
      | true => rfl
      | false =>
        rcases update_line control msg q with ⟨present, -⟩ | ⟨v, -, present, -⟩
        · rw [gone] at present
          cases present
        · rw [gone] at present
          cases present
    · rw [update, if_pos pending] at gone
      cases gone
  have most := u.awaits.toNat_le
  refine ⟨?_⟩
  cases present : (u.update msg q).urb with
  | none =>
    obtain ⟨control, started⟩ := completed present
    refine .inr ⟨rfl, control, started, ?_⟩
    rcases u.update_uses msg q with ⟨kept, -⟩ | ⟨refuses, -⟩ | ⟨x, -, submits, -, waited⟩
    · rw [kept.inFlight]
      omega
    · rw [refuses.inFlight]
      omega
    · have idle : u.awaits = false := by
        rcases waited with ⟨state, -⟩ | ⟨-, state, -⟩ <;> simp [awaits, awaitsSetup, state]
      rw [submits.inFlight, idle]
      exact Nat.le_refl _
  | some v =>
    have same := (fits.kept v present).1
    left
    rw [Option.toList_some, awaitedCount_cons, awaitedCount_nil]
    rcases u.update_uses msg q with ⟨kept, state⟩ | ⟨refuses, -, -, state⟩ | ⟨x, -, submits, -, waited⟩
    · rw [kept.inFlight, awaits_of_same (state v present) same.isControl]
      exact Nat.le_refl _
    · rw [refuses.inFlight, awaits_of_same (state v present) same.isControl]
      exact Nat.le_refl _
    · rw [submits.inFlight]
      rcases waited with ⟨before, state⟩ | ⟨control, before, state⟩
      · have idle : u.awaits = false := by simp [awaits, awaitsSetup, before]
        rw [idle, awaits_of_waiting (state v present)]
        exact Nat.le_refl _
      · have idle : u.awaits = false := by simp [awaits, awaitsSetup, before]
        have waits : v.awaits = true := by simp [awaits, awaitsSetup, state v present, same.isControl, control]
        rw [idle, waits]
        exact Nat.le_refl _

/-- A completion is one request less, once it is taken out of the queue. -/
theorem transferCompletion_answers (u : BceVhciUrb) (c : BceSqCompletionData) (q : BceVhciTransferQueue) :
    Answers u q 1 (u.transferCompletion c q) := by
  have most := u.awaits.toNat_le
  refine ⟨?_⟩
  rcases u.transferCompletion_uses c q with
    ⟨kept, -⟩ | ⟨-, -, -, refuses, -⟩ | ⟨control, before, -, submits, state⟩
  · left
    rw [kept.inFlight]
    omega
  · left
    rw [refuses.inFlight]
    omega
  · rw [submits.inFlight]
    cases present : (u.transferCompletion c q).urb with
    | none =>
      refine .inr ⟨rfl, control, started_of_ne (by simp [before]), ?_⟩
      omega
    | some v =>
      left
      rw [Option.toList_some, awaitedCount_cons, awaitedCount_nil, awaits_of_waiting (state v present)]
      simp only [Bool.toNat_true]
      omega

/-- An URB that `do_resume` submits for again waits for that. -/
theorem resume_inFlight (u : BceVhciUrb) (q : BceVhciTransferQueue) :
    (u.resume q).q.inFlight + u.awaitsSetup.toNat ≤ q.inFlight + awaitedCount (u.resume q).urb.toList := by
  rcases u.resume_uses q with ⟨idle, same⟩ | ⟨waiting, refuses, -⟩ | ⟨waiting, submits, present⟩
  · rw [same, Option.toList_some, awaitedCount_cons, awaitedCount_nil]
    simp [awaits, idle]
  · rw [refuses.inFlight]
    simp [awaitsSetup, waiting]
  · rw [submits.inFlight, present, Option.toList_some, awaitedCount_cons, awaits_of_waiting rfl]
    simp [awaitsSetup, waiting]

end BceVhciUrb

namespace BceVhciTransferQueue

variable {q r : BceVhciTransferQueue} {u : BceVhciUrb} {done rest : List BceVhciUrb} {call : UrbCall}
  {k k' x y credit c : Nat}

/-- What is in flight of the endpoint is accounted for by `credit` linked URBs, the ghosts, the `k` control
URBs left to the flush worker and `x` requests of which the completion is handled. On a control endpoint it
may also be left over from an URB that was completed, while none is started. -/
structure Within (k x credit : Nat) (q : BceVhciTransferQueue) : Prop where
  control : ∀ u ∈ q.urbList, u.isControl = decide (q.endp.num = 0)
  slots : q.endp.num = 0 → q.slots + k ≤ 1
  bound : q.inFlight ≤ credit + q.ghosts + k + x ∨
    q.endp.num = 0 ∧ startedCount q.urbList = 0 ∧ q.inFlight ≤ q.slots + k + x

/-- All URBs that await something account for it. -/
def Covered (k x : Nat) (q : BceVhciTransferQueue) : Prop :=
  q.Within k x (awaitedCount q.urbList)

/-- What is in flight never exceeds the slots. -/
theorem Covered.most (covered : q.Covered k x) : q.inFlight ≤ q.slots + k + x := by
  have least := awaitedCount_le q.urbList
  rcases covered.bound with bound | ⟨-, -, bound⟩
  · unfold BceVhciTransferQueue.ghosts at bound
    unfold BceVhciTransferQueue.slots
    omega
  · exact bound

theorem Within.of_balanced (within : q.Within k x credit) (balanced : q.Balanced r)
    (bound : r.inFlight ≤ c + r.ghosts + k + y ∨
      r.endp.num = 0 ∧ startedCount r.urbList = 0 ∧ r.inFlight ≤ r.slots + k + y) : r.Within k y c where
  control := by
    intro v member
    obtain ⟨u, old, same⟩ := balanced.comes v member
    rw [same.isControl, balanced.endp]
    exact within.control u old
  slots := by
    rw [balanced.endp, balanced.slots]
    exact within.slots
  bound := bound

theorem Within.mono (within : q.Within k x credit) (more : credit ≤ c) : q.Within k x c := by
  refine ⟨within.control, within.slots, within.bound.imp_left fun bound => ?_⟩
  omega

theorem Within.of_same (within : q.Within k x credit) (urbs : r.urbList = q.urbList) (endp : r.endp = q.endp)
    (remaining : r.remainingActiveRequests = q.remainingActiveRequests)
    (ghosts : ∀ out, r.ghostCount out = q.ghostCount out) (inFlight : r.inFlight = q.inFlight) :
    r.Within k x credit := by
  have ghostIn : r.ghostInCount = q.ghostInCount := ghosts false
  have ghostOut : r.ghostOutCount = q.ghostOutCount := ghosts true
  have slots : r.slots = q.slots := by
    rw [BceVhciTransferQueue.slots, BceVhciTransferQueue.slots, urbs, remaining, ghostIn, ghostOut]
  refine ⟨?_, ?_, ?_⟩
  · rw [urbs, endp]
    exact within.control
  · rw [endp, slots]
    exact within.slots
  · rw [inFlight, BceVhciTransferQueue.ghosts, ghostIn, ghostOut, endp, urbs, slots]
    exact within.bound

/-- A started control URB holds the only slot of its endpoint. -/
theorem Within.alone (within : Within k x credit { q with urbList := done ++ u :: rest }) (control : u.isControl)
    (started : u.started) : q.endp.num = 0 ∧ startedCount (done ++ rest) = 0 ∧ q.ghosts = 0 ∧ k = 0 := by
  have zero : q.endp.num = 0 := by
    have same := within.control u (by simp)
    rw [control] at same
    exact of_decide_eq_true same.symm
  have most := within.slots zero
  simp only [BceVhciTransferQueue.slots, startedCount_append, startedCount_cons, started, Bool.toNat_true] at most
  rw [startedCount_append, BceVhciTransferQueue.ghosts]
  refine ⟨zero, ?_, ?_, ?_⟩ <;> omega

/-- A call for which the URB answers. -/
theorem Within.answered (within : Within k x (credit + c) { q with urbList := done ++ u :: rest })
    (fits : UrbCall.Fits u q call)
    (most : call.q.inFlight + c ≤ q.inFlight + awaitedCount call.urb.toList + y) :
    Within k (x + y) (credit + awaitedCount call.urb.toList) (afterUrb done rest call) := by
  have conserves := afterUrb_conserves fits done rest
  have ghosts : (afterUrb done rest call).ghosts = q.ghosts := conserves.ghosts
  refine within.of_balanced conserves.balanced ?_
  rw [ghosts, conserves.balanced.slots]
  rcases within.bound with bound | ⟨zero, none, bound⟩
  · left
    have bound : q.inFlight ≤ credit + c + q.ghosts + k + x := bound
    show call.q.inFlight ≤ _
    omega
  · -- no URB is started, before the call or behind it
    simp only [startedCount_append, startedCount_cons] at none
    have idle : startedCount call.urb.toList = 0 ∧ awaitedCount call.urb.toList = 0 := by
      cases present : call.urb with
      | none => exact ⟨rfl, rfl⟩
      | some v =>
        have same := (fits.kept v present).2.1
        rw [Option.toList_some, startedCount_cons, same]
        have least := awaitedCount_le [v]
        rw [startedCount_cons, same] at least
        simp only [startedCount_nil] at least ⊢
        omega
    refine .inr ⟨?_, ?_, ?_⟩
    · rw [conserves.endp]
      exact zero
    · simp only [afterUrb, startedCount_append]
      omega
    · have bound : q.inFlight ≤ BceVhciTransferQueue.slots { q with urbList := done ++ u :: rest } + k + x := bound
      show call.q.inFlight ≤ _
      omega

/-- A call that completes a control URB, which held the slot. -/
theorem Within.left (within : Within k x (credit + c) { q with urbList := done ++ u :: rest })
    (fits : UrbCall.Fits u q call) (others : credit ≤ startedCount (done ++ rest))
    (gone : call.urb = none) (control : u.isControl) (started : u.started)
    (most : call.q.inFlight + c ≤ q.inFlight + 1 + y) : Within k (x + y) credit (afterUrb done rest call) := by
  have conserves := afterUrb_conserves fits done rest
  obtain ⟨zero, none, ghosts, flushed⟩ := within.alone control started
  refine within.of_balanced conserves.balanced (.inr ⟨?_, ?_, ?_⟩)
  · rw [conserves.endp]
    exact zero
  · simpa [afterUrb, gone] using none
  · rw [conserves.balanced.slots]
    have held : 1 ≤ BceVhciTransferQueue.slots { q with urbList := done ++ u :: rest } := by
      simp only [BceVhciTransferQueue.slots, startedCount_append, startedCount_cons, started, Bool.toNat_true]
      omega
    have bound : q.inFlight ≤ credit + c + q.ghosts + k + x := by
      rcases within.bound with bound | ⟨-, idle, -⟩
      · exact bound
      · simp only [startedCount_append, startedCount_cons, started, Bool.toNat_true] at idle
        omega
    show call.q.inFlight ≤ _
    omega

/-- A call on a linked URB. -/
theorem Within.called (within : Within k x (credit + u.awaits.toNat) { q with urbList := done ++ u :: rest })
    (fits : UrbCall.Fits u q call) (others : credit ≤ startedCount (done ++ rest))
    (answers : BceVhciUrb.Answers u q y call) :
    Within k (x + y) (credit + awaitedCount call.urb.toList) (afterUrb done rest call) := by
  rcases answers.most with most | ⟨gone, control, started, most⟩
  · exact within.answered fits most
  · exact (within.left fits others gone control started most).mono (Nat.le_add_right ..)

/-- An URB is started, a control URB when nothing of the endpoint is in flight. -/
theorem Within.start (within : Within k x credit { q with urbList := done ++ u :: rest })
    (pending : u.state = .initPending) (clear : CalledUrb.StartsClear ⟨.init, u, q⟩) :
    Within k x (credit + awaitedCount (u.init q).urb.toList) (afterUrb done rest (u.init q)) := by
  have conserves := init_conserves q u done rest pending
  have ghosts : (afterUrb done rest (u.init q)).ghosts = q.ghosts := conserves.ghosts
  obtain ⟨most, same⟩ := u.init_inFlight q
  refine within.of_balanced conserves.balanced (.inl ?_)
  rw [ghosts]
  show (u.init q).q.inFlight ≤ _
  cases control : u.isControl with
  | true =>
    rw [same control, clear rfl control]
    exact Nat.zero_le _
  | false =>
    have data := within.control u (by simp)
    rcases within.bound with bound | ⟨zero, -⟩
    · have bound : q.inFlight ≤ credit + q.ghosts + k + x := bound
      omega
    · have zero : q.endp.num = 0 := zero
      rw [control] at data
      exact absurd zero (of_decide_eq_false data.symm)

theorem awaits_of_pending (pending : u.state = .initPending) : u.awaits = false := by
  simp [BceVhciUrb.awaits, BceVhciUrb.awaitsSetup, pending]

/-- What is accounted for by the URB at the head, apart from the others. -/
theorem Covered.head (covered : q.Covered k x) (linked : q.urbList = u :: rest) :
    Within k x (awaitedCount rest + u.awaits.toNat) { q with urbList := [] ++ u :: rest } := by
  have whole : Within k x (awaitedCount q.urbList) { q with urbList := [] ++ u :: rest } := by
    rw [List.nil_append, ← linked]
    exact covered
  rwa [linked, awaitedCount_cons, Nat.add_comm] at whole

theorem covered_startSafe (k x : Nat) : StartSafe CalledUrb.StartsClear (Covered k x) where
  starts := by
    intro q covered clear
    refine initLoop_kept (I := Covered k x) ?_ [] q.urbList q covered clear
    intro done u rest q pending clear covered
    have started := Within.start covered pending clear
    simp only [awaitedCount_append, awaitedCount_cons, awaits_of_pending pending, Bool.toNat_false] at started
    refine started.mono ?_
    simp only [afterUrb, awaitedCount_append]
    omega
  update := by
    intro u rest msg q linked covered
    have after := (Covered.head covered linked).called (u.update_fits msg q) (awaitedCount_le rest)
      (u.update_answers msg q)
    refine after.mono ?_
    simp only [afterUrb, List.nil_append, awaitedCount_append]
    omega
  defer := fun _ _ covered => Within.of_same covered rfl rfl rfl (fun _ => rfl) rfl
  reset := fun _ covered => Within.of_same covered rfl rfl rfl (fun _ => rfl) rfl

/-- `do_resume` comes to the URBs `rest`, of which it submits again for those that wait for a completion. -/
theorem Within.resumeLoop (done rest : List BceVhciUrb) (q : BceVhciTransferQueue)
    (within : Within k x (awaitedCount done + setupCount rest) { q with urbList := done ++ rest })
    (clear : ∀ call ∈ resumeLoopCalls rest q, call.StartsClear) : Covered k x (resumeLoop done rest q) := by
  induction rest generalizing done q with
  | nil =>
    rw [List.append_nil] at within
    exact within
  | cons urb rest ih =>
    rw [setupCount_cons, Nat.add_comm urb.awaitsSetup.toNat, ← Nat.add_assoc] at within
    have next : ∀ call, Within k x (awaitedCount done + setupCount rest + awaitedCount call.urb.toList)
        (BceVhciTransferQueue.afterUrb done rest call) →
        Within k x (awaitedCount (done ++ call.urb.toList) + setupCount rest)
          { call.q with urbList := (done ++ call.urb.toList) ++ rest } := by
      intro call after
      rw [List.append_assoc]
      refine Within.mono after ?_
      rw [awaitedCount_append]
      omega
    rw [resumeLoopCalls] at clear
    rw [BceVhciTransferQueue.resumeLoop]
    by_cases pending : urb.state = .initPending
    · rw [if_pos pending] at clear ⊢
      by_cases slots : q.canInitUrb
      · rw [if_neg (not_not.mpr slots)] at clear ⊢
        have idle : urb.awaitsSetup = false := by simp [BceVhciUrb.awaitsSetup, pending]
        rw [idle, Bool.toNat_false, Nat.add_zero] at within
        have started := within.start pending (clear _ (List.mem_cons_self ..))
        exact ih _ _ (next _ started) fun call member => clear call (List.mem_cons_of_mem _ member)
      · rw [if_pos slots]
        refine Within.mono within ?_
        have less := setupCount_le (urb :: rest)
        rw [setupCount_cons] at less
        rw [awaitedCount_append]
        omega
    · rw [if_neg pending] at clear ⊢
      have resumed := within.answered (y := 0) (urb.resume_fits q) (urb.resume_inFlight q)
      exact ih _ _ (next _ resumed) fun call member => clear call (List.mem_cons_of_mem _ member)

/-- The section of `do_resume`, when it submits again only what the T2 has given back. -/
theorem Covered.resumeSection (covered : q.Covered k x)
    (returned : (∃ u ∈ q.urbList, u.state = .waitingForCompletion) → q.inFlight ≤ q.ghosts + k + x)
    (clear : ∀ call ∈ q.resumeSectionCalls, call.StartsClear) : q.resumeSection.Covered k x := by
  have within :
      Within k x (awaitedCount [] + setupCount q.urbList)
        { q with active := true, urbList := [] ++ q.urbList } := by
    rw [awaitedCount_nil, Nat.zero_add, List.nil_append]
    by_cases waiting : ∃ u ∈ q.urbList, u.state = .waitingForCompletion
    · refine ⟨covered.control, covered.slots, .inl ((returned waiting).trans ?_)⟩
      show q.ghosts + k + x ≤ setupCount q.urbList + q.ghosts + k + x
      omega
    · refine (covered.mono ?_).of_same rfl rfl rfl (fun _ => rfl) rfl
      refine (List.countP_congr fun u member => ?_).le
      have idle : u.state ≠ .waitingForCompletion := fun state => waiting ⟨u, member, state⟩
      simp [BceVhciUrb.awaits, idle]
  have looped := Within.resumeLoop [] q.urbList { q with active := true } within fun call member =>
    clear call (List.mem_append_left _ member)
  exact (covered_startSafe k x).deliverPending looped fun call member => clear call (List.mem_append_right _ member)

theorem completionBody_covered {out : Bool} {c : BceSqCompletionData} (covered : q.Covered k 0)
    (clear : ∀ call ∈ q.completionCalls out c, call.StartsClear) : (q.completionBody out c).Covered k 1 := by
  rcases q.completionBody_cases out c with
    same | ⟨normal, ghost, absorbs⟩ | ⟨urb, rest, -, -, linked, -, taken⟩
  · rw [same]
    refine covered.of_balanced (.refl q) ?_
    rcases covered.bound with bound | ⟨zero, idle, bound⟩
    · exact .inl (bound.trans (Nat.le_succ _))
    · exact .inr ⟨zero, idle, bound.trans (Nat.le_succ _)⟩
  · rw [absorbs]
    rw [completionCalls, if_neg normal, if_pos ghost] at clear
    refine (covered_startSafe k 1).starts _ ?_ clear
    have balanced := q.absorbGhost_balanced out ghost
    obtain ⟨urbs, -⟩ := q.absorbGhost_same out out
    have inFlight : (q.absorbGhost out).inFlight = q.inFlight := inFlight_of_sq fun _ => by cases out <;> rfl
    have fewer : q.ghosts ≤ (q.absorbGhost out).ghosts + 1 := by
      cases out <;> simp only [BceVhciTransferQueue.ghosts, BceVhciTransferQueue.absorbGhost] <;> omega
    refine covered.of_balanced balanced ?_
    rw [urbs, inFlight, balanced.endp, balanced.slots]
    rcases covered.bound with bound | ⟨zero, idle, bound⟩
    · left
      omega
    · exact .inr ⟨zero, idle, bound.trans (Nat.le_succ _)⟩
  · rw [taken]
    have after := (covered.head linked).called (urb.transferCompletion_fits c q) (awaitedCount_le rest)
      (urb.transferCompletion_answers c q)
    refine after.mono ?_
    simp only [afterUrb, List.nil_append, awaitedCount_append]
    omega

/-- A round of the completion handler takes one request out of those in flight. -/
theorem Covered.completion {out : Bool} {c : BceSqCompletionData} (covered : q.Covered k 0)
    (held : q.outstanding out ≠ []) (clear : ∀ call ∈ q.completionCalls out c, call.StartsClear) :
    (q.completion out c).Covered k 0 := by
  have body := completionBody_covered covered clear
  have pops := q.completion_pops out c
  have before := q.completionBody_balanced out c
  have balanced := q.completion_balanced out c
  have popped : (q.completion out c).inFlight + 1 = (q.completionBody out c).inFlight := by
    have front := completionBody_front c (List.head?_eq_some_head held)
    have some : 0 < ((q.completionBody out c).outstanding out).length := by
      refine List.length_pos_iff.mpr fun empty => ?_
      simp [empty] at front
    have one := congrArg List.length pops.popped
    have other := congrArg List.length pops.other
    rw [List.length_tail] at one
    unfold BceVhciTransferQueue.inFlight
    cases out
    · rw [Bool.not_false] at other
      omega
    · rw [Bool.not_true] at other
      omega
  have ghosts : (q.completion out c).ghosts = (q.completionBody out c).ghosts :=
    congrArg₂ (· + ·) (pops.ghosts false) (pops.ghosts true)
  refine covered.of_balanced balanced ?_
  rw [ghosts, pops.urbList, balanced.endp, balanced.slots]
  rcases body.bound with bound | ⟨zero, idle, bound⟩
  · left
    omega
  · rw [before.endp] at zero
    rw [before.slots] at bound
    refine .inr ⟨zero, idle, ?_⟩
    omega

/-- A new URB is linked behind the others. -/
theorem Covered.linked (covered : q.Covered k x) (urb : Urb) :
    Covered k x { q with urbList := q.urbList ++ [q.newUrb urb] } := by
  have pending : (q.newUrb urb).state = .initPending := rfl
  have idle : (q.newUrb urb).started = false := by simp [BceVhciUrb.started, pending]
  have slots : BceVhciTransferQueue.slots { q with urbList := q.urbList ++ [q.newUrb urb] } = q.slots := by
    simp [BceVhciTransferQueue.slots, idle]
  refine ⟨?_, ?_, ?_⟩
  · intro u member
    rcases List.mem_append.mp member with old | new
    · exact covered.control u old
    · rw [List.mem_singleton.mp new]
      rfl
  · rw [slots]
    exact covered.slots
  · have awaited : awaitedCount (q.urbList ++ [q.newUrb urb]) = awaitedCount q.urbList := by
      simp [awaits_of_pending pending]
    have started : startedCount (q.urbList ++ [q.newUrb urb]) = startedCount q.urbList := by
      simp [idle]
    rw [slots]
    show q.inFlight ≤ awaitedCount (q.urbList ++ _) + q.ghosts + k + x ∨
      q.endp.num = 0 ∧ startedCount (q.urbList ++ _) = 0 ∧ q.inFlight ≤ _
    rw [awaited, started]
    exact covered.bound

theorem Covered.create (covered : q.Covered k x) (urb : Urb) (allocated : Bool) (link : Option Errno)
    (clear : ∀ call ∈ q.createCalls urb allocated link, call.StartsClear) :
    (q.urbCreate urb allocated link).2.Covered k x := by
  have linked := covered.linked urb
  refine (covered_startSafe k x).urbCreate urb allocated link covered ?_ ?_ ?_ clear
  · intro _ e failed
    have frame := BceVhciUrb.init_failed failed
    have refuses := BceVhciUrb.init_refuses failed
    rw [Covered, frame.urbList]
    exact covered.of_same frame.urbList frame.endp frame.remaining frame.toFrame.ghostCount refuses.inFlight
  · intro clear _ _ _
    have started := Within.start linked rfl clear
    have pending : (q.newUrb urb).state = .initPending := rfl
    simp only [awaitedCount_append, awaitedCount_cons, awaits_of_pending pending, Bool.toNat_false] at started
    refine started.mono ?_
    simp only [afterUrb, awaitedCount_append]
    omega
  · intro _ _
    exact linked.of_same rfl rfl rfl (fun _ => rfl) rfl

theorem Covered.cancelAll (covered : q.Covered k 0) (returned : q.endp.num ≠ 0 → q.inFlight ≤ q.ghosts + k) :
    q.cancelAll.Covered k 0 := by
  obtain ⟨urbs, kept, -⟩ := cancelLoop_same q.urbList { q with active := false }
  have conserves := q.cancelAll_conserves
  have none : q.cancelAll.urbList = [] := urbs
  have inFlight : q.cancelAll.inFlight = q.inFlight := kept.inFlight
  refine covered.of_balanced conserves.balanced ?_
  rw [inFlight, conserves.ghosts, conserves.endp, conserves.balanced.slots, none]
  by_cases zero : q.endp.num = 0
  · exact .inr ⟨zero, rfl, covered.most⟩
  · have returned := returned zero
    left
    omega

/-- The section of the flush worker, on a data endpoint when nothing is in flight. -/
theorem Covered.flushSection (covered : q.Covered k 0) (idle : startedCount q.urbList = 0)
    (returned : q.endp.num ≠ 0 → q.inFlight = 0) (slots : q.slots + k = q.maxActiveRequests) :
    q.flushSection.Covered 0 0 := by
  have all : q.flushSection.slots = q.maxActiveRequests := by
    simp [BceVhciTransferQueue.slots, BceVhciTransferQueue.flushSection, idle]
  refine ⟨covered.control, ?_, ?_⟩
  · rw [all, ← slots]
    exact covered.slots
  · by_cases zero : q.endp.num = 0
    · refine .inr ⟨zero, idle, ?_⟩
      rw [all, ← slots]
      exact covered.most
    · have none : q.flushSection.inFlight = 0 := returned zero
      left
      rw [none]
      exact Nat.zero_le _

/-- A cancel moves the request of the URB to the ghosts, or to the control URBs left to the flush worker. -/
theorem Covered.cancel (covered : q.Covered k 0) (id : Nat) (status : Int)
    (sum : (q.urbRequestCancel id status).2.slots + k' = q.slots + k) :
    (q.urbRequestCancel id status).2.Covered k' 0 := by
  rcases q.urbRequestCancel_cases id status with ⟨e, run⟩ | run | ⟨before, vurb, after, linked, -, cases⟩
  · rw [run] at sum ⊢
    rwa [Nat.add_left_cancel sum]
  · rw [run] at sum ⊢
    rwa [Nat.add_left_cancel sum]
  · have moved := TransferRun.unlinked_slots q vurb before after linked
    have member : vurb ∈ q.urbList := by simp [linked]
    have left : (vurb.awaits).toNat ≤ (leavesGhost vurb).toNat + (vurb.started && vurb.isControl).toNat := by
      cases awaits : vurb.awaits with
      | false => exact Nat.zero_le _
      | true =>
        have started := awaits_started awaits
        cases control : vurb.isControl with
        | true => simp [started]
        | false =>
          have waiting : vurb.state = .waitingForCompletion := by
            simpa [BceVhciUrb.awaits, BceVhciUrb.awaitsSetup, control] using awaits
          simp [leavesGhost, waiting, control]
    have ghosts : (q.unlinked vurb (before ++ after)).ghosts = q.ghosts + (leavesGhost vurb).toNat :=
      q.cancelSlot_ghosts vurb
    have endp : (q.unlinked vurb (before ++ after)).endp = q.endp := (q.cancelSlot_frame vurb).2.2.1
    have inFlight : (q.unlinked vurb (before ++ after)).inFlight = q.inFlight :=
      inFlight_of_sq (q.cancelSlot_same vurb).1.sq
    have removed : (q.unlinked vurb (before ++ after)).slots + k' = q.slots + k →
        (q.unlinked vurb (before ++ after)).Covered k' 0 := by
      intro sum
      refine ⟨?_, ?_, ?_⟩
      · intro u there
        rw [endp]
        refine covered.control u ?_
        rw [linked]
        exact (unlinked_sublist before vurb after).subset there
      · rw [endp, sum]
        exact covered.slots
      · rw [inFlight, ghosts, endp, sum]
        rcases covered.bound with bound | ⟨zero, idle, bound⟩
        · left
          rw [linked] at bound
          simp only [awaitedCount_append, awaitedCount_cons, BceVhciTransferQueue.unlinked] at bound ⊢
          omega
        · rw [linked] at idle
          simp only [startedCount_append, startedCount_cons] at idle
          refine .inr ⟨zero, ?_, bound⟩
          simp only [BceVhciTransferQueue.unlinked, startedCount_append]
          omega
    rcases cases with ⟨run, -⟩ | run
    · rw [run] at sum ⊢
      exact removed sum
    · rw [run] at sum ⊢
      exact (removed sum).of_same rfl rfl rfl (fun _ => rfl) rfl

end BceVhciTransferQueue

namespace TransferRun

open BceVhciTransferQueue

variable {s t : TransferRun} {a : TransferStep}

/-- The T2 has given requests back before the driver counts on it. The flush worker comes to its section
when no linked URB is started, and on a data endpoint when nothing is in flight. `do_resume` submits again,
and the URBs of a data endpoint are given back together, when what is in flight is that of ghosts and of
control URBs left to the flush worker. The queue is not torn down. -/
def Returned (s : TransferRun) : TransferStep → Prop
  | .work => s.worker.head? = some .flushSection →
      startedCount s.q.urbList = 0 ∧ (s.q.endp.num ≠ 0 → s.q.inFlight = 0)
  | .advance _ => s.atResume → (∃ u ∈ s.q.urbList, u.state = .waitingForCompletion) →
      s.q.inFlight ≤ s.q.ghosts + s.flushedControls
  | .cancelAll => s.q.endp.num ≠ 0 → s.q.inFlight ≤ s.q.ghosts + s.flushedControls
  | .destroy => False
  | _ => True

/-- And a control URB is started when nothing is in flight. -/
def KeepsSlots (s : TransferRun) (a : TransferStep) : Prop :=
  (∀ call ∈ s.calls a, call.StartsClear) ∧ s.Returned a

instance (s : TransferRun) : (a : TransferStep) → Decidable (s.Returned a)
  | .work => inferInstanceAs (Decidable (_ → _ ∧ (_ → _)))
  | .advance _ => inferInstanceAs (Decidable (_ → (∃ u ∈ s.q.urbList, _) → _))
  | .cancelAll => inferInstanceAs (Decidable (_ → _))
  | .destroy => .isFalse id
  | .op _ | .giveback | .queueFlush | .endpointReset | .startWork _ | .lock _ => .isTrue trivial

instance (s : TransferRun) (a : TransferStep) : Decidable (s.KeepsSlots a) :=
  inferInstanceAs (Decidable ((∀ call ∈ s.calls a, _) ∧ _))

theorem flushesIdle_of_keepsSlots (s : TransferRun) (a : TransferStep) (keeps : s.KeepsSlots a) :
    s.FlushesIdle a := by
  have returned := keeps.2
  cases a with
  | work => exact fun ahead => (returned ahead).1
  | destroy => exact returned
  | _ => trivial

/-- A step that leaves the control URBs to the flush worker as they are. -/
theorem covered_of_same {q : BceVhciTransferQueue} (covered : q.Covered s.flushedControls 0) (after : t.q = q)
    (flush : q.flushGivebackList = s.q.flushGivebackList) (controls : t.controlFlushes = s.controlFlushes) :
    t.q.Covered t.flushedControls 0 := by
  have same : t.flushedControls = s.flushedControls := by
    rw [flushedControls, flushedControls, after, flush, controls]
  rw [same, after]
  exact covered

theorem opStep_covered {op : TransferOp} (covered : s.q.Covered s.flushedControls 0)
    (sum : t.q.slots + t.flushedControls = s.q.slots + s.flushedControls)
    (keeps : s.KeepsSlots (.op op)) (run : s.opStep op = some t) : t.q.Covered t.flushedControls 0 := by
  have clear := keeps.1
  cases op with
  | create urb allocated link =>
    obtain ⟨-, after⟩ := Option.ite_none_right_eq_some.mp run
    cases after
    refine covered_of_same (covered.create urb allocated link clear) (created_q ..) ?_ ?_
    · rcases s.q.urbCreate_cases urb allocated link with ⟨_, -, conserves⟩ | ⟨-, conserves⟩
      · exact conserves.flushGivebackList
      · exact conserves.flushGivebackList
    · unfold created
      split <;> rfl
  | cancel id status =>
    obtain ⟨-, after⟩ := Option.ite_none_right_eq_some.mp run
    cases after
    rw [afterCancel_q] at sum ⊢
    exact covered.cancel id status sum
  | event msg allocated =>
    obtain ⟨-, after⟩ := Option.ite_none_right_eq_some.mp run
    cases after
    exact covered_of_same ((covered_startSafe _ 0).event covered msg allocated clear) rfl
      (s.q.event_conserves msg allocated).flushGivebackList rfl
  | completion out c =>
    obtain ⟨held, after⟩ := Option.ite_none_right_eq_some.mp run
    cases after
    exact covered_of_same (covered.completion held.2 clear) rfl
      (s.q.completion_balanced out c).flushGivebackList rfl
  | completionEnd =>
    cases Option.some.inj run
    exact covered_of_same ((covered_startSafe _ 0).deliverPending covered clear) rfl
      s.q.deliverPending_conserves.flushGivebackList rfl

theorem step_covered (slots : s.SlotsKept) (after : t.SlotsKept) (covered : s.q.Covered s.flushedControls 0)
    (keeps : s.KeepsSlots a) (run : s.step a = some t) : t.q.Covered t.flushedControls 0 := by
  have sum : t.q.slots + t.flushedControls = s.q.slots + s.flushedControls :=
    after.slots.trans ((step_fixed run).2.trans slots.slots.symm)
  have returned := keeps.2
  cases step_effect run with
  | op op label ran =>
    subst label
    exact opStep_covered covered sum keeps ran
  | giveback _ _ _ _ _ after =>
    subst after
    exact covered.of_same rfl rfl rfl (fun _ => rfl) rfl
  | resumed env _ _ label held _ after =>
    subst label after
    have here : s.atResume := by rw [atResume, held]
    have calls : s.calls (.advance env) = s.q.resumeSectionCalls := by simp [TransferRun.calls, held]
    have clear := keeps.1
    rw [calls] at clear
    exact covered_of_same (covered.resumeSection (returned here) clear) rfl
      s.q.resumeSection_conserves.flushGivebackList rfl
  | flushed rest label ahead _ after =>
    subst label after
    obtain ⟨idle, none⟩ := returned (by rw [ahead]; rfl)
    exact covered.flushSection idle none slots.slots
  | spliced label _ _ _ =>
    subst label
    cases returned
  | cancelledAll label _ after =>
    subst label after
    exact covered_of_same (covered.cancelAll returned) rfl s.q.cancelAll_conserves.flushGivebackList rfl
  | quiet same logs =>
    refine covered_of_same ?_ rfl same.flushGivebackList logs.controlFlushes
    rw [Covered, same.urbList]
    refine Within.of_same covered same.urbList same.endp same.remaining (fun out => ?_) ?_
    · cases out
      · exact same.ghostInCount
      · exact same.ghostOutCount
    · refine inFlight_of_sq fun out => ?_
      cases out
      · exact same.sqIn
      · exact same.sqOut

theorem covered_of_reach (reach : machine.ReachableUnder KeepsSlots s)
    (control : s.q.endp.num = 0 → s.q.endp.xfer = .control) : s.q.Covered s.flushedControls 0 := by
  suffices (s.q.endp.num = 0 → s.q.endp.xfer = .control) → s.q.Covered s.flushedControls 0 from this control
  refine reach.invariant_of (J := fun s => machine.ReachableUnder KeepsSlots s)
    (I := fun s => (s.q.endp.num = 0 → s.q.endp.xfer = .control) → s.q.Covered s.flushedControls 0)
    (fun _ reach => reach) ?_ ?_
  · rintro s ⟨endp, devAddr, memory, reservations, q, create, rfl⟩ control
    have unused := createTransferQueue_unused create
    have none : q.urbList = [] := unused.urbList
    have flushed : (fresh q).flushedControls = 0 := by simp [fresh, flushedControls]
    have empty : q.inFlight = 0 := by
      rw [BceVhciTransferQueue.inFlight, outstanding_of_unused unused, outstanding_of_unused unused]
      rfl
    rw [flushed]
    refine ⟨?_, ?_, .inl ?_⟩
    · rw [fresh, none]
      exact List.forall_mem_nil _
    · intro zero
      have most := max_of_reach (.start ⟨endp, devAddr, memory, reservations, q, create, rfl⟩)
      rw [UsbEndpoint.maxActiveRequests, control zero] at most
      have sum := (fresh_slotsKept create).slots
      rw [allSlots, flushed] at sum
      exact (sum.trans most).le
    · exact empty.trans_le (Nat.zero_le _)
  · intro s a t reach held keeps run control
    have slots : ∀ {s}, machine.ReachableUnder KeepsSlots s → s.SlotsKept := fun reach =>
      slotsKept_of_reach (reach.mono flushesIdle_of_keepsSlots)
    rw [step_endp run] at control
    exact step_covered (slots reach) (slots (reach.next keeps run)) (held control) keeps run

/-- In every run in which the T2 has given requests back before the driver counts on it, the slots add up to
the active requests of the endpoint, no more than these are ever free, and the T2 never has more of them in
flight. -/
theorem slots_conserved (reach : machine.ReachableUnder KeepsSlots s)
    (control : s.q.endp.num = 0 → s.q.endp.xfer = .control) :
    s.q.remainingActiveRequests + s.q.urbList.countP BceVhciUrb.started + s.q.ghostInCount +
        s.q.ghostOutCount + s.flushedControls = s.q.maxActiveRequests ∧
      s.q.remainingActiveRequests ≤ s.q.maxActiveRequests ∧
      (s.q.outstanding false).length + (s.q.outstanding true).length ≤ s.q.maxActiveRequests := by
  have kept := slotsKept_of_reach (reach.mono flushesIdle_of_keepsSlots)
  have sum : s.q.remainingActiveRequests + s.q.urbList.countP BceVhciUrb.started + s.q.ghostInCount +
      s.q.ghostOutCount + s.flushedControls = s.q.maxActiveRequests := kept.slots
  refine ⟨sum, by omega, ?_⟩
  calc s.q.inFlight
      ≤ s.q.slots + s.flushedControls := (covered_of_reach reach control).most
    _ = s.q.maxActiveRequests := kept.slots

/-- Two URBs are in flight and one of them is cancelled. The firmware pauses the endpoint, both requests are
aborted, and the resume submits again for the URB that is left. -/
theorem slots_conserved_resumed : ∃ s, machine.ReachableUnder KeepsSlots s ∧
    s.q.remainingActiveRequests = 6 ∧ s.q.ghostInCount = 1 ∧ s.q.urbList.map BceVhciUrb.id = [2] ∧
    (s.q.outstanding false).map UrbSubmission.urb = [2] ∧
    (s.q.outstanding false).length + (s.q.outstanding true).length ≤ s.q.maxActiveRequests := by
  have ran : (ranUnder KeepsSlots bulkIn []
      [.op (.create (sampleUrb 1 true) true none), .op (.create (sampleUrb 2 true) true none),
        .op (.cancel 1 Errno.connreset.neg), .startWork .firmwarePause, .work, paused, paused, paused,
        abortedCompletion, abortedCompletion, .op .completionEnd, paused, .startWork .firmwareResume, .work,
        activated, activated, activated]).map
      (fun s => decide (s.q.endp.num ≠ 0 ∧ s.q.remainingActiveRequests = 6 ∧ s.q.ghostInCount = 1 ∧
        s.q.urbList.map BceVhciUrb.id = [2] ∧
          (s.q.outstanding false).map UrbSubmission.urb = [2])) = some true := by
    decide
  obtain ⟨s, reach, seen⟩ := reachableUnder_of_ran ran
  obtain ⟨data, remaining, ghost, linked, submitted⟩ := of_decide_eq_true seen
  exact ⟨s, reach, remaining, ghost, linked, submitted,
    (slots_conserved reach fun control => absurd control data).2.2⟩

/-- The last URB is cancelled in flight, and before the flush worker comes to its section a new one is
started. The worker declares its slot free as well. And where the flush worker does no harm, five URBs are
in flight when the firmware pauses the endpoint, and the resume submits again for all of them. -/
theorem started_slot_declared_free :
    (¬∀ s, machine.ReachableUnder (fun _ a => a ≠ .destroy) s →
      s.q.remainingActiveRequests + s.q.urbList.countP BceVhciUrb.started + s.q.ghostInCount +
        s.q.ghostOutCount + s.flushedControls = s.q.maxActiveRequests) ∧
    ¬∀ s, machine.ReachableUnder FlushesIdle s →
      (s.q.outstanding false).length + (s.q.outstanding true).length ≤ s.q.maxActiveRequests := by
  refine ⟨?_, ?_⟩
  · intro conserved
    have ran : (ranUnder (fun _ a => a ≠ .destroy) bulkIn []
        [.op (.create (sampleUrb 1 true) true none), .op (.cancel 1 Errno.connreset.neg),
          .op (.create (sampleUrb 2 true) true none), .queueFlush, .startWork .flush, .work,
          paused, paused, paused, paused, .work]).map
        (fun s => (s.q.remainingActiveRequests + s.q.urbList.countP BceVhciUrb.started +
          s.q.ghostInCount + s.q.ghostOutCount + s.flushedControls, s.q.maxActiveRequests)) =
          some (9, 8) := by
      decide
    obtain ⟨s, reach, seen⟩ := reachableUnder_of_ran ran
    have same := conserved s reach
    simp only [Prod.mk.injEq] at seen
    omega
  · intro bounded
    have ran : (ranUnder FlushesIdle bulkIn []
        ((List.range 5).map (fun id => .op (.create (sampleUrb id true) true none)) ++
          [.startWork .firmwarePause, .work, paused, paused, paused, paused, .startWork .firmwareResume, .work,
            activated, activated, activated])).map
        (fun s => ((s.q.outstanding false).length + (s.q.outstanding true).length, s.q.maxActiveRequests)) =
          some (10, 8) := by
      decide
    obtain ⟨s, reach, seen⟩ := reachableUnder_of_ran ran
    have within := bounded s reach
    simp only [Prod.mk.injEq] at seen
    omega

end TransferRun

end AppleBce

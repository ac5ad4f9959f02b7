import AppleBce.Vhci.UrbRules

namespace AppleBce

open Basis

namespace BceVhciUrb

variable {u v : BceVhciUrb} {q : BceVhciTransferQueue}

/-- The URB sends nothing: it is one of a data endpoint, to the device and without data. -/
def SendsNothing (u : BceVhciUrb) : Prop :=
  u.isControl = false ∧ u.dir = .toDevice ∧ u.urb.transferBufferLength = 0

instance (u : BceVhciUrb) : Decidable u.SendsNothing :=
  inferInstanceAs (Decidable (_ ∧ _))

/-- The URB of a data endpoint has nothing left to do. -/
def Finished (u : BceVhciUrb) : Prop :=
  u.isControl = false ∧ u.state = .dataTransferComplete

instance (u : BceVhciUrb) : Decidable u.Finished :=
  inferInstanceAs (Decidable (_ ∧ _))

/-- A linked URB is finished exactly if it was started with nothing to send. -/
def FinishesEmpty (u : BceVhciUrb) : Prop :=
  u.Finished ↔ u.started = true ∧ u.SendsNothing

/-- The same of the URB afterwards, which sends nothing only if it did so before. -/
def SettlesAs (u v : BceVhciUrb) : Prop :=
  v.FinishesEmpty ∧ (v.SendsNothing → u.SendsNothing)

theorem FinishesEmpty.same (settled : u.FinishesEmpty) : u.SettlesAs u :=
  ⟨settled, fun nothing => nothing⟩

theorem settlesAs_of_control (control : v.isControl = true) : u.SettlesAs v := by
  have something : ¬v.SendsNothing := by
    rintro ⟨data, -⟩
    rw [data] at control
    cases control
  refine ⟨iff_of_false (fun finished => ?_) (fun begun => something begun.2),
    fun nothing => absurd nothing something⟩
  rw [finished.1] at control
  cases control

/-- An URB that waits sends something, and may wait for something else. -/
theorem FinishesEmpty.waits {state : BceVhciUrbState} {sendOffset receiveOffset : BitVec 32}
    (settled : u.FinishesEmpty)
    (held : u.started = true) (before : u.state ≠ .dataTransferComplete) (after : state ≠ .dataTransferComplete) :
    u.SettlesAs { u with state, sendOffset, receiveOffset } := by
  have something : ¬u.SendsNothing := fun nothing => before (settled.mpr ⟨held, nothing⟩).2
  exact ⟨iff_of_false (fun finished => after finished.2) (fun begun => something begun.2),
    fun nothing => nothing⟩

theorem finishesEmpty_init (u : BceVhciUrb) (q : BceVhciTransferQueue) (settled : u.FinishesEmpty) (v : BceVhciUrb)
    (kept : (u.init q).urb = some v) : u.SettlesAs v := by
  by_cases control : u.isControl = true
  · rcases u.init_cases q with ⟨e, -, present, -⟩ | ⟨w, -, present, same, -⟩
    · cases present.symm.trans kept
      exact settled.same
    · cases present.symm.trans kept
      exact settlesAs_of_control (same.isControl.trans control)
  · have data : u.isControl = false := by simpa using control
    simp only [init, data, dataStart, Bool.false_eq_true, ↓reduceIte] at kept
    split at kept
    · cases kept
      exact settled.same
    · by_cases out : u.dir = .toDevice
      · by_cases something : 0 < u.urb.transferBufferLength
        · simp only [if_pos out, if_pos something, ↓reduceIte, Option.some.injEq] at kept
          subst kept
          have sends : ¬u.SendsNothing := by
            rintro ⟨-, -, nothing⟩
            rw [nothing] at something
            exact absurd something (by decide)
          refine ⟨iff_of_false (fun finished => absurd finished.2 (by simp)) (fun begun => ?_), fun nothing => ?_⟩
          · exact sends ⟨data, begun.2.2⟩
          · exact ⟨data, nothing.2⟩
        · simp only [if_pos out, if_neg something, ↓reduceIte, Option.some.injEq] at kept
          subst kept
          have nothing : u.urb.transferBufferLength = 0 := by simpa using something
          exact ⟨iff_of_true ⟨rfl, rfl⟩ ⟨rfl, rfl, out, nothing⟩, fun _ => ⟨data, out, nothing⟩⟩
      · simp only [if_neg out] at kept
        rcases u.dataTransferIn_uses q with ⟨-, failed, present⟩ | ⟨-, began, present⟩
        · simp only [failed, reduceCtorEq, ↓reduceIte, present, Option.some.injEq] at kept
          subst kept
          exact settled.same
        · simp only [began, ↓reduceIte, present, Option.some.injEq] at kept
          subst kept
          refine ⟨iff_of_false (fun finished => absurd finished.2 (by simp)) (fun begun => out begun.2.2.1),
            fun nothing => ?_⟩
          exact absurd nothing.2.1 out

theorem finishesEmpty_update (u : BceVhciUrb) (msg : BceVhciMessage) (q : BceVhciTransferQueue)
    (settled : u.FinishesEmpty) (v : BceVhciUrb) (kept : (u.update msg q).urb = some v) : u.SettlesAs v := by
  by_cases control : u.isControl = true
  · exact settlesAs_of_control (((u.update_fits msg q).kept v kept).1.isControl.trans control)
  · rw [update] at kept
    split at kept
    · cases kept
      exact settled.same
    · rw [dataUpdate] at kept
      split at kept
      · rename_i asked
        dsimp only at kept
        split at kept <;> cases kept
        · exact settled.same
        · exact settled.waits (by simp [started, asked.1]) (by simp [asked.1]) (by decide)
      · cases kept
        exact settled.same

theorem finishesEmpty_transferCompletion (u : BceVhciUrb) (c : BceSqCompletionData) (q : BceVhciTransferQueue)
    (settled : u.FinishesEmpty) (v : BceVhciUrb) (kept : (u.transferCompletion c q).urb = some v) :
    u.SettlesAs v := by
  by_cases control : u.isControl = true
  · exact settlesAs_of_control (((u.transferCompletion_fits c q).kept v kept).1.isControl.trans control)
  · rw [transferCompletion, if_neg control, dataTransferCompletion] at kept
    split at kept
    · rename_i waiting
      dsimp only at kept
      split at kept
      · cases kept
      · cases kept
        exact settled.waits (by simp [started, waiting]) (by simp [waiting]) (by simp [waiting])
    · cases kept
      exact settled.same

theorem finishesEmpty_resume (u : BceVhciUrb) (q : BceVhciTransferQueue) (settled : u.FinishesEmpty)
    (v : BceVhciUrb) (kept : (u.resume q).urb = some v) : u.SettlesAs v := by
  rcases u.resume_uses q with ⟨-, eq⟩ | ⟨-, -, gone⟩ | ⟨waiting, -, present⟩
  · rw [eq] at kept
    cases kept
    exact settled.same
  · rw [gone] at kept
    cases kept
  · cases present.symm.trans kept
    exact settled.waits (by simp [started, waiting]) (by simp [waiting]) nofun

/-- A property that can only be lost with the data holds together with it. -/
theorem finishesEmpty_safe {P : BceVhciUrb → Prop} (settles : ∀ u v, u.FinishesEmpty → P u → u.SettlesAs v → P v) :
    UrbSafe fun u => u.FinishesEmpty ∧ P u where
  init := fun u q _ held v kept =>
    ⟨(finishesEmpty_init u q held.1 v kept).1, settles u v held.1 held.2 (finishesEmpty_init u q held.1 v kept)⟩
  update := fun u msg q held v kept =>
    ⟨(finishesEmpty_update u msg q held.1 v kept).1,
      settles u v held.1 held.2 (finishesEmpty_update u msg q held.1 v kept)⟩
  transferCompletion := fun u c q held v kept =>
    ⟨(finishesEmpty_transferCompletion u c q held.1 v kept).1,
      settles u v held.1 held.2 (finishesEmpty_transferCompletion u c q held.1 v kept)⟩
  resume := fun u q held v kept =>
    ⟨(finishesEmpty_resume u q held.1 v kept).1, settles u v held.1 held.2 (finishesEmpty_resume u q held.1 v kept)⟩

end BceVhciUrb

namespace TransferRun

open BceVhciUrb

variable {s : TransferRun}

theorem newUrb_finishesEmpty (q : BceVhciTransferQueue) (urb : Urb) : (q.newUrb urb).FinishesEmpty :=
  iff_of_false (fun finished => nomatch finished.2) (fun begun => nomatch begun.1)

theorem finishesEmpty_of_reach (reach : machine.Reachable s) : s.q.AllUrbs FinishesEmpty := by
  have safe : UrbSafe fun u => u.FinishesEmpty ∧ True := finishesEmpty_safe fun _ _ _ _ _ => trivial
  have held := allUrbs_of_reach safe
    (fun s a _ => beginsWith_of_create fun urb _ _ _ => ⟨newUrb_finishesEmpty s.q urb, trivial⟩) reach
  exact fun u linked => (held u linked).1

/-- No URB is enqueued that sends nothing. -/
def EnqueuesData (s : TransferRun) : TransferStep → Prop
  | .op (.create urb _ _) => ¬(s.q.newUrb urb).SendsNothing
  | _ => True

instance (s : TransferRun) : (a : TransferStep) → Decidable (s.EnqueuesData a)
  | .op (.create urb _ _) => inferInstanceAs (Decidable ¬(s.q.newUrb urb).SendsNothing)
  | .op (.cancel ..) | .op (.event ..) | .op (.completion ..) | .op .completionEnd | .giveback | .queueFlush
  | .endpointReset | .cancelAll | .startWork _ | .work | .lock _ | .advance _ | .destroy => .isTrue trivial

/-- No finished URB of a data endpoint is linked exactly as long as no URB that sends nothing is
linked and started; in particular none is if no such URB is enqueued. -/
theorem finished_unlinked_iff (reach : machine.Reachable s) :
    ((∀ u ∈ s.q.urbList, ¬u.Finished) ↔ ∀ u ∈ s.q.urbList, u.SendsNothing → u.state = .initPending) ∧
      (machine.ReachableUnder EnqueuesData s → ∀ u ∈ s.q.urbList, ¬u.Finished) := by
  have settled := finishesEmpty_of_reach reach
  constructor
  · constructor
    · intro unfinished u linked nothing
      by_contra begun
      exact unfinished u linked ((settled u linked).mpr ⟨started_of_ne begun, nothing⟩)
    · intro pending u linked finished
      obtain ⟨begun, nothing⟩ := (settled u linked).mp finished
      rw [started, pending u linked nothing] at begun
      exact absurd begun (by decide)
  · intro reach
    have safe : UrbSafe fun u => u.FinishesEmpty ∧ ¬u.SendsNothing :=
      finishesEmpty_safe fun _ _ _ something as nothing => something (as.2 nothing)
    have held := allUrbs_of_reach safe (fun s a data => beginsWith_of_create fun urb _ _ label => ?_) reach
    · exact fun u linked finished => (held u linked).2 ((held u linked).1.mp finished).2
    · subst label
      exact ⟨newUrb_finishesEmpty s.q urb, data⟩

/-- A queue with an URB of 512 bytes in flight and another one behind it. -/
theorem finished_unlinked_two : ∃ s, machine.ReachableUnder EnqueuesData s ∧ s.q.urbList.length = 2 ∧
    ∀ u ∈ s.q.urbList, ¬u.Finished := by
  have ran : (ranUnder EnqueuesData bulkOut [] [.op (.create (sampleUrb 1 false) true none),
      .op (.create (sampleUrb 2 false) true none),
      .op (.event ⟨BceVhciCommand.transferRequest.code, 0, 0, 512⟩ true)]).map
      (fun s => s.q.urbList.length) = some 2 := by
    decide
  obtain ⟨s, reach, seen⟩ := reachableUnder_of_ran ran
  exact ⟨s, reach, seen, (finished_unlinked_iff reach.reachable).2 reach⟩

/-- An URB without data on a bulk endpoint to the device is started and stays linked. -/
theorem empty_urb_stays_linked : ¬∀ s, machine.Reachable s → ∀ u ∈ s.q.urbList, ¬u.Finished := by
  intro unlinked
  have ran : (ranUnder (fun _ _ => True) bulkOut []
      [.op (.create { sampleUrb 1 false with transferBufferLength := 0 } true none)]).map
      (fun s => decide (∃ u ∈ s.q.urbList, u.Finished)) = some true := by
    decide
  obtain ⟨s, reach, seen⟩ := reachableUnder_of_ran ran
  obtain ⟨u, linked, finished⟩ := of_decide_eq_true seen
  exact unlinked s reach u linked finished

end TransferRun

end AppleBce

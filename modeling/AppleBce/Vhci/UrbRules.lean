import AppleBce.Vhci.Linked
import AppleBce.Vhci.LoopRules

namespace AppleBce

open Basis

/-- A property of single URBs that every function on an URB keeps. -/
structure UrbSafe (P : BceVhciUrb → Prop) : Prop where
  init : ∀ u q, u.state = .initPending → P u → ∀ v, (u.init q).urb = some v → P v
  update : ∀ u msg q, P u → ∀ v, (u.update msg q).urb = some v → P v
  transferCompletion : ∀ u c q, P u → ∀ v, (u.transferCompletion c q).urb = some v → P v
  resume : ∀ u q, P u → ∀ v, (u.resume q).urb = some v → P v

/-- All linked URBs have the property. -/
def BceVhciTransferQueue.AllUrbs (P : BceVhciUrb → Prop) (q : BceVhciTransferQueue) : Prop :=
  ∀ u ∈ q.urbList, P u

namespace UrbSafe

open BceVhciTransferQueue

variable {P : BceVhciUrb → Prop} {q : BceVhciTransferQueue} {u : BceVhciUrb} {done rest : List BceVhciUrb}

theorem afterUrb {call : UrbCall} (passed : ∀ v ∈ done, P v) (kept : ∀ v, call.urb = some v → P v)
    (behind : ∀ v ∈ rest, P v) : (afterUrb done rest call).AllUrbs P := by
  intro v member
  simp only [BceVhciTransferQueue.afterUrb, List.mem_append, Option.mem_toList] at member
  rcases member with before | here | after
  · exact passed v before
  · exact kept v here
  · exact behind v after

/-- A property that each call keeps is kept by the loops. -/
theorem loopSafe (safe : UrbSafe P) : LoopSafe (AllUrbs P) where
  start := by
    intro done u rest q pending held
    refine UrbSafe.afterUrb (fun v member => held v (by simp [member])) ?_
      (fun v member => held v (by simp [member]))
    exact safe.init u q pending (held u (by simp))
  update := by
    intro u rest msg q linked held
    have here : P u := held u (by simp [linked])
    refine UrbSafe.afterUrb (List.forall_mem_nil _) (safe.update u msg q here) (fun v member => held v ?_)
    rw [linked]
    exact List.mem_cons_of_mem _ member
  defer := fun q evq held => held

/-- The completion of a ghost touches no URB. -/
theorem completion (safe : UrbSafe P) (held : q.AllUrbs P) (out : Bool) (c : BceSqCompletionData) :
    (q.completion out c).AllUrbs P := by
  have body : (q.completionBody out c).AllUrbs P := by
    rcases q.completionBody_cases out c with same | ⟨-, -, absorbs⟩ | ⟨urb, rest, -, -, linked, -, taken⟩
    · rw [same]
      exact held
    · rw [absorbs]
      refine safe.loopSafe.initPendingUrbs ?_
      cases out <;> exact held
    · rw [taken]
      have here : P urb := held urb (by simp [linked])
      refine UrbSafe.afterUrb (List.forall_mem_nil _) (safe.transferCompletion urb c q here)
        (fun v member => held v ?_)
      rw [linked]
      exact List.mem_cons_of_mem _ member
  obtain ⟨_, _, _, _, ended⟩ := q.completion_eq out c
  rw [ended]
  exact body

theorem resumeLoop (safe : UrbSafe P) (q : BceVhciTransferQueue) (passed : ∀ v ∈ done, P v)
    (ahead : ∀ v ∈ rest, P v) : (resumeLoop done rest q).AllUrbs P := by
  induction rest generalizing done q with
  | nil => exact passed
  | cons urb rest ih =>
    have here : P urb := ahead urb (List.mem_cons_self ..)
    have behind : ∀ v ∈ rest, P v := fun v member => ahead v (List.mem_cons_of_mem _ member)
    have goes_on : ∀ call : UrbCall, (∀ v, call.urb = some v → P v) → ∀ v ∈ done ++ call.urb.toList, P v := by
      intro call kept v member
      rcases List.mem_append.mp member with before | now
      · exact passed v before
      · exact kept v (Option.mem_toList.mp now)
    rw [BceVhciTransferQueue.resumeLoop]
    split
    case isTrue pending =>
      split
      · intro v member
        rcases List.mem_append.mp member with before | after
        · exact passed v before
        · exact ahead v after
      · exact ih _ (goes_on _ (safe.init urb q pending here)) behind
    case isFalse => exact ih _ (goes_on _ (safe.resume urb q here)) behind

theorem cancelLoop (rest : List BceVhciUrb) (q : BceVhciTransferQueue) : (cancelLoop rest q).AllUrbs P := by
  induction rest generalizing q with
  | nil => exact List.forall_mem_nil _
  | cons urb rest ih => exact ih _

/-- A new URB begins with it, and is started at once or later. -/
theorem urbCreate (safe : UrbSafe P) (held : q.AllUrbs P) {urb : Urb} (fresh : P (q.newUrb urb)) (allocated : Bool)
    (link : Option Errno) : (q.urbCreate urb allocated link).2.AllUrbs P := by
  have appended : ∀ v ∈ q.urbList ++ [q.newUrb urb], P v := by
    intro v member
    rcases List.mem_append.mp member with before | here
    · exact held v before
    · rw [List.mem_singleton.mp here]
      exact fresh
  rcases q.urbCreate_outcomes urb allocated link with
    ⟨e, ran⟩ | ⟨e, -, -, failed, ran⟩ | ⟨-, -, -, ran⟩ | ⟨-, -, -, wReset, wResume, ran⟩
  · rw [ran]
    exact held
  · -- a failed start leaves the list as it was
    rw [ran]
    intro v member
    rw [(BceVhciUrb.init_failed failed).urbList] at member
    exact held v member
  · rw [ran]
    exact safe.loopSafe.deliverPending (UrbSafe.afterUrb held (safe.init _ q rfl fresh) (List.forall_mem_nil _))
  · rw [ran]
    exact safe.loopSafe.deliverPending appended

theorem urbRequestCancel (held : q.AllUrbs P) (id : Nat) (status : Int) :
    (q.urbRequestCancel id status).2.AllUrbs P := by
  rcases q.urbRequestCancel_cases id status with
    ⟨e, eq⟩ | eq | ⟨before, vurb, after, linked, -, ⟨eq, -⟩ | eq⟩
  · rw [eq]
    exact held
  · rw [eq]
    exact held
  all_goals
    rw [eq]
    intro v member
    have kept : v ∈ before ++ after := member
    refine held v ?_
    rw [linked]
    simp only [List.mem_append, List.mem_cons] at kept ⊢
    tauto

end UrbSafe

namespace TransferRun

variable {P : BceVhciUrb → Prop} {C : TransferRun → TransferStep → Prop} {s t : TransferRun} {a : TransferStep}

/-- A created URB begins with the property. -/
def BeginsWith (P : BceVhciUrb → Prop) (s : TransferRun) : TransferStep → Prop
  | .op (.create urb _ _) => P (s.q.newUrb urb)
  | _ => True

theorem beginsWith_of_create
    (fresh : ∀ urb allocated link, a = .op (.create urb allocated link) → P (s.q.newUrb urb)) :
    s.BeginsWith P a := by
  unfold BeginsWith
  split
  · exact fresh _ _ _ rfl
  · trivial

/-- Every step keeps it for all linked URBs, if the new ones begin with it. -/
theorem step_allUrbs (safe : UrbSafe P) (held : s.q.AllUrbs P) (begins : s.BeginsWith P a)
    (run : s.step a = some t) : t.q.AllUrbs P := by
  cases step_effect run with
  | op op label ran =>
    subst label
    cases op with
    | create urb allocated link =>
      obtain ⟨-, after⟩ := Option.ite_none_right_eq_some.mp ran
      cases after
      rw [created_q]
      exact safe.urbCreate held begins allocated link
    | cancel id status =>
      obtain ⟨-, after⟩ := Option.ite_none_right_eq_some.mp ran
      cases after
      rw [afterCancel_q]
      exact UrbSafe.urbRequestCancel held id status
    | event msg allocated =>
      obtain ⟨-, after⟩ := Option.ite_none_right_eq_some.mp ran
      cases after
      exact safe.loopSafe.event (fun _ held => held) held msg allocated
    | completion out c =>
      obtain ⟨-, after⟩ := Option.ite_none_right_eq_some.mp ran
      cases after
      exact safe.completion held out c
    | completionEnd =>
      cases Option.some.inj ran
      exact safe.loopSafe.deliverPending held
  | giveback urb rest _ _ _ after =>
    subst after
    exact held
  | resumed _ onWorker src _ _ _ after =>
    subst after
    exact safe.loopSafe.deliverPending (safe.resumeLoop _ (List.forall_mem_nil _) held)
  | flushed rest _ _ _ after =>
    subst after
    exact held
  | cancelledAll _ _ after =>
    subst after
    exact UrbSafe.cancelLoop s.q.urbList { s.q with active := false }
  | spliced _ _ _ after =>
    subst after
    exact held
  | quiet same _ =>
    intro v member
    rw [same.urbList] at member
    exact held v member

/-- The invariant rule for properties of single URBs: one that every function on an URB keeps holds
of all linked URBs, if every created URB begins with it. -/
theorem allUrbs_of_reach (safe : UrbSafe P) (begins : ∀ s a, C s a → s.BeginsWith P a)
    (reach : machine.ReachableUnder C s) : s.q.AllUrbs P := by
  refine reach.invariant (I := fun s => s.q.AllUrbs P) ?_
    (fun s a t held cond run => step_allUrbs safe held (begins s a cond) run)
  rintro s ⟨endp, devAddr, memory, reservations, q, create, rfl⟩
  intro u member
  rw [fresh, (createTransferQueue_unused create).urbList] at member
  cases member

end TransferRun

end AppleBce

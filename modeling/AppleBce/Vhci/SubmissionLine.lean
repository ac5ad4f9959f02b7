import AppleBce.Vhci.GhostFlush
import AppleBce.Vhci.StartOrder
import AppleBce.Vhci.StartRules

namespace AppleBce

open Basis

namespace BceVhciTransferQueue

variable {q r : BceVhciTransferQueue} {u v : BceVhciUrb}

/-- The URBs whose submissions a queue holds, oldest first. -/
def owners (q : BceVhciTransferQueue) (out : Bool) : List Nat :=
  (q.outstanding out).map UrbSubmission.urb

def linkedIds (q : BceVhciTransferQueue) : List Nat :=
  q.urbList.map BceVhciUrb.id

theorem owners_of_outstanding {out : Bool} (same : r.outstanding out = q.outstanding out) :
    r.owners out = q.owners out := by
  rw [owners, owners, same]

theorem Submits.owners {out : Bool} {x : UrbSubmission} (submits : Submits out x q r) :
    r.owners out = q.owners out ++ [x.urb] := by
  rw [BceVhciTransferQueue.owners, submits.outstanding, List.map_append]
  rfl

theorem Frame.ghostCount (frame : q.Frame r) (out : Bool) : r.ghostCount out = q.ghostCount out := by
  cases out
  · exact frame.ghostInCount
  · exact frame.ghostOutCount

end BceVhciTransferQueue

namespace BceVhciUrb

open BceVhciTransferQueue

variable {u v : BceVhciUrb} {q : BceVhciTransferQueue} {msg : BceVhciMessage}

/-- What a message does to a data URB: nothing, or it is answered and the URB waits for the completion. -/
theorem update_line (data : u.isControl = false) (msg : BceVhciMessage) (q : BceVhciTransferQueue) :
    ((u.update msg q).urb = some u ∧ ∀ out, (u.update msg q).q.owners out = q.owners out) ∨
    ∃ v, u.state = .waitingForTransferRequest ∧ (u.update msg q).urb = some v ∧ u.Same v ∧
      v.state = .waitingForCompletion ∧ (u.update msg q).q.owners true = q.owners true ++ [u.id] := by
  unfold update
  split
  · exact .inl ⟨rfl, fun _ => rfl⟩
  · rw [if_neg (by simp [data])]
    rcases u.dataUpdate_uses msg q with ⟨-, eq⟩ | ⟨-, -, refuses, -, kept⟩ |
      ⟨waits, -, -, x, v, own, submits, present, same, state, -⟩
    · rw [eq]
      exact .inl ⟨rfl, fun _ => rfl⟩
    · exact .inl ⟨kept, fun out => owners_of_outstanding (outstanding_of_sq (refuses.sq out))⟩
    · refine .inr ⟨v, waits, present, same, state, ?_⟩
      rw [submits.owners, own]

/-- A completion finishes a data URB that waits for it, or is one of several for an outgoing one. -/
theorem transferCompletion_line (data : u.isControl = false) (waiting : u.state = .waitingForCompletion)
    (c : BceSqCompletionData) (q : BceVhciTransferQueue) :
    q.SqKept (u.transferCompletion c q).q ∧ ((u.transferCompletion c q).urb = none ∨
      u.dir ≠ .fromDevice ∧ ∃ v, (u.transferCompletion c q).urb = some v ∧ v.state = .waitingForCompletion) := by
  rw [transferCompletion, data, if_neg Bool.false_ne_true]
  obtain ⟨kept, cases⟩ := u.dataTransferCompletion_uses c q
  refine ⟨kept, ?_⟩
  rcases cases with ⟨idle, -⟩ | ⟨-, -, -, gone⟩ | ⟨-, control, -⟩ | ⟨-, outgoing, -, -, v, present, -, state, -⟩
  · exact absurd waiting idle
  · exact .inl gone
  · rw [data] at control
    cases control
  · exact .inr ⟨outgoing, v, present, state⟩

end BceVhciUrb

namespace BceVhciTransferQueue

variable {q r : BceVhciTransferQueue} {u v : BceVhciUrb} {done rest lost waiting more : List BceVhciUrb}
  {out : Bool} {dead known : List Nat}

/-- The direction of the URBs of a data endpoint with only one of the queues. -/
def wayOf (out : Bool) : DmaDataDirection :=
  if out then .toDevice else .fromDevice

/-- The submissions of a data endpoint are in line: first those of the cancelled URBs `dead`, then those of the
URBs `waiting`. Ahead of these in the list are the URBs `lost`, whose submissions are completed and which still
wait for a completion. -/
structure Line (out : Bool) (dead : List Nat) (lost waiting rest : List BceVhciUrb) (q : BceVhciTransferQueue) :
    Prop where
  urbs : q.urbList = lost ++ waiting ++ rest
  data : ∀ u ∈ q.urbList, u.isControl = false ∧ u.dir = wayOf out
  owned : q.owners out = dead ++ waiting.map BceVhciUrb.id
  unlinked : ∀ id ∈ dead, id ∉ q.linkedIds
  waits : ∀ u ∈ lost ++ waiting, u.state = .waitingForCompletion
  idle : ∀ u ∈ rest, u.state ≠ .waitingForCompletion
  single : out = true → (lost ++ waiting).length ≤ 1
  pending : out = false → ∀ u ∈ rest, u.started = false

/-- The submissions are in line, whichever URBs wait. -/
def Aligned (out : Bool) (dead : List Nat) (lost : List BceVhciUrb) (q : BceVhciTransferQueue) : Prop :=
  ∃ waiting rest, q.Line out dead lost waiting rest

/-- What a step may make of the URBs leaves them URBs of the endpoint, and links none that was cancelled. -/
theorem Line.renewed (line : q.Line out dead lost waiting rest)
    (comes : ∀ v ∈ r.urbList, ∃ u ∈ q.urbList, u.Same v) :
    (∀ v ∈ r.urbList, v.isControl = false ∧ v.dir = wayOf out) ∧ ∀ id ∈ dead, id ∉ r.linkedIds := by
  refine ⟨?_, ?_⟩
  · intro v member
    obtain ⟨u, old, same⟩ := comes v member
    rw [same.isControl, same.dir]
    exact line.data u old
  · intro id gone linked
    obtain ⟨v, member, rfl⟩ := List.mem_map.mp linked
    obtain ⟨u, old, same⟩ := comes v member
    refine line.unlinked v.id gone ?_
    rw [same.id]
    exact List.mem_map_of_mem old

theorem Line.of_same (line : q.Line out dead lost waiting rest) (urbs : r.urbList = q.urbList)
    (owned : r.owners out = q.owners out) : r.Line out dead lost waiting rest := by
  have renewed := line.renewed (r := r) fun v member => ⟨v, urbs ▸ member, .refl v⟩
  exact ⟨urbs.trans line.urbs, renewed.1, owned.trans line.owned, renewed.2, line.waits, line.idle, line.single,
    line.pending⟩

theorem Aligned.of_same (aligned : q.Aligned out dead lost) (urbs : r.urbList = q.urbList)
    (owned : r.owners out = q.owners out) : r.Aligned out dead lost := by
  obtain ⟨waiting, rest, line⟩ := aligned
  exact ⟨waiting, rest, line.of_same urbs owned⟩

/-- An URB that does not wait for a completion is behind those that do. -/
theorem behind_of_idle {front : List BceVhciUrb} (waits : ∀ w ∈ front, w.state = .waitingForCompletion)
    (idle : u.state ≠ .waitingForCompletion) (same : front ++ rest = done ++ u :: more) :
    ∃ mid, done = front ++ mid ∧ rest = mid ++ u :: more := by
  rcases List.append_eq_append_iff.mp same with ⟨mid, ahead, behind⟩ | ⟨mid, ahead, behind⟩
  · exact ⟨mid, ahead, behind⟩
  · cases mid with
    | nil => exact ⟨[], by simpa using ahead.symm, by simpa using behind.symm⟩
    | cons w mid =>
      obtain ⟨rfl, -⟩ := List.cons.inj behind
      exact absurd (waits u (by simp [ahead])) idle

/-- Starting an URB keeps the line, if an incoming one is started behind no URB that is pending. -/
theorem Aligned.init (aligned : Aligned out dead lost { q with urbList := done ++ u :: more })
    (pending : u.state = .initPending)
    (inTurn : out = false → (∀ w ∈ done, w.started) ∧ (u.init q).ret = none) :
    (afterUrb done more (u.init q)).Aligned out dead lost := by
  obtain ⟨waiting, rest, line⟩ := aligned
  have idle : u.state ≠ .waitingForCompletion := by simp [pending]
  obtain ⟨mid, rfl, rfl⟩ := behind_of_idle line.waits idle line.urbs.symm
  obtain ⟨plain, way⟩ := line.data u (by simp)
  obtain ⟨data, unlinked⟩ := line.renewed (init_conserves q u _ more pending).comes
  cases out with
  | true =>
    have outgoing : u.dir = .toDevice := way
    obtain ⟨v, present, kept, other⟩ : ∃ v, (u.init q).urb = some v ∧ (u.init q).q.owners true = q.owners true ∧
        v.state ≠ .waitingForCompletion := by
      rcases u.init_uses q with ⟨refuses, -, present⟩ | ⟨kept, -, -, v, present, -, -, state⟩
        | ⟨-, -, -, incoming, -⟩
      · exact ⟨u, present, owners_of_outstanding (outstanding_of_sq (refuses.sq true)), idle⟩
      · refine ⟨v, present, owners_of_outstanding (kept.outstanding true), ?_⟩
        rcases state with ⟨-, state⟩ | ⟨-, state | state⟩ <;> simp [state]
      · exact absurd outgoing incoming
    refine ⟨waiting, mid ++ v :: more, ?_, data, kept.trans line.owned, unlinked, line.waits, ?_, line.single,
      by simp⟩
    · simp [afterUrb, present]
    · intro w member
      rcases List.mem_append.mp member with before | here
      · exact line.idle w (List.mem_append_left _ before)
      · rcases List.mem_cons.mp here with rfl | later
        · exact other
        · exact line.idle w (by simp [later])
  | false =>
    obtain ⟨begun, taken⟩ := inTurn rfl
    -- all that is pending comes behind this one
    obtain rfl : mid = [] := by
      refine List.eq_nil_iff_forall_not_mem.mpr fun w member => ?_
      have waits := line.pending rfl w (List.mem_append_left _ member)
      rw [begun w (by simp [member])] at waits
      cases waits
    have incoming : u.dir = .fromDevice := way
    rcases u.init_uses q with ⟨-, failed, -⟩ | ⟨-, -, outgoing, -⟩ | ⟨submits, -, -, -, v, present, same, -, state⟩
    · exact absurd taken failed
    · simp [plain, incoming] at outgoing
    · refine ⟨waiting ++ [v], more, ?_, data, ?_, unlinked, ?_, ?_, by simp, ?_⟩
      · simp [afterUrb, present]
      · show (u.init q).q.owners false = _
        rw [submits.owners, List.map_append, List.map_singleton, same.id, ← List.append_assoc]
        exact congrArg (· ++ [u.id]) line.owned
      · intro w member
        rw [← List.append_assoc] at member
        rcases List.mem_append.mp member with old | new
        · exact line.waits w old
        · rw [List.mem_singleton.mp new]
          exact state
      · exact fun w member => line.idle w (by simp [member])
      · exact fun _ w member => line.pending rfl w (by simp [member])

theorem passed_append {v : BceVhciUrb} (passed : out = false → ∀ w ∈ done, w.started) (started : v.started) :
    out = false → ∀ w ∈ done ++ [v], w.started := by
  intro incoming w member
  rcases List.mem_append.mp member with old | new
  · exact passed incoming w old
  · cases List.mem_singleton.mp new
    exact started

/-- An URB that a loop over the URBs starts, with all that it reserves to receive. -/
theorem Aligned.begins (aligned : Aligned out dead lost { q with urbList := done ++ u :: more })
    (pending : u.state = .initPending) (slots : q.canInitUrb) (received : CalledUrb.Received ⟨.init, u, q⟩)
    (passed : out = false → ∀ w ∈ done, w.started) :
    (afterUrb done more (u.init q)).Aligned out dead lost ∧
      (out = false → ∀ w ∈ done ++ (u.init q).urb.toList, w.started) := by
  obtain ⟨taken, v, present, started⟩ := BceVhciUrb.init_received slots received
  refine ⟨aligned.init pending fun incoming => ⟨passed incoming, taken⟩, ?_⟩
  rw [present]
  exact passed_append passed started

/-- The loop that starts the pending URBs keeps the line, if all that it reserves to receive is granted. -/
theorem Aligned.initLoop (done rest : List BceVhciUrb) (q : BceVhciTransferQueue)
    (aligned : Aligned out dead lost { q with urbList := done ++ rest })
    (passed : out = false → ∀ w ∈ done, w.started)
    (granted : ∀ call ∈ initCalls rest q, call.action = .init → call.Received) :
    (initLoop done rest q).Aligned out dead lost := by
  have goes : ∃ passed : List BceVhciUrb, (BceVhciTransferQueue.initLoop done rest q).Aligned out dead lost ∧
      (out = false → ∀ w ∈ passed, w.started) := by
    refine initLoop_passes
      (J := fun done q => q.Aligned out dead lost ∧ (out = false → ∀ w ∈ done, w.started)) ?_ ?_ done rest q
      ⟨aligned, passed⟩ granted
    · rintro done u rest q pending slots received ⟨aligned, passed⟩
      exact aligned.begins pending slots (received rfl) passed
    · rintro done u q begun ⟨aligned, passed⟩
      exact ⟨aligned, passed_append passed (BceVhciUrb.started_of_ne begun)⟩
  obtain ⟨-, aligned, -⟩ := goes
  exact aligned

theorem Aligned.initPendingUrbs (aligned : q.Aligned out dead lost)
    (granted : ∀ call ∈ q.initPendingCalls, call.action = .init → call.Received) :
    q.initPendingUrbs.Aligned out dead lost :=
  Aligned.initLoop [] q.urbList q aligned (fun _ => List.forall_mem_nil _) granted

/-- A message for the URB at the head keeps the line. -/
theorem Aligned.update (aligned : q.Aligned out dead lost) (linked : q.urbList = u :: more) (msg : BceVhciMessage) :
    (afterUrb [] more (u.update msg q)).Aligned out dead lost := by
  obtain ⟨waiting, rest, line⟩ := aligned
  obtain ⟨plain, -⟩ := line.data u (by simp [linked])
  obtain ⟨data, unlinked⟩ := line.renewed (head_conserves linked (u.update_fits msg q)).comes
  rcases BceVhciUrb.update_line plain msg q with ⟨present, owned⟩ | ⟨v, waits, present, same, state, owned⟩
  · refine ⟨waiting, rest, line.of_same ?_ (owned out)⟩
    simp [afterUrb, present, linked]
  · have idle : u.state ≠ .waitingForCompletion := by simp [waits]
    have whole : lost ++ waiting ++ rest = [] ++ u :: more := line.urbs.symm.trans linked
    obtain ⟨mid, first, rfl⟩ := behind_of_idle line.waits idle whole
    simp only [List.nil_eq_append_iff, List.append_eq_nil_iff] at first
    obtain ⟨⟨rfl, rfl⟩, rfl⟩ := first
    cases out with
    | false =>
      have pending := line.pending rfl u (by simp)
      simp [BceVhciUrb.started, waits] at pending
    | true =>
      refine ⟨[v], more, ?_, data, ?_, unlinked, ?_, ?_, fun _ => Nat.le_refl 1, by simp⟩
      · simp [afterUrb, present]
      · rw [List.map_singleton, same.id]
        refine owned.trans ?_
        rw [line.owned, List.map_nil, List.append_nil]
      · simpa using state
      · exact fun w member => line.idle w (by simp [member])

/-- The submissions stay in line as long as what is reserved to start a transfer in is granted. -/
theorem aligned_startSafe (out : Bool) (dead : List Nat) (lost : List BceVhciUrb) :
    StartSafe (fun call => call.action = .init → call.Received) (Aligned out dead lost) where
  starts := fun _ aligned granted => aligned.initPendingUrbs granted
  update := fun _ _ msg _ linked aligned => aligned.update linked msg
  defer := fun _ _ aligned => aligned.of_same rfl rfl
  reset := fun _ aligned => aligned.of_same rfl rfl

/-- Taking the oldest submission of a queue away. -/
structure Pops (out : Bool) (q r : BceVhciTransferQueue) : Prop where
  popped : r.outstanding out = (q.outstanding out).tail
  other : r.outstanding (!out) = q.outstanding (!out)
  urbList : r.urbList = q.urbList
  givebackUrbList : r.givebackUrbList = q.givebackUrbList
  ghosts : ∀ side, r.ghostCount side = q.ghostCount side

theorem completion_pops (q : BceVhciTransferQueue) (out : Bool) (c : BceSqCompletionData) :
    Pops out (q.completionBody out c) (q.completion out c) := by
  have counted : ∀ r : BceVhciTransferQueue, (r.outputDone out).sq = r.sq ∧ (r.outputDone out).urbList = r.urbList ∧
      (r.outputDone out).givebackUrbList = r.givebackUrbList ∧ (r.outputDone out).ghostCount = r.ghostCount := by
    intro r
    obtain ⟨pending, wakeups, accounted⟩ := r.outputDone_eq out
    rw [accounted]
    exact ⟨rfl, rfl, rfl, rfl⟩
  obtain ⟨sq, urbs, giveback, ghosts⟩ := counted (q.completionBody out c)
  unfold completion
  generalize (q.completionBody out c).outputDone out = r at sq urbs giveback ghosts
  unfold notifySubmissionComplete
  cases held : r.sq out with
  | none =>
    refine ⟨?_, ?_, urbs, giveback, congrFun ghosts⟩
    · rw [← outstanding_of_sq (congrFun sq out), outstanding, held]
      rfl
    · exact outstanding_of_sq (congrFun sq _)
  | some fifo =>
    have frame := r.setSq_frame fifo.pop out
    refine ⟨?_, ?_, frame.urbList.trans urbs, frame.givebackUrbList.trans giveback, fun side => ?_⟩
    · rw [← outstanding_of_sq (congrFun sq out), outstanding, setSq_sq_same, outstanding, held]
      rfl
    · exact outstanding_of_sq ((setSq_sq_other _ _ _).trans (congrFun sq _))
    · exact (frame.ghostCount side).trans (congrFun ghosts side)

theorem Pops.owners (pops : Pops out q r) : r.owners out = (q.owners out).tail := by
  rw [BceVhciTransferQueue.owners, pops.popped, List.map_tail]
  rfl

theorem completion_comes (q : BceVhciTransferQueue) (out : Bool) (c : BceSqCompletionData) :
    ∀ v ∈ (q.completion out c).urbList, ∃ u ∈ q.urbList, u.Same v :=
  (q.completion_balanced out c).comes

theorem owners_of_front {x : UrbSubmission} {items : List UrbSubmission} (front : q.outstanding out = x :: items) :
    q.owners out = x.urb :: items.map UrbSubmission.urb := by
  rw [owners, front, List.map_cons]

/-- The oldest submission is that of a cancelled URB, or that of the first URB that waits for one. -/
theorem Line.front {id : Nat} {ids : List Nat} (line : q.Line out dead lost waiting rest)
    (front : q.owners out = id :: ids) :
    (id ∉ q.linkedIds ∧ ∃ others, dead = id :: others) ∨
      id ∈ q.linkedIds ∧ dead = [] ∧ ∃ w others, waiting = w :: others ∧ w.id = id := by
  have owned := line.owned
  rw [front] at owned
  cases dead with
  | cons d others =>
    obtain ⟨rfl, -⟩ := List.cons.inj owned
    exact .inl ⟨line.unlinked id (List.mem_cons_self ..), others, rfl⟩
  | nil =>
    cases waiting with
    | nil => cases owned
    | cons w others =>
      obtain ⟨rfl, -⟩ := List.cons.inj owned
      refine .inr ⟨?_, rfl, w, others, rfl, rfl⟩
      simp [linkedIds, line.urbs]

/-- With an URB at the head that has a submission, no submission of a linked URB is lost. -/
theorem Line.head (line : q.Line out [] lost waiting rest) (distinct : q.linkedIds.Nodup)
    (heads : ∀ u ∈ q.urbList.head?, u.id ∈ q.owners out) : lost = [] := by
  cases lost with
  | nil => rfl
  | cons l others =>
    have here := heads l (by simp [line.urbs])
    rw [line.owned, List.nil_append] at here
    rw [linkedIds, line.urbs] at distinct
    simp only [List.cons_append, List.map_cons, List.nodup_cons, List.map_append, List.mem_append,
      not_or] at distinct
    exact absurd here distinct.1.1.2

/-- The submissions are in line behind those of the cancelled URBs, and each of these is counted as a ghost. -/
def InLine (out : Bool) (known : List Nat) (q : BceVhciTransferQueue) : Prop :=
  ∃ dead lost, dead.length ≤ q.ghostCount out ∧ (∀ id ∈ dead, id ∈ known) ∧ q.Aligned out dead lost

/-- The submissions of a queue whose URBs are not linked any more. -/
def unlinkedCount (q : BceVhciTransferQueue) (out : Bool) : Nat :=
  (q.owners out).countP fun id => id ∉ q.linkedIds

theorem Line.unlinkedCount (line : q.Line out dead lost waiting rest) : q.unlinkedCount out = dead.length := by
  have gone : dead.countP (fun id => id ∉ q.linkedIds) = dead.length := by
    rw [List.countP_eq_length]
    simpa using line.unlinked
  have there : (waiting.map BceVhciUrb.id).countP (fun id => id ∉ q.linkedIds) = 0 := by
    rw [List.countP_eq_zero]
    intro id member
    obtain ⟨w, here, rfl⟩ := List.mem_map.mp member
    have linked : w.id ∈ q.linkedIds := List.mem_map_of_mem (by simp [line.urbs, here])
    simpa using linked
  rw [BceVhciTransferQueue.unlinkedCount, line.owned, List.countP_append, gone, there, Nat.add_zero]

/-- The URBs differ, so an URB is at one place of the list. -/
theorem split_unique {before after ahead behind : List BceVhciUrb} (distinct : q.linkedIds.Nodup)
    (one : q.urbList = before ++ u :: after) (two : q.urbList = ahead ++ v :: behind) (same : u.id = v.id) :
    before = ahead ∧ u = v ∧ after = behind := by
  obtain rfl : u = v := List.inj_on_of_nodup_map distinct (by simp [one]) (by simp [two]) same
  have nodup := List.Nodup.of_map BceVhciUrb.id distinct
  rw [one, List.nodup_append] at nodup
  refine (List.append_cons_inj_of_notMem ?_ (List.nodup_cons.mp nodup.2.1).1).mp (one.symm.trans two)
  exact fun member => nodup.2.2 u member u (List.mem_cons_self ..) rfl

theorem Conserves.ghostCount (conserves : q.Conserves r) (out : Bool) : r.ghostCount out = q.ghostCount out := by
  cases out
  · exact conserves.ghostInCount
  · exact conserves.ghostOutCount

theorem absorbGhost_same (q : BceVhciTransferQueue) (side out : Bool) :
    (q.absorbGhost side).urbList = q.urbList ∧ (q.absorbGhost side).owners out = q.owners out ∧
      (q.absorbGhost side).givebackUrbList = q.givebackUrbList ∧
      (q.absorbGhost side).ghostCount side = q.ghostCount side - 1 := by
  cases side <;> cases out <;> exact ⟨rfl, rfl, rfl, rfl⟩

/-- A completion ABORTED takes the submission from a linked URB, or from a cancelled one, whose ghost stays. -/
theorem InLine.aborted {x : UrbSubmission} {items : List UrbSubmission} {c : BceSqCompletionData}
    (inLine : q.InLine out known) (front : q.outstanding out = x :: items)
    (aborted : c.status = bceCompletionAborted) : (q.completion out c).InLine out known := by
  obtain ⟨dead, lost, ghosts, accepted, waiting, rest, line⟩ := inLine
  have body : q.completionBody out c = q := if_pos aborted
  have pops := q.completion_pops out c
  rw [body] at pops
  obtain ⟨data, unlinked⟩ := line.renewed (q.completion_comes out c)
  rcases line.front (owners_of_front front) with ⟨-, others, rfl⟩ | ⟨-, rfl, w, others, rfl, own⟩
  · refine ⟨others, lost, ?_, fun id member => accepted id (List.mem_cons_of_mem _ member), waiting, rest, ?_⟩
    · rw [pops.ghosts]
      exact (Nat.le_succ _).trans ghosts
    · refine ⟨pops.urbList.trans line.urbs, data, ?_, fun id member => unlinked id (List.mem_cons_of_mem _ member),
        line.waits, line.idle, line.single, line.pending⟩
      rw [pops.owners, line.owned]
      rfl
  · refine ⟨[], lost ++ [w], Nat.zero_le _, List.forall_mem_nil _, others, rest, ?_⟩
    refine ⟨?_, data, ?_, List.forall_mem_nil _, ?_, line.idle, ?_, line.pending⟩
    · rw [pops.urbList, line.urbs]
      simp
    · rw [pops.owners, line.owned]
      rfl
    · simpa using line.waits
    · simpa using line.single

/-- A completion that is taken for that of a ghost. -/
theorem InLine.absorbed {c : BceSqCompletionData} (inLine : q.InLine out known)
    (normal : c.status ≠ bceCompletionAborted) (ghost : 0 < q.ghostCount out)
    (counted : q.ghostCount out ≤ q.unlinkedCount out)
    (granted : ∀ call ∈ q.completionCalls out c, call.action = .init → call.Received) :
    (q.completion out c).InLine out known := by
  obtain ⟨dead, lost, ghosts, accepted, aligned⟩ := inLine
  have expected : 0 < dead.length := by
    obtain ⟨waiting, rest, line⟩ := aligned
    rw [line.unlinkedCount] at counted
    omega
  obtain ⟨urbs, owned, -, left⟩ := q.absorbGhost_same out out
  rw [completionCalls, if_neg normal, if_pos ghost] at granted
  have body : q.completionBody out c = (q.absorbGhost out).initPendingUrbs := by
    rw [completionBody, if_neg normal, if_pos ghost]
  have pops := q.completion_pops out c
  rw [body] at pops
  obtain ⟨waiting, rest, line⟩ := (aligned.of_same urbs owned).initPendingUrbs granted
  have conserves := (q.absorbGhost out).initPendingUrbs_conserves
  cases dead with
  | nil => cases expected
  | cons d others =>
    refine ⟨others, lost, ?_, fun id member => accepted id (List.mem_cons_of_mem _ member), waiting, rest, ?_⟩
    · rw [pops.ghosts, conserves.ghostCount, left]
      exact Nat.le_sub_one_of_lt ghosts
    · obtain ⟨data, unlinked⟩ := line.renewed (r := q.completion out c) fun v member =>
        ⟨v, by rwa [← pops.urbList], .refl v⟩
      refine ⟨?_, data, ?_, fun id member => unlinked id (List.mem_cons_of_mem _ member), line.waits, line.idle,
        line.single, line.pending⟩
      · rw [pops.urbList, line.urbs]
      · rw [pops.owners, line.owned]
        rfl

/-- A normal completion for which no ghost is counted is that of the URB at the head. -/
theorem InLine.applies {x : UrbSubmission} {items : List UrbSubmission} {c : BceSqCompletionData}
    (inLine : q.InLine out known) (distinct : q.linkedIds.Nodup) (front : q.outstanding out = x :: items)
    (normal : c.status ≠ bceCompletionAborted) (none : q.ghostCount out = 0)
    (heads : x.urb ∈ q.linkedIds → ∀ u ∈ q.urbList.head?, u.id ∈ q.owners out) :
    ∃ w others rest, q.Line out [] [] (w :: others) rest ∧ w.id = x.urb ∧
      q.completionBody out c = afterUrb [] (others ++ rest) (w.transferCompletion c q) := by
  obtain ⟨dead, lost, ghosts, accepted, waiting, rest, line⟩ := inLine
  rcases line.front (owners_of_front front) with ⟨-, others, rfl⟩ | ⟨linked, rfl, w, others, rfl, own⟩
  · rw [none] at ghosts
    cases ghosts
  · obtain rfl := line.head distinct (heads linked)
    have state := line.waits w (by simp)
    refine ⟨w, others, rest, line, own, ?_⟩
    rw [completionBody_normal normal line.urbs (by simp [state]), if_pos none]
    rfl

theorem InLine.applied {x : UrbSubmission} {items : List UrbSubmission} {c : BceSqCompletionData}
    (inLine : q.InLine out known) (distinct : q.linkedIds.Nodup) (front : q.outstanding out = x :: items)
    (normal : c.status ≠ bceCompletionAborted) (none : q.ghostCount out = 0)
    (heads : x.urb ∈ q.linkedIds → ∀ u ∈ q.urbList.head?, u.id ∈ q.owners out) :
    (q.completion out c).InLine out known := by
  obtain ⟨w, others, rest, line, own, body⟩ := inLine.applies distinct front normal none heads
  have pops := q.completion_pops out c
  rw [body] at pops
  obtain ⟨plain, way⟩ := line.data w (by simp [line.urbs])
  obtain ⟨kept, left⟩ := BceVhciUrb.transferCompletion_line plain (line.waits w (by simp)) c q
  obtain ⟨data, -⟩ := line.renewed (q.completion_comes out c)
  have owned : (q.completion out c).owners out = others.map BceVhciUrb.id := by
    rw [pops.owners]
    refine (congrArg List.tail (owners_of_outstanding (kept.outstanding out))).trans ?_
    rw [line.owned]
    rfl
  have behind : ∀ u ∈ [] ++ others, u.state = .waitingForCompletion := by
    intro u member
    exact line.waits u (List.mem_cons_of_mem _ member)
  rcases left with gone | ⟨outgoing, v, present, state⟩
  · refine ⟨[], [], Nat.zero_le _, List.forall_mem_nil _, others, rest, ?_, data, owned, List.forall_mem_nil _,
      behind, line.idle, ?_, line.pending⟩
    · rw [pops.urbList, afterUrb, gone]
      rfl
    · exact fun sends => (Nat.le_succ _).trans (line.single sends)
  · -- one of several completions of an outgoing URB leaves it without a submission
    have sends : out = true := by
      cases out with
      | true => rfl
      | false => exact absurd way outgoing
    obtain rfl : others = [] := by
      have single := line.single sends
      simpa using single
    refine ⟨[], [v], Nat.zero_le _, List.forall_mem_nil _, [], rest, ?_, data, owned, List.forall_mem_nil _, ?_,
      line.idle, fun _ => Nat.le_refl 1, line.pending⟩
    · rw [pops.urbList, afterUrb, present]
      rfl
    · simpa using state

/-- The queue can tell whose completion comes: as many ghosts are counted as there are submissions of cancelled
URBs, and when the oldest submission is that of a linked URB, the URB at the head has one. -/
structure Tells (out : Bool) (q : BceVhciTransferQueue) : Prop where
  counted : q.ghostCount out ≤ q.unlinkedCount out
  heads : ∀ id ∈ (q.owners out).head?, id ∈ q.linkedIds → ∀ u ∈ q.urbList.head?, u.id ∈ q.owners out

/-- A round of the completion handler. -/
theorem InLine.completion {x : UrbSubmission} {items : List UrbSubmission} {c : BceSqCompletionData}
    (inLine : q.InLine out known) (distinct : q.linkedIds.Nodup) (front : q.outstanding out = x :: items)
    (tells : c.status ≠ bceCompletionAborted → q.Tells out)
    (granted : ∀ call ∈ q.completionCalls out c, call.action = .init → call.Received) :
    (q.completion out c).InLine out known := by
  by_cases normal : c.status = bceCompletionAborted
  · exact inLine.aborted front normal
  · obtain ⟨counted, heads⟩ := tells normal
    rcases Nat.eq_zero_or_pos (q.ghostCount out) with none | ghost
    · refine inLine.applied distinct front normal none fun linked => heads x.urb ?_ linked
      simp [owners_of_front front]
    · exact inLine.absorbed normal ghost counted granted

/-- What is claimed of the normal completion of the oldest submission `x`: it is applied to the URB the
submission is made for, if that is linked, and no URB changes or is given back when it was cancelled. -/
structure Attributed (cancelled : Nat → Prop) (x : UrbSubmission) (c : BceSqCompletionData)
    (q r : BceVhciTransferQueue) : Prop where
  applied : ∀ before u after, q.urbList = before ++ u :: after → u.id = x.urb →
    r.urbList = before ++ ((u.transferCompletion c q).urb.toList ++ after) ∧
      r.givebackUrbList = (u.transferCompletion c q).q.givebackUrbList
  absorbed : cancelled x.urb → r.urbList = q.urbList ∧ r.givebackUrbList = q.givebackUrbList

/-- Completions that come in line are attributed to the URB they are of. -/
theorem InLine.attributed {x : UrbSubmission} {items : List UrbSubmission} {c : BceSqCompletionData}
    (inLine : q.InLine out known) (distinct : q.linkedIds.Nodup) (front : q.outstanding out = x :: items)
    (normal : c.status ≠ bceCompletionAborted) (tells : q.Tells out)
    (started : 0 < q.ghostCount out → ∀ u ∈ q.urbList, u.started) :
    Attributed (fun id => id ∉ q.linkedIds) x c q (q.completion out c) := by
  have owners := owners_of_front front
  obtain ⟨dead, lost, ghosts, -, waiting, rest, line⟩ := id inLine
  have pops := q.completion_pops out c
  refine ⟨?_, ?_⟩
  · intro before u after linked own
    have here : x.urb ∈ q.linkedIds := own ▸ List.mem_map_of_mem (by simp [linked])
    obtain ⟨-, rfl, -⟩ := (line.front owners).resolve_left fun gone => gone.1 here
    have none : q.ghostCount out = 0 := by
      have counted := tells.counted
      rw [line.unlinkedCount] at counted
      exact Nat.le_zero.mp counted
    obtain ⟨w, others, rest, line, same, body⟩ := inLine.applies distinct front normal none
      fun _ => tells.heads x.urb (by simp [owners]) here
    have urbs : q.urbList = [] ++ w :: (others ++ rest) := line.urbs
    obtain ⟨rfl, rfl, rfl⟩ := split_unique distinct urbs linked (same.trans own.symm)
    rw [pops.urbList, pops.givebackUrbList, body]
    exact ⟨rfl, rfl⟩
  · intro gone
    obtain ⟨-, others, rfl⟩ := (line.front owners).resolve_right fun here => gone here.1
    have ghost : 0 < q.ghostCount out := (Nat.succ_pos _).trans_le ghosts
    obtain ⟨urbs, -, giveback, -⟩ := q.absorbGhost_same out out
    have same : (q.absorbGhost out).initPendingUrbs = q.absorbGhost out :=
      initPendingUrbs_idle (.inr (urbs.symm ▸ started ghost))
    rw [pops.urbList, pops.givebackUrbList, completionBody, if_neg normal, if_pos ghost, same]
    exact ⟨urbs, giveback⟩

theorem cancelSlot_ghostCount (q : BceVhciTransferQueue) (plain : u.isControl = false) (way : u.dir = wayOf out) :
    (q.cancelSlot u).ghostCount out =
      q.ghostCount out + if u.state = .waitingForCompletion then 1 else 0 := by
  unfold cancelSlot
  split
  case isTrue pending => simp [pending]
  case isFalse =>
    rw [if_neg (by simp [plain])]
    split
    case isTrue waiting => cases out <;> simp [way, wayOf, ghostCount]
    case isFalse other => cases out <;> simp [ghostCount]

/-- The URB whose submission is the oldest of those of linked URBs is the first that waits for one. -/
theorem Line.oldest {before after : List BceVhciUrb} (line : q.Line out dead lost waiting rest)
    (distinct : q.linkedIds.Nodup) (linked : q.urbList = before ++ u :: after)
    (oldest : (q.owners out).find? (fun id => id ∈ q.linkedIds) = some u.id) :
    before = lost ∧ ∃ others, waiting = u :: others ∧ after = others ++ rest := by
  have none : dead.find? (fun id => id ∈ q.linkedIds) = none := by
    simpa using line.unlinked
  rw [line.owned, List.find?_append, none, Option.none_or] at oldest
  cases waiting with
  | nil => cases oldest
  | cons w others =>
    have here : w ∈ q.urbList := by simp [line.urbs]
    have first : w.id ∈ q.linkedIds := List.mem_map_of_mem here
    rw [List.map_cons, List.find?_cons_of_pos (by simpa using first)] at oldest
    obtain ⟨ahead, rfl, behind⟩ := split_unique distinct linked (by simpa using line.urbs)
      (Option.some.inj oldest).symm
    exact ⟨ahead, others, rfl, behind⟩

/-- An URB that waits for a completion without a submission has lost it. -/
theorem Line.missing {before after : List BceVhciUrb} (line : q.Line out dead lost waiting rest)
    (distinct : q.linkedIds.Nodup) (linked : q.urbList = before ++ u :: after)
    (waits : u.state = .waitingForCompletion) (none : u.id ∉ q.owners out) :
    ∃ others, lost = before ++ u :: others ∧ after = others ++ (waiting ++ rest) := by
  have member : u ∈ lost ++ waiting ++ rest := by simp [← line.urbs, linked]
  have here : u ∈ lost := by
    simp only [List.mem_append] at member
    rcases member with (here | front) | behind
    · exact here
    · refine absurd ?_ none
      rw [line.owned]
      exact List.mem_append_right _ (List.mem_map_of_mem front)
    · exact absurd waits (line.idle u behind)
  obtain ⟨ahead, others, rfl⟩ := List.append_of_mem here
  obtain ⟨rfl, -, rfl⟩ := split_unique distinct linked (by simpa using line.urbs) rfl
  exact ⟨others, rfl, rfl⟩

theorem unlinked_sublist (before : List BceVhciUrb) (u : BceVhciUrb) (after : List BceVhciUrb) :
    (before ++ after).Sublist (before ++ u :: after) :=
  (List.sublist_cons_self u after).append_left before

/-- Taking the URB `u` out of the list, which leaves the submissions. -/
structure Drops (before : List BceVhciUrb) (u : BceVhciUrb) (after : List BceVhciUrb) (q r : BceVhciTransferQueue) :
    Prop where
  linked : q.urbList = before ++ u :: after
  urbs : r.urbList = before ++ after
  owned : ∀ out, r.owners out = q.owners out

variable {before after : List BceVhciUrb}

theorem Drops.comes (drops : Drops before u after q r) : ∀ v ∈ r.urbList, ∃ u ∈ q.urbList, u.Same v := by
  intro v left
  rw [drops.urbs] at left
  refine ⟨v, ?_, .refl v⟩
  rw [drops.linked]
  exact (unlinked_sublist before u after).subset left

/-- An URB that does not wait for a completion. -/
theorem Drops.idle (drops : Drops before u after q r) (line : q.Line out dead lost waiting rest)
    (idle : u.state ≠ .waitingForCompletion) : ∃ rest, r.Line out dead lost waiting rest := by
  obtain ⟨data, unlinked⟩ := line.renewed drops.comes
  have whole : lost ++ waiting ++ rest = before ++ u :: after := line.urbs.symm.trans drops.linked
  obtain ⟨mid, rfl, rfl⟩ := behind_of_idle line.waits idle whole
  have less := unlinked_sublist mid u after
  refine ⟨mid ++ after, ?_, data, (drops.owned out).trans line.owned, unlinked, line.waits, ?_, line.single, ?_⟩
  · rw [drops.urbs, List.append_assoc]
  · exact fun w left => line.idle w (less.subset left)
  · exact fun incoming w left => line.pending incoming w (less.subset left)

/-- One that waits for a completion without a submission. -/
theorem Drops.missing (drops : Drops before u after q r) (line : q.Line out dead lost waiting rest)
    (distinct : q.linkedIds.Nodup) (waits : u.state = .waitingForCompletion) (none : u.id ∉ q.owners out) :
    ∃ lost, r.Line out dead lost waiting rest := by
  obtain ⟨data, unlinked⟩ := line.renewed drops.comes
  obtain ⟨others, rfl, rfl⟩ := line.missing distinct drops.linked waits none
  have less := (unlinked_sublist before u others).append_right waiting
  refine ⟨before ++ others, ?_, data, (drops.owned out).trans line.owned, unlinked, ?_, line.idle, ?_, line.pending⟩
  · rw [drops.urbs]
    simp
  · exact fun w left => line.waits w (less.subset left)
  · exact fun sends => less.length_le.trans (line.single sends)

/-- One whose submission is the oldest of those of linked URBs: it belongs to those that were cancelled now. -/
theorem Drops.oldest (drops : Drops before u after q r) (line : q.Line out dead lost waiting rest)
    (distinct : q.linkedIds.Nodup)
    (oldest : (q.owners out).find? (fun id => id ∈ q.linkedIds) = some u.id) :
    ∃ waiting, r.Line out (dead ++ [u.id]) lost waiting rest := by
  obtain ⟨data, unlinked⟩ := line.renewed drops.comes
  obtain ⟨rfl, others, rfl, rfl⟩ := line.oldest distinct drops.linked oldest
  have less := unlinked_sublist before u others
  refine ⟨others, ?_, data, ?_, ?_, ?_, line.idle, ?_, line.pending⟩
  · rw [drops.urbs, List.append_assoc]
  · rw [drops.owned, line.owned, List.map_cons, List.append_assoc, List.singleton_append]
  · intro id gone
    rcases List.mem_append.mp gone with old | new
    · exact unlinked id old
    · rw [List.mem_singleton.mp new]
      rw [linkedIds, drops.linked, List.map_append, List.map_cons] at distinct
      rw [linkedIds, drops.urbs, List.map_append]
      exact (List.nodup_cons.mp (List.nodup_middle.mp distinct)).1
  · exact fun w left => line.waits w (less.subset left)
  · exact fun sends => less.length_le.trans (line.single sends)

/-- The cancel of an URB without a submission, or whose submission is the oldest of those of linked URBs. -/
theorem InLine.cancel (inLine : q.InLine out known) (distinct : q.linkedIds.Nodup)
    (created : ∀ id ∈ q.linkedIds, id ∈ known) (id : Nat) (status : Int)
    (oldest : id ∈ q.owners out → id ∈ q.linkedIds → (q.owners out).find? (fun id => id ∈ q.linkedIds) = some id) :
    (q.urbRequestCancel id status).2.InLine out known := by
  rcases q.urbRequestCancel_cases id status with ⟨e, run⟩ | run | ⟨before, u, after, linked, rfl, cases⟩
  · rwa [run]
  · rwa [run]
  · obtain ⟨dead, lost, ghosts, accepted, waiting, rest, line⟩ := inLine
    have member : u ∈ q.urbList := by simp [linked]
    obtain ⟨plain, way⟩ := line.data u member
    have here : u.id ∈ q.linkedIds := List.mem_map_of_mem member
    have drops : Drops before u after q (q.unlinked u (before ++ after)) :=
      ⟨linked, rfl, fun side => owners_of_outstanding ((q.cancelSlot_same u).1.outstanding side)⟩
    have counted : (q.unlinked u (before ++ after)).ghostCount out = _ := q.cancelSlot_ghostCount plain way
    have removed : (q.unlinked u (before ++ after)).InLine out known := by
      by_cases waits : u.state = .waitingForCompletion
      · rw [if_pos waits] at counted
        by_cases held : u.id ∈ q.owners out
        · obtain ⟨waiting, line⟩ := drops.oldest line distinct (oldest held here)
          refine ⟨dead ++ [u.id], lost, ?_, ?_, waiting, rest, line⟩
          · rw [counted, List.length_append, List.length_singleton]
            exact Nat.succ_le_succ ghosts
          · intro other gone
            rcases List.mem_append.mp gone with old | new
            · exact accepted other old
            · rw [List.mem_singleton.mp new]
              exact created u.id here
        · obtain ⟨lost, line⟩ := drops.missing line distinct waits held
          refine ⟨dead, lost, ?_, accepted, waiting, rest, line⟩
          rw [counted]
          exact ghosts.trans (Nat.le_succ _)
      · rw [if_neg waits, Nat.add_zero] at counted
        obtain ⟨rest, line⟩ := drops.idle line waits
        exact ⟨dead, lost, ghosts.trans counted.ge, accepted, waiting, rest, line⟩
    rcases cases with ⟨run, -⟩ | run
    · rwa [run]
    · rw [run]
      obtain ⟨dead, lost, ghosts, accepted, aligned⟩ := removed
      exact ⟨dead, lost, ghosts, accepted, aligned.of_same rfl rfl⟩

theorem InLine.of_aligned (inLine : q.InLine out known) (conserves : q.Conserves r)
    (keeps : ∀ dead lost, q.Aligned out dead lost → r.Aligned out dead lost) : r.InLine out known := by
  obtain ⟨dead, lost, ghosts, accepted, aligned⟩ := inLine
  exact ⟨dead, lost, ghosts.trans (conserves.ghostCount out).ge, accepted, keeps dead lost aligned⟩

/-- A new URB is linked behind the others. -/
theorem Aligned.linked {urb : Urb} (aligned : q.Aligned out dead lost) (data : q.endp.num ≠ 0)
    (way : (if urb.dirIn then .fromDevice else .toDevice) = wayOf out) (fresh : urb.id ∉ dead) :
    Aligned out dead lost { q with urbList := q.urbList ++ [q.newUrb urb] } := by
  obtain ⟨waiting, rest, line⟩ := aligned
  refine ⟨waiting, rest ++ [q.newUrb urb], ?_, ?_, line.owned, ?_, line.waits, ?_, line.single, ?_⟩
  · simp [line.urbs]
  · intro u member
    rcases List.mem_append.mp member with old | new
    · exact line.data u old
    · rw [List.mem_singleton.mp new]
      exact ⟨decide_eq_false data, way⟩
  · intro id gone linked
    simp only [linkedIds, List.map_append, List.map_singleton, List.mem_append, List.mem_singleton] at linked
    rcases linked with old | rfl
    · exact line.unlinked id gone old
    · exact fresh gone
  · intro u member
    rcases List.mem_append.mp member with old | new
    · exact line.idle u old
    · rw [List.mem_singleton.mp new]
      nofun
  · intro incoming u member
    rcases List.mem_append.mp member with old | new
    · exact line.pending incoming u old
    · rw [List.mem_singleton.mp new]
      rfl

/-- The create of an URB keeps the line, if an incoming one is started at once only when none is pending. -/
theorem Aligned.create {urb : Urb} {allocated : Bool} {link : Option Errno} (aligned : q.Aligned out dead lost)
    (data : q.endp.num ≠ 0) (way : (if urb.dirIn then .fromDevice else .toDevice) = wayOf out)
    (fresh : urb.id ∉ dead) (begun : out = false → q.active → q.canInitUrb → ∀ u ∈ q.urbList, u.started)
    (granted : ∀ call ∈ q.createCalls urb allocated link, call.action = .init → call.Received) :
    (q.urbCreate urb allocated link).2.Aligned out dead lost := by
  have linked := aligned.linked data way fresh
  refine (aligned_startSafe out dead lost).urbCreate urb allocated link aligned ?_ ?_ ?_ granted
  · intro _ e failed
    have refuses := BceVhciUrb.init_refuses failed
    exact aligned.of_same (BceVhciUrb.init_failed failed).urbList
      (owners_of_outstanding (outstanding_of_sq (refuses.sq out)))
  · intro _ active slots taken
    exact linked.init rfl fun incoming => ⟨begun incoming active slots, taken⟩
  · intro _ _
    exact linked.of_same rfl rfl

/-- Behind the URBs that wait for a completion `do_resume` only starts those that are pending. -/
theorem Aligned.resumeLoop (done rest : List BceVhciUrb) (q : BceVhciTransferQueue)
    (aligned : Aligned out dead lost { q with urbList := done ++ rest })
    (idle : ∀ u ∈ rest, u.state ≠ .waitingForCompletion) (passed : out = false → ∀ w ∈ done, w.started)
    (granted : ∀ call ∈ resumeLoopCalls rest q, call.action = .init → call.Received) :
    (resumeLoop done rest q).Aligned out dead lost := by
  induction rest generalizing done q with
  | nil => rwa [List.append_nil] at aligned
  | cons urb rest ih =>
    have later : ∀ u ∈ rest, u.state ≠ .waitingForCompletion :=
      fun u member => idle u (List.mem_cons_of_mem _ member)
    rw [resumeLoopCalls] at granted
    rw [BceVhciTransferQueue.resumeLoop]
    by_cases pending : urb.state = .initPending
    · rw [if_pos pending] at granted ⊢
      by_cases slots : q.canInitUrb
      · rw [if_neg (not_not.mpr slots)] at granted ⊢
        obtain ⟨next, begun⟩ := aligned.begins pending slots (granted _ (List.mem_cons_self ..) rfl) passed
        rw [afterUrb, ← List.append_assoc] at next
        exact ih _ _ next later begun fun call member => granted call (List.mem_cons_of_mem _ member)
      · rwa [if_pos slots]
    · rw [if_neg pending] at granted ⊢
      have same := BceVhciUrb.resume_idle (q := q) (idle urb (List.mem_cons_self ..))
      rw [same] at granted ⊢
      refine ih _ _ ?_ later (passed_append passed (BceVhciUrb.started_of_ne pending)) fun call member =>
        granted call (List.mem_cons_of_mem _ member)
      rw [List.append_assoc]
      exact aligned

/-- The loop of `do_resume` has submitted again for the URBs `done` and comes to the URBs `lost`. On an endpoint
that sends it submits nothing the URBs could wait for. -/
structure Resumes (out : Bool) (dead : List Nat) (done lost rest : List BceVhciUrb) (q : BceVhciTransferQueue) :
    Prop where
  data : ∀ u ∈ done ++ lost ++ rest, u.isControl = false ∧ u.dir = wayOf out
  owned : q.owners out = dead ++ if out then [] else done.map BceVhciUrb.id
  unlinked : ∀ u ∈ done ++ lost ++ rest, u.id ∉ dead
  waits : ∀ u ∈ done ++ lost, u.state = .waitingForCompletion
  idle : ∀ u ∈ rest, u.state ≠ .waitingForCompletion
  single : out = true → (done ++ lost).length ≤ 1
  pending : out = false → ∀ u ∈ rest, u.started = false

/-- At the URBs that are not started the submissions are in line again. -/
theorem Resumes.aligned (resumes : q.Resumes out dead done [] rest) :
    ∃ lost, Aligned out dead lost { q with urbList := done ++ rest } := by
  have data := resumes.data
  have waits := resumes.waits
  have single := resumes.single
  have owned := resumes.owned
  have unlinked : ∀ id ∈ dead, id ∉ linkedIds { q with urbList := done ++ rest } := by
    intro id gone linked
    obtain ⟨u, member, rfl⟩ := List.mem_map.mp linked
    exact resumes.unlinked u (by simpa using member) gone
  simp only [List.append_nil] at data waits single
  cases out with
  | true => exact ⟨done, [], rest, by simp, data, owned, unlinked, by simpa using waits, resumes.idle,
      by simpa using single, nofun⟩
  | false => exact ⟨[], done, rest, by simp, data, owned, unlinked, waits, resumes.idle, nofun, resumes.pending⟩

theorem Resumes.resumeLoop (lost done : List BceVhciUrb) (q : BceVhciTransferQueue)
    (resumes : q.Resumes out dead done lost rest)
    (granted : ∀ call ∈ resumeLoopCalls (lost ++ rest) q, call.action = .init → call.Received) :
    ∃ lost', (resumeLoop done (lost ++ rest) q).Aligned out dead lost' := by
  induction lost generalizing done q with
  | nil =>
    obtain ⟨lost, aligned⟩ := resumes.aligned
    refine ⟨lost, aligned.resumeLoop done rest q resumes.idle ?_ granted⟩
    intro _ w member
    refine BceVhciUrb.started_of_ne ?_
    rw [resumes.waits w (by simp [member])]
    nofun
  | cons u lost ih =>
    have waiting := resumes.waits u (by simp)
    have begun : ¬u.state = .initPending := by simp [waiting]
    rw [List.cons_append, resumeLoopCalls, if_neg begun] at granted
    rw [List.cons_append, BceVhciTransferQueue.resumeLoop, if_neg begun]
    have granted := fun call member => granted call (List.mem_cons_of_mem _ member)
    have kept : ∀ w, w ∈ done ++ lost ++ rest → w ∈ done ++ u :: lost ++ rest := by
      intro w member
      simp only [List.mem_append, List.mem_cons] at member ⊢
      tauto
    rcases u.resume_uses q with ⟨idle, -⟩ | ⟨-, refuses, gone⟩ | ⟨-, submits, present⟩
    · exact absurd waiting idle
    · refine ih _ _ ?_ granted
      rw [gone, Option.toList_none, List.append_nil]
      refine ⟨fun w member => resumes.data w (kept w member), ?_,
        fun w member => resumes.unlinked w (kept w member), ?_,
        resumes.idle, ?_, resumes.pending⟩
      · rw [owners_of_outstanding (outstanding_of_sq (refuses.sq out))]
        exact resumes.owned
      · exact fun w member => resumes.waits w (by simp only [List.mem_append, List.mem_cons] at member ⊢; tauto)
      · intro sends
        have single := resumes.single sends
        simp only [List.length_append, List.length_cons] at single ⊢
        omega
    · refine ih _ _ ?_ granted
      rw [present, Option.toList_some]
      have back : ∀ {P : BceVhciUrb → Prop} {v : BceVhciUrb}, (∀ w ∈ done ++ u :: lost ++ rest, P w) → P v →
          ∀ w ∈ done ++ [v] ++ lost ++ rest, P w := by
        intro P v all here w member
        simp only [List.mem_append, List.mem_cons, List.not_mem_nil, or_false] at member
        rcases member with ((before | rfl) | later) | behind
        · exact all w (by simp [before])
        · exact here
        · exact all w (by simp [later])
        · exact all w (by simp [behind])
      have old : u ∈ done ++ u :: lost ++ rest := by simp
      refine ⟨back resumes.data (resumes.data u old), ?_, back resumes.unlinked (resumes.unlinked u old), ?_,
        resumes.idle, ?_, resumes.pending⟩
      · cases out with
        | true => exact (owners_of_outstanding (outstanding_of_sq submits.other)).trans resumes.owned
        | false =>
          rw [submits.owners, resumes.owned, List.map_append, List.append_assoc]
          rfl
      · intro w member
        simp only [List.mem_append, List.mem_cons, List.not_mem_nil, or_false] at member
        rcases member with (before | rfl) | later
        · exact resumes.waits w (by simp [before])
        · rfl
        · exact resumes.waits w (by simp [later])
      · intro sends
        have single := resumes.single sends
        simp only [List.length_append, List.length_cons, List.length_nil] at single ⊢
        omega

/-- No URB waits for a completion when nothing is outstanding for a linked one. -/
theorem Line.finished (line : q.Line out dead lost waiting rest)
    (finished : ∀ id ∈ q.owners out, id ∉ q.linkedIds) : waiting = [] := by
  cases waiting with
  | nil => rfl
  | cons w others =>
    refine absurd ?_ (finished w.id (by simp [line.owned]))
    simp [linkedIds, line.urbs]

/-- `do_resume` puts the submissions in line again when nothing is outstanding for a linked URB. -/
theorem InLine.resumeSection (inLine : q.InLine out known) (finished : ∀ id ∈ q.owners out, id ∉ q.linkedIds)
    (granted : ∀ call ∈ q.resumeSectionCalls, call.action = .init → call.Received) :
    q.resumeSection.InLine out known := by
  obtain ⟨dead, lost, ghosts, accepted, waiting, rest, line⟩ := inLine
  obtain rfl := line.finished finished
  have urbs : q.urbList = lost ++ rest := by simpa using line.urbs
  have resumes : Resumes out dead [] lost rest { q with active := true } := by
    refine ⟨?_, ?_, ?_, ?_, line.idle, ?_, line.pending⟩
    · intro u member
      exact line.data u (by rwa [urbs])
    · refine line.owned.trans ?_
      cases out <;> rfl
    · intro u member gone
      refine line.unlinked u.id gone (List.mem_map_of_mem ?_)
      rwa [urbs]
    · simpa using line.waits
    · simpa using line.single
  have calls : ∀ call ∈ resumeLoopCalls (lost ++ rest) { q with active := true }, call.action = .init →
      call.Received := by
    intro call member
    rw [← urbs] at member
    exact granted call (List.mem_append_left _ member)
  obtain ⟨lost', aligned⟩ := resumes.resumeLoop lost [] _ calls
  rw [← urbs] at aligned
  refine ⟨dead, lost', ?_, accepted, (aligned_startSafe out dead lost').deliverPending aligned
    fun call member => granted call (List.mem_append_right _ member)⟩
  rw [q.resumeSection_conserves.ghostCount]
  exact ghosts

/-- Completing all URBs leaves the submissions of the cancelled ones when nothing is outstanding for another. -/
theorem InLine.cancelAll (inLine : q.InLine out known) (finished : ∀ id ∈ q.owners out, id ∉ q.linkedIds) :
    q.cancelAll.InLine out known := by
  obtain ⟨urbs, kept, -⟩ := cancelLoop_same q.urbList { q with active := false }
  have none : q.cancelAll.urbList = [] := urbs
  obtain ⟨dead, lost, ghosts, accepted, waiting, rest, line⟩ := inLine
  obtain rfl := line.finished finished
  refine ⟨dead, [], ghosts.trans (q.cancelAll_conserves.ghostCount out).ge, accepted, [], [], none, ?_, ?_, ?_,
    List.forall_mem_nil _, List.forall_mem_nil _, fun _ => Nat.zero_le 1, fun _ => List.forall_mem_nil _⟩
  · rw [none]
    exact List.forall_mem_nil _
  · exact (owners_of_outstanding (kept.outstanding out)).trans line.owned
  · rw [linkedIds, none]
    exact fun _ _ => List.not_mem_nil

end BceVhciTransferQueue

end AppleBce

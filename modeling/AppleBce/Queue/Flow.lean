import AppleBce.Queue.Irq

namespace AppleBce

open Basis

/-- One submission queue in the middle of its run. Of the entries the device wrote for it,
`before` have been taken out of its completion ring, `harvested` lie in the ring and
`behind` are still in the completion queue. -/
structure SqFlow (sq : BceQueueSq) (before harvested behind : List BceQeCompletion) : Prop where
  size : 2 ≤ sq.elCount
  room : (harvested ++ behind).length < sq.elCount
  cidx : sq.completionCidx = before.length % sq.elCount
  tail : sq.completionTail = (before.length + harvested.length) % sq.elCount
  ring : window sq.elCount sq.completionData before.length harvested.length =
    harvested.map BceQeCompletion.data
  indices : ∀ k e, (before ++ harvested ++ behind)[k]? = some e → e.completionIndex = k % sq.elCount

namespace SqFlow

variable {sq : BceQueueSq} {before harvested behind : List BceQeCompletion}

theorem unread_eq (flow : SqFlow sq before harvested behind) :
    sq.unread = harvested.map BceQeCompletion.data := by
  have room := flow.room
  rw [List.length_append] at room
  rw [BceQueueSq.unread_eq rfl (by omega) flow.cidx flow.tail, flow.ring]

/-- Only the ring and its two indices matter. -/
theorem congr {other : BceQueueSq} (flow : SqFlow sq before harvested behind)
    (size : other.elCount = sq.elCount) (cidx : other.completionCidx = sq.completionCidx)
    (tail : other.completionTail = sq.completionTail)
    (data : other.completionData = sq.completionData) : SqFlow other before harvested behind := by
  constructor
  case size => rw [size]; exact flow.size
  case room => rw [size]; exact flow.room
  case cidx => rw [size, cidx]; exact flow.cidx
  case tail => rw [size, tail]; exact flow.tail
  case ring => rw [size, data]; exact flow.ring
  case indices => rw [size]; exact flow.indices

/-- The oldest unharvested entry fits the ring and moves into it. -/
theorem accept {e : BceQeCompletion} (flow : SqFlow sq before harvested (e :: behind)) :
    ∃ after, sq.acceptCompletion e = some after ∧ after.hasPendingCompletions = true ∧
      after.head = sq.head ∧ after.completionCidx = sq.completionCidx ∧
      after.elCount = sq.elCount ∧ SqFlow after before (harvested ++ [e]) behind := by
  have room := flow.room
  simp only [List.length_append, List.length_cons] at room
  have index : e.completionIndex = (before.length + harvested.length) % sq.elCount := by
    refine flow.indices _ e ?_
    rw [← List.length_append, List.getElem?_append_right le_rfl, Nat.sub_self, List.getElem?_cons_zero]
  refine ⟨_, BceQueueSq.acceptCompletion_of_index (flow.tail.trans index.symm), rfl, rfl, rfl, rfl, ?_⟩
  constructor
  case size => exact flow.size
  case room => simp only [List.length_append, List.length_singleton]; omega
  case cidx => exact flow.cidx
  case tail =>
    simp only [flow.tail, List.length_append, List.length_singleton]
    rw [ring_succ]
  case ring =>
    simp only [List.length_append, List.length_singleton, index, List.map_append, List.map_cons,
      List.map_nil]
    rw [window_push _ _ (by omega), flow.ring]
  case indices => simpa only [List.append_assoc, List.singleton_append] using flow.indices

/-- The device writes one more entry. -/
theorem write {e : BceQeCompletion} (flow : SqFlow sq before harvested behind)
    (room : (harvested ++ behind).length + 1 < sq.elCount)
    (index : e.completionIndex = (before ++ harvested ++ behind).length % sq.elCount) :
    SqFlow sq before harvested (behind ++ [e]) := by
  refine { flow with room := ?_, indices := ?_ }
  · simp only [List.length_append, List.length_singleton] at room ⊢
    omega
  · intro k x at_k
    rw [← List.append_assoc] at at_k
    rcases Nat.lt_or_ge k (before ++ harvested ++ behind).length with old | new
    · exact flow.indices k x (by rwa [List.getElem?_append_left old] at at_k)
    · rw [List.getElem?_append_right new] at at_k
      obtain ⟨here, same⟩ := List.getElem?_eq_some_iff.mp at_k
      have last : k = (before ++ harvested ++ behind).length := by
        rw [List.length_singleton] at here
        omega
      rw [last, ← index, ← same, List.getElem_singleton]

/-- One completion taken out of the ring. -/
theorem next (flow : SqFlow sq before harvested behind) {c : BceSqCompletionData}
    {after : BceQueueSq} (taken : sq.nextCompletion = some (c, after)) :
    ∃ e rest, harvested = e :: rest ∧ c = e.data ∧ SqFlow after (before ++ [e]) rest behind := by
  obtain ⟨unread, rfl, rfl⟩ := BceQueueSq.nextCompletion_some taken
  cases harvested with
  | nil => exact absurd (flow.cidx.trans flow.tail.symm) unread
  | cons e rest =>
    have room : rest.length + behind.length + 1 < sq.elCount := by
      have room := flow.room
      simp only [List.cons_append, List.length_cons, List.length_append] at room
      omega
    have ring := flow.ring
    rw [List.length_cons, window_succ, List.map_cons] at ring
    refine ⟨e, rest, rfl, ?_, ?_⟩
    · rw [flow.cidx]
      exact (List.cons.inj ring).1
    constructor
    case size => exact flow.size
    case room => simp only [List.length_append]; omega
    case cidx => simp only [flow.cidx, List.length_append, List.length_singleton, Nat.mod_add_mod]
    case tail =>
      simp only [flow.tail, List.length_append, List.length_cons, List.length_nil]
      congr 1
      omega
    case ring =>
      simp only [List.length_append, List.length_singleton]
      exact (List.cons.inj ring).2
    case indices => simpa using flow.indices

theorem next_none (flow : SqFlow sq before harvested behind) (empty : sq.nextCompletion = none) :
    harvested = [] := by
  have room := flow.room
  rw [List.length_append] at room
  rw [BceQueueSq.nextCompletion_of_distance rfl (by omega) flow.cidx flow.tail] at empty
  by_contra nonempty
  have positive : 0 < harvested.length := List.length_pos_iff.mpr nonempty
  rw [if_neg (by omega)] at empty
  cases empty

/-- A handler that drains inline takes everything harvested, each completion at the slot
with its number. -/
theorem drain (flow : SqFlow sq before harvested behind) (atHead : sq.head = sq.completionCidx) :
    ∃ after, drainCompletions sq.elCount sq =
        ((slots sq.elCount before.length harvested.length).zip (harvested.map BceQeCompletion.data), after) ∧
      after.head = after.completionCidx ∧ after.elCount = sq.elCount ∧
      SqFlow after (before ++ harvested) [] behind := by
  have room := flow.room
  rw [List.length_append] at room
  have drained := drainCompletions_eq sq.elCount rfl (by omega) flow.cidx flow.tail
    (atHead.trans flow.cidx) (by omega)
  rw [flow.ring] at drained
  refine ⟨_, drained, rfl, rfl, ?_⟩
  constructor
  case size => exact flow.size
  case room => simp only [List.nil_append]; omega
  case cidx => simp only [List.length_append]
  case tail => simp only [List.length_append, List.length_nil, Nat.add_zero, flow.tail]
  case ring => rfl
  case indices => simpa only [List.append_nil] using flow.indices

end SqFlow

end AppleBce

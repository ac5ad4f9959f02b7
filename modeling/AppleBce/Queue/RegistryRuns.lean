import AppleBce.Queue.Registry
import Mathlib.Data.Finset.Basic

namespace AppleBce

open Basis

/-- The qid at which the tables have what they point to. -/
def BceQueuePtr.shown (life : BceQueueRef → QueueLife) : BceQueuePtr → Option Nat
  | .command .cq => some 0
  | .command .sq => some 1
  | .user q => (life q).published

theorem QueueLife.qid_of_published {l : QueueLife} {qid : Nat} (published : l.published = some qid) :
    l.qid = some qid := by
  cases l with
  | holding held stage =>
    simp only [QueueLife.published, Option.ite_none_right_eq_some] at published
    exact published.2
  | unborn | starting | failed | destroyed => cases published

theorem QueueLife.published_of_qid {l : QueueLife} (free : l.qid = none) : l.published = none := by
  cases l with
  | holding held stage => cases free
  | unborn | starting | failed | destroyed => rfl

namespace QueueRegistry

variable {r r' : QueueRegistry} {life : BceQueueRef → QueueLife} {q : BceQueueRef} {l m : QueueLife}
  {qid : Nat}

theorem qid_update : (fun p => (Function.update life q m p).qid) =
    Function.update (fun p => (life p).qid) q m.qid :=
  Function.comp_update QueueLife.qid life q m

theorem shown_update : BceQueuePtr.shown (Function.update life q m) =
    Function.update (BceQueuePtr.shown life) (.user q) m.published := by
  funext p
  cases p with
  | command type =>
    have apart : BceQueuePtr.command type ≠ .user q := nofun
    rw [Function.update_of_ne apart]
    cases type <;> rfl
  | user p =>
    by_cases same : p = q
    · rw [same, Function.update_self, BceQueuePtr.shown, Function.update_self]
    · have apart : BceQueuePtr.user p ≠ .user q := fun also => same (BceQueuePtr.user.inj also)
      rw [Function.update_of_ne apart, BceQueuePtr.shown, BceQueuePtr.shown, Function.update_of_ne same]

/-- A change that leaves what is published as it is. -/
theorem shown_update_same (published : m.published = (life q).published) :
    BceQueuePtr.shown (Function.update life q m) = BceQueuePtr.shown life := by
  rw [shown_update, published]
  exact Function.update_eq_self (.user q) (BceQueuePtr.shown life)

/-- The tables agree with the lives of the queues: the ida has the qids they hold, `queues` what is
published at each qid, and `cq_list` the published CQs. -/
structure Agrees (r : QueueRegistry) (life : BceQueueRef → QueueLife) : Prop where
  range : ∀ q qid, (life q).qid = some qid → bceQueueUserMin ≤ qid ∧ qid ≤ bceQueueUserMax - 1
  allotted : Allotted r.queueIda fun q => (life q).qid
  indexed : Indexes r.queues (BceQueuePtr.shown life)
  enrolled : Enrols r.cqList fun p => p.type = .cq ∧ BceQueuePtr.shown life p ≠ none

/-- No entry of `queues` is at the qid of a queue that is not published. -/
theorem Agrees.unentered (agrees : r.Agrees life) (held : (life q).qid = some qid)
    (hidden : (life q).published = none) : r.queues qid = none := by
  have least := (agrees.range q qid held).1
  by_contra entered
  obtain ⟨p, entry⟩ := Option.ne_none_iff_exists'.mp entered
  have shown := (agrees.indexed qid p).mp entry
  cases p with
  | command type =>
    cases type with
    | cq =>
      cases Option.some.inj shown
      exact absurd least (by decide)
    | sq =>
      cases Option.some.inj shown
      exact absurd least (by decide)
  | user p =>
    cases agrees.allotted.unique (QueueLife.qid_of_published shown) held
    exact absurd (hidden.symm.trans shown) nofun

theorem Agrees.range_update (agrees : r.Agrees life)
    (ranged : ∀ qid, m.qid = some qid → bceQueueUserMin ≤ qid ∧ qid ≤ bceQueueUserMax - 1)
    (p : BceQueueRef) (qid : Nat) (held : (Function.update life q m p).qid = some qid) :
    bceQueueUserMin ≤ qid ∧ qid ≤ bceQueueUserMax - 1 := by
  by_cases same : p = q
  · rw [same, Function.update_self] at held
    exact ranged qid held
  · rw [Function.update_of_ne same] at held
    exact agrees.range p qid held

theorem Agrees.stays (agrees : r.Agrees life) (qid : m.qid = (life q).qid)
    (published : m.published = (life q).published) : r.Agrees (Function.update life q m) where
  range := agrees.range_update fun k held => agrees.range q k (qid.symm.trans held)
  allotted := by
    rw [qid_update, qid, Function.update_eq_self]
    exact agrees.allotted
  indexed := by
    rw [shown_update_same published]
    exact agrees.indexed
  enrolled := by
    rw [shown_update_same published]
    exact agrees.enrolled

theorem Agrees.takes {stage : QidStage} (agrees : r.Agrees life) (free : (life q).qid = none)
    (least : bceQueueUserMin ≤ qid) (most : qid ≤ bceQueueUserMax - 1) (fresh : qid ∉ r.queueIda)
    (hidden : stage.published = false) :
    (r.qidAlloc qid).Agrees (Function.update life q (.holding qid stage)) := by
  have same : BceQueuePtr.shown (Function.update life q (.holding qid stage)) = BceQueuePtr.shown life := by
    apply shown_update_same
    rw [QueueLife.published_of_qid free]
    simp [QueueLife.published, hidden]
  constructor
  · apply agrees.range_update
    intro k held
    cases Option.some.inj held
    exact ⟨least, most⟩
  · rw [qid_update]
    exact agrees.allotted.take fresh free
  · rw [same]
    exact agrees.indexed
  · rw [same]
    exact agrees.enrolled

theorem Agrees.releases (agrees : r.Agrees life) (held : (life q).qid = some qid)
    (hidden : (life q).published = none) (free : m.qid = none) :
    (r.qidFree qid).Agrees (Function.update life q m) := by
  have same : BceQueuePtr.shown (Function.update life q m) = BceQueuePtr.shown life := by
    apply shown_update_same
    rw [hidden, QueueLife.published_of_qid free]
  constructor
  · apply agrees.range_update
    intro k held
    exact absurd (free.symm.trans held) nofun
  · rw [qid_update, free]
    exact agrees.allotted.release held
  · rw [same]
    exact agrees.indexed
  · rw [same]
    exact agrees.enrolled

variable {shown : BceQueuePtr → Option Nat} {x : Option Nat}

/-- What is published of an SQ is nothing to `cq_list`. -/
theorem polled_sq (type : q.type ≠ .cq) (p : BceQueuePtr) :
    (p.type = .cq ∧ shown p ≠ none) ↔ p.type = .cq ∧ Function.update shown (.user q) x p ≠ none := by
  refine and_congr_right fun polled => ?_
  have apart : p ≠ .user q := by
    rintro rfl
    exact type polled
  rw [Function.update_of_ne apart]

theorem polled_enter (type : q.type = .cq) (p : BceQueuePtr) :
    (p = .user q ∨ p.type = .cq ∧ shown p ≠ none) ↔
      p.type = .cq ∧ Function.update shown (.user q) (some qid) p ≠ none := by
  by_cases same : p = .user q
  · rw [same, Function.update_self]
    exact ⟨fun _ => ⟨type, nofun⟩, fun _ => Or.inl rfl⟩
  · rw [Function.update_of_ne same, or_iff_right same]

theorem polled_remove (p : BceQueuePtr) :
    (p ≠ .user q ∧ p.type = .cq ∧ shown p ≠ none) ↔
      p.type = .cq ∧ Function.update shown (.user q) none p ≠ none := by
  by_cases same : p = .user q
  · rw [same, Function.update_self]
    exact ⟨fun h => absurd rfl h.1, fun h => absurd rfl h.2⟩
  · rw [Function.update_of_ne same, and_iff_right same]

theorem Agrees.shows (agrees : r.Agrees life) (held : (life q).qid = some qid)
    (hidden : (life q).published = none) (keeps : m.qid = some qid) (shown : m.published = some qid) :
    (r.publish q qid).Agrees (Function.update life q m) := by
  have empty := agrees.unentered held hidden
  constructor
  · exact agrees.range_update fun k also => agrees.range q k (held.trans (keeps.symm.trans also))
  · rw [qid_update, keeps, ← held, Function.update_eq_self]
    exact agrees.allotted
  · rw [shown_update, shown]
    exact agrees.indexed.enter empty hidden
  · rw [shown_update, shown, publish]
    by_cases type : q.type = .cq
    · have absent : ¬ ((BceQueuePtr.user q).type = .cq ∧ BceQueuePtr.shown life (.user q) ≠ none) :=
        fun polled => polled.2 hidden
      rw [if_pos type]
      exact (agrees.enrolled.enter absent).congr (polled_enter type)
    · rw [if_neg type]
      exact agrees.enrolled.congr (polled_sq type)

theorem Agrees.hides (agrees : r.Agrees life) (shown : (life q).published = some qid)
    (keeps : m.qid = some qid) (hidden : m.published = none) :
    (r.unpublish q qid).Agrees (Function.update life q m) := by
  have held := QueueLife.qid_of_published shown
  constructor
  · exact agrees.range_update fun k also => agrees.range q k (held.trans (keeps.symm.trans also))
  · rw [qid_update, keeps, ← held, Function.update_eq_self]
    exact agrees.allotted
  · rw [shown_update, hidden]
    exact agrees.indexed.remove shown
  · rw [shown_update, hidden, unpublish]
    by_cases type : q.type = .cq
    · rw [if_pos type]
      exact (agrees.enrolled.remove (.user q)).congr polled_remove
    · rw [if_neg type]
      exact agrees.enrolled.congr (polled_sq type)

theorem published_of_stage {stage : QidStage} (published : stage.published = true) :
    (QueueLife.holding qid stage).published = some qid := by
  rw [QueueLife.published, published]
  rfl

theorem unpublished_of_stage {stage : QidStage} (hidden : stage.published = false) :
    (QueueLife.holding qid stage).published = none := by
  rw [QueueLife.published, hidden]
  rfl

/-- A step keeps the tables and the lives of the queues in agreement. -/
theorem Agrees.moves (agrees : r.Agrees life) (moves : Moves q r (life q) r' m) :
    r'.Agrees (Function.update life q m) := by
  generalize now : life q = l at moves
  cases moves with
  | stays qid published => exact agrees.stays (by rw [now, qid]) (by rw [now, published])
  | takes free least most fresh hidden =>
    exact agrees.takes (by rw [now, free]) least most fresh hidden
  | shows hidden shown =>
    exact agrees.shows (by rw [now]; rfl) (by rw [now, unpublished_of_stage hidden]) rfl
      (published_of_stage shown)
  | hides shown hidden =>
    exact agrees.hides (by rw [now, published_of_stage shown]) rfl (unpublished_of_stage hidden)
  | releases hidden free =>
    exact agrees.releases (by rw [now]; rfl) (by rw [now, unpublished_of_stage hidden]) free

theorem start_agrees : start.Agrees fun _ => .unborn where
  range q qid held := by cases held
  allotted := by
    constructor
    · intro k
      exact ⟨fun used => absurd used (Finset.notMem_empty k), fun ⟨q, held⟩ => by cases held⟩
    · intro q p k held
      cases held
  indexed := by
    intro qid p
    by_cases zero : qid = 0
    · subst zero
      cases p with
      | command type => cases type <;> simp [start, BceQueuePtr.shown]
      | user q => simp [start, BceQueuePtr.shown, QueueLife.published]
    by_cases one : qid = 1
    · subst one
      cases p with
      | command type => cases type <;> simp [start, BceQueuePtr.shown]
      | user q => simp [start, BceQueuePtr.shown, QueueLife.published]
    · have empty : start.queues qid = none := by
        simp only [start, if_neg zero, if_neg one]
      rw [empty]
      cases p with
      | command type => cases type <;> simp [BceQueuePtr.shown, Ne.symm zero, Ne.symm one]
      | user q => exact iff_of_false (by simp) (by simp [BceQueuePtr.shown, QueueLife.published])
  enrolled := by
    constructor
    · exact List.nodup_singleton _
    · intro p
      rw [start, List.mem_singleton]
      cases p with
      | command type => cases type <;> simp [BceQueuePtr.type, BceQueuePtr.shown]
      | user q => simp [BceQueuePtr.shown, QueueLife.published]

/-- The tables with one more queue, as far as its life has come. -/
def withQueue (r : QueueRegistry) (q : BceQueueRef) (l : QueueLife) : QueueRegistry :=
  match l.qid with
  | none => r
  | some qid =>
    if l.published = none then r.qidAlloc qid else (r.qidAlloc qid).publish q qid

theorem withQueue_free (free : l.qid = none) : r.withQueue q l = r := by
  rw [withQueue, free]

theorem withQueue_hidden (held : l.qid = some qid) (hidden : l.published = none) :
    r.withQueue q l = r.qidAlloc qid := by
  simp only [withQueue, held, if_pos hidden]

theorem withQueue_shown (published : l.published = some qid) :
    r.withQueue q l = (r.qidAlloc qid).publish q qid := by
  have shown : l.published ≠ none := by
    rw [published]
    nofun
  simp only [withQueue, QueueLife.qid_of_published published, if_neg shown]

theorem qidFree_qidAlloc (fresh : qid ∉ r.queueIda) : (r.qidAlloc qid).qidFree qid = r := by
  simp only [qidFree, qidAlloc, Finset.erase_insert fresh]

theorem unpublish_publish (empty : r.queues qid = none) (unlisted : .user q ∉ r.cqList) :
    (r.publish q qid).unpublish q qid = r := by
  have entry : Function.update r.queues qid none = r.queues := by
    rw [← empty, Function.update_eq_self]
  simp only [unpublish, publish, Function.update_idem, entry]
  by_cases type : q.type = .cq
  · simp only [if_pos type, List.erase_append_right _ unlisted, List.erase_cons_head, List.append_nil]
  · simp only [if_neg type]

/-- Nothing of the queue is in the tables, nor at its qid. -/
structure Without (r : QueueRegistry) (q : BceQueueRef) (l : QueueLife) : Prop where
  unused : ∀ qid, l.qid = some qid → qid ∉ r.queueIda ∧ r.queues qid = none
  unlisted : .user q ∉ r.cqList

/-- A step of a call for `q` takes the tables from one stage of its life to the next. -/
theorem Without.moves (without : r.Without q l) (moves : Moves q (r.withQueue q l) l r' m) :
    r' = r.withQueue q m := by
  generalize now : r.withQueue q l = base at moves
  cases moves with
  | stays qid published => rw [← now, withQueue, withQueue, qid, published]
  | takes free least most fresh hidden =>
    rw [withQueue_free free] at now
    rw [← now, withQueue_hidden rfl (unpublished_of_stage hidden)]
  | shows hidden shown =>
    rw [withQueue_hidden rfl (unpublished_of_stage hidden)] at now
    rw [← now, withQueue_shown (published_of_stage shown)]
  | @hides qid stage next shown hidden =>
    rw [withQueue_shown (published_of_stage shown)] at now
    rw [← now, withQueue_hidden rfl (unpublished_of_stage hidden)]
    exact unpublish_publish (without.unused qid rfl).2 without.unlisted
  | @releases qid stage m hidden free =>
    rw [withQueue_hidden rfl (unpublished_of_stage hidden)] at now
    rw [← now, withQueue_free free]
    exact qidFree_qidAlloc (without.unused qid rfl).1

/-- The qid a create call gets is one that is nowhere in the tables. -/
theorem Without.next (without : r.Without q (life q)) (agrees : r'.Agrees (Function.update life q m))
    (moves : Moves q (r.withQueue q (life q)) (life q) r' m) : r.Without q m := by
  refine ⟨?_, without.unlisted⟩
  have same : m.qid = (life q).qid →
      ∀ qid, m.qid = some qid → qid ∉ r.queueIda ∧ r.queues qid = none :=
    fun same qid held => without.unused qid (same.symm.trans held)
  have new : (Function.update life q m) q = m := Function.update_self ..
  generalize now : life q = l at without moves same
  generalize base : r.withQueue q l = b at moves
  cases moves with
  | stays qid published => exact same qid
  | takes free least most fresh hidden =>
    rw [withQueue_free free] at base
    cases base
    intro k held
    cases Option.some.inj held
    exact ⟨fresh, agrees.unentered (q := q) (by rw [new]; rfl) (by rw [new, unpublished_of_stage hidden])⟩
  | shows hidden shown => exact same rfl
  | hides shown hidden => exact same rfl
  | releases hidden free => exact fun qid held => absurd (free.symm.trans held) nofun

end QueueRegistry

namespace RegistryRun

variable {s t : RegistryRun} {a : RegistryStep} {q : BceQueueRef}

theorem Changes.life_eq (changes : s.Changes q t) : t.life = Function.update s.life q (t.life q) := by
  funext p
  by_cases same : p = q
  · rw [same, Function.update_self]
  · rw [Function.update_of_ne same, changes.others p same]

theorem agrees_step (agrees : s.registry.Agrees s.life) (run : s.step a = some t) :
    t.registry.Agrees t.life := by
  obtain ⟨registry, life⟩ | ⟨q, -, changes⟩ := step_changes run
  · rw [registry, life]
    exact agrees
  · rw [changes.life_eq]
    exact agrees.moves changes.moves

theorem agrees_reachable (reach : machine.Reachable s) : s.registry.Agrees s.life := by
  refine reach.invariant (I := fun s => s.registry.Agrees s.life) ?_ ?_
  · rintro _ rfl
    exact QueueRegistry.start_agrees
  · exact fun _ _ _ agrees run => agrees_step agrees run

theorem Idle.live_of_qid (idle : s.Idle) {qid : Nat} (held : (s.life q).qid = some qid) :
    s.Live q qid := by
  have settled := idle q
  unfold Live
  generalize s.life q = l at held settled
  cases l with
  | holding k stage =>
    cases Option.some.inj held
    cases stage with
    | live => rfl
    | allocating | registering | publishing | abandoning | unregistering | unpublishing
    | synchronizing | releasing => cases settled
  | unborn | starting | failed | destroyed => cases held

theorem Idle.qid_iff (idle : s.Idle) {qid : Nat} : (s.life q).qid = some qid ↔ s.Live q qid := by
  constructor
  · exact idle.live_of_qid
  · intro live
    rw [live]
    rfl

theorem Idle.published_iff (idle : s.Idle) {qid : Nat} :
    (s.life q).published = some qid ↔ s.Live q qid := by
  constructor
  · exact fun published => idle.live_of_qid (QueueLife.qid_of_published published)
  · intro live
    rw [live]
    rfl

theorem Idle.shown_iff (idle : s.Idle) {p : BceQueuePtr} {qid : Nat} :
    BceQueuePtr.shown s.life p = some qid ↔ (qid = 0 ∧ p = .command .cq) ∨
      (qid = 1 ∧ p = .command .sq) ∨ ∃ q, p = .user q ∧ s.Live q qid := by
  cases p with
  | command type => cases type <;> simp [BceQueuePtr.shown, eq_comm]
  | user q => simp [BceQueuePtr.shown, idle.published_iff]

theorem Idle.polled_iff (idle : s.Idle) {p : BceQueuePtr} :
    (p.type = .cq ∧ BceQueuePtr.shown s.life p ≠ none) ↔
      p = .command .cq ∨ ∃ q qid, p = .user q ∧ q.type = .cq ∧ s.Live q qid := by
  cases p with
  | command type => cases type <;> simp [BceQueuePtr.shown, BceQueuePtr.type]
  | user q =>
    simp [BceQueuePtr.shown, BceQueuePtr.type, Option.ne_none_iff_exists', idle.published_iff]

/-- Steps of the calls for one queue, without those of other calls between them, and of the removal
of the device. -/
def Alone (q : BceQueueRef) (as : List RegistryStep) : Prop :=
  ∀ a ∈ as, a.queue = some q ∨ a.queue = none

/-- A run of the calls for one queue leaves in the tables what its life says. -/
theorem alone_registry {as : List RegistryStep} (r : QueueRegistry)
    (agrees : s.registry.Agrees s.life) (base : s.registry = r.withQueue q (s.life q))
    (without : r.Without q (s.life q)) (alone : Alone q as) (ran : machine.run s as = some t) :
    t.registry = r.withQueue q (t.life q) := by
  induction as generalizing s with
  | nil =>
    cases Option.some.inj ran
    exact base
  | cons a as ih =>
    obtain ⟨u, run, ran⟩ := Option.bind_eq_some_iff.mp ran
    have later : Alone q as := fun b member => alone b (List.mem_cons_of_mem a member)
    have agreesNext := agrees_step agrees run
    obtain ⟨registry, life⟩ | ⟨p, named, changes⟩ := step_changes run
    · exact ih agreesNext (by rw [registry, life, base]) (by rw [life]; exact without) later ran
    · obtain own | free := alone a (List.mem_cons_self ..)
      · cases named.symm.trans own
        have moves := changes.moves
        rw [base] at agrees moves
        exact ih agreesNext (without.moves moves) (without.next (changes.life_eq ▸ agreesNext) moves) later ran
      · cases named.symm.trans free

/-- Over every run of create and destroy calls, any number of them at a time, in which each of the
allocations and commands may fail. No two live queues have one qid, and theirs are between the
bounds; `queues` and the ida have each of them at its qid, and `cq_list` each CQ. `cq_list` has
nothing twice, and only CQs that `queues` has. When no call runs there is nothing else: `queues` has
beside them the command queues at 0 and 1, and `cq_list` the command CQ. A create call that fails
leaves the tables as they were, and so does one with the destroy call after it. -/
theorem registry_integrity (reach : machine.Reachable s) :
    (∀ q p qid, s.Live q qid → s.Live p qid → q = p) ∧
    (∀ q qid, s.Live q qid → bceQueueUserMin ≤ qid ∧ qid ≤ bceQueueUserMax - 1 ∧
      s.registry.queues qid = some (.user q) ∧ qid ∈ s.registry.queueIda ∧
      (q.type = .cq → .user q ∈ s.registry.cqList)) ∧
    (s.registry.cqList.Nodup ∧
      ∀ p ∈ s.registry.cqList, p.type = .cq ∧ ∃ qid, s.registry.queues qid = some p) ∧
    (s.Idle →
      (∀ qid p, s.registry.queues qid = some p ↔ (qid = 0 ∧ p = .command .cq) ∨
        (qid = 1 ∧ p = .command .sq) ∨ ∃ q, p = .user q ∧ s.Live q qid) ∧
      (∀ p, p ∈ s.registry.cqList ↔
        p = .command .cq ∨ ∃ q qid, p = .user q ∧ q.type = .cq ∧ s.Live q qid) ∧
      ∀ qid, qid ∈ s.registry.queueIda ↔ ∃ q, s.Live q qid) ∧
    ∀ q as t, s.life q = .unborn → Alone q as → machine.run s as = some t →
      t.life q = .failed ∨ t.life q = .destroyed → t.registry = s.registry := by
  have agrees := agrees_reachable reach
  have published : ∀ q qid, s.Live q qid → (s.life q).published = some qid := by
    intro q qid live
    rw [live]
    rfl
  have held := fun q qid live => QueueLife.qid_of_published (published q qid live)
  refine ⟨?_, ?_, ⟨agrees.enrolled.once, ?_⟩, ?_, ?_⟩
  · intro q p qid live also
    exact agrees.allotted.unique (held q qid live) (held p qid also)
  · intro q qid live
    have range := agrees.range q qid (held q qid live)
    have shown : BceQueuePtr.shown s.life (.user q) = some qid := published q qid live
    refine ⟨range.1, range.2, (agrees.indexed qid (.user q)).mpr shown, ?_, ?_⟩
    · exact (agrees.allotted.used qid).mpr ⟨q, held q qid live⟩
    · intro type
      refine (agrees.enrolled.mem (.user q)).mpr ⟨type, ?_⟩
      rw [shown]
      nofun
  · intro p listed
    obtain ⟨type, entered⟩ := (agrees.enrolled.mem p).mp listed
    obtain ⟨qid, shown⟩ := Option.ne_none_iff_exists'.mp entered
    exact ⟨type, qid, (agrees.indexed qid p).mpr shown⟩
  · intro idle
    refine ⟨?_, ?_, ?_⟩
    · intro qid p
      rw [agrees.indexed, idle.shown_iff]
    · intro p
      rw [agrees.enrolled.mem, idle.polled_iff]
    · intro qid
      rw [agrees.allotted.used]
      exact exists_congr fun q => idle.qid_iff
  · intro q as t unborn alone ran ended
    have base : s.registry = s.registry.withQueue q (s.life q) := by
      rw [QueueRegistry.withQueue_free (by rw [unborn]; rfl)]
    have without : s.registry.Without q (s.life q) := by
      rw [unborn]
      refine ⟨nofun, ?_⟩
      intro listed
      have polled := ((agrees.enrolled.mem (.user q)).mp listed).2
      rw [BceQueuePtr.shown, unborn] at polled
      exact polled rfl
    have left := alone_registry s.registry agrees base without alone ran
    obtain failed | destroyed := ended
    · rw [left, failed]
      exact QueueRegistry.withQueue_free rfl
    · rw [left, destroyed]
      exact QueueRegistry.withQueue_free rfl

/-- A CQ that lives while the create call of an SQ fails in its command. -/
theorem registry_integrity_failed : ∃ s, machine.Reachable s ∧ s.Live ⟨.cq, 0⟩ 2 ∧
    s.life ⟨.sq, 0⟩ = .failed ∧ s.registry.queues 2 = some (.user ⟨.cq, 0⟩) := by
  obtain ⟨s, ran, live, failed⟩ : ∃ s, machine.run start
      [.createCq 0 0x100, .qidAlloc ⟨.cq, 0⟩ (some 2), .allocated ⟨.cq, 0⟩ (some 0x8000),
        .registered ⟨.cq, 0⟩ 0, .publish ⟨.cq, 0⟩, .createSq 0 (some 2) (some "sq") 0x100 dmaToDevice,
        .qidAlloc ⟨.sq, 0⟩ (some 3), .allocated ⟨.sq, 0⟩ (some 0x9000), .registered ⟨.sq, 0⟩ (-5),
        .abandon ⟨.sq, 0⟩] = some s ∧ s.Live ⟨.cq, 0⟩ 2 ∧ s.life ⟨.sq, 0⟩ = .failed :=
    ⟨_, rfl, rfl, rfl⟩
  have reach : machine.Reachable s := Machine.Reachable.of_run (.start rfl) _ ran
  exact ⟨s, reach, live, failed, ((registry_integrity reach).2.1 _ 2 live).2.2.1⟩

end RegistryRun

end AppleBce

import AppleBce.Audio.BufferStruct

namespace AppleBce

open Basis

namespace BsRun

/-- The slot of the subdevice at a place of the list. -/
def slotOf (s : BsRun) (k : Nat) : Option Nat :=
  s.sdevs[k]?.bind fun sdev => if sdev.bufId = aaudioBufferIdNone then none else some sdev.bufId

def uids (s : BsRun) : List (List Byte) :=
  s.sdevs.map (·.uid)

/-- All indices used so far are in range. -/
def Safe (s : BsRun) : Prop :=
  ∀ a ∈ s.touched, a.InRange

variable {s : BsRun} {k i : Nat} {sdev new : BsSubdevice} {accesses : List BsAccess}

theorem safe_touch : (s.touch accesses).Safe ↔ s.Safe ∧ ∀ a ∈ accesses, a.InRange :=
  List.forall_mem_append

theorem safe_touch_of (inside : ∀ a ∈ accesses, a.InRange) : (s.touch accesses).Safe ↔ s.Safe := by
  rw [safe_touch]
  exact and_iff_left inside

theorem slotOf_at (found : s.sdevs[k]? = some sdev) :
    s.slotOf k = if sdev.bufId = aaudioBufferIdNone then none else some sdev.bufId := by
  rw [slotOf, found]
  rfl

theorem uids_setSdev (found : s.sdevs[k]? = some sdev) (same : new.uid = sdev.uid) :
    (s.setSdev k new).uids = s.uids := by
  obtain ⟨inside, value⟩ := List.getElem?_eq_some_iff.mp found
  have bound : k < (s.sdevs.map (·.uid)).length := by
    rw [List.length_map]
    exact inside
  have entry : new.uid = (s.sdevs.map (·.uid))[k] := by
    rw [same, List.getElem_map, value]
  simp only [uids, setSdev, List.map_set, entry, List.set_getElem_self]

/-- Setting a subdevice sets its slot. -/
theorem slotOf_setSdev (found : s.sdevs[k]? = some sdev) :
    (s.setSdev k new).slotOf = Function.update s.slotOf k
      (if new.bufId = aaudioBufferIdNone then none else some new.bufId) := by
  obtain ⟨inside, _⟩ := List.getElem?_eq_some_iff.mp found
  funext m
  by_cases same : m = k
  · subst same
    rw [Function.update_self, slotOf, setSdev, List.getElem?_set_self inside]
    rfl
  · rw [Function.update_of_ne same, slotOf, slotOf, setSdev, List.getElem?_set_ne (Ne.symm same)]

/-- A device number fits the field of the subdevice and is not the mark of a free one. -/
theorem slotOf_assign (found : s.sdevs[k]? = some sdev) (inside : i < bufferStructDevices) :
    (s.setSdev k { sdev with bufId := i % 2 ^ 8 }).slotOf = Function.update s.slotOf k (some i) := by
  have number : i % 2 ^ 8 = i :=
    Nat.mod_eq_of_lt (by simp only [bufferStructDevices] at inside; omega)
  have assigned : i ≠ aaudioBufferIdNone := by
    simp only [bufferStructDevices, aaudioBufferIdNone] at inside ⊢
    omega
  rw [slotOf_setSdev found, number, if_neg assigned]

theorem slotOf_mem (member : sdev ∈ s.sdevs) : ∃ k < s.sdevs.length,
    s.slotOf k = if sdev.bufId = aaudioBufferIdNone then none else some sdev.bufId := by
  obtain ⟨k, inside, value⟩ := List.mem_iff_getElem.mp member
  exact ⟨k, inside, slotOf_at (List.getElem?_eq_some_iff.mpr ⟨inside, value⟩)⟩

/-- A change that leaves the slot of a subdevice leaves all of them. -/
theorem slotOf_setSdev_same (found : s.sdevs[k]? = some sdev) (same : new.bufId = sdev.bufId) :
    (s.setSdev k new).slotOf = s.slotOf := by
  rw [slotOf_setSdev found, same, ← slotOf_at found, Function.update_eq_self]

end BsRun

section Streams

variable {env : InitBsEnv} {i j k : Nat}

theorem aaudioInitBsStream_safe (strm : StreamBuffers) (bsStrm : BsStream) :
    ∀ a ∈ (aaudioInitBsStream env i j strm bsStrm).2, a.InRange := by
  have few : (if aaudioDeviceMaxBufferCount < bsStrm.numBuffers then aaudioDeviceMaxBufferCount
      else bsStrm.numBuffers) ≤ aaudioDeviceMaxBufferCount := by
    split <;> omega
  rw [aaudioInitBsStream]
  generalize (if aaudioDeviceMaxBufferCount < bsStrm.numBuffers then aaudioDeviceMaxBufferCount
    else bsStrm.numBuffers) = bufferCnt at few
  have copied : ∀ a ∈ (List.range bufferCnt).map BsAccess.buffer, a.InRange := by
    simp only [List.mem_map, List.mem_range]
    rintro a ⟨m, below, rfl⟩
    exact Nat.lt_of_lt_of_le below few
  simp only
  split
  · exact nofun
  split
  · exact nofun
  split
  · refine List.forall_mem_append.mpr ⟨copied, List.forall_mem_singleton.mpr ?_⟩
    exact Nat.one_pos
  · exact copied

theorem aaudioInitBsStreamHost_safe (strm : StreamBuffers) (bsStrm : BsStream) :
    ∀ a ∈ (aaudioInitBsStreamHost env i strm bsStrm).2.2, a.InRange := by
  rw [aaudioInitBsStreamHost]
  split
  · exact nofun
  split
  · exact nofun
  · exact List.forall_mem_singleton.mpr Nat.one_pos

variable {s : BsRun}

/-- What a round over an output stream leaves as it is. -/
theorem initBsOutputStream_frame (env : InitBsEnv) (i k j : Nat) (s : BsRun) :
    (initBsOutputStream env i k j s).uids = s.uids ∧ (initBsOutputStream env i k j s).slotOf = s.slotOf ∧
      (initBsOutputStream env i k j s).bs = s.bs := by
  rw [initBsOutputStream]
  simp only
  split
  · exact ⟨rfl, rfl, rfl⟩
  next sdev found =>
    split
    · exact ⟨BsRun.uids_setSdev (s := s.touch _) found rfl,
        BsRun.slotOf_setSdev_same (s := s.touch _) found rfl, rfl⟩
    · exact ⟨rfl, rfl, rfl⟩

theorem initBsOutputStream_safe (env : InitBsEnv) (i k j : Nat) (s : BsRun) :
    (initBsOutputStream env i k j s).Safe ↔ s.Safe ∧ i < bufferStructDevices ∧ j < bufferStructStreams := by
  have used : (s.touch [.outputStream i j]).Safe ↔
      s.Safe ∧ i < bufferStructDevices ∧ j < bufferStructStreams := by
    rw [BsRun.safe_touch, List.forall_mem_singleton]
    rfl
  rw [initBsOutputStream]
  simp only
  split
  · exact used
  next sdev found =>
    split
    · rw [BsRun.safe_touch_of (aaudioInitBsStream_safe _ _)]
      exact used
    · exact used

end Streams

section FirstLoop

variable {env : InitBsEnv} {bs : BufferStruct} {sdevs : List BsSubdevice} {s : BsRun} {i k : Nat}

/-- A device that the T2 has entered under the name of a subdevice. -/
def BufferStruct.Names (bs : BufferStruct) (sdevs : List BsSubdevice) (m : Nat) : Prop :=
  ∃ sdev ∈ sdevs, (bs.devices m).name = sdev.uid

/-- What holds after the devices below `i`. -/
structure Entered (bs : BufferStruct) (sdevs : List BsSubdevice) (i : Nat) (s : BsRun) : Prop where
  uids : s.uids = sdevs.map (·.uid)
  devices : ∀ m, (s.bs.devices m).name = (bs.devices m).name ∧
    (s.bs.devices m).numOutputStreams = (bs.devices m).numOutputStreams
  owned : OwnedBelow s.slotOf i
  safe : s.Safe ↔ ∀ m < i, bs.Names sdevs m → (bs.devices m).numOutputStreams ≤ bufferStructStreams

theorem initBsOutputStreams (env : InitBsEnv) (k n : Nat) (s : BsRun) (inside : i < bufferStructDevices) :
    (forLoop n (initBsOutputStream env i k) s).uids = s.uids ∧
    (forLoop n (initBsOutputStream env i k) s).slotOf = s.slotOf ∧
    (forLoop n (initBsOutputStream env i k) s).bs = s.bs ∧
    ((forLoop n (initBsOutputStream env i k) s).Safe ↔ s.Safe ∧ n ≤ bufferStructStreams) := by
  refine forLoop_invariant (f := initBsOutputStream env i k) (n := n)
    (P := fun m t => t.uids = s.uids ∧ t.slotOf = s.slotOf ∧ t.bs = s.bs ∧
      (t.Safe ↔ s.Safe ∧ m ≤ bufferStructStreams)) ⟨rfl, rfl, rfl, by simp⟩ ?_
  rintro m t _ ⟨uids, slots, shared, safe⟩
  obtain ⟨uids', slots', shared'⟩ := initBsOutputStream_frame env i k m t
  refine ⟨uids'.trans uids, slots'.trans slots, shared'.trans shared, ?_⟩
  rw [initBsOutputStream_safe, safe]
  simp only [inside, true_and, and_assoc, and_congr_right_iff]
  omega

theorem findDev_iff {uid : List Byte} (same : s.uids = sdevs.map (·.uid)) :
    aaudioFindDevByUid s.sdevs uid = none ↔ ¬∃ sdev ∈ sdevs, uid = sdev.uid := by
  have names : (∃ sdev ∈ s.sdevs, uid = sdev.uid) ↔ ∃ sdev ∈ sdevs, uid = sdev.uid := by
    have member : uid ∈ s.sdevs.map (·.uid) ↔ uid ∈ sdevs.map (·.uid) := by
      rw [← same]
      rfl
    simpa only [List.mem_map, eq_comm] using member
  rw [aaudioFindDevByUid, List.findIdx?_eq_none_iff, ← names]
  simp

theorem Entered.unnamed (inside : i < bufferStructDevices) (entered : Entered bs sdevs i s)
    (other : ¬bs.Names sdevs i) : Entered bs sdevs (i + 1) (s.touch [.device i]) := by
  have touched : (s.touch [.device i]).Safe ↔ s.Safe :=
    BsRun.safe_touch_of (List.forall_mem_singleton.mpr inside)
  refine ⟨entered.uids, entered.devices, entered.owned.mono (Nat.le_succ i), ?_⟩
  rw [touched, entered.safe]
  refine ⟨fun before m below named => ?_, fun all m below => all m (Nat.lt_succ_of_lt below)⟩
  rcases Nat.lt_succ_iff_lt_or_eq.mp below with earlier | rfl
  · exact before m earlier named
  · exact absurd named other

/-- The driver finds a subdevice exactly for the devices that are named like one. -/
theorem Entered.found_iff (entered : Entered bs sdevs i s) :
    aaudioFindDevByUid s.sdevs (s.bs.devices i).name = none ↔ ¬bs.Names sdevs i := by
  rw [(entered.devices i).1]
  exact findDev_iff entered.uids

/-- The streams of a device that got its slot are looked at next. -/
theorem Entered.named {t : BsRun} {place : Nat} (inside : i < bufferStructDevices)
    (entered : Entered bs sdevs i s) (named : bs.Names sdevs i) (uids : t.uids = s.uids)
    (slots : t.slotOf = Function.update s.slotOf place (some i))
    (shared : t.bs = s.bs.setDevice i { s.bs.devices i with numInputStreams := 0 })
    (safe : t.Safe ↔ s.Safe) : Entered bs sdevs (i + 1)
      (forLoop (s.bs.devices i).numOutputStreams (initBsOutputStream env i place) t) := by
  obtain ⟨uids', slots', shared', safe'⟩ :=
    initBsOutputStreams env place (s.bs.devices i).numOutputStreams t inside
  refine ⟨uids'.trans (uids.trans entered.uids), ?_, ?_, ?_⟩
  · intro m
    rw [shared', shared]
    by_cases same : m = i
    · subst same
      rw [BufferStruct.setDevice_self]
      exact entered.devices m
    · rw [BufferStruct.setDevice_ne _ _ same]
      exact entered.devices m
  · rw [slots', slots]
    exact entered.owned.assign place
  · rw [safe', safe, entered.safe, (entered.devices i).2]
    constructor
    · rintro ⟨before, now⟩ m below named'
      rcases Nat.lt_succ_iff_lt_or_eq.mp below with earlier | rfl
      · exact before m earlier named'
      · exact now
    · intro all
      exact ⟨fun m below => all m (Nat.lt_succ_of_lt below), all i (Nat.lt_succ_self i) named⟩

theorem Entered.round (inside : i < bufferStructDevices) (entered : Entered bs sdevs i s) :
    Entered bs sdevs (i + 1) (initBsDevice env i s) := by
  rw [initBsDevice]
  simp only
  split
  · next missing => exact entered.unnamed inside (entered.found_iff.mp missing)
  next place found =>
    have named : bs.Names sdevs i := by
      by_contra other
      exact absurd ((entered.found_iff.mpr other).symm.trans found) nofun
    split
    · next absent =>
      obtain ⟨below, _⟩ := List.findIdx?_eq_some_iff_findIdx_eq.mp found
      rw [List.getElem?_eq_none_iff] at absent
      exact absurd below (Nat.not_lt.mpr absent)
    next sdev at_place =>
      refine entered.named inside named ?_ ?_ rfl ?_
      · exact BsRun.uids_setSdev (s := s.touch _) at_place rfl
      · exact BsRun.slotOf_assign (s := s.touch _) at_place inside
      · exact BsRun.safe_touch_of (List.forall_mem_singleton.mpr inside)

end FirstLoop

section SecondLoop

variable {s : BsRun} {k count : Nat} {safe : Prop}

/-- What holds after the second loop has passed the subdevices below `k`. -/
structure Created (count : Nat) (safe : Prop) (k : Nat) (s : BsRun) : Prop where
  length : s.sdevs.length = count
  owned : OwnedBelow s.slotOf s.index
  index : s.index ≤ bufferStructDevices
  passed : ∀ m < k, s.slotOf m = none → s.index = bufferStructDevices
  left : s.stopped → s.index = bufferStructDevices
  safe : s.Safe ↔ safe

theorem Created.skip (created : Created count safe k s)
    (here : s.slotOf k = none → s.index = bufferStructDevices) : Created count safe (k + 1) s where
  length := created.length
  owned := created.owned
  index := created.index
  passed m below free := by
    rcases Nat.lt_succ_iff_lt_or_eq.mp below with earlier | rfl
    · exact created.passed m earlier free
    · exact here free
  left := created.left
  safe := created.safe

theorem Created.round (below : k < count) (created : Created count safe k s) :
    Created count safe (k + 1) (createBsDevice k s) := by
  rw [createBsDevice]
  split
  · next absent =>
    rw [List.getElem?_eq_none_iff, created.length] at absent
    exact absurd below (Nat.not_lt.mpr absent)
  next sdev found =>
    split
    · next stopped => exact created.skip fun _ => created.left stopped
    split
    · next assigned =>
      refine created.skip fun free => ?_
      rw [BsRun.slotOf_at found, if_neg assigned] at free
      cases free
    split
    · next full =>
      have reached : s.index = bufferStructDevices := Nat.le_antisymm created.index full
      exact ⟨created.length, created.owned, created.index, fun _ _ _ => reached, fun _ => reached,
        created.safe⟩
    next room =>
      have inside : s.index < bufferStructDevices := Nat.not_le.mp room
      have slots := BsRun.slotOf_assign found inside
      have used := @BsRun.safe_touch_of (s.setSdev k { sdev with bufId := s.index % 2 ^ 8 })
        [.device s.index] (List.forall_mem_singleton.mpr inside)
      refine ⟨?_, ?_, inside, ?_, ?_, used.trans created.safe⟩
      · exact (List.length_set ..).trans created.length
      · exact slots ▸ created.owned.assign k
      · intro m low free
        have free' : Function.update s.slotOf k (some s.index) m = none := slots ▸ free
        by_cases same : m = k
        · subst same
          rw [Function.update_self] at free'
          cases free'
        · rw [Function.update_of_ne same] at free'
          exact absurd (created.passed m (by omega) free') (Nat.ne_of_lt inside)
      · intro stopped
        exact absurd (created.left stopped) (Nat.ne_of_lt inside)

end SecondLoop

section ThirdLoop

variable {env : InitBsEnv} {s : BsRun} {k : Nat}

/-- A round of the third loop uses the slots and keeps them. -/
theorem Created.inputStream {count : Nat} {safe : Prop} (created : Created count safe count s) :
    Created count safe count (initBsInputStream env k s) := by
  rw [initBsInputStream]
  split
  · exact created
  next sdev found =>
    split
    · exact created
    next assigned =>
      split
      · have slot := BsRun.slotOf_at found
        rw [if_neg assigned] at slot
        have inside : sdev.bufId < bufferStructDevices :=
          Nat.lt_of_lt_of_le (created.owned.below slot) created.index
        simp only
        generalize initialised : aaudioInitBsStreamHost env sdev.bufId (sdev.inStreams 0)
          ((s.bs.devices sdev.bufId).inputStreams 0) = result
        have buffers : ∀ a ∈ result.2.2, a.InRange := by
          rw [← initialised]
          exact aaudioInitBsStreamHost_safe _ _
        have slots := @BsRun.slotOf_setSdev_same s k sdev
          { sdev with inStreams := Function.update sdev.inStreams 0 result.1 } found rfl
        have used := @BsRun.safe_touch_of s
          ([.device sdev.bufId, .inputStream sdev.bufId 0] ++ result.2.2) (by
            rw [List.cons_append, List.cons_append, List.nil_append, List.forall_mem_cons,
              List.forall_mem_cons]
            exact ⟨inside, ⟨inside, by decide⟩, buffers⟩)
        refine ⟨(List.length_set ..).trans created.length, ?_, created.index, ?_, created.left,
          used.trans created.safe⟩
        · exact slots.symm ▸ created.owned
        · exact fun m below free => created.passed m below (slots ▸ free)
      · exact created

end ThirdLoop

/-- The slots after the driver has set up the shared struct. -/
structure UniqueSlots (s : BsRun) : Prop where
  range : ∀ sdev ∈ s.sdevs, sdev.bufId = aaudioBufferIdNone ∨ sdev.bufId < bufferStructDevices
  unique : s.sdevs.Pairwise fun a b => a.bufId = b.bufId → a.bufId = aaudioBufferIdNone
  full : ∀ sdev ∈ s.sdevs, sdev.bufId = aaudioBufferIdNone → s.index = bufferStructDevices

theorem uniqueSlots_of_created {s : BsRun} {count : Nat} {safe : Prop}
    (created : Created count safe count s) : UniqueSlots s where
  range sdev member := by
    obtain ⟨k, inside, slot⟩ := BsRun.slotOf_mem member
    by_cases free : sdev.bufId = aaudioBufferIdNone
    · exact Or.inl free
    · rw [if_neg free] at slot
      exact Or.inr (Nat.lt_of_lt_of_le (created.owned.below slot) created.index)
  unique := by
    rw [List.pairwise_iff_getElem]
    intro k m first second order same
    by_contra taken
    have one := BsRun.slotOf_at (List.getElem?_eq_getElem first)
    have two := BsRun.slotOf_at (List.getElem?_eq_getElem second)
    rw [if_neg taken] at one
    rw [← same, if_neg taken] at two
    exact Nat.ne_of_lt order (created.owned.unique one two)
  full sdev member free := by
    obtain ⟨k, inside, slot⟩ := BsRun.slotOf_mem member
    rw [if_pos free] at slot
    exact created.passed k (created.length ▸ inside) slot

/-- Every entered device that is named like a subdevice has no more output streams than there is room
for. -/
def StreamsFit (bs : BufferStruct) (sdevs : List BsSubdevice) : Prop :=
  ∀ i < bs.entered, bs.Names sdevs i → (bs.devices i).numOutputStreams ≤ bufferStructStreams

/-- A struct with another header is left alone. -/
theorem aaudioInitBs_refused (env : InitBsEnv) (bs : BufferStruct) (sdevs : List BsSubdevice)
    (header : ¬BsHeader env bs) :
    (aaudioInitBs env bs sdevs).1 = .error .inval ∧ (aaudioInitBs env bs sdevs).2.touched = [] := by
  rw [aaudioInitBs]
  split
  · exact ⟨rfl, rfl⟩
  next version =>
    split
    · exact ⟨rfl, rfl⟩
    next register =>
      split
      · exact ⟨rfl, rfl⟩
      next signature =>
        exact absurd ⟨Nat.not_lt.mp version, not_not.mp register, not_not.mp signature⟩ header

/-- What the three loops do, one behind the other. -/
theorem aaudioInitBs_loops (env : InitBsEnv) (bs : BufferStruct) (sdevs : List BsSubdevice)
    (header : BsHeader env bs) (unassigned : ∀ sdev ∈ sdevs, sdev.bufId = aaudioBufferIdNone) :
    (aaudioInitBs env bs sdevs).1 = .ok () ∧
      Created sdevs.length (StreamsFit bs sdevs) sdevs.length (aaudioInitBs env bs sdevs).2 := by
  obtain ⟨version, register, signature⟩ := header
  rw [aaudioInitBs, if_neg (by omega), if_neg (not_not.mpr register), if_neg (not_not.mpr signature)]
  simp only
  generalize begun : ({ bs, sdevs, index := 0, stopped := false, touched := [] } : BsRun) = start
  have entering : Entered bs sdevs 0 start := by
    rw [← begun]
    refine ⟨rfl, fun _ => ⟨rfl, rfl⟩, .none fun k => ?_, iff_of_true nofun nofun⟩
    cases found : sdevs[k]? with
    | none =>
      rw [BsRun.slotOf, found]
      rfl
    | some sdev => rw [BsRun.slotOf_at found, if_pos (unassigned sdev (List.mem_of_getElem? found))]
  have entered : Entered bs sdevs bs.entered (forLoop bs.entered (initBsDevice env) start) :=
    forLoop_invariant entering fun i s below entered =>
      entered.round (Nat.lt_of_lt_of_le below (Nat.min_le_right ..))
  generalize forLoop bs.entered (initBsDevice env) start = first at entered
  have length : first.sdevs.length = sdevs.length := by
    have same := congrArg List.length entered.uids
    rwa [BsRun.uids, List.length_map, List.length_map] at same
  have creating : Created sdevs.length (StreamsFit bs sdevs) 0
      { first with index := bs.entered, stopped := false } :=
    ⟨length, entered.owned, Nat.min_le_right .., nofun, nofun, entered.safe⟩
  have created := forLoop_invariant creating fun k s below created => created.round below
  refine ⟨trivial, forLoop_keeps created fun k s _ created => created.inputStream⟩

theorem init_bs_unique (env : InitBsEnv) (bs : BufferStruct) (sdevs : List BsSubdevice)
    (unassigned : ∀ sdev ∈ sdevs, sdev.bufId = aaudioBufferIdNone)
    (succeeded : (aaudioInitBs env bs sdevs).1 = .ok ()) : UniqueSlots (aaudioInitBs env bs sdevs).2 := by
  by_cases header : BsHeader env bs
  · exact uniqueSlots_of_created (aaudioInitBs_loops env bs sdevs header unassigned).2
  · rw [(aaudioInitBs_refused env bs sdevs header).1] at succeeded
    cases succeeded

theorem init_bs_safe (env : InitBsEnv) (bs : BufferStruct) (sdevs : List BsSubdevice)
    (unassigned : ∀ sdev ∈ sdevs, sdev.bufId = aaudioBufferIdNone) :
    (aaudioInitBs env bs sdevs).2.Safe ↔ BsHeader env bs → StreamsFit bs sdevs := by
  by_cases header : BsHeader env bs
  · rw [(aaudioInitBs_loops env bs sdevs header unassigned).2.safe]
    simp only [header, forall_const]
  · refine iff_of_true ?_ fun accepted => absurd accepted header
    rw [BsRun.Safe, (aaudioInitBs_refused env bs sdevs header).2]
    exact nofun

/-- The driver uses no index outside of its array and gives every subdevice a slot of its own until the
slots have run out, if and only if no device of an accepted struct that is named like a subdevice has
too many output streams. The slots are unique even where it has. -/
theorem init_bs_slots (env : InitBsEnv) (bs : BufferStruct) (sdevs : List BsSubdevice)
    (unassigned : ∀ sdev ∈ sdevs, sdev.bufId = aaudioBufferIdNone) :
    let run := aaudioInitBs env bs sdevs
    (run.2.Safe ∧ (run.1 = .ok () → UniqueSlots run.2) ↔ (BsHeader env bs → StreamsFit bs sdevs)) ∧
    (run.1 = .ok () → UniqueSlots run.2) := by
  have unique := init_bs_unique env bs sdevs unassigned
  exact ⟨(and_iff_left unique).trans (init_bs_safe env bs sdevs unassigned), unique⟩

section Speaker

/-- Registers as the T2 sets them, and every allocation succeeds. -/
def speakerEnv : InitBsEnv where
  gpr i := if i = 1 then aaudioSig else 3
  machine := maskingShifts
  regMemBsDma := 0
  kmallocBuffers _ _ := true
  kmallocHw _ _ := true
  dmaAlloc _ := none
  kmallocHostBuffers _ := true
  kmallocHostHw _ := true

/-- A struct with one device, of the given number of output streams. -/
def speakerStruct (streams : Nat) : BufferStruct where
  signature := aaudioSig
  numDevices := 1
  devices _ :=
    { name := [0x53#8]
      numInputStreams := 0
      numOutputStreams := streams
      inputStreams := fun _ => ⟨0, fun _ => ⟨0, 0⟩⟩
      outputStreams := fun _ => ⟨1, fun _ => ⟨0, 16384⟩⟩ }

/-- The subdevice of the same name. -/
def speakerSubdevice : BsSubdevice where
  uid := [0x53#8]
  bufId := aaudioBufferIdNone
  inStreamCnt := 0
  inStreams _ := ⟨hugeRate, 0, none, none, false⟩
  outStreamCnt := 1
  outStreams _ := ⟨hugeRate, 0, none, none, false⟩

/-- The headphones beside it, with one output stream each. -/
def headphonesStruct : BufferStruct :=
  { speakerStruct 1 with
    numDevices := 2
    devices := fun i => { (speakerStruct 1).devices i with name := if i = 0 then [0x53#8] else [0x48#8] } }

def headphonesSubdevice : BsSubdevice :=
  { speakerSubdevice with uid := [0x48#8] }

theorem init_bs_slots_headphones :
    (aaudioInitBs speakerEnv headphonesStruct [speakerSubdevice, headphonesSubdevice]).2.sdevs.map
      BsSubdevice.bufId =
      [0, 1] ∧
    UniqueSlots (aaudioInitBs speakerEnv headphonesStruct [speakerSubdevice, headphonesSubdevice]).2 :=
  ⟨by decide, (init_bs_slots speakerEnv headphonesStruct [speakerSubdevice, headphonesSubdevice] (by decide)).2 rfl⟩

/-- With six output streams the driver looks at one behind the array. -/
theorem six_streams_outside :
    BsAccess.outputStream 0 5 ∈ (aaudioInitBs speakerEnv (speakerStruct 6) [speakerSubdevice]).2.touched ∧
    ¬(aaudioInitBs speakerEnv (speakerStruct 6) [speakerSubdevice]).2.Safe := by
  have used : BsAccess.outputStream 0 5 ∈
      (aaudioInitBs speakerEnv (speakerStruct 6) [speakerSubdevice]).2.touched := by decide
  exact ⟨used, fun safe => absurd (safe _ used).2 (by decide)⟩

end Speaker

end AppleBce

import AppleBce.Audio.Pcm
import AppleBce.Basis.Machine

namespace AppleBce

open Basis

/-- A started stream, with the time of the last event, the position returned last, how often a
position was smaller than the one before it, and the number of timestamps installed. -/
structure PcmRun where
  stream : AaudioStream
  bufferSize : Nat
  now : Int
  last : Option Nat
  drops : Nat
  installs : Nat

inductive PcmStep
  | install (now timestamp : Int)
  | pointer (now : Int)
  deriving DecidableEq, Repr

namespace PcmRun

/-- The position returned last, or the beginning of the buffer. -/
def position (s : PcmRun) : Nat :=
  s.last.getD 0

/-- A pointer call comes less than two buffer times after the timestamp installed last. -/
def InTime (s : PcmRun) (now : Int) : Prop :=
  s.stream.waitingForFirstTs = false →
    now < s.stream.remoteTimestamp + 2 * s.stream.bufferTimeNs

instance (s : PcmRun) (now : Int) : Decidable (s.InTime now) := by
  unfold InTime
  infer_instance

/-- The time does not go back, and a timestamp is not later than its install. -/
def step (s : PcmRun) : PcmStep → Option PcmRun
  | .install now timestamp =>
    if s.now ≤ now ∧ timestamp ≤ now then
      some { s with
        stream := (aaudioHandleStreamTimestamp s.stream timestamp).1
        now
        installs := s.installs + 1 }
    else none
  | .pointer now =>
    if s.now ≤ now ∧ s.InTime now then
      let (position, stream) := aaudioPcmPointer s.stream s.bufferSize now
      some { s with
        stream
        now
        last := some position
        drops := if position < s.position then s.drops + 1 else s.drops }
    else none

/-- A buffer of any size and duration, just started. -/
def Starts (s : PcmRun) : Prop :=
  (∃ stream, s.stream = aaudioPcmTriggerStart stream) ∧ 0 < s.bufferSize ∧
  0 < s.stream.bufferTimeNs ∧ s.stream.bufferTimeNs * s.bufferSize < 2 ^ 63 ∧
  s.last = none ∧ s.drops = 0 ∧ s.installs = 0

/-- All runs after a start. -/
def machine : Machine PcmRun PcmStep where
  init := Starts
  step := step

variable {s t : PcmRun} {now timestamp : Int}

/-- The time since the timestamp installed last. -/
def elapsed (s : PcmRun) : Int :=
  s.now - s.stream.remoteTimestamp

/-- What a stream keeps from its start on: the buffer, a floor and a last position inside it, and
the floor 0 until the first timestamp. -/
structure Sized (s : PcmRun) : Prop where
  started : s.stream.started
  size : 0 < s.bufferSize
  time : 0 < s.stream.bufferTimeNs
  product : s.stream.bufferTimeNs * s.bufferSize < 2 ^ 63
  floor : 0 ≤ s.stream.frameMin ∧ s.stream.frameMin < s.bufferSize
  inside : s.position < s.bufferSize

/-- How the wraps are paid for by the timestamps: two timestamps are left, or one is left and the
floor holds the next position up, or the position was extrapolated and a timestamp is to come. -/
inductive Paid (s : PcmRun) : Prop
  | waiting : s.stream.waitingForFirstTs → s.drops = 0 → s.position = 0 → Paid s
  | spare : s.stream.waitingForFirstTs = false → s.stream.remoteTimestamp ≤ s.now →
      s.drops + 2 ≤ s.installs → Paid s
  | held : s.stream.waitingForFirstTs = false → s.stream.remoteTimestamp ≤ s.now →
      s.drops + 1 ≤ s.installs → (s.elapsed < s.stream.bufferTimeNs →
        s.position ≤ max (s.stream.frames s.bufferSize s.elapsed) s.stream.frameMin) → Paid s
  | extrapolated : s.stream.waitingForFirstTs = false → s.drops ≤ s.installs →
      s.stream.bufferTimeNs ≤ s.elapsed → s.position ≤ s.stream.frameMin →
      s.position ≤ s.stream.frames s.bufferSize (s.elapsed - s.stream.bufferTimeNs) → Paid s

theorem Paid.enough (paid : s.Paid) : s.drops ≤ s.installs := by
  cases paid with
  | waiting _ none _ => omega
  | spare _ _ left => omega
  | held _ _ left _ => omega
  | extrapolated _ left _ _ _ => exact left

theorem install_run (run : s.step (.install now timestamp) = some t) :
    s.now ≤ now ∧ timestamp ≤ now ∧ t = { s with
      stream := { s.stream with remoteTimestamp := timestamp, waitingForFirstTs := false }
      now
      installs := s.installs + 1 } := by
  obtain ⟨⟨later, past⟩, run⟩ := Option.ite_none_right_eq_some.mp run
  refine ⟨later, past, ?_⟩
  cases waiting : s.stream.waitingForFirstTs with
  | true =>
    simp only [aaudioHandleStreamTimestamp, waiting, if_true] at run
    exact (Option.some.inj run).symm
  | false =>
    simp only [aaudioHandleStreamTimestamp, waiting, Bool.false_eq_true, if_false] at run
    rw [← Option.some.inj run, ← waiting]

theorem pointer_run (run : s.step (.pointer now) = some t) :
    s.now ≤ now ∧ s.InTime now ∧ t = { s with
      stream := (aaudioPcmPointer s.stream s.bufferSize now).2
      now
      last := some (aaudioPcmPointer s.stream s.bufferSize now).1
      drops := if (aaudioPcmPointer s.stream s.bufferSize now).1 < s.position then s.drops + 1
        else s.drops } := by
  obtain ⟨⟨later, inTime⟩, run⟩ := Option.ite_none_right_eq_some.mp run
  exact ⟨later, inTime, (Option.some.inj run).symm⟩

theorem Sized.step {a : PcmStep} (sized : s.Sized) (run : s.step a = some t) : t.Sized := by
  obtain ⟨started, size, time, product, floor, inside⟩ := sized
  cases a with
  | install now timestamp =>
    obtain ⟨-, -, rfl⟩ := install_run run
    exact ⟨started, size, time, product, floor, inside⟩
  | pointer now =>
    obtain ⟨-, -, rfl⟩ := pointer_run run
    obtain ⟨within, frameMin, low, high, same⟩ := pointer_bounds time size product floor now
    rw [same]
    exact ⟨started, size, time, product, ⟨low, high⟩, within⟩

/-- A call in the first pass after its timestamp. -/
theorem Sized.first_pass (sized : s.Sized) (running : s.stream.waitingForFirstTs = false)
    (run : s.step (.pointer now) = some t) (passed : s.stream.remoteTimestamp ≤ s.now)
    (within : now - s.stream.remoteTimestamp < s.stream.bufferTimeNs) :
    (t.position : Int) =
      max (s.stream.frames s.bufferSize (now - s.stream.remoteTimestamp)) s.stream.frameMin ∧
    (t.position : Int) ≤ max (t.stream.frames t.bufferSize t.elapsed) t.stream.frameMin ∧
    t.stream.waitingForFirstTs = false ∧ t.stream.remoteTimestamp ≤ t.now := by
  obtain ⟨later, -, same⟩ := pointer_run run
  rw [pointer_first_pass sized.started running sized.time sized.size sized.product sized.floor
    (by omega) within] at same
  obtain ⟨low, high⟩ := frames_bounds sized.time sized.size (now - s.stream.remoteTimestamp)
  have floor := sized.floor
  have position : (t.position : Int) =
      max (s.stream.frames s.bufferSize (now - s.stream.remoteTimestamp)) s.stream.frameMin := by
    rw [same]
    exact Int.toNat_of_nonneg (by omega)
  have past : s.stream.remoteTimestamp ≤ now := by omega
  refine ⟨position, ?_, by rw [same]; exact running, by rw [same]; exact past⟩
  rw [position]
  have frames : t.stream.frames t.bufferSize t.elapsed =
      s.stream.frames s.bufferSize (now - s.stream.remoteTimestamp) := by
    rw [same]
    rfl
  have held : t.stream.frameMin =
      if s.stream.frames s.bufferSize (now - s.stream.remoteTimestamp) < s.stream.frameMin then
        s.stream.frameMin else 0 := by
    rw [same]
  rw [frames, held]
  split
  · omega
  · omega

/-- A call in the second pass. -/
theorem Sized.second_pass (sized : s.Sized) (running : s.stream.waitingForFirstTs = false)
    (run : s.step (.pointer now) = some t) (cells : 1 < s.bufferSize)
    (beyond : s.stream.bufferTimeNs ≤ now - s.stream.remoteTimestamp) :
    (t.position : Int) = s.stream.frames s.bufferSize
      (now - s.stream.remoteTimestamp - s.stream.bufferTimeNs) ∧
    t.position = t.stream.frameMin ∧
    (t.position : Int) = t.stream.frames t.bufferSize (t.elapsed - t.stream.bufferTimeNs) ∧
    t.stream.waitingForFirstTs = false ∧ t.stream.bufferTimeNs ≤ t.elapsed := by
  obtain ⟨-, inTime, same⟩ := pointer_run run
  have soon := inTime running
  rw [pointer_second_pass sized.started running sized.time cells sized.product beyond (by omega)]
    at same
  obtain ⟨low, -⟩ := frames_bounds sized.time sized.size
    (now - s.stream.remoteTimestamp - s.stream.bufferTimeNs)
  have position : (t.position : Int) = s.stream.frames s.bufferSize
      (now - s.stream.remoteTimestamp - s.stream.bufferTimeNs) := by
    rw [same]
    exact Int.toNat_of_nonneg low
  refine ⟨position, ?_, ?_, ?_, ?_⟩
  · rw [position, same]
  · rw [position, same]
    rfl
  · rw [same]
    exact running
  · rw [same]
    exact beyond

/-- A position counts as a drop when it is smaller than the one before. -/
theorem pointer_counts (run : s.step (.pointer now) = some t) :
    t.installs = s.installs ∧ t.drops = if t.position < s.position then s.drops + 1 else s.drops := by
  obtain ⟨-, -, rfl⟩ := pointer_run run
  exact ⟨rfl, rfl⟩

theorem Paid.install (paid : s.Paid) (sized : s.Sized) (run : s.step (.install now timestamp) = some t) :
    t.Paid := by
  obtain ⟨later, past, rfl⟩ := install_run run
  cases paid with
  | waiting _ none start =>
    have count : s.drops + 1 ≤ s.installs + 1 := by omega
    refine .held rfl past count fun _ => ?_
    have floor := sized.floor.1
    have position : (s.position : Int) ≤ s.stream.frameMin := by omega
    exact Int.le_trans position (Int.le_max_right ..)
  | spare _ _ left =>
    have count : s.drops + 2 ≤ s.installs + 1 := by omega
    exact .spare rfl past count
  | held _ _ left _ =>
    have count : s.drops + 2 ≤ s.installs + 1 := by omega
    exact .spare rfl past count
  | extrapolated _ left _ floor _ =>
    have count : s.drops + 1 ≤ s.installs + 1 := by omega
    refine .held rfl past count fun _ => ?_
    exact Int.le_trans floor (Int.le_max_right ..)

theorem Paid.pointer (paid : s.Paid) (sized : s.Sized) (cells : 1 < s.bufferSize)
    (run : s.step (.pointer now) = some t) : t.Paid := by
  obtain ⟨installs, drops⟩ := pointer_counts run
  have later := (pointer_run run).1
  cases running : s.stream.waitingForFirstTs with
  | true =>
    have waits : aaudioPcmPointer s.stream s.bufferSize now = (0, s.stream) := by
      simp [aaudioPcmPointer, running]
    obtain ⟨-, -, same⟩ := pointer_run run
    have start : t.position = 0 := by rw [same, waits]; rfl
    have still : t.stream.waitingForFirstTs := by rw [same, waits]; exact running
    cases paid with
    | waiting _ none before =>
      refine .waiting still ?_ start
      rw [drops, if_neg (by omega), none]
    | spare runs _ _ => simp [running] at runs
    | held runs _ _ _ => simp [running] at runs
    | extrapolated runs _ _ _ _ => simp [running] at runs
  | false =>
    have passed : s.stream.remoteTimestamp ≤ s.now := by
      cases paid with
      | waiting waits _ _ => simp [running] at waits
      | spare _ past _ => exact past
      | held _ past _ _ => exact past
      | extrapolated _ _ beyond _ _ =>
        have time := sized.time
        unfold elapsed at beyond
        omega
    by_cases within : now - s.stream.remoteTimestamp < s.stream.bufferTimeNs
    · obtain ⟨position, next, runs, past⟩ := sized.first_pass running run passed within
      refine .held runs past ?_ (fun _ => next)
      cases paid with
      | waiting waits _ _ => simp [running] at waits
      | spare _ _ left =>
        split at drops <;> omega
      | held _ _ left floor =>
        -- the floor keeps the position from falling, so no timestamp is spent
        have before : s.elapsed < s.stream.bufferTimeNs := by
          unfold elapsed
          omega
        have grows : s.stream.frames s.bufferSize s.elapsed ≤
            s.stream.frames s.bufferSize (now - s.stream.remoteTimestamp) :=
          interpolate_mono sized.time (by omega) (by unfold elapsed; omega)
            (by unfold elapsed; omega) within
        have held := floor before
        have rises : ¬t.position < s.position := by omega
        rw [if_neg rises] at drops
        omega
      | extrapolated _ _ beyond _ _ =>
        unfold elapsed at beyond
        omega
    · have beyond : s.stream.bufferTimeNs ≤ now - s.stream.remoteTimestamp := by omega
      obtain ⟨position, floor, frames, runs, second⟩ := sized.second_pass running run cells beyond
      refine .extrapolated runs ?_ second (by omega) (by omega)
      cases paid with
      | waiting waits _ _ => simp [running] at waits
      | spare _ _ left =>
        split at drops <;> omega
      | held _ _ left _ =>
        split at drops <;> omega
      | extrapolated _ left first _ behind =>
        have soon := (pointer_run run).2.1 running
        have grows : s.stream.frames s.bufferSize (s.elapsed - s.stream.bufferTimeNs) ≤
            s.stream.frames s.bufferSize
              (now - s.stream.remoteTimestamp - s.stream.bufferTimeNs) :=
          interpolate_mono sized.time (by omega) (by omega) (by unfold elapsed; omega) (by omega)
        have rises : ¬t.position < s.position := by omega
        rw [if_neg rises] at drops
        omega

theorem starts_sized (begins : s.Starts) : s.Sized := by
  obtain ⟨⟨stream, same⟩, size, time, product, none, -, -⟩ := begins
  have floor : s.stream.frameMin = 0 := by rw [same]; rfl
  refine ⟨by rw [same]; rfl, size, time, product, by omega, ?_⟩
  rw [position, none]
  exact size

theorem starts_paid (begins : s.Starts) : s.Paid := by
  obtain ⟨⟨stream, same⟩, -, -, -, none, drops, -⟩ := begins
  refine .waiting (by rw [same]; rfl) drops ?_
  rw [position, none]
  rfl

/-- The drops are paid for, or the buffer is one frame long and has none. -/
def Settled (s : PcmRun) : Prop :=
  if s.bufferSize = 1 then s.drops = 0 else s.Paid

theorem Settled.step {a : PcmStep} (settled : s.Settled) (sized : s.Sized)
    (run : s.step a = some t) : t.Settled := by
  have size := sized.size
  have same : t.bufferSize = s.bufferSize := by
    cases a with
    | install now timestamp =>
      obtain ⟨-, -, rfl⟩ := install_run run
      rfl
    | pointer now =>
      obtain ⟨-, -, rfl⟩ := pointer_run run
      rfl
  unfold Settled at settled ⊢
  rw [same]
  split at settled
  next single =>
    rw [if_pos single]
    cases a with
    | install now timestamp =>
      obtain ⟨-, -, rfl⟩ := install_run run
      exact settled
    | pointer now =>
      have before := sized.inside
      rw [(pointer_counts run).2, if_neg (by omega)]
      exact settled
  next several =>
    rw [if_neg several]
    cases a with
    | install now timestamp => exact settled.install sized run
    | pointer now => exact settled.pointer sized (by omega) run

theorem settled_of_reachable (reach : machine.Reachable s) : s.Sized ∧ s.Settled := by
  refine reach.invariant (I := fun s => s.Sized ∧ s.Settled) ?_ ?_
  · intro s begins
    refine ⟨starts_sized begins, ?_⟩
    unfold Settled
    split
    · exact begins.2.2.2.2.2.1
    · exact starts_paid begins
  · rintro s a t ⟨sized, settled⟩ run
    exact ⟨sized.step run, settled.step sized run⟩

/-- After an extrapolated position and one more timestamp, the position does not fall before the
buffer time after that timestamp is over. -/
theorem Sized.late_timestamp (sized : s.Sized) {t₁ t₂ : Int} {s₁ s₂ s₃ : PcmRun}
    (running : s.stream.waitingForFirstTs = false) (first : s.step (.pointer t₁) = some s₁)
    (beyond : s.stream.bufferTimeNs ≤ t₁ - s.stream.remoteTimestamp)
    (install : s₁.step (.install now timestamp) = some s₂)
    (second : s₂.step (.pointer t₂) = some s₃) (within : t₂ - timestamp < s.stream.bufferTimeNs) :
    s₁.position ≤ s₃.position := by
  have sized₁ := sized.step first
  have sized₂ := sized₁.step install
  have sized₃ := sized₂.step second
  have size : s₁.bufferSize = s.bufferSize := by
    obtain ⟨-, -, rfl⟩ := pointer_run first
    rfl
  have time : s₁.stream.bufferTimeNs = s.stream.bufferTimeNs := by
    obtain ⟨-, -, same⟩ := pointer_run first
    obtain ⟨-, frameMin, -, -, kept⟩ :=
      pointer_bounds sized.time sized.size sized.product sized.floor t₁
    rw [same, kept]
  obtain ⟨-, past, same⟩ := install_run install
  by_cases cells : 1 < s.bufferSize
  · obtain ⟨-, floor, -⟩ := sized.second_pass running first cells beyond
    have ready : s₂.stream.waitingForFirstTs = false := by rw [same]
    have passed : s₂.stream.remoteTimestamp ≤ s₂.now := by rw [same]; exact past
    have soon : t₂ - s₂.stream.remoteTimestamp < s₂.stream.bufferTimeNs := by
      rw [same, time]
      exact within
    have kept : s₂.stream.frameMin = s₁.stream.frameMin := by rw [same]
    have position := (sized₂.first_pass ready second passed soon).1
    omega
  · have inside := sized₁.inside
    have cell := sized.size
    omega

/-- Over every run after a start: the positions are inside the buffer, and a position smaller than
the one before it was returned at most as often as a timestamp was installed. After an extrapolated
position a later timestamp does not take the position back in its first buffer time. -/
theorem pcm_wraps_paid (reach : machine.Reachable s) :
    (∀ position, s.last = some position → position < s.bufferSize) ∧
    s.drops ≤ s.installs ∧
    ∀ t₁ s₁ now timestamp s₂ t₂ s₃, s.stream.waitingForFirstTs = false →
      s.step (.pointer t₁) = some s₁ → s.stream.bufferTimeNs ≤ t₁ - s.stream.remoteTimestamp →
      s₁.step (.install now timestamp) = some s₂ → s₂.step (.pointer t₂) = some s₃ →
      t₂ - timestamp < s.stream.bufferTimeNs → s₁.position ≤ s₃.position := by
  obtain ⟨sized, settled⟩ := settled_of_reachable reach
  refine ⟨?_, ?_, ?_⟩
  · intro p last
    have inside := sized.inside
    rw [position, last] at inside
    exact inside
  · unfold Settled at settled
    split at settled
    · omega
    · exact settled.enough
  · intro t₁ s₁ now timestamp s₂ t₂ s₃ running first beyond install second within
    exact sized.late_timestamp running first beyond install second within

/-- A buffer of 100 frames that lasts 1000 ns. -/
def sample : PcmRun where
  stream := aaudioPcmTriggerStart ⟨0, false, 1000, 0, 0, false, 0⟩
  bufferSize := 100
  now := 0
  last := none
  drops := 0
  installs := 0

/-- The position wraps before the second timestamp, which comes late, and does not fall again. -/
theorem pcm_wraps_paid_late : ∃ s, machine.Reachable s ∧ s.drops = 1 ∧ s.installs = 2 ∧
    s.last = some 5 ∧ s.drops ≤ s.installs := by
  have starts : machine.Reachable sample := by
    refine .start ⟨⟨_, rfl⟩, ?_, ?_, ?_, rfl, rfl, rfl⟩ <;> decide
  obtain ⟨s, ran, drops, installs, last⟩ : ∃ s, machine.run sample
      [.pointer 5, .install 10 10, .pointer 990, .pointer 1060, .install 1070 1040, .pointer 1080] =
      some s ∧ s.drops = 1 ∧ s.installs = 2 ∧ s.last = some 5 :=
    ⟨_, rfl, rfl, rfl, rfl⟩
  have reach := starts.of_run _ ran
  exact ⟨s, reach, drops, installs, last, (pcm_wraps_paid reach).2.1⟩

end PcmRun

end AppleBce

import AppleBce.Basis.Interpolate
import Mathlib.Algebra.Group.Int.Defs
import Mathlib.Algebra.Group.Nat.Defs

namespace AppleBce

open Basis

/-- The fields of `struct aaudio_stream` that the PCM callbacks use. -/
structure AaudioStream where
  latency : Nat
  waitingForFirstTs : Bool
  bufferTimeNs : Int
  remoteTimestamp : Int
  frameMin : Int
  started : Bool
  periodTimeNs : Nat
  deriving DecidableEq, Repr

/-- The fields of `struct snd_pcm_runtime` that they use. -/
structure SndPcmRuntime where
  bufferSize : Nat
  periodSize : Nat
  rate : Nat
  delay : Nat
  deriving DecidableEq, Repr

/-- The value of a signed 64-bit variable, which `ktime_t` and `snd_pcm_sframes_t` are. -/
def s64 (x : Int) : Int :=
  x.bmod (2 ^ 64)

def nsecPerSec : Nat := 1000000000

def aaudioPcmPrepare (stream : AaudioStream) (runtime : SndPcmRuntime) :
    AaudioStream × SndPcmRuntime :=
  ({ stream with
      bufferTimeNs := s64 (nsecPerSec * runtime.bufferSize % 2 ^ 64 / runtime.rate)
      periodTimeNs := runtime.periodSize * nsecPerSec % 2 ^ 64 / runtime.rate },
    { runtime with delay := stream.latency })

def aaudioPcmStart (stream : AaudioStream) : AaudioStream :=
  { stream with waitingForFirstTs := true, frameMin := 0 }

/-- `aaudio_pcm_trigger` with `SNDRV_PCM_TRIGGER_START`. -/
def aaudioPcmTriggerStart (stream : AaudioStream) : AaudioStream :=
  { aaudioPcmStart stream with started := true }

/-- `aaudio_pcm_trigger` with `SNDRV_PCM_TRIGGER_STOP`. -/
def aaudioPcmTriggerStop (stream : AaudioStream) : AaudioStream :=
  { stream with started := false }

/-- `aaudio_handle_stream_timestamp` on an open stream, with whether the period has elapsed. -/
def aaudioHandleStreamTimestamp (stream : AaudioStream) (timestamp : Int) : AaudioStream × Bool :=
  let installed := { stream with remoteTimestamp := timestamp }
  if stream.waitingForFirstTs then ({ installed with waitingForFirstTs := false }, false)
  else (installed, true)

/-- `aaudio_pcm_pointer` at the boot time `now`. -/
def aaudioPcmPointer (stream : AaudioStream) (bufferSize : Nat) (now : Int) : Nat × AaudioStream :=
  if !stream.started || stream.waitingForFirstTs then (0, stream)
  else
    let timeFromStart := s64 (now - stream.remoteTimestamp)
    if timeFromStart < 0 then (0, stream)
    else
      let bufferTimeLength := stream.bufferTimeNs
      if bufferTimeLength ≤ 0 then (0, stream)
      else
        let frames := (s64 (timeFromStart.tmod bufferTimeLength * bufferSize)).tdiv bufferTimeLength
        let result :=
          if timeFromStart < bufferTimeLength then
            if frames < stream.frameMin then (stream.frameMin, stream.frameMin) else (frames, 0)
          else if timeFromStart < s64 (2 * bufferTimeLength) then (frames, frames)
          else (frames, 0)  -- heavy desync
        ((result.1 % 2 ^ 64).toNat, { stream with frameMin := result.2 })

theorem s64_of_fits {x : Int} (low : 0 ≤ x) (high : x < 2 ^ 63) : s64 x = x := by
  apply Int.bmod_eq_of_le
  · omega
  · omega

section Pointer

variable {stream : AaudioStream} {bufferSize : Nat} {now : Int}

/-- The position a stream interpolates at the given time after its timestamp. -/
def AaudioStream.frames (stream : AaudioStream) (bufferSize : Nat) (elapsed : Int) : Int :=
  interpolate stream.bufferTimeNs bufferSize elapsed

/-- The expression of `aaudio_pcm_pointer` does not overflow. -/
theorem frames_computed (time : 0 < stream.bufferTimeNs)
    (product : stream.bufferTimeNs * bufferSize < 2 ^ 63) {elapsed : Int} (passed : 0 ≤ elapsed) :
    (s64 (elapsed.tmod stream.bufferTimeNs * bufferSize)).tdiv stream.bufferTimeNs =
      stream.frames bufferSize elapsed := by
  have rest : 0 ≤ elapsed % stream.bufferTimeNs := Int.emod_nonneg elapsed (by omega)
  have below : elapsed % stream.bufferTimeNs < stream.bufferTimeNs := Int.emod_lt_of_pos elapsed time
  have scaled : 0 ≤ elapsed % stream.bufferTimeNs * bufferSize := Int.mul_nonneg rest (by omega)
  have smaller : elapsed % stream.bufferTimeNs * bufferSize ≤ stream.bufferTimeNs * bufferSize :=
    Int.mul_le_mul_of_nonneg_right (by omega) (by omega)
  rw [Int.tmod_eq_emod_of_nonneg passed, s64_of_fits scaled (by omega),
    Int.tdiv_eq_ediv_of_nonneg scaled]
  rfl

theorem size_fits (time : 0 < stream.bufferTimeNs)
    (product : stream.bufferTimeNs * bufferSize < 2 ^ 63) : (bufferSize : Int) < 2 ^ 63 := by
  have scaled : 1 * (bufferSize : Int) ≤ stream.bufferTimeNs * bufferSize :=
    Int.mul_le_mul_of_nonneg_right (by omega) (by omega)
  omega

theorem frames_bounds (time : 0 < stream.bufferTimeNs) (size : 0 < bufferSize) (elapsed : Int) :
    0 ≤ stream.frames bufferSize elapsed ∧ stream.frames bufferSize elapsed < bufferSize :=
  ⟨interpolate_nonneg time (by omega) elapsed, interpolate_lt time (by omega) elapsed⟩

/-- A position that fits the buffer is returned as it is. -/
theorem returned_position {frames : Int} (low : 0 ≤ frames) (high : frames < bufferSize)
    (fits : (bufferSize : Int) < 2 ^ 63) : (frames % 2 ^ 64).toNat = frames.toNat := by
  rw [Int.emod_eq_of_lt low (by omega)]

/-- Every position is inside the buffer, and the floor stays there. -/
theorem pointer_bounds (time : 0 < stream.bufferTimeNs) (size : 0 < bufferSize)
    (product : stream.bufferTimeNs * bufferSize < 2 ^ 63)
    (floor : 0 ≤ stream.frameMin ∧ stream.frameMin < bufferSize) (now : Int) :
    (aaudioPcmPointer stream bufferSize now).1 < bufferSize ∧
    ∃ frameMin : Int, 0 ≤ frameMin ∧ frameMin < bufferSize ∧
      (aaudioPcmPointer stream bufferSize now).2 = { stream with frameMin } := by
  have fits := size_fits time product
  have inside : ∀ frames : Int, 0 ≤ frames → frames < bufferSize →
      (frames % 2 ^ 64).toNat < bufferSize := by
    intro frames low high
    rw [returned_position low high fits]
    omega
  unfold aaudioPcmPointer
  split
  · exact ⟨size, _, floor.1, floor.2, rfl⟩
  simp only
  split
  · exact ⟨size, _, floor.1, floor.2, rfl⟩
  next passed =>
    split
    · exact ⟨size, _, floor.1, floor.2, rfl⟩
    have computed := frames_computed time product (Int.not_lt.mp passed)
    obtain ⟨low, high⟩ := frames_bounds time size (s64 (now - stream.remoteTimestamp))
    rw [computed]
    split
    · split
      · exact ⟨inside _ floor.1 floor.2, _, floor.1, floor.2, rfl⟩
      · exact ⟨inside _ low high, 0, by omega, by omega, rfl⟩
    · split
      · exact ⟨inside _ low high, _, low, high, rfl⟩
      · exact ⟨inside _ low high, 0, by omega, by omega, rfl⟩

/-- Less than a buffer time after the timestamp the floor holds the position up. -/
theorem pointer_first_pass (started : stream.started) (running : stream.waitingForFirstTs = false)
    (time : 0 < stream.bufferTimeNs) (size : 0 < bufferSize)
    (product : stream.bufferTimeNs * bufferSize < 2 ^ 63)
    (floor : 0 ≤ stream.frameMin ∧ stream.frameMin < bufferSize)
    (passed : 0 ≤ now - stream.remoteTimestamp)
    (within : now - stream.remoteTimestamp < stream.bufferTimeNs) :
    let frames := stream.frames bufferSize (now - stream.remoteTimestamp)
    aaudioPcmPointer stream bufferSize now = ((max frames stream.frameMin).toNat,
      { stream with frameMin := if frames < stream.frameMin then stream.frameMin else 0 }) := by
  intro frames
  have fits := size_fits time product
  have scaled : stream.bufferTimeNs * 1 ≤ stream.bufferTimeNs * bufferSize :=
    Int.mul_le_mul_of_nonneg_left (by omega) (by omega)
  have elapsed : s64 (now - stream.remoteTimestamp) = now - stream.remoteTimestamp :=
    s64_of_fits passed (by omega)
  have computed := frames_computed time product passed
  obtain ⟨low, high⟩ := frames_bounds time size (now - stream.remoteTimestamp)
  simp only [aaudioPcmPointer, started, running, Bool.not_true, Bool.or_self, Bool.false_eq_true,
    if_false, elapsed, if_neg (Int.not_lt.mpr passed), if_neg (Int.not_le.mpr time), computed,
    if_pos within]
  by_cases under : frames < stream.frameMin
  · have held : max frames stream.frameMin = stream.frameMin := by omega
    rw [if_pos under, if_pos under, held, returned_position floor.1 floor.2 fits]
  · have free : max frames stream.frameMin = frames := by omega
    rw [if_neg under, if_neg under, free, returned_position low high fits]

/-- In the buffer time after that the position is extrapolated and becomes the floor. -/
theorem pointer_second_pass (started : stream.started) (running : stream.waitingForFirstTs = false)
    (time : 0 < stream.bufferTimeNs) (size : 1 < bufferSize)
    (product : stream.bufferTimeNs * bufferSize < 2 ^ 63)
    (passed : stream.bufferTimeNs ≤ now - stream.remoteTimestamp)
    (within : now - stream.remoteTimestamp < 2 * stream.bufferTimeNs) :
    let frames := stream.frames bufferSize (now - stream.remoteTimestamp - stream.bufferTimeNs)
    aaudioPcmPointer stream bufferSize now = (frames.toNat, { stream with frameMin := frames }) := by
  intro frames
  have fits := size_fits time product
  have scaled : stream.bufferTimeNs * 2 ≤ stream.bufferTimeNs * bufferSize :=
    Int.mul_le_mul_of_nonneg_left (by omega) (by omega)
  have elapsed : s64 (now - stream.remoteTimestamp) = now - stream.remoteTimestamp :=
    s64_of_fits (by omega) (by omega)
  have twice : s64 (2 * stream.bufferTimeNs) = 2 * stream.bufferTimeNs :=
    s64_of_fits (by omega) (by omega)
  have nonneg : ¬now - stream.remoteTimestamp < 0 := by omega
  have second : ¬now - stream.remoteTimestamp < stream.bufferTimeNs := by omega
  have computed : (s64 ((now - stream.remoteTimestamp).tmod stream.bufferTimeNs * bufferSize)).tdiv
      stream.bufferTimeNs = frames := by
    rw [frames_computed time product (by omega)]
    exact interpolate_next ..
  obtain ⟨low, high⟩ : 0 ≤ frames ∧ frames < bufferSize :=
    frames_bounds time (by omega) (now - stream.remoteTimestamp - stream.bufferTimeNs)
  simp only [aaudioPcmPointer, started, running, Bool.not_true, Bool.or_self, Bool.false_eq_true,
    if_false, elapsed, if_neg nonneg, if_neg (Int.not_le.mpr time), computed, if_neg second, twice,
    if_pos within]
  rw [returned_position low high fits]

end Pointer

end AppleBce

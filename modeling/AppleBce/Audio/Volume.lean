import AppleBce.Audio.Milli
import AppleBce.Vhci.Message

namespace AppleBce

open Basis

def aaudioCtlDbStepMilli : Int := 500

def aaudioPropLevelDb : Nat := 0x6c636476

/-- The fields of `struct aaudio_control` that the volume callbacks use. -/
structure AaudioControl where
  minMilli : Int
  maxMilli : Int
  deriving DecidableEq, Repr

/-- What `aaudio_ctl_get_u32` and `aaudio_ctl_set_u32` do with the property of the given selector
of a control, in a device with the states `δ`. -/
structure ControlProperties (δ : Type) where
  getU32 (selector : Nat) : δ → Except Errno (BitVec 32)
  setU32 (selector : Nat) (value : BitVec 32) : δ → Except Errno Unit × δ

/-- The value of a signed 32-bit variable. -/
def s32 (x : Int) : Int :=
  x.bmod (2 ^ 32)

/-- The greatest value of the control, as `aaudio_ctl_volume_info` reports it. -/
def aaudioCtlVolumeInfo (c : AaudioControl) : Int :=
  (s32 (c.maxMilli - c.minMilli)).tdiv aaudioCtlDbStepMilli

/-- What `aaudio_init_controls` makes of the range of a volume control, two doubles. -/
def AaudioControl.ofRange (range : BitVec 64 × BitVec 64) : Option AaudioControl :=
  (aaudioF64Milli range.1).bind fun least =>
    (aaudioF64Milli range.2).map fun most => { minMilli := s32 least, maxMilli := s32 most }

section Callbacks

variable {δ : Type} (device : ControlProperties δ) (c : AaudioControl)

def aaudioCtlVolumeGet (state : δ) : Option (Except Errno Int) :=
  match device.getU32 aaudioPropLevelDb state with
  | .error status => some (.error status)
  | .ok raw =>
    (aaudioF32Milli raw).map fun m =>
      let milli := min (max m c.minMilli) c.maxMilli
      .ok ((s64 (milli - c.minMilli)).tdiv aaudioCtlDbStepMilli)

def aaudioCtlVolumePut (v : Int) (state : δ) : Except Errno Int × δ :=
  if v < 0 ∨ (s32 (c.maxMilli - c.minMilli)).tdiv aaudioCtlDbStepMilli < v then (.error .inval, state)
  else
    let milli := s64 (c.minMilli + s64 (v * aaudioCtlDbStepMilli))
    match device.setU32 aaudioPropLevelDb (aaudioF32FromMilli milli) state with
    | (.error status, state) => (.error status, state)
    | (.ok (), state) => (.ok 1, state)

end Callbacks

theorem s32_of_fits {x : Int} (low : -2 ^ 31 ≤ x) (high : x < 2 ^ 31) : s32 x = x := by
  apply Int.bmod_eq_of_le
  · omega
  · omega

section RoundTrip

variable {δ : Type} {device : ControlProperties δ} {c : AaudioControl} {v : Int} {before state : δ}

/-- A range that is accepted for a control, of the size that real devices have. -/
structure AaudioControl.Ranged (c : AaudioControl) : Prop where
  order : c.minMilli < c.maxMilli
  low : |c.minMilli| ≤ 2 ^ 22
  high : |c.maxMilli| ≤ 2 ^ 22

theorem AaudioControl.Ranged.steps (ranged : c.Ranged) :
    (s32 (c.maxMilli - c.minMilli)).tdiv aaudioCtlDbStepMilli = (c.maxMilli - c.minMilli) / 500 := by
  obtain ⟨order, low, high⟩ := ranged
  rw [abs_le] at low high
  rw [s32_of_fits (by omega) (by omega), Int.tdiv_eq_ediv_of_nonneg (by omega)]
  rfl

/-- What is sent for a value that is accepted. -/
theorem aaudioCtlVolumePut_ok (ranged : c.Ranged)
    (accepted : aaudioCtlVolumePut device c v before = (.ok 1, state)) :
    0 ≤ v ∧ c.minMilli + 500 * v ≤ c.maxMilli ∧
    device.setU32 aaudioPropLevelDb (aaudioF32FromMilli (c.minMilli + 500 * v)) before =
      (.ok (), state) := by
  rw [aaudioCtlVolumePut, ranged.steps] at accepted
  obtain ⟨order, low, high⟩ := ranged
  rw [abs_le] at low high
  split at accepted
  · cases accepted
  next inside =>
    have product : s64 (v * aaudioCtlDbStepMilli) = v * 500 := by
      apply Int.bmod_eq_of_le <;> simp only [aaudioCtlDbStepMilli] <;> omega
    have sum : s64 (c.minMilli + v * 500) = c.minMilli + 500 * v := by
      rw [Int.mul_comm v]
      apply Int.bmod_eq_of_le <;> omega
    simp only [product, sum] at accepted
    refine ⟨by omega, by omega, ?_⟩
    split at accepted
    · cases accepted
    next next sent =>
      cases accepted
      exact sent

/-- What is shown for a level that the device holds. -/
theorem aaudioCtlVolumeGet_level (ranged : c.Ranged) {m : Int} {raw : BitVec 32}
    (level : device.getU32 aaudioPropLevelDb state = .ok raw) (decoded : aaudioF32Milli raw = some m) :
    aaudioCtlVolumeGet device c state =
      some (.ok ((min (max m c.minMilli) c.maxMilli - c.minMilli) / 500)) := by
  obtain ⟨order, low, high⟩ := ranged
  rw [abs_le] at low high
  have difference : s64 (min (max m c.minMilli) c.maxMilli - c.minMilli) =
      min (max m c.minMilli) c.maxMilli - c.minMilli := s64_of_fits (by omega) (by omega)
  rw [aaudioCtlVolumeGet, level]
  simp only [decoded, Option.map_some, difference]
  rw [Int.tdiv_eq_ediv_of_nonneg (by omega)]
  rfl

/-- A value that was accepted is shown again if and only if it is the smallest, or its gain is not
above zero, or the range starts at a multiple of an eighth of a decibel. -/
theorem volume_shown_again (ranged : c.Ranged)
    (stores : ∀ raw before state, device.setU32 aaudioPropLevelDb raw before = (.ok (), state) →
      device.getU32 aaudioPropLevelDb state = .ok raw)
    (accepted : aaudioCtlVolumePut device c v before = (.ok 1, state)) :
    aaudioCtlVolumeGet device c state = some (.ok v) ↔
      v = 0 ∨ c.minMilli + 500 * v ≤ 0 ∨ 125 ∣ c.minMilli := by
  obtain ⟨start, inside, sent⟩ := aaudioCtlVolumePut_ok ranged accepted
  have held := stores _ _ _ sent
  have bound : (c.minMilli + 500 * v).natAbs ≤ 2 ^ 22 := by
    have low := abs_le.mp ranged.low
    have high := abs_le.mp ranged.high
    omega
  have most := returned_le (c.minMilli + 500 * v).natAbs
  have least := le_returned bound
  have exact := returned_eq_iff bound
  rw [aaudioCtlVolumeGet_level ranged held (milli_returned bound), Option.some_inj, Except.ok.injEq]
  rw [Int.natCast_dvd.symm] at exact
  split
  · omega
  · omega

end RoundTrip

/-- A device that is nothing but the register of a level. -/
def levelRegister : ControlProperties (BitVec 32) where
  getU32 _ := .ok
  setU32 _ value _ := (.ok (), value)

theorem volume_shown_again_register :
    aaudioCtlVolumeGet levelRegister ⟨-63500, 12000⟩ (aaudioF32FromMilli 11500) = some (.ok 150) ↔
      (150 : Int) = 0 ∨ (-63500 : Int) + 500 * 150 ≤ 0 ∨ (125 : Int) ∣ -63500 := by
  have ranged : (⟨-63500, 12000⟩ : AaudioControl).Ranged := ⟨by decide, by decide, by decide⟩
  have accepted : aaudioCtlVolumePut levelRegister ⟨-63500, 12000⟩ 150 0#32 =
      (.ok 1, aaudioF32FromMilli 11500) := by decide
  refine volume_shown_again ranged ?_ accepted
  rintro raw before state ⟨⟩
  rfl

/-- From -63.499 dB on, the step that is one thousandth above zero is shown as the one below it. -/
theorem volume_shown_below :
    AaudioControl.ofRange (0xc04fbfdf3b645a1d#64, 0x4028000000000000#64) = some ⟨-63499, 12000⟩ ∧
    (⟨-63499, 12000⟩ : AaudioControl).Ranged ∧
    (∀ raw before state, levelRegister.setU32 aaudioPropLevelDb raw before = (.ok (), state) →
      levelRegister.getU32 aaudioPropLevelDb state = .ok raw) ∧
    aaudioCtlVolumePut levelRegister ⟨-63499, 12000⟩ 127 0#32 = (.ok 1, aaudioF32FromMilli 1) ∧
    aaudioCtlVolumeGet levelRegister ⟨-63499, 12000⟩ (aaudioF32FromMilli 1) = some (.ok 126) :=
  ⟨by decide, ⟨by decide, by decide, by decide⟩, by rintro raw before state ⟨⟩; rfl,
    by decide, by decide⟩

end AppleBce

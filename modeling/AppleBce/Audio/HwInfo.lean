import AppleBce.Audio.Milli
import AppleBce.Vhci.Message

namespace AppleBce

open Basis

/-- The fields of `struct aaudio_apple_description` that `aaudio_create_hw_info` uses. -/
structure AaudioAppleDescription where
  sampleRateDouble : BitVec 64
  formatFlags : BitVec 32
  bytesPerPacket : Nat
  framesPerPacket : Nat
  channelsPerFrame : Nat
  bitsPerChannel : Nat
  deriving DecidableEq, Repr

def AaudioAppleDescription.has (desc : AaudioAppleDescription) (flag : BitVec 32) : Bool :=
  desc.formatFlags &&& flag != 0#32

def aaudioFormatFlagFloat : BitVec 32 := 1#32

def aaudioFormatFlagBigEndian : BitVec 32 := 2#32

def aaudioFormatFlagSigned : BitVec 32 := 4#32

def aaudioFormatFlagPacked : BitVec 32 := 8#32

def aaudioFormatFlagAlignedHigh : BitVec 32 := 16#32

def aaudioFormatFlagNonInterleaved : BitVec 32 := 32#32

/-- The size of a linear sample, as the name of its format has it. -/
inductive SampleSize
  | bits16
  | bits24
  | bits24In3
  | bits32
  deriving DecidableEq, Repr

/-- The bits `SNDRV_PCM_FMTBIT_*` that `aaudio_get_alsa_fmtbit` can return. -/
inductive SndPcmFormat
  | float (bigEndian : Bool)
  | float64 (bigEndian : Bool)
  | s8
  | u8
  | linear (size : SampleSize) (signed bigEndian : Bool)
  deriving DecidableEq, Repr

section Format

variable (desc : AaudioAppleDescription)

/-- `DEFINE_BPC_OPTION`. -/
def bpcOption (size : SampleSize) : SndPcmFormat :=
  .linear size (desc.has aaudioFormatFlagSigned) (desc.has aaudioFormatFlagBigEndian)

/-- `aaudio_get_alsa_fmtbit`, with `none` for the 0 that it returns for what it does not support. -/
def aaudioGetAlsaFmtbit : Option SndPcmFormat :=
  if desc.has aaudioFormatFlagFloat then
    if desc.bitsPerChannel = 32 then some (.float (desc.has aaudioFormatFlagBigEndian))
    else if desc.bitsPerChannel = 64 then some (.float64 (desc.has aaudioFormatFlagBigEndian))
    else none
  else if desc.has aaudioFormatFlagPacked ∧ desc.bitsPerChannel = 24 then
    some (bpcOption desc .bits24In3)
  else if desc.has aaudioFormatFlagPacked ∧ desc.bitsPerChannel ∉ [8, 16, 32] then none
  else if desc.has aaudioFormatFlagAlignedHigh then
    if desc.bitsPerChannel = 24 then some (bpcOption desc .bits32) else none
  else
    match desc.bitsPerChannel with
    | 8 => some (if desc.has aaudioFormatFlagSigned then .s8 else .u8)
    | 16 => some (bpcOption desc .bits16)
    | 24 => some (bpcOption desc .bits24)
    | 32 => some (bpcOption desc .bits32)
    | _ => none

end Format

/-- What a machine makes of shifts by an amount that is not between 0 and 63, which C leaves open. -/
structure OpenShifts where
  left : BitVec 64 → Int → BitVec 64
  right : BitVec 64 → Int → BitVec 64

def OpenShifts.shl (machine : OpenShifts) (x : BitVec 64) (amount : Int) : BitVec 64 :=
  if 0 ≤ amount ∧ amount ≤ 63 then x <<< amount.toNat else machine.left x amount

def OpenShifts.shr (machine : OpenShifts) (x : BitVec 64) (amount : Int) : BitVec 64 :=
  if 0 ≤ amount ∧ amount ≤ 63 then x >>> amount.toNat else machine.right x amount

/-- `aaudio_double_to_u64`, with the amounts by which it shifts. -/
def aaudioDoubleToU64 (machine : OpenShifts) (d : BitVec 64) : BitVec 64 × List Int :=
  let exp : Int := ((d >>> 52) &&& 0x7ff#64).toNat - 1023
  let fr := d &&& 0xfffffffffffff#64
  if d >>> 63 != 0#64 ∨ exp < 0 then (0#64, [])
  else (machine.shl 1#64 exp + machine.shr fr (52 - exp), [exp, 52 - exp])

/-- The fields of `struct snd_pcm_hardware` that are derived from the description. -/
structure SndPcmHardware where
  interleaved : Bool
  formats : SndPcmFormat
  rateMin : Nat
  rateMax : Nat
  channelsMin : Nat
  channelsMax : Nat
  bufferBytesMax : Nat
  periodBytesMin : Nat
  periodBytesMax : Nat
  periodsMin : Nat
  periodsMax : Nat
  deriving DecidableEq, Repr

/-- `aaudio_create_hw_info`, with the amounts by which the rate was shifted. -/
def aaudioCreateHwInfo (machine : OpenShifts) (desc : AaudioAppleDescription) (bufSize : Nat) :
    Except Errno SndPcmHardware × List Int :=
  if desc.bytesPerPacket = 0 ∨ desc.framesPerPacket = 0 ∨ desc.channelsPerFrame = 0 then
    (.error .inval, [])
  else
    match aaudioGetAlsaFmtbit desc with
    | none => (.error .inval, [])
    | some formats =>
      let (value, shifts) := aaudioDoubleToU64 machine desc.sampleRateDouble
      let rate := value.toNat % 2 ^ 32
      if rate = 0 then (.error .inval, shifts)
      else
        (.ok {
          interleaved := !desc.has aaudioFormatFlagNonInterleaved
          formats
          rateMin := rate
          rateMax := rate
          channelsMin := desc.channelsPerFrame
          channelsMax := desc.channelsPerFrame
          bufferBytesMax := bufSize
          periodBytesMin := desc.bytesPerPacket
          periodBytesMax := bufSize / 2
          periodsMin := 2
          periodsMax := bufSize / desc.bytesPerPacket % 2 ^ 32 }, shifts)

section Rate

variable {machine : OpenShifts} {d : BitVec 64}

theorem f64_fraction : (d &&& 0xfffffffffffff#64).toNat = binary64.fraction d.toNat :=
  toNat_and_mask (k := 52) rfl

/-- A rate that is zero, or below one, or negative. -/
theorem aaudioDoubleToU64_small
    (small : binary64.negative d.toNat ∨ binary64.exponent d.toNat < 1023) :
    aaudioDoubleToU64 machine d = (0#64, []) := by
  have below : d >>> 63 != 0#64 ∨ (binary64.exponent d.toNat : Int) - 1023 < 0 := by
    rw [f64_negative, decide_eq_true_iff]
    exact small.imp_right fun less => by omega
  simp only [aaudioDoubleToU64, f64_exponent]
  rw [if_pos below]

theorem aaudioDoubleToU64_large (positive : ¬binary64.negative d.toNat)
    (large : 1023 ≤ binary64.exponent d.toNat) :
    aaudioDoubleToU64 machine d =
      (machine.shl 1#64 ((binary64.exponent d.toNat : Int) - 1023) +
          machine.shr (d &&& 0xfffffffffffff#64) (52 - ((binary64.exponent d.toNat : Int) - 1023)),
        [(binary64.exponent d.toNat : Int) - 1023, 52 - ((binary64.exponent d.toNat : Int) - 1023)]) := by
  have above : ¬(d >>> 63 != 0#64 ∨ (binary64.exponent d.toNat : Int) - 1023 < 0) := by
    rw [f64_negative, decide_eq_true_iff]
    exact not_or.mpr ⟨positive, by omega⟩
  simp only [aaudioDoubleToU64, f64_exponent]
  rw [if_neg above]

/-- Where both shifts are defined, the result is the integer part. -/
theorem aaudioDoubleToU64_value (positive : ¬binary64.negative d.toNat)
    (large : 1023 ≤ binary64.exponent d.toNat) (defined : binary64.exponent d.toNat ≤ 1075) :
    ((aaudioDoubleToU64 machine d).1.toNat : Int) = towardZero (binary64.value d.toNat) := by
  obtain ⟨e, exponent⟩ := Nat.exists_eq_add_of_le large
  obtain ⟨shift, amount⟩ := Nat.exists_eq_add_of_le (by omega : e ≤ 52)
  have placed : binary64.exponent d.toNat + shift = binary64.bias + binary64.fracBits := by
    have bias : binary64.bias + binary64.fracBits = 1075 := rfl
    omega
  have leftAmount : (binary64.exponent d.toNat : Int) - 1023 = e := by omega
  have rightAmount : (52 : Int) - e = shift := by omega
  have low : binary64.fraction d.toNat < 2 ^ 52 := BinaryFormat.fraction_lt
  have leading : (2 : Nat) ^ 52 = 2 ^ e * 2 ^ shift := two_pow_split amount
  have power : 2 ^ e ≤ 2 ^ 52 := Nat.pow_le_pow_right Nat.two_pos (by omega)
  have less : binary64.fraction d.toNat / 2 ^ shift ≤ binary64.fraction d.toNat := Nat.div_le_self ..
  have sum : binary64.significand d.toNat / 2 ^ shift =
      2 ^ e + binary64.fraction d.toNat / 2 ^ shift := by
    rw [BinaryFormat.significand, show binary64.fracBits = 52 from rfl, leading, Nat.mul_comm,
      Nat.mul_add_div (Nat.two_pow_pos shift)]
  have floor := @BinaryFormat.towardZero_value binary64 d.toNat 1
  rw [if_neg positive, BinaryFormat.floor_shiftRight 1 placed, Nat.cast_one, one_mul, Nat.mul_one,
    sum] at floor
  rw [aaudioDoubleToU64_large positive large, leftAmount, rightAmount, OpenShifts.shl, OpenShifts.shr,
    if_pos (by omega), if_pos (by omega), floor, BitVec.toNat_add, BitVec.toNat_shiftLeft,
    BitVec.toNat_ushiftRight, f64_fraction]
  have one : (1#64).toNat * 2 ^ e = 2 ^ e := Nat.one_mul _
  rw [Int.toNat_natCast, Int.toNat_natCast, Nat.shiftRight_eq_div_pow, Nat.shiftLeft_eq, one,
    Nat.mod_eq_of_lt (by omega : 2 ^ e < 2 ^ 64), Nat.mod_eq_of_lt (by omega)]

end Rate

section Sound

variable {machine : OpenShifts} {desc : AaudioAppleDescription} {bufSize : Nat}

/-- What the callbacks rely on in a description that was accepted. -/
def SoundHwInfo (machine : OpenShifts) (desc : AaudioAppleDescription) (bufSize : Nat) : Prop :=
  ∀ hw shifts, aaudioCreateHwInfo machine desc bufSize = (.ok hw, shifts) →
    (∀ amount ∈ shifts, 0 ≤ amount ∧ amount ≤ 63) ∧
    (hw.rateMin : Int) = towardZero (binary64.value desc.sampleRateDouble.toNat) ∧
    hw.rateMin ≠ 0 ∧ desc.bytesPerPacket ≠ 0 ∧ hw.periodBytesMin ≤ hw.periodBytesMax ∧
    hw.periodsMin = 2 ∧ hw.periodsMin ≤ hw.periodsMax

/-- The checks that refuse a description. -/
def RefusedDescription (machine : OpenShifts) (desc : AaudioAppleDescription) : Prop :=
  desc.bytesPerPacket = 0 ∨ desc.framesPerPacket = 0 ∨ desc.channelsPerFrame = 0 ∨
    aaudioGetAlsaFmtbit desc = none ∨
    (aaudioDoubleToU64 machine desc.sampleRateDouble).1.toNat % 2 ^ 32 = 0

theorem aaudioCreateHwInfo_refused (refused : RefusedDescription machine desc) (hw : SndPcmHardware)
    (shifts : List Int) : aaudioCreateHwInfo machine desc bufSize ≠ (.ok hw, shifts) := by
  intro succeeded
  rw [aaudioCreateHwInfo] at succeeded
  split at succeeded
  · cases succeeded
  next fields =>
    split at succeeded
    · cases succeeded
    next formats supported =>
      simp only at succeeded
      split at succeeded
      · cases succeeded
      next rate =>
        rw [RefusedDescription, supported] at refused
        simp only [reduceCtorEq, false_or] at refused
        tauto

theorem aaudioCreateHwInfo_accepted (accepted : ¬RefusedDescription machine desc) :
    ∃ hw, aaudioCreateHwInfo machine desc bufSize =
        (.ok hw, (aaudioDoubleToU64 machine desc.sampleRateDouble).2) ∧
      hw.rateMin = (aaudioDoubleToU64 machine desc.sampleRateDouble).1.toNat % 2 ^ 32 ∧
      hw.rateMin ≠ 0 ∧ desc.bytesPerPacket ≠ 0 ∧ hw.periodBytesMin = desc.bytesPerPacket ∧
      hw.periodBytesMax = bufSize / 2 ∧ hw.periodsMin = 2 ∧
      hw.periodsMax = bufSize / desc.bytesPerPacket % 2 ^ 32 := by
  simp only [RefusedDescription, not_or] at accepted
  obtain ⟨bytes, frames, channels, format, rate⟩ := accepted
  obtain ⟨formats, supported⟩ := Option.ne_none_iff_exists'.mp format
  have fields : ¬(desc.bytesPerPacket = 0 ∨ desc.framesPerPacket = 0 ∨ desc.channelsPerFrame = 0) := by
    tauto
  rw [aaudioCreateHwInfo, if_neg fields, supported]
  simp only
  rw [if_neg rate]
  exact ⟨_, rfl, rfl, rate, bytes, rfl, rfl, rfl, rfl⟩

/-- A rate that is not refused is a positive number, and shifted by its exponent. -/
theorem rate_of_accepted (accepted : ¬RefusedDescription machine desc) :
    ¬binary64.negative desc.sampleRateDouble.toNat ∧
      1023 ≤ binary64.exponent desc.sampleRateDouble.toNat := by
  have rate : (aaudioDoubleToU64 machine desc.sampleRateDouble).1.toNat % 2 ^ 32 ≠ 0 := by
    intro zero
    exact accepted (Or.inr (Or.inr (Or.inr (Or.inr zero))))
  by_contra other
  rw [not_and_or, not_not, Nat.not_le] at other
  rw [aaudioDoubleToU64_small other] at rate
  exact rate rfl

/-- An accepted description is sound if and only if its rate is below 2^32, two packets fit into the
buffer, and the number of packets in the buffer is at least two in 32 bits as well. -/
theorem hwInfo_sound_iff (machine : OpenShifts) (desc : AaudioAppleDescription) (bufSize : Nat) :
    SoundHwInfo machine desc bufSize ↔ RefusedDescription machine desc ∨
      (binary64.magnitude desc.sampleRateDouble.toNat < 2 ^ 32 ∧ 2 * desc.bytesPerPacket ≤ bufSize ∧
        2 ≤ bufSize / desc.bytesPerPacket % 2 ^ 32) := by
  by_cases refused : RefusedDescription machine desc
  · refine iff_of_true ?_ (Or.inl refused)
    intro hw shifts succeeded
    exact absurd succeeded (aaudioCreateHwInfo_refused refused hw shifts)
  obtain ⟨positive, large⟩ := rate_of_accepted refused
  obtain ⟨hw, created, rate, nonzero, bytes, periodMin, periodMax, periodsMin, periodsMax⟩ :=
    @aaudioCreateHwInfo_accepted machine desc bufSize refused
  have nonneg : 0 ≤ binary64.magnitude desc.sampleRateDouble.toNat := BinaryFormat.magnitude_nonneg
  have truncated : towardZero (binary64.value desc.sampleRateDouble.toNat) =
      ⌊binary64.magnitude desc.sampleRateDouble.toNat⌋ := by
    rw [BinaryFormat.value, if_neg positive, towardZero_of_nonneg nonneg]
  have shifts := congrArg Prod.snd (@aaudioDoubleToU64_large machine _ positive large)
  constructor
  · intro sound
    obtain ⟨defined, integer, _, _, packets, _, periods⟩ := sound hw _ created
    rw [shifts] at defined
    have inside := (defined _ (List.mem_cons_of_mem _ (List.mem_singleton_self _))).1
    have value := @aaudioDoubleToU64_value machine _ positive large (by omega)
    refine Or.inr ⟨?_, by omega, by omega⟩
    rw [truncated] at integer value
    have below : ⌊binary64.magnitude desc.sampleRateDouble.toNat⌋ < 2 ^ 32 := by omega
    rw [Int.floor_lt] at below
    exact_mod_cast below
  · rintro (impossible | ⟨small, packets, periods⟩) hw' shifts' created'
    · exact absurd impossible refused
    rw [created] at created'
    cases created'
    have exponent : binary64.exponent desc.sampleRateDouble.toNat < 1055 :=
      BinaryFormat.magnitude_lt_iff.mp small
    have value := @aaudioDoubleToU64_value machine _ positive large (by omega)
    have below : ⌊binary64.magnitude desc.sampleRateDouble.toNat⌋ < 2 ^ 32 := by
      rw [Int.floor_lt]
      exact_mod_cast small
    rw [truncated] at value
    refine ⟨?_, ?_, nonzero, bytes, by omega, periodsMin, by omega⟩
    · rw [shifts]
      intro amount member
      simp only [List.mem_cons, List.not_mem_nil, or_false] at member
      omega
    · rw [truncated]
      omega

end Sound

/-- A machine that takes the amount of a shift modulo 64. -/
def maskingShifts : OpenShifts where
  left x amount := x <<< (amount % 64).toNat
  right x amount := x >>> (amount % 64).toNat

/-- Two channels of 32-bit samples at a rate of 2^64. -/
def hugeRate : AaudioAppleDescription where
  sampleRateDouble := 0x43f0000000000000#64
  formatFlags := 1#32
  bytesPerPacket := 8
  framesPerPacket := 1
  channelsPerFrame := 2
  bitsPerChannel := 32

/-- The rate is accepted with a shift by 64 and one by -12, and comes out as 1. -/
theorem hugeRate_unsound :
    (∃ hw, aaudioCreateHwInfo maskingShifts hugeRate 133120 = (.ok hw, [64, -12]) ∧ hw.rateMin = 1) ∧
    ¬SoundHwInfo maskingShifts hugeRate 133120 := by
  have created : ∃ hw, aaudioCreateHwInfo maskingShifts hugeRate 133120 = (.ok hw, [64, -12]) ∧
      hw.rateMin = 1 := ⟨_, rfl, rfl⟩
  refine ⟨created, fun sound => ?_⟩
  obtain ⟨hw, succeeded, _⟩ := created
  have defined := (sound hw _ succeeded).1
  exact absurd (defined 64 (List.mem_cons_self ..)).2 (by decide)

end AppleBce

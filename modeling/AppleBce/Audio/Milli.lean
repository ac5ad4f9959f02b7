import AppleBce.Audio.Pcm
import AppleBce.Basis.BinaryFormat
import AppleBce.Basis.BitFields

namespace AppleBce

open Basis

/-- A signed operation of 64 bits, with `none` where it overflows. -/
def checkedS64 (x : Int) : Option Int :=
  if -2 ^ 63 ≤ x ∧ x < 2 ^ 63 then some x else none

/-- An unsigned operation of 64 bits, with `none` where it overflows. -/
def checkedU64 (x : Nat) : Option Nat :=
  if x < 2 ^ 64 then some x else none

theorem checkedS64_of_lt {x : Int} (low : -2 ^ 63 ≤ x) (high : x < 2 ^ 63) : checkedS64 x = some x :=
  if_pos ⟨low, high⟩

theorem checkedS64_natCast {n : Nat} (fits : n < 2 ^ 63) : checkedS64 n = some (n : Int) :=
  checkedS64_of_lt (by omega) (by omega)

theorem checkedU64_of_lt {x : Nat} (high : x < 2 ^ 64) : checkedU64 x = some x :=
  if_pos high

/-- The last step of the decoders, `sign ? -m : m`. -/
def applySign (sign : Bool) (m : Int) : Option Int :=
  if sign then checkedS64 (-m) else some m

def aaudioF32Milli (bits : BitVec 32) : Option Int :=
  let exp : Int := ((bits >>> 23) &&& 0xff#32).toNat
  (checkedS64 (((bits &&& 0x7fffff#32) ||| 0x800000#32).toNat * 1000)).bind fun m =>
    if exp = 0 then some 0
    else
      let shift := 23 - (exp - 127)
      let sign := bits &&& 0x80000000#32 != 0#32
      if 0 ≤ shift then
        if 62 < shift then some 0 else applySign sign (m >>> shift.toNat)
      else if shift < -29 then some 0
      else (checkedS64 (m * 2 ^ (-shift).toNat)).bind (applySign sign)

def aaudioF64Milli (bits : BitVec 64) : Option Int :=
  let exp : Int := ((bits >>> 52) &&& 0x7ff#64).toNat
  let frac := ((bits &&& 0xfffffffffffff#64) ||| 0x10000000000000#64).toNat
  if exp = 0 then some 0
  else
    let shift := 52 - (exp - 1023)
    if shift < 0 ∨ 62 < shift then some 0
    else
      (checkedU64 (frac * 1000)).bind fun product =>
        (checkedS64 ((product >>> shift.toNat : Nat) : Int)).bind (applySign (bits >>> 63 != 0#64))

def aaudioF32FromMilli (milli : Int) : BitVec 32 :=
  if milli = 0 then 0#32
  else
    let sign : BitVec 32 := if milli < 0 then 0x80000000#32 else 0#32
    let q := (milli.natAbs <<< 23 % 2 ^ 64) / 1000
    if q = 0 then 0#32
    else
      let e := q.log2
      let q := if 23 < e then q >>> (e - 23) else q <<< (23 - e)
      sign ||| (BitVec.ofNat 32 (e + 127 - 23) <<< 23) ||| (BitVec.ofNat 32 q &&& 0x7fffff#32)

section Fields

variable (bits : BitVec 32) (wide : BitVec 64)

theorem f32_exponent : ((bits >>> 23) &&& 0xff#32).toNat = binary32.exponent bits.toNat :=
  toNat_shift_and_mask (k := 8) rfl 23

theorem f32_significand :
    ((bits &&& 0x7fffff#32) ||| 0x800000#32).toNat = binary32.significand bits.toNat :=
  toNat_mask_or_bit (k := 23) rfl rfl

theorem f32_negative :
    (bits &&& 0x80000000#32 != 0#32) = decide (binary32.negative bits.toNat) := by
  have mask : 0x80000000#32 = BitVec.twoPow 32 31 := rfl
  have bit : bits.getLsbD 31 = decide (binary32.negative bits.toNat) :=
    Nat.testBit_eq_decide_div_mod_eq
  rw [mask, BitVec.and_twoPow, bit]
  cases decide (binary32.negative bits.toNat) <;> rfl

theorem f64_exponent : ((wide >>> 52) &&& 0x7ff#64).toNat = binary64.exponent wide.toNat :=
  toNat_shift_and_mask (k := 11) rfl 52

theorem f64_significand : ((wide &&& 0xfffffffffffff#64) ||| 0x10000000000000#64).toNat =
    binary64.significand wide.toNat :=
  toNat_mask_or_bit (k := 52) rfl rfl

theorem f64_negative : (wide >>> 63 != 0#64) = decide (binary64.negative wide.toNat) := by
  have below := wide.isLt
  have shown : binary64.negative wide.toNat ↔ wide.toNat / 2 ^ 63 % 2 = 1 := Iff.rfl
  rw [Bool.eq_iff_iff, bne_iff_ne, decide_eq_true_iff, shown, ne_eq, ← BitVec.toNat_inj,
    BitVec.toNat_ushiftRight, Nat.shiftRight_eq_div_pow, BitVec.toNat_ofNat]
  omega

end Fields

section Decode

variable {F : BinaryFormat} {pattern : Nat}

/-- The sign of a format's number is applied to the integer part of its magnitude. -/
theorem applySign_eq {m : Nat} (fits : m < 2 ^ 63)
    (floor : ⌊(1000 : ℕ) * F.magnitude pattern⌋ = m) :
    applySign (decide (F.negative pattern)) m = some (towardZero ((1000 : ℕ) * F.value pattern)) := by
  rw [BinaryFormat.towardZero_value, floor, applySign]
  simp only [decide_eq_true_eq]
  split
  · rw [checkedS64_of_lt (by omega) (by omega)]
  · rfl

/-- A shift that leaves nothing of the magnitude leaves 0. -/
theorem vanished {shift : Nat} (amount : F.exponent pattern + shift = F.bias + F.fracBits)
    (fits : F.significand pattern * 1000 < 2 ^ 63) (far : 62 < shift) :
    towardZero ((1000 : ℕ) * F.value pattern) = 0 := by
  have power : 2 ^ 63 ≤ 2 ^ shift := Nat.pow_le_pow_right Nat.two_pos far
  rw [BinaryFormat.towardZero_value, BinaryFormat.floor_shiftRight 1000 amount,
    Nat.div_eq_of_lt (Nat.lt_of_lt_of_le fits power)]
  split <;> rfl

/-- A shift to the right truncates the magnitude. -/
theorem applySign_shiftRight {shift : Nat}
    (amount : F.exponent pattern + shift = F.bias + F.fracBits)
    (fits : F.significand pattern * 1000 < 2 ^ 63) :
    applySign (decide (F.negative pattern)) ((F.significand pattern * 1000) >>> shift : Nat) =
      some (towardZero ((1000 : ℕ) * F.value pattern)) := by
  have floor := BinaryFormat.floor_shiftRight 1000 amount
  rw [← Nat.shiftRight_eq_div_pow] at floor
  exact applySign_eq (Nat.lt_of_le_of_lt (Nat.shiftRight_le ..) fits) floor

theorem aaudioF32Milli_eq {bits : BitVec 32} (normal : 0 < binary32.exponent bits.toNat)
    (small : binary32.exponent bits.toNat < 180) :
    aaudioF32Milli bits = some (towardZero ((1000 : ℕ) * binary32.value bits.toNat)) := by
  have width : binary32.significand bits.toNat < 2 ^ 24 := BinaryFormat.significand_lt
  have bias : binary32.bias + binary32.fracBits = 150 := rfl
  have scaled : checkedS64 ((binary32.significand bits.toNat : Int) * 1000) =
      some ((binary32.significand bits.toNat * 1000 : Nat) : Int) :=
    checkedS64_natCast (n := binary32.significand bits.toNat * 1000) (by omega)
  have present : ¬(binary32.exponent bits.toNat : Int) = 0 := by omega
  rw [aaudioF32Milli]
  simp only [f32_exponent, f32_significand, f32_negative, scaled, Option.bind_some, if_neg present]
  by_cases right : binary32.exponent bits.toNat ≤ 150
  · obtain ⟨shift, amount⟩ := Nat.exists_eq_add_of_le right
    have placed : binary32.exponent bits.toNat + shift = binary32.bias + binary32.fracBits := by omega
    have asInt : 23 - ((binary32.exponent bits.toNat : Int) - 127) = shift := by omega
    rw [asInt, if_pos (Int.natCast_nonneg shift)]
    by_cases far : 62 < shift
    · rw [if_pos (by omega), vanished placed (by omega) far]
    · rw [if_neg (by omega), Int.toNat_natCast]
      exact applySign_shiftRight placed (by omega)
  · obtain ⟨shift, amount⟩ := Nat.exists_eq_add_of_le (Nat.le_of_not_le right)
    have placed : binary32.exponent bits.toNat = binary32.bias + binary32.fracBits + shift := by omega
    have asInt : 23 - ((binary32.exponent bits.toNat : Int) - 127) = -(shift : Int) := by omega
    have floor := BinaryFormat.floor_shiftLeft 1000 placed
    have power : 2 ^ shift ≤ 2 ^ 29 := Nat.pow_le_pow_right Nat.two_pos (by omega)
    have fits : binary32.significand bits.toNat * 1000 * 2 ^ shift ≤ 16777215 * 1000 * 2 ^ 29 :=
      Nat.mul_le_mul (by omega) power
    have shifted : checkedS64 (((binary32.significand bits.toNat * 1000 : Nat) : Int) * 2 ^ shift) =
        some ((binary32.significand bits.toNat * 1000 * 2 ^ shift : Nat) : Int) := by
      have cast (n : Nat) : (n : Int) * 2 ^ shift = (n * 2 ^ shift : Nat) := by
        rw [Nat.cast_mul, Nat.cast_pow, Nat.cast_ofNat]
      rw [cast]
      exact checkedS64_natCast (by omega)
    rw [asInt, if_neg (by omega), if_neg (by omega), Int.neg_neg, Int.toNat_natCast, shifted]
    exact applySign_eq (by omega) floor

theorem aaudioF64Milli_eq {bits : BitVec 64} (normal : 0 < binary64.exponent bits.toNat)
    (small : binary64.exponent bits.toNat < 1076) :
    aaudioF64Milli bits = some (towardZero ((1000 : ℕ) * binary64.value bits.toNat)) := by
  have width : binary64.significand bits.toNat < 2 ^ 53 := BinaryFormat.significand_lt
  have bias : binary64.bias + binary64.fracBits = 1075 := rfl
  have present : ¬(binary64.exponent bits.toNat : Int) = 0 := by omega
  obtain ⟨shift, amount⟩ := Nat.exists_eq_add_of_le (Nat.lt_succ_iff.mp small)
  have placed : binary64.exponent bits.toNat + shift = binary64.bias + binary64.fracBits := by omega
  have asInt : 52 - ((binary64.exponent bits.toNat : Int) - 1023) = shift := by omega
  rw [aaudioF64Milli]
  simp only [f64_exponent, f64_significand, f64_negative, if_neg present, asInt]
  by_cases far : 62 < shift
  · rw [if_pos (by omega), vanished placed (by omega) far]
  · have less := Nat.shiftRight_le (binary64.significand bits.toNat * 1000) shift
    rw [if_neg (by omega), checkedU64_of_lt (by omega), Option.bind_some, Int.toNat_natCast,
      checkedS64_natCast (by omega), Option.bind_some]
    exact applySign_shiftRight placed (by omega)

end Decode

section Encode

/-- The quotient of the encoder with its leading bit moved to bit 23. -/
def aligned (q : Nat) : Nat :=
  if 23 < q.log2 then q >>> (q.log2 - 23) else q <<< (23 - q.log2)

/-- What is left of the quotient when the bits below the fraction are dropped. -/
def kept (q : Nat) : Nat :=
  if 23 < q.log2 then q / 2 ^ (q.log2 - 23) * 2 ^ (q.log2 - 23) else q

variable {q : Nat}

theorem two_pow_split {a b c : Nat} (sum : a = b + c) : 2 ^ a = 2 ^ b * 2 ^ c := by
  rw [sum, pow_add]

theorem aligned_bounds (nonzero : q ≠ 0) : 2 ^ 23 ≤ aligned q ∧ aligned q < 2 ^ 24 := by
  have low : 2 ^ q.log2 ≤ q := Nat.log2_self_le nonzero
  have high : q < 2 ^ (q.log2 + 1) := Nat.lt_log2_self
  rw [aligned]
  split
  · next above =>
    obtain ⟨shift, same⟩ := Nat.exists_eq_add_of_lt above
    have lowPower : 2 ^ q.log2 = 2 ^ 23 * 2 ^ (shift + 1) := two_pow_split (by omega)
    have highPower : 2 ^ (q.log2 + 1) = 2 ^ 24 * 2 ^ (shift + 1) := two_pow_split (by omega)
    rw [lowPower] at low
    rw [highPower] at high
    have amount : q.log2 - 23 = shift + 1 := by omega
    rw [amount, Nat.shiftRight_eq_div_pow]
    exact ⟨(Nat.le_div_iff_mul_le (Nat.two_pow_pos _)).mpr low, Nat.div_lt_of_lt_mul (by linarith)⟩
  · next below =>
    obtain ⟨shift, same⟩ := Nat.exists_eq_add_of_le (Nat.le_of_not_lt below)
    have lowPower : 2 ^ 23 = 2 ^ q.log2 * 2 ^ shift := two_pow_split same
    have highPower : 2 ^ 24 = 2 ^ (q.log2 + 1) * 2 ^ shift := two_pow_split (by omega)
    have amount : 23 - q.log2 = shift := by omega
    rw [amount, Nat.shiftLeft_eq, lowPower, highPower]
    exact ⟨Nat.mul_le_mul_right _ low, Nat.mul_lt_mul_of_pos_right high (Nat.two_pow_pos _)⟩

/-- The decoder shifts by what the encoder wrote into the exponent. -/
theorem aligned_decoded (small : q.log2 ≤ 46) :
    aligned q * 1000 / 2 ^ (46 - q.log2) = kept q * 1000 / 2 ^ 23 := by
  rw [aligned, kept]
  split
  · next above =>
    have powers : 2 ^ 23 = 2 ^ (46 - q.log2) * 2 ^ (q.log2 - 23) := two_pow_split (by omega)
    have regroup : q / 2 ^ (q.log2 - 23) * 2 ^ (q.log2 - 23) * 1000 =
        q / 2 ^ (q.log2 - 23) * 1000 * 2 ^ (q.log2 - 23) := by ring
    rw [Nat.shiftRight_eq_div_pow, regroup, powers, Nat.mul_div_mul_right _ _ (Nat.two_pow_pos _)]
  · next below =>
    have powers : 2 ^ (46 - q.log2) = 2 ^ 23 * 2 ^ (23 - q.log2) := two_pow_split (by omega)
    have regroup : q * 2 ^ (23 - q.log2) * 1000 = q * 1000 * 2 ^ (23 - q.log2) := by ring
    rw [Nat.shiftLeft_eq, regroup, powers, Nat.mul_div_mul_right _ _ (Nat.two_pow_pos _)]

theorem kept_le : kept q ≤ q := by
  rw [kept]
  split
  · exact Nat.div_mul_le_self _ _
  · exact le_rfl

theorem lt_kept (small : q < 2 ^ 36) : q < kept q + 2 ^ 12 := by
  rw [kept]
  split
  · next above =>
    have bits : q.log2 < 36 := (Nat.log2_lt (by rintro rfl; simp at above)).mpr small
    have power : 2 ^ (q.log2 - 23) ≤ 2 ^ 12 := Nat.pow_le_pow_right Nat.two_pos (by omega)
    have rest := Nat.lt_div_mul_add (a := q) (Nat.two_pow_pos (q.log2 - 23))
    omega
  · omega

theorem kept_of_dvd (small : q < 2 ^ 36) (multiple : 2 ^ 12 ∣ q) : kept q = q := by
  rw [kept]
  split
  · next above =>
    have bits : q.log2 < 36 := (Nat.log2_lt (by rintro rfl; simp at above)).mpr small
    have divides : 2 ^ (q.log2 - 23) ∣ q :=
      (pow_dvd_pow 2 (by omega : q.log2 - 23 ≤ 12)).trans multiple
    exact Nat.div_mul_cancel divides
  · rfl

/-- The three parts of the encoder's result do not overlap. -/
theorem packed_toNat {sign : Bool} {e m : Nat} (fits : e < 2 ^ 8) :
    ((if sign then 0x80000000#32 else 0#32) ||| (BitVec.ofNat 32 e <<< 23) |||
      (BitVec.ofNat 32 m &&& 0x7fffff#32)).toNat = binary32.pack sign e (m % 2 ^ 23) := by
  have low : m % 2 ^ 23 < 2 ^ 23 := Nat.mod_lt _ (Nat.two_pow_pos 23)
  have fraction : (BitVec.ofNat 32 m &&& 0x7fffff#32).toNat = m % 2 ^ 23 := by
    rw [toNat_and_mask (k := 23) rfl, BitVec.toNat_ofNat]
    omega
  have exponent : (BitVec.ofNat 32 e <<< 23).toNat = e * 2 ^ 23 := by
    rw [BitVec.toNat_shiftLeft, BitVec.toNat_ofNat, Nat.shiftLeft_eq]
    omega
  have top : (if sign then 0x80000000#32 else 0#32).toNat = 2 ^ 31 * sign.toNat := by
    cases sign <;> rfl
  have upper : 2 ^ 31 * sign.toNat ||| e * 2 ^ 23 = 2 ^ 23 * (2 ^ 8 * sign.toNat + e) := by
    rw [← Nat.two_pow_add_eq_or_of_lt (by omega)]
    omega
  rw [BitVec.toNat_or, BitVec.toNat_or, fraction, exponent, top, upper,
    ← Nat.two_pow_add_eq_or_of_lt low, BinaryFormat.pack]
  simp only [binary32]
  omega

/-- What a number comes back as from the encoder and the decoder. -/
def returned (n : Nat) : Nat :=
  kept (n * 2 ^ 23 / 1000) * 1000 / 2 ^ 23

theorem encoded {s : Int} (small : s.natAbs ≤ 2 ^ 22) (nonzero : s ≠ 0) :
    (aaudioF32FromMilli s).toNat =
      binary32.pack (s < 0) ((s.natAbs * 2 ^ 23 / 1000).log2 + 104)
        (aligned (s.natAbs * 2 ^ 23 / 1000) % 2 ^ 23) := by
  have some : s.natAbs * 2 ^ 23 / 1000 ≠ 0 := by omega
  have below : s.natAbs * 2 ^ 23 / 1000 < 2 ^ 36 := by omega
  have bits : (s.natAbs * 2 ^ 23 / 1000).log2 < 36 := (Nat.log2_lt some).mpr below
  have inside : s.natAbs <<< 23 % 2 ^ 64 = s.natAbs * 2 ^ 23 := by
    rw [Nat.shiftLeft_eq, Nat.mod_eq_of_lt (by omega)]
  have biased : (s.natAbs * 2 ^ 23 / 1000).log2 + 127 - 23 =
      (s.natAbs * 2 ^ 23 / 1000).log2 + 104 := by omega
  rw [← packed_toNat (by omega), aaudioF32FromMilli, if_neg nonzero]
  simp only [inside, if_neg some, biased, decide_eq_true_eq, aligned]

theorem milli_returned {s : Int} (small : s.natAbs ≤ 2 ^ 22) :
    aaudioF32Milli (aaudioF32FromMilli s) =
      some (if s < 0 then -(returned s.natAbs : Int) else returned s.natAbs) := by
  by_cases zero : s = 0
  · subst zero
    decide
  have some : s.natAbs * 2 ^ 23 / 1000 ≠ 0 := by omega
  have below : s.natAbs * 2 ^ 23 / 1000 < 2 ^ 36 := by omega
  have bits : (s.natAbs * 2 ^ 23 / 1000).log2 < 36 := (Nat.log2_lt some).mpr below
  obtain ⟨low, high⟩ := aligned_bounds some
  have part : aligned (s.natAbs * 2 ^ 23 / 1000) % 2 ^ 23 < 2 ^ binary32.fracBits :=
    Nat.mod_lt _ (Nat.two_pow_pos 23)
  have room : (s.natAbs * 2 ^ 23 / 1000).log2 + 104 < 2 ^ binary32.expBits := by
    simp only [binary32]
    omega
  have exponent : binary32.exponent (aaudioF32FromMilli s).toNat =
      (s.natAbs * 2 ^ 23 / 1000).log2 + 104 := by
    rw [encoded small zero, BinaryFormat.pack_exponent part room]
  have significand : binary32.significand (aaudioF32FromMilli s).toNat =
      aligned (s.natAbs * 2 ^ 23 / 1000) := by
    rw [encoded small zero, BinaryFormat.significand, BinaryFormat.pack_fraction part]
    simp only [binary32]
    omega
  have negative : binary32.negative (aaudioF32FromMilli s).toNat ↔ s < 0 := by
    rw [encoded small zero, BinaryFormat.pack_negative part room, decide_eq_true_iff]
  have bias : binary32.bias + binary32.fracBits = 150 := rfl
  have placed : binary32.exponent (aaudioF32FromMilli s).toNat +
      (46 - (s.natAbs * 2 ^ 23 / 1000).log2) = binary32.bias + binary32.fracBits := by omega
  have floor := BinaryFormat.floor_shiftRight 1000 placed
  rw [significand, aligned_decoded (by omega)] at floor
  rw [aaudioF32Milli_eq (by omega) (by omega), BinaryFormat.towardZero_value, floor]
  simp only [negative]
  rfl

end Encode

section Returned

variable {n : Nat}

theorem returned_le (n : Nat) : returned n ≤ n := by
  have part : kept (n * 2 ^ 23 / 1000) ≤ n * 2 ^ 23 / 1000 := kept_le
  rw [returned]
  omega

theorem le_returned (small : n ≤ 2 ^ 22) : n - 1 ≤ returned n := by
  have near : n * 2 ^ 23 / 1000 < kept (n * 2 ^ 23 / 1000) + 2 ^ 12 := lt_kept (by omega)
  rw [returned]
  omega

/-- Of the thousandths only multiples of an eighth come back unchanged. -/
theorem returned_eq_iff (small : n ≤ 2 ^ 22) : returned n = n ↔ 125 ∣ n := by
  constructor
  · intro same
    have part : kept (n * 2 ^ 23 / 1000) ≤ n * 2 ^ 23 / 1000 := kept_le
    have exact : 125 * kept (n * 2 ^ 23 / 1000) = 2 ^ 20 * n := by
      rw [returned] at same
      omega
    have coprime : Nat.Coprime 125 (2 ^ 20) := Nat.Coprime.pow_right 20 (by decide)
    exact coprime.dvd_of_dvd_mul_left ⟨_, exact.symm⟩
  · rintro ⟨m, rfl⟩
    have quotient : 125 * m * 2 ^ 23 / 1000 = 2 ^ 12 * (2 ^ 8 * m) := by
      have product : 125 * m * 2 ^ 23 = 2 ^ 12 * (2 ^ 8 * m) * 1000 := by ring
      rw [product, Nat.mul_div_cancel _ (by decide)]
    have whole : kept (2 ^ 12 * (2 ^ 8 * m)) = 2 ^ 12 * (2 ^ 8 * m) :=
      kept_of_dvd (by omega) (Nat.dvd_mul_right _ _)
    have product : 2 ^ 12 * (2 ^ 8 * m) * 1000 = 125 * m * 2 ^ 23 := by ring
    rw [returned, quotient, whole, product, Nat.mul_div_cancel _ (Nat.two_pow_pos 23)]

end Returned

/-- The decoders truncate exactly, without an overflow on the way, and what the encoder makes of a
number of thousandths loses at most one of them. -/
theorem milli_truncates :
    (∀ bits : BitVec 32, binary32.Normal bits.toNat → |binary32.value bits.toNat| < 2 ^ 53 →
      aaudioF32Milli bits = some (towardZero (1000 * binary32.value bits.toNat))) ∧
    (∀ bits : BitVec 64, binary64.Normal bits.toNat → |binary64.value bits.toNat| < 2 ^ 53 →
      aaudioF64Milli bits = some (towardZero (1000 * binary64.value bits.toNat))) ∧
    ∀ s : Int, |s| ≤ 2 ^ 22 → ∃ r, aaudioF32Milli (aaudioF32FromMilli s) = some r ∧
      (r = 0 ∨ r.sign = s.sign) ∧ |r| ≤ |s| ∧ |s| - 1 ≤ |r| ∧ (125 ∣ s → r = s) := by
  refine ⟨?_, ?_, ?_⟩
  · intro bits normal small
    rw [BinaryFormat.abs_value] at small
    exact aaudioF32Milli_eq normal.1 (BinaryFormat.exponent_of_magnitude_lt small)
  · intro bits normal small
    rw [BinaryFormat.abs_value] at small
    exact aaudioF64Milli_eq normal.1 (BinaryFormat.exponent_of_magnitude_lt small)
  · intro s small
    rw [Int.abs_eq_natAbs] at small ⊢
    have bound : s.natAbs ≤ 2 ^ 22 := by omega
    have high := returned_le s.natAbs
    have low := le_returned bound
    refine ⟨_, milli_returned bound, ?_, ?_, ?_, ?_⟩
    · rcases lt_trichotomy s 0 with negative | rfl | positive
      · rw [if_pos negative, Int.sign_eq_neg_one_of_neg negative, Int.sign_eq_neg_one_iff_neg]
        omega
      · exact Or.inr rfl
      · rw [if_neg (by omega), Int.sign_eq_one_of_pos positive, Int.sign_eq_one_iff_pos]
        omega
    · rw [Int.abs_eq_natAbs]
      split <;> omega
    · rw [Int.abs_eq_natAbs]
      split <;> omega
    · intro multiple
      have same := (returned_eq_iff bound).mpr (Int.natCast_dvd.mp multiple)
      split <;> omega

theorem milli_truncates_samples :
    aaudioF32Milli 0xc27dff3b#32 = some (towardZero (1000 * binary32.value 0xc27dff3b)) ∧
    aaudioF64Milli 0xc04fbfdf3b645a1d#64 =
      some (towardZero (1000 * binary64.value 0xc04fbfdf3b645a1d)) ∧
    ∃ r, aaudioF32Milli (aaudioF32FromMilli (-63499)) = some r ∧
      (r = 0 ∨ r.sign = Int.sign (-63499)) ∧ |r| ≤ |(-63499)| ∧ |(-63499)| - 1 ≤ |r| ∧
      (125 ∣ (-63499 : Int) → r = -63499) :=
  ⟨milli_truncates.1 0xc27dff3b#32 ⟨by decide, by decide⟩
      (by rw [BinaryFormat.abs_value]; norm_num [BinaryFormat.magnitude, BinaryFormat.significand,
        BinaryFormat.fraction, BinaryFormat.exponent, BinaryFormat.bias, binary32]),
    milli_truncates.2.1 0xc04fbfdf3b645a1d#64 ⟨by decide, by decide⟩
      (by rw [BinaryFormat.abs_value]; norm_num [BinaryFormat.magnitude, BinaryFormat.significand,
        BinaryFormat.fraction, BinaryFormat.exponent, BinaryFormat.bias, binary64]),
    milli_truncates.2.2 (-63499) (by decide)⟩

end AppleBce

import Mathlib.Data.Rat.Floor
import Mathlib.Algebra.Order.Field.Power
import Mathlib.Tactic.Positivity
import Mathlib.Tactic.Ring
import Mathlib.Tactic.Linarith

namespace Basis

/-- The integer part of a rational number, which truncates towards zero. -/
def towardZero (x : ℚ) : ℤ :=
  if x < 0 then ⌈x⌉ else ⌊x⌋

theorem towardZero_of_nonneg {x : ℚ} (nonneg : 0 ≤ x) : towardZero x = ⌊x⌋ := by
  rw [towardZero, if_neg (not_lt.mpr nonneg)]

theorem towardZero_neg {x : ℚ} (nonneg : 0 ≤ x) : towardZero (-x) = -⌊x⌋ := by
  rcases nonneg.eq_or_lt with zero | positive
  · simp [towardZero, ← zero]
  · rw [towardZero, if_pos (neg_lt_zero.mpr positive), Int.ceil_neg]

/-- A binary interchange format: a sign, a biased exponent and a fraction, from the top bit down. -/
structure BinaryFormat where
  expBits : Nat
  fracBits : Nat

def binary32 : BinaryFormat := ⟨8, 23⟩

def binary64 : BinaryFormat := ⟨11, 52⟩

namespace BinaryFormat

variable (F : BinaryFormat) (bits : Nat)

def bias : Nat := 2 ^ (F.expBits - 1) - 1

def fraction : Nat := bits % 2 ^ F.fracBits

def exponent : Nat := bits / 2 ^ F.fracBits % 2 ^ F.expBits

def negative : Prop := bits / 2 ^ (F.fracBits + F.expBits) % 2 = 1

instance : Decidable (F.negative bits) := inferInstanceAs (Decidable (_ = _))

/-- The fraction under its implicit leading bit. -/
def significand : Nat := 2 ^ F.fracBits + F.fraction bits

/-- The exponents 0 and the greatest one stand for subnormal numbers, infinities and NaN. -/
def Normal : Prop := 0 < F.exponent bits ∧ F.exponent bits < 2 ^ F.expBits - 1

def magnitude : ℚ := F.significand bits * 2 ^ ((F.exponent bits : ℤ) - F.bias - F.fracBits)

/-- The number that a normal pattern stands for. -/
def value : ℚ := if F.negative bits then -F.magnitude bits else F.magnitude bits

variable {F bits}

theorem fraction_lt : F.fraction bits < 2 ^ F.fracBits :=
  Nat.mod_lt _ (Nat.two_pow_pos _)

theorem significand_lt : F.significand bits < 2 ^ (F.fracBits + 1) := by
  have low : F.fraction bits < 2 ^ F.fracBits := fraction_lt
  rw [significand, pow_succ]
  omega

theorem magnitude_nonneg : 0 ≤ F.magnitude bits := by
  rw [magnitude]
  positivity

theorem abs_value : |F.value bits| = F.magnitude bits := by
  rw [value]
  split
  · rw [abs_neg, abs_of_nonneg magnitude_nonneg]
  · exact abs_of_nonneg magnitude_nonneg

/-- A bound on the magnitude bounds the exponent. -/
theorem exponent_of_magnitude_lt {n : Nat} (small : F.magnitude bits < 2 ^ n) :
    F.exponent bits < F.bias + n := by
  have leading : (2 : ℚ) ^ F.fracBits ≤ F.significand bits := by
    rw [significand]
    push_cast
    linarith [Nat.cast_nonneg (α := ℚ) (F.fraction bits)]
  have least : (2 : ℚ) ^ ((F.exponent bits : ℤ) - F.bias) ≤ F.magnitude bits := by
    calc (2 : ℚ) ^ ((F.exponent bits : ℤ) - F.bias)
        = 2 ^ F.fracBits * 2 ^ ((F.exponent bits : ℤ) - F.bias - F.fracBits) := by
          rw [← zpow_natCast, ← zpow_add₀ two_ne_zero]
          congr 1
          ring
      _ ≤ F.magnitude bits := mul_le_mul_of_nonneg_right leading (by positivity)
  have below : (2 : ℚ) ^ ((F.exponent bits : ℤ) - F.bias) < 2 ^ (n : ℤ) := by
    rw [zpow_natCast]
    exact lt_of_le_of_lt least small
  have order := (zpow_lt_zpow_iff_right₀ one_lt_two).mp below
  omega

theorem magnitude_lt_iff {n : Nat} : F.magnitude bits < 2 ^ n ↔ F.exponent bits < F.bias + n := by
  refine ⟨exponent_of_magnitude_lt, fun small => ?_⟩
  have narrow : (F.significand bits : ℚ) < 2 ^ ((F.fracBits + 1 : Nat) : ℤ) := by
    rw [zpow_natCast]
    exact_mod_cast significand_lt
  calc F.magnitude bits
      < 2 ^ ((F.fracBits + 1 : Nat) : ℤ) * 2 ^ ((F.exponent bits : ℤ) - F.bias - F.fracBits) :=
        mul_lt_mul_of_pos_right narrow (by positivity)
    _ = 2 ^ ((F.exponent bits : ℤ) - F.bias + 1) := by
        rw [← zpow_add₀ two_ne_zero]
        congr 1
        push_cast
        ring
    _ ≤ 2 ^ (n : ℤ) := zpow_le_zpow_right₀ one_le_two (by omega)
    _ = 2 ^ n := zpow_natCast 2 n

/-- The integer part of a multiple, where the fraction is shifted out to the right. -/
theorem floor_shiftRight {shift : Nat} (k : Nat)
    (amount : F.exponent bits + shift = F.bias + F.fracBits) :
    ⌊k * F.magnitude bits⌋ = (F.significand bits * k / 2 ^ shift : Nat) := by
  have power : (F.exponent bits : ℤ) - F.bias - F.fracBits = -(shift : ℤ) := by omega
  have quotient : (k * F.magnitude bits : ℚ) =
      ((F.significand bits * k : Nat) : ℚ) / ((2 ^ shift : Nat) : ℚ) := by
    rw [magnitude, power, zpow_neg, zpow_natCast]
    push_cast
    ring
  rw [quotient, Rat.floor_natCast_div_natCast]
  norm_cast

/-- A multiple of a number with nothing behind the point. -/
theorem floor_shiftLeft {shift : Nat} (k : Nat)
    (amount : F.exponent bits = F.bias + F.fracBits + shift) :
    ⌊k * F.magnitude bits⌋ = (F.significand bits * k * 2 ^ shift : Nat) := by
  have power : (F.exponent bits : ℤ) - F.bias - F.fracBits = (shift : ℤ) := by omega
  have whole : (k * F.magnitude bits : ℚ) = ((F.significand bits * k * 2 ^ shift : Nat) : ℚ) := by
    rw [magnitude, power, zpow_natCast]
    push_cast
    ring
  rw [whole, Int.floor_natCast]

/-- Rounding a multiple towards zero rounds its magnitude down. -/
theorem towardZero_value (k : Nat) : towardZero (k * F.value bits) =
    if F.negative bits then -⌊k * F.magnitude bits⌋ else ⌊k * F.magnitude bits⌋ := by
  have nonneg : 0 ≤ k * F.magnitude bits := mul_nonneg (Nat.cast_nonneg k) magnitude_nonneg
  rw [value]
  split
  · rw [mul_neg, towardZero_neg nonneg]
  · rw [towardZero_of_nonneg nonneg]

variable (F)

def pack (negative : Bool) (exponent fraction : Nat) : Nat :=
  negative.toNat * 2 ^ (F.fracBits + F.expBits) + exponent * 2 ^ F.fracBits + fraction

variable {F} {sign : Bool} {e f : Nat}

theorem pack_fraction (low : f < 2 ^ F.fracBits) : F.fraction (F.pack sign e f) = f := by
  have shape : F.pack sign e f = f + 2 ^ F.fracBits * (sign.toNat * 2 ^ F.expBits + e) := by
    rw [pack, pow_add]
    ring
  rw [fraction, shape, Nat.add_mul_mod_self_left, Nat.mod_eq_of_lt low]

theorem pack_upper (low : f < 2 ^ F.fracBits) :
    F.pack sign e f / 2 ^ F.fracBits = e + 2 ^ F.expBits * sign.toNat := by
  have shape : F.pack sign e f = f + 2 ^ F.fracBits * (e + 2 ^ F.expBits * sign.toNat) := by
    rw [pack, pow_add]
    ring
  rw [shape, Nat.add_mul_div_left _ _ (Nat.two_pow_pos _), Nat.div_eq_of_lt low, Nat.zero_add]

theorem pack_exponent (low : f < 2 ^ F.fracBits) (high : e < 2 ^ F.expBits) :
    F.exponent (F.pack sign e f) = e := by
  rw [exponent, pack_upper low, Nat.add_mul_mod_self_left, Nat.mod_eq_of_lt high]

theorem pack_negative (low : f < 2 ^ F.fracBits) (high : e < 2 ^ F.expBits) :
    F.negative (F.pack sign e f) ↔ sign = true := by
  rw [negative, pow_add, ← Nat.div_div_eq_div_mul, pack_upper low,
    Nat.add_mul_div_left _ _ (Nat.two_pow_pos _), Nat.div_eq_of_lt high, Nat.zero_add]
  cases sign <;> simp

end BinaryFormat

end Basis

import Mathlib.Data.Nat.Basic
import Mathlib.Algebra.Group.Nat.Defs

namespace Basis

/-! Two fields of a word: the bits under a mask of the low `k` bits, and the bits above it. -/

section
variable {w k : Nat} {x y m : BitVec w}

theorem toNat_and_mask (mask : m.toNat = 2 ^ k - 1) : (x &&& m).toNat = x.toNat % 2 ^ k := by
  rw [BitVec.toNat_and, mask, Nat.and_two_pow_sub_one_eq_mod]

theorem toNat_shift_and_mask (mask : m.toNat = 2 ^ k - 1) (shift : Nat) :
    ((x >>> shift) &&& m).toNat = x.toNat / 2 ^ shift % 2 ^ k := by
  rw [toNat_and_mask mask, BitVec.toNat_ushiftRight, Nat.shiftRight_eq_div_pow]

/-- The two fields of a word make it up. -/
theorem fields_add (x m : BitVec w) : (x &&& ~~~m).toNat + (x &&& m).toNat = x.toNat := by
  have disjoint : (x &&& ~~~m) &&& (x &&& m) = 0#w := by
    ext i inside
    simp only [BitVec.getElem_and, BitVec.getElem_not, BitVec.getElem_zero]
    cases x[i] <;> cases m[i] <;> rfl
  have whole : (x &&& ~~~m) ||| (x &&& m) = x := by
    ext i inside
    simp only [BitVec.getElem_or, BitVec.getElem_and, BitVec.getElem_not]
    cases x[i] <;> cases m[i] <;> rfl
  rw [← BitVec.toNat_add_of_and_eq_zero disjoint, BitVec.add_eq_or_of_and_eq_zero _ _ disjoint, whole]

theorem toNat_and_not_mask (mask : m.toNat = 2 ^ k - 1) :
    (x &&& ~~~m).toNat = 2 ^ k * (x.toNat / 2 ^ k) := by
  have sum := fields_add x m
  rw [toNat_and_mask mask] at sum
  have parts := Nat.div_add_mod x.toNat (2 ^ k)
  omega

theorem and_not_mask_of_aligned (mask : m.toNat = 2 ^ k - 1) (aligned : x.toNat % 2 ^ k = 0) :
    x &&& ~~~m = x := by
  apply BitVec.eq_of_toNat_eq
  have sum := fields_add x m
  rwa [toNat_and_mask mask, aligned, Nat.add_zero] at sum

/-- A value put under an aligned one is its low field, and does not touch the other, when it fits
under the mask. -/
theorem toNat_aligned_or (aligned : x.toNat % 2 ^ k = 0) (fits : y.toNat < 2 ^ k) :
    (x ||| y).toNat = x.toNat + y.toNat := by
  have whole : x.toNat = 2 ^ k * (x.toNat / 2 ^ k) := by
    have parts := Nat.div_add_mod x.toNat (2 ^ k)
    rw [aligned, Nat.add_zero] at parts
    exact parts.symm
  rw [BitVec.toNat_or, whole, Nat.two_pow_add_eq_or_of_lt fits]

/-- The low field with one bit set above it. -/
theorem toNat_mask_or_bit {top : BitVec w} (mask : m.toNat = 2 ^ k - 1) (bit : top.toNat = 2 ^ k) :
    ((x &&& m) ||| top).toNat = 2 ^ k + x.toNat % 2 ^ k := by
  have aligned : top.toNat % 2 ^ k = 0 := by rw [bit, Nat.mod_self]
  have fits : (x &&& m).toNat < 2 ^ k := by
    rw [toNat_and_mask mask]
    exact Nat.mod_lt _ (Nat.two_pow_pos k)
  rw [BitVec.or_comm, toNat_aligned_or aligned fits, toNat_and_mask mask, bit]

theorem low_field_iff (mask : m.toNat = 2 ^ k - 1) (aligned : x.toNat % 2 ^ k = 0) :
    (x ||| y) &&& m = y ↔ y.toNat < 2 ^ k := by
  constructor
  · intro same
    have value := congrArg BitVec.toNat same
    rw [toNat_and_mask mask] at value
    rw [← value]
    exact Nat.mod_lt _ (Nat.two_pow_pos k)
  · intro fits
    apply BitVec.eq_of_toNat_eq
    rw [toNat_and_mask mask, toNat_aligned_or aligned fits, Nat.add_mod, aligned, Nat.zero_add,
      Nat.mod_mod, Nat.mod_eq_of_lt fits]

theorem high_field (mask : m.toNat = 2 ^ k - 1) (aligned : x.toNat % 2 ^ k = 0)
    (fits : y.toNat < 2 ^ k) : (x ||| y) &&& ~~~m = x := by
  apply BitVec.eq_of_toNat_eq
  have sum := fields_add (x ||| y) m
  rw [(low_field_iff mask aligned).mpr fits, toNat_aligned_or aligned fits] at sum
  exact Nat.add_right_cancel sum

end

end Basis

import Mathlib.Tactic.Common

namespace Basis

/-- The position in a ring of `size` cells that is passed once in every `period`, after `elapsed`. -/
def interpolate (period size elapsed : Int) : Int :=
  elapsed % period * size / period

variable {period size elapsed a b : Int}

theorem interpolate_nonneg (positive : 0 < period) (cells : 0 ≤ size) (elapsed : Int) :
    0 ≤ interpolate period size elapsed := by
  have rest : 0 ≤ elapsed % period := Int.emod_nonneg elapsed (by omega)
  exact Int.ediv_nonneg (Int.mul_nonneg rest cells) (by omega)

theorem interpolate_lt (positive : 0 < period) (cells : 0 < size) (elapsed : Int) :
    interpolate period size elapsed < size := by
  have rest : elapsed % period < period := Int.emod_lt_of_pos elapsed positive
  have product : elapsed % period * size < period * size := Int.mul_lt_mul_of_pos_right rest cells
  refine Int.ediv_lt_of_lt_mul positive ?_
  rw [Int.mul_comm size period]
  exact product

/-- Within one pass the position only grows. -/
theorem interpolate_mono (positive : 0 < period) (cells : 0 ≤ size) (start : 0 ≤ a) (order : a ≤ b)
    (within : b < period) : interpolate period size a ≤ interpolate period size b := by
  rw [interpolate, interpolate, Int.emod_eq_of_lt start (by omega), Int.emod_eq_of_lt (by omega) within]
  exact Int.ediv_le_ediv positive (Int.mul_le_mul_of_nonneg_right order cells)

/-- The next pass has the same positions. -/
theorem interpolate_next (period size elapsed : Int) :
    interpolate period size elapsed = interpolate period size (elapsed - period) := by
  rw [interpolate, interpolate, Int.sub_emod_right]

end Basis

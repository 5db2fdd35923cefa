import Mathlib.Algebra.Order.Ring.Int
import Mathlib.Order.Bounds.Basic

/-! Signed integers of the machine whose operations stay in their range, and rounding up. -/
namespace TorchGcu.Logic

theorem add_exact {a b : Int64} (below : a.toInt + b.toInt < 2 ^ 63)
    (above : -2 ^ 63 ≤ a.toInt + b.toInt) : (a + b).toInt = a.toInt + b.toInt := by
  rw [Int64.toInt_add]
  exact Int.bmod_eq_of_le (by omega) (by omega)

theorem sub_exact {a b : Int64} (below : a.toInt - b.toInt < 2 ^ 63)
    (above : -2 ^ 63 ≤ a.toInt - b.toInt) : (a - b).toInt = a.toInt - b.toInt := by
  rw [Int64.toInt_sub]
  exact Int.bmod_eq_of_le (by omega) (by omega)

theorem sub_exact_32 {a b : Int32} (below : a.toInt - b.toInt < 2 ^ 31)
    (above : -2 ^ 31 ≤ a.toInt - b.toInt) : (a - b).toInt = a.toInt - b.toInt := by
  rw [Int32.toInt_sub]
  exact Int.bmod_eq_of_le (by omega) (by omega)

theorem narrow_exact {a : Int64} (below : a.toInt < 2 ^ 31) (above : -2 ^ 31 ≤ a.toInt) :
    a.toInt32.toInt = a.toInt := by
  rw [Int64.toInt_toInt32]
  exact Int.bmod_eq_of_le (by omega) (by omega)

/-- The least multiple of a number that is not below another one. -/
def roundUpTo (divisor a : Int) : Int := (a + divisor - 1) / divisor * divisor

theorem roundUpTo_isLeast {divisor : Int} (positive : 0 < divisor) (a : Int) :
    IsLeast {b | a ≤ b ∧ divisor ∣ b} (roundUpTo divisor a) := by
  refine ⟨⟨?_, Int.dvd_mul_left _ _⟩, ?_⟩
  · have := Int.lt_ediv_add_one_mul_self (a + divisor - 1) positive
    rw [add_mul, one_mul] at this
    rw [roundUpTo]
    omega
  · rintro b ⟨least, factor, rfl⟩
    rw [roundUpTo, mul_comm]
    refine Int.mul_le_mul_of_nonneg_left ?_ positive.le
    refine Int.lt_add_one_iff.mp (Int.ediv_lt_of_lt_mul positive ?_)
    rw [add_mul, one_mul, mul_comm factor]
    omega

theorem roundUpTo_lt {divisor : Int} (positive : 0 < divisor) (a : Int) :
    roundUpTo divisor a < a + divisor := by
  have := Int.ediv_mul_le (a + divisor - 1) (b := divisor) (by omega)
  rw [roundUpTo]
  omega

/-- The way in which code rounds up. -/
theorem roundUpTo_eq {divisor a : Int} (positive : 0 < divisor) :
    a + (if a % divisor = 0 then 0 else divisor - a % divisor) = roundUpTo divisor a := by
  obtain ⟨⟨above, divides⟩, least⟩ := roundUpTo_isLeast positive a
  have rest := Int.emod_nonneg a positive.ne'
  have small := Int.emod_lt_of_pos a positive
  have split := Int.mul_ediv_add_emod a divisor
  have multiple : divisor ∣ a + (if a % divisor = 0 then 0 else divisor - a % divisor) := by
    split
    · rename_i none
      rw [add_zero]
      exact Int.dvd_of_emod_eq_zero none
    · refine ⟨a / divisor + 1, ?_⟩
      rw [mul_add, mul_one]
      omega
  have smaller : roundUpTo divisor a ≤ a + (if a % divisor = 0 then 0 else divisor - a % divisor) :=
    least ⟨by split <;> omega, multiple⟩
  have near : a + (if a % divisor = 0 then 0 else divisor - a % divisor) < a + divisor := by
    split <;> omega
  have apart := Int.eq_zero_of_dvd_of_nonneg_of_lt (by omega) (by omega)
    (Int.dvd_sub multiple divides)
  omega

end TorchGcu.Logic

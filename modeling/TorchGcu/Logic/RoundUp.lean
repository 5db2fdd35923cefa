import Mathlib.Algebra.Order.Floor.Div

/-! Rounding up to the next multiple of a step. -/
namespace ProgramLogic
variable {step m n : Nat}

/-- The least multiple of the step that is not below `n`. -/
def roundUp (step n : Nat) : Nat := step * (n ⌈/⌉ step)

theorem le_roundUp (positive : 0 < step) (n : Nat) : n ≤ roundUp step n := le_smul_ceilDiv positive

theorem dvd_roundUp (step n : Nat) : step ∣ roundUp step n := Nat.dvd_mul_right step _

theorem roundUp_le (positive : 0 < step) (le : n ≤ m) (divides : step ∣ m) : roundUp step n ≤ m := by
  obtain ⟨count, rfl⟩ := divides
  exact Nat.mul_le_mul_left step ((ceilDiv_le_iff_le_mul positive).mpr le)

theorem roundUp_of_dvd (positive : 0 < step) (divides : step ∣ n) : roundUp step n = n :=
  Nat.le_antisymm (roundUp_le positive le_rfl divides) (le_roundUp positive n)

theorem roundUp_mono (positive : 0 < step) (le : n ≤ m) : roundUp step n ≤ roundUp step m :=
  roundUp_le positive (le.trans (le_roundUp positive m)) (dvd_roundUp step m)

theorem roundUp_lt (positive : 0 < step) (n : Nat) : roundUp step n < n + step := by
  have le : roundUp step n ≤ n + step - 1 := Nat.mul_div_le _ _
  omega

theorem roundUp_eq_div (step n : Nat) : roundUp step n = step * ((n + step - 1) / step) := rfl

/-- A number between two multiples is rounded up to the upper one. -/
theorem roundUp_between (positive : 0 < step) (between : step * (n / step) ≠ n) :
    roundUp step n = step * (n / step) + step := by
  have above : n < step * (n / step + 1) := Nat.lt_mul_div_succ n positive
  have below : step * (n / step) < n := lt_of_le_of_ne (Nat.mul_div_le _ _) between
  refine Nat.le_antisymm ?_ ?_
  · rw [← Nat.mul_succ]
    exact roundUp_le positive above.le (Nat.dvd_mul_right step _)
  · obtain ⟨count, eq⟩ := dvd_roundUp step n
    have reached : step * (n / step) < step * count :=
      below.trans_le (eq ▸ le_roundUp positive n)
    rw [eq, ← Nat.mul_succ]
    exact Nat.mul_le_mul_left _ (Nat.lt_of_mul_lt_mul_left reached)

end ProgramLogic

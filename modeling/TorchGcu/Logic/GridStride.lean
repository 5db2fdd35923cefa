import Mathlib.Algebra.Order.Floor.Div
import Mathlib.Data.List.Nodup
import Mathlib.Data.List.ProdSigma

/-! Loops with a stride: programs that are numbered from zero, each of which starts at its own
number and goes on by the number of programs, share out what is below a bound. -/
namespace ProgramLogic
variable {start stop step size k p : Nat}

/-- The numbers from `start` on, below `stop`, by `step`. -/
def strided (start stop step : Nat) : List Nat :=
  List.range' start ((stop - start) ⌈/⌉ step) step

theorem mem_strided (positive : 0 < step) :
    k ∈ strided start stop step ↔ start ≤ k ∧ k < stop ∧ k % step = start % step := by
  have within (i : Nat) : i < (stop - start) ⌈/⌉ step ↔ start + step * i < stop := by
    rw [← not_le, ceilDiv_le_iff_le_mul positive, not_le]
    omega
  rw [strided, List.mem_range']
  constructor
  · rintro ⟨i, below, rfl⟩
    exact ⟨Nat.le_add_right _ _, (within i).mp below, Nat.add_mul_mod_self_left _ _ _⟩
  · rintro ⟨le, below, same⟩
    obtain ⟨i, steps⟩ := Nat.dvd_of_mod_eq_zero (Nat.sub_mod_eq_zero_of_mod_eq same)
    have reached : k = start + step * i := by omega
    exact ⟨i, (within i).mpr (reached ▸ below), reached⟩

theorem nodup_strided (positive : 0 < step) : (strided start stop step).Nodup :=
  List.nodup_range' _ positive

/-- A program gets what leaves its number as the remainder. -/
theorem mem_strided_program (program : p < size) :
    k ∈ strided p stop size ↔ k < stop ∧ k % size = p := by
  rw [mem_strided (Nat.zero_lt_of_lt program), Nat.mod_eq_of_lt program]
  refine ⟨fun member => member.2, fun ⟨below, same⟩ => ⟨?_, below, same⟩⟩
  exact same ▸ Nat.mod_le k size

end ProgramLogic

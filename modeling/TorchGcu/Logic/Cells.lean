import Mathlib.Data.List.Nodup
import Mathlib.Data.List.Zip
import Mathlib.Logic.Function.Basic

/-! A memory as a function from addresses, and stores of a list of cells into it. -/
namespace Cells
variable {ι ν : Type} [DecidableEq ι]

/-- The cells are stored one after another. -/
def store (memory : ι → ν) (cells : List (ι × ν)) : ι → ν :=
  cells.foldl (fun memory cell => Function.update memory cell.1 cell.2) memory

variable {memory : ι → ν}

theorem store_cons (cell : ι × ν) (cells : List (ι × ν)) :
    store memory (cell :: cells) = store (Function.update memory cell.1 cell.2) cells := rfl

/-- A store leaves all other cells as they are. -/
theorem store_other {cells : List (ι × ν)} {a : ι} (outside : a ∉ cells.map Prod.fst) :
    store memory cells a = memory a := by
  induction cells generalizing memory with
  | nil => rfl
  | cons cell cells ih =>
    simp only [List.map_cons, List.mem_cons, not_or] at outside
    rw [store_cons, ih outside.2, Function.update_of_ne outside.1]

/-- Distinct cells read what was stored in them. -/
theorem map_store {addresses : List ι} {values : List ν} (distinct : addresses.Nodup)
    (each : values.length = addresses.length) :
    addresses.map (store memory (addresses.zip values)) = values := by
  induction addresses generalizing memory values with
  | nil => exact (List.length_eq_zero_iff.mp each).symm
  | cons a addresses ih =>
    obtain ⟨absent, distinct⟩ := List.nodup_cons.mp distinct
    cases values with
    | nil => simp at each
    | cons v values =>
      have each : values.length = addresses.length := by simpa using each
      rw [List.zip_cons_cons, List.map_cons, store_cons, ih distinct each]
      have outside : a ∉ (addresses.zip values).map Prod.fst := by
        rw [List.map_fst_zip (Nat.le_of_eq each.symm)]
        exact absent
      rw [store_other outside, Function.update_self]

/-- The cells outside the stored addresses. -/
theorem store_zip_other {addresses : List ι} {values : List ν} {a : ι} (outside : a ∉ addresses) :
    store memory (addresses.zip values) a = memory a := by
  refine store_other fun inside => outside ?_
  obtain ⟨cell, member, same⟩ := List.mem_map.mp inside
  exact same ▸ (List.of_mem_zip member).1

end Cells

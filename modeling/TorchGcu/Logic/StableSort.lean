import Mathlib.Data.List.Sort
import Mathlib.Data.List.Nodup

/-! A sort by insertion is stable: among elements that compare alike the order of before stays. -/
namespace ProgramLogic
variable {α : Type} {l : List α}

/-- Two elements of a list have one order in it. -/
theorem not_sublist_both {a b : α} (distinct : l.Nodup) (forth : [a, b].Sublist l)
    (back : [b, a].Sublist l) : False := by
  induction l with
  | nil => cases forth
  | cons x rest ih =>
    obtain ⟨absent, distinct⟩ := List.nodup_cons.mp distinct
    cases forth with
    | cons _ forth =>
      cases back with
      | cons _ back => exact ih distinct forth back
      | cons_cons _ back => exact absent (forth.subset (by simp))
    | cons_cons _ forth =>
      have later : b ∈ rest := List.singleton_sublist.mp forth
      cases back with
      | cons _ back => exact absent (back.subset (by simp))
      | cons_cons _ back => exact absent later

variable {R : α → α → Prop}

/-- The sorted list is in order, and elements that compare alike are in the order of before. -/
theorem pairwise_stable (le : α → α → Prop) [DecidableRel le] [Std.Total le] [IsTrans α le]
    (distinct : l.Nodup) (before : l.Pairwise R) :
    (l.insertionSort le).Pairwise fun a b => le a b ∧ (le b a → R a b) := by
  have sorted := List.pairwise_insertionSort le l
  have once : (l.insertionSort le).Nodup := (List.perm_insertionSort le l).nodup_iff.mpr distinct
  rw [List.pairwise_iff_forall_sublist] at sorted before ⊢
  intro a b pair
  refine ⟨sorted pair, fun back => ?_⟩
  have different : a ≠ b := by
    intro same
    subst same
    exact absurd (once.sublist pair) (by simp)
  have left : a ∈ l := (List.mem_insertionSort le).mp (pair.subset (by simp))
  have right : b ∈ l := (List.mem_insertionSort le).mp (pair.subset (by simp))
  by_cases inOrder : [a, b].Sublist l
  · exact before inOrder
  · have reversed : [b, a].Sublist l := by
      obtain ⟨first, rest, split⟩ := List.append_of_mem left
      subst split
      rcases List.mem_append.mp right with early | late
      · exact (List.singleton_sublist.mpr early).append
          (List.singleton_sublist.mpr (List.mem_cons_self (a := a) (l := rest)))
      · refine absurd ?_ inOrder
        rcases List.mem_cons.mp late with same | later
        · exact absurd same.symm different
        · exact ((List.singleton_sublist.mpr later).cons_cons a).trans
            (List.sublist_append_right first _)
    have kept := List.pair_sublist_insertionSort back reversed
    exact (not_sublist_both once pair kept).elim

end ProgramLogic

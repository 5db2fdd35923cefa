import Mathlib.Data.List.Infix

/-! The first occurrence of a text in another one, and in texts that are joined by a separator. -/
namespace TextSearch
variable {α : Type} [DecidableEq α] {key text rest after : List α} {sep : α}

/-- What comes after the first occurrence of a key. -/
def findAfter (key : List α) : List α → Option (List α)
  | [] => if key = [] then some [] else none
  | c :: text => if key <+: c :: text then some ((c :: text).drop key.length) else findAfter key text

theorem findAfter_isSome (key text : List α) : (findAfter key text).isSome = true ↔ key <:+: text := by
  induction text with
  | nil =>
    simp only [findAfter, List.infix_nil]
    split <;> simp_all
  | cons c text ih =>
    simp only [findAfter, List.infix_cons_iff]
    split <;> simp_all

theorem findAfter_eq_none : findAfter key text = none ↔ ¬ key <:+: text := by
  rw [← findAfter_isSome]
  simp

theorem findAfter_suffix (found : findAfter key text = some after) : after <:+ text := by
  induction text with
  | nil =>
    simp only [findAfter, Option.ite_none_right_eq_some, Option.some.injEq] at found
    rw [← found.2]
  | cons c text ih =>
    simp only [findAfter] at found
    split at found
    · cases found
      exact List.drop_suffix _ _
    · exact (ih found).trans (List.suffix_cons c text)

theorem findAfter_prefix (key rest : List α) : findAfter key (key ++ rest) = some rest := by
  cases whole : key ++ rest with
  | nil => simp_all [findAfter]
  | cons c text =>
    have starts : key <+: c :: text := whole ▸ List.prefix_append key rest
    rw [findAfter, if_pos starts, ← whole, List.drop_left]

omit [DecidableEq α] in
/-- A key without the separator begins in a joined text where it begins in the first part. -/
theorem prefix_append_sep (absent : sep ∉ key) : key <+: text ++ sep :: rest ↔ key <+: text := by
  refine ⟨fun starts => ?_, fun starts => starts.trans (List.prefix_append _ _)⟩
  by_cases short : key.length ≤ text.length
  · exact List.prefix_of_prefix_length_le starts (List.prefix_append _ _) short
  · have whole : text ++ [sep] <+: text ++ sep :: rest := ⟨rest, by simp⟩
    have inside : text ++ [sep] <+: key :=
      List.prefix_of_prefix_length_le whole starts (by simp; omega)
    exact absurd (inside.subset (by simp)) absent

/-- The first occurrence in a joined text is the one in its first part, or the first one in the
rest. -/
theorem findAfter_append_sep (absent : sep ∉ key) (some : key ≠ []) :
    findAfter key (text ++ sep :: rest) =
      ((findAfter key text).map (· ++ sep :: rest)).or (findAfter key rest) := by
  have notFirst : ¬ key <+: sep :: rest := by
    have same := (@prefix_append_sep α key [] rest sep absent).mp
    exact fun starts => some (List.prefix_nil.mp (same starts))
  induction text with
  | nil => simp [findAfter, some, notFirst]
  | cons c text ih =>
    have starts := @prefix_append_sep α key (c :: text) rest sep absent
    simp only [List.cons_append] at starts
    simp only [List.cons_append, findAfter, starts]
    split
    · rename_i here
      have long : key.length ≤ (c :: text).length := here.length_le
      have cut : ((c :: text) ++ sep :: rest).drop key.length =
          (c :: text).drop key.length ++ sep :: rest := List.drop_append_of_le_length long
      simp only [List.cons_append] at cut
      simp [cut]
    · exact ih

end TextSearch

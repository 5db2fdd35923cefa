import Mathlib.Data.List.Basic

/-! Lists whose elements have keys: what is known of each key by itself and of the order of the
keys is known of the list. -/
namespace ProgramLogic
variable {α β κ : Type} [DecidableEq κ]

/-- The keys in order and the elements of each key in order make the list. -/
theorem eq_of_keys {key : α → κ} {l l' : List α} (keys : l.map key = l'.map key)
    (each : ∀ k, l.filter (key · = k) = l'.filter (key · = k)) : l = l' := by
  induction l generalizing l' with
  | nil => exact (List.map_eq_nil_iff.mp keys.symm).symm
  | cons a l ih =>
    cases l' with
    | nil => cases keys
    | cons b l' =>
      obtain ⟨sameKey, restKeys⟩ := List.cons.inj keys
      have first := each (key a)
      simp only [decide_true, List.filter_cons_of_pos, sameKey] at first
      obtain ⟨same, -⟩ := List.cons.inj first
      subst same
      have rest : ∀ k, l.filter (key · = k) = l'.filter (key · = k) := by
        intro k
        have both := each k
        by_cases own : key a = k
        · simpa [own] using both
        · simpa [own] using both
      rw [ih restKeys rest]

/-- The keys say how many elements each key has. -/
theorem length_filter_of_keys {key : α → κ} {l l' : List α} (keys : l.map key = l'.map key)
    (k : κ) : (l.filter (key · = k)).length = (l'.filter (key · = k)).length := by
  have counted : ∀ l : List α,
      (l.filter (key · = k)).length = ((l.map key).filter (· = k)).length := by
    intro l
    rw [List.filter_map, List.length_map]
    rfl
  rw [counted, counted, keys]

/-- Concatenations of lists of equal lengths are equal list by list. -/
theorem flatMap_eq_iff {f g : α → List β} {l : List α}
    (lengths : ∀ a ∈ l, (f a).length = (g a).length) :
    l.flatMap f = l.flatMap g ↔ ∀ a ∈ l, f a = g a := by
  induction l with
  | nil => simp
  | cons a l ih =>
    have rest := ih fun b inside => lengths b (List.mem_cons_of_mem _ inside)
    simp only [List.flatMap_cons, List.forall_mem_cons]
    constructor
    · intro whole
      obtain ⟨first, later⟩ := List.append_inj whole (lengths a List.mem_cons_self)
      exact ⟨first, rest.mp later⟩
    · rintro ⟨first, later⟩
      rw [first, rest.mpr later]

/-- Numbering the lists of a list changes nothing in their concatenation. -/
theorem flatMap_zipIdx (f : α → List β) (l : List α) (i : Nat) :
    ((l.zipIdx i).flatMap fun numbered => f numbered.1) = l.flatMap f := by
  induction l generalizing i with
  | nil => rfl
  | cons a l ih => simp [List.zipIdx_cons, ih]

end ProgramLogic

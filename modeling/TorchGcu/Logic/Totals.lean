import Mathlib.Algebra.Order.BigOperators.Group.List
import Mathlib.Algebra.Order.Ring.Int
import Mathlib.Algebra.Order.Ring.Nat
import Mathlib.Data.List.AList

/-! A total over the parts of a system, and how it moves with one part. -/
namespace ProgramLogic
variable {α : Type}

/-- The sum of a weight over all parts. -/
def total (weight : α → Nat) (parts : List α) : Nat := (parts.map weight).sum

variable {weight weight' : α → Nat} {parts : List α} {i : Nat} {a b : α}

@[simp] theorem total_nil : total weight [] = 0 := rfl

@[simp] theorem total_cons : total weight (a :: parts) = weight a + total weight parts := by
  simp [total]

@[simp] theorem total_append (more : List α) :
    total weight (parts ++ more) = total weight parts + total weight more := by
  simp [total]

/-- What one part loses or gains the total loses or gains. -/
theorem total_set (found : parts[i]? = some a) :
    total weight (parts.set i b) + weight a = total weight parts + weight b := by
  induction parts generalizing i with
  | nil => simp at found
  | cons head rest ih =>
    cases i with
    | zero =>
      simp only [List.getElem?_cons_zero, Option.some.injEq] at found
      subst found
      simp only [List.set_cons_zero, total_cons]
      omega
    | succ i =>
      have moved := ih (i := i) (by simpa using found)
      simp only [List.set_cons_succ, total_cons]
      omega

theorem total_set_of_eq (found : parts[i]? = some a) (same : weight b = weight a) :
    total weight (parts.set i b) = total weight parts := by
  have moved : _ = total weight parts + weight b := total_set found
  omega

/-- A part is no more than the total. -/
theorem le_total (found : parts[i]? = some a) : weight a ≤ total weight parts := by
  exact List.single_le_sum (fun _ _ => Nat.zero_le _) _
    (List.mem_map_of_mem (List.mem_of_getElem? found))

theorem total_perm {parts' : List α} (same : parts.Perm parts') :
    total weight parts = total weight parts' := (same.map weight).sum_eq

theorem total_le_total (le : ∀ part ∈ parts, weight part ≤ weight' part) :
    total weight parts ≤ total weight' parts := by
  induction parts with
  | nil => exact Nat.le_refl 0
  | cons head rest ih =>
    have here := le head List.mem_cons_self
    have there := ih fun part member => le part (List.mem_cons_of_mem _ member)
    simp only [total_cons]
    omega

theorem total_eq_zero (none : ∀ part ∈ parts, weight part = 0) : total weight parts = 0 := by
  induction parts with
  | nil => rfl
  | cons head rest ih =>
    have here := none head List.mem_cons_self
    have there := ih fun part member => none part (List.mem_cons_of_mem _ member)
    simp only [total_cons]
    omega

/-! ### The entries of a map -/

section Entries
variable {κ ν : Type} {weight : ν → Nat} {entries : AList fun _ : κ => ν} {key : κ}
  {value value' : ν}

/-- The sum of a weight over the values of a map. -/
def totalOf (weight : ν → Nat) (entries : AList fun _ : κ => ν) : Nat :=
  total (fun entry => weight entry.2) entries.entries

@[simp] theorem totalOf_empty : totalOf weight (∅ : AList fun _ : κ => ν) = 0 := rfl

variable [DecidableEq κ]

theorem totalOf_erase (found : entries.lookup key = some value) :
    totalOf weight (entries.erase key) + weight value = totalOf weight entries := by
  have member : key ∈ entries.entries.keys := by
    rw [← AList.keys, ← AList.mem_keys, ← AList.lookup_isSome, found]
    rfl
  obtain ⟨value', before, after, absent, split, erased⟩ := List.exists_of_kerase member
  have same : value' = value := by
    have found' : entries.entries.dlookup key = some value' := by
      apply List.mem_dlookup entries.nodupKeys
      simp [split]
    exact Option.some.inj (found'.symm.trans found)
  subst same
  have moved : totalOf weight (entries.erase key)
      = total (fun entry => weight entry.2) (before ++ after) := by
    show total _ (entries.entries.kerase key) = _
    rw [erased]
  have whole : totalOf weight entries
      = total (fun entry => weight entry.2) (before ++ ⟨key, value'⟩ :: after) := by
    simp only [totalOf, split]
  simp only [total_append, total_cons] at moved whole
  omega

theorem totalOf_eq_zero
    (none : ∀ key value, entries.lookup key = some value → weight value = 0) :
    totalOf weight entries = 0 := by
  apply total_eq_zero
  intro ⟨key, value⟩ member
  exact none key value (AList.mem_lookup_iff.mpr member)

theorem totalOf_insert (absent : entries.lookup key = none) :
    totalOf weight (entries.insert key value) = weight value + totalOf weight entries := by
  have inserted := AList.entries_insert_of_notMem (b := value) (AList.lookup_eq_none.mp absent)
  simp only [totalOf, inserted, total_cons]

theorem totalOf_replace (found : entries.lookup key = some value)
    (same : weight value' = weight value) :
    totalOf weight (entries.insert key value') = totalOf weight entries := by
  have erased : _ = totalOf weight entries := totalOf_erase found
  have inserted : totalOf weight (entries.insert key value')
      = weight value' + totalOf weight (entries.erase key) := by
    simp only [totalOf, AList.entries_insert, total_cons]
    rfl
  omega

end Entries
end ProgramLogic

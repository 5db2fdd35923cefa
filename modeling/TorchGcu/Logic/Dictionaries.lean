import TorchGcu.Logic.Totals
import Mathlib.Data.List.Perm.Basic
import Mathlib.Data.List.Flatten

/-! Dictionaries with a default, as lists in the order of insertion. -/
namespace ProgramLogic.Dictionary
variable {κ ν : Type} [DecidableEq κ]

/-- The value of a key, which is `fresh` before it has one. -/
def read (fresh : ν) (key : κ) : List (κ × ν) → ν
  | [] => fresh
  | (k, v) :: rest => if k = key then v else read fresh key rest

/-- The value of a key is changed where it is, or inserted last. -/
def change (fresh : ν) (f : ν → ν) (key : κ) : List (κ × ν) → List (κ × ν)
  | [] => [(key, f fresh)]
  | (k, v) :: rest => if k = key then (k, f v) :: rest else (k, v) :: change fresh f key rest

variable {fresh : ν} {f : ν → ν} {key other : κ} {dict : List (κ × ν)}

theorem read_change : read fresh key (change fresh f key dict) = f (read fresh key dict) := by
  induction dict with
  | nil => simp [read, change]
  | cons entry rest ih =>
    obtain ⟨k, v⟩ := entry
    by_cases same : k = key
    · simp [read, change, same]
    · simp [read, change, same, ih]

theorem read_change_other (different : key ≠ other) :
    read fresh other (change fresh f key dict) = read fresh other dict := by
  induction dict with
  | nil => simp [read, change, different]
  | cons entry rest ih =>
    obtain ⟨k, v⟩ := entry
    by_cases same : k = key
    · subst same
      simp [read, change, different]
    · simp only [read, change, if_neg same, ih]

/-- What the value of a key loses or gains the total loses or gains. -/
theorem total_change (weight : ν → Nat) (none : weight fresh = 0) :
    total (fun entry => weight entry.2) (change fresh f key dict) + weight (read fresh key dict) =
      total (fun entry => weight entry.2) dict + weight (f (read fresh key dict)) := by
  induction dict with
  | nil => simp [read, change, none]
  | cons entry rest ih =>
    obtain ⟨k, v⟩ := entry
    by_cases same : k = key
    · simp only [read, change, if_pos same, total_cons]
      omega
    · simp only [read, change, if_neg same, total_cons]
      omega

/-- The parts of all values, where the change of a value adds one. -/
theorem flatMap_change_perm {α : Type} (parts : ν → List α) {a : α} (none : parts fresh = [])
    (adds : ∀ v, (parts (f v)).Perm (a :: parts v)) :
    ((change fresh f key dict).flatMap fun entry => parts entry.2).Perm
      (a :: dict.flatMap fun entry => parts entry.2) := by
  induction dict with
  | nil => simpa [change, none] using adds fresh
  | cons entry rest ih =>
    obtain ⟨k, v⟩ := entry
    by_cases same : k = key
    · simp only [change, if_pos same, List.flatMap_cons]
      exact (adds v).append_right _
    · simp only [change, if_neg same, List.flatMap_cons]
      exact (ih.append_left _).trans List.perm_middle

end ProgramLogic.Dictionary

import Mathlib.Data.List.Induction
import TorchGcu.Logic.Totals

/-! Tallies: the kinds of keys met so far, each with the number of keys of its kind. A kind
is given by a comparison of keys, which has to be an equivalence only on the keys that are
met. -/
namespace ProgramLogic
variable {α : Type}

/-- A comparison that is an equivalence on the keys with a property. -/
structure Comparison (same : α → α → Bool) (P : α → Prop) : Prop where
  refl : ∀ {a}, P a → same a a = true
  symm : ∀ {a b}, P a → P b → same a b = true → same b a = true
  trans : ∀ {a b c}, P a → P b → P c → same a b = true → same b c = true → same a c = true

namespace Comparison
variable {same : α → α → Bool} {P : α → Prop} {a b c : α}

theorem comm (equiv : Comparison same P) (left : P a) (right : P b) : same a b = same b a := by
  have forth := equiv.symm left right
  have back := equiv.symm right left
  cases first : same a b <;> cases second : same b a <;> simp_all

/-- Keys of one kind compare alike with every other key. -/
theorem congr (equiv : Comparison same P) (left : P a) (right : P b) (other : P c)
    (alike : same a b = true) : same a c = same b c := by
  have forth := equiv.trans right left other (equiv.symm left right alike)
  have back := equiv.trans left right other alike
  cases first : same a c <;> cases second : same b c <;> simp_all

end Comparison

/-- One more key: the first entry of its kind, or a new entry, counts it. -/
def addKey (same : α → α → Bool) (key : α) : List (α × Nat) → List (α × Nat)
  | [] => [(key, 1)]
  | (known, count) :: entries =>
    if same key known then (known, count + 1) :: entries
    else (known, count) :: addKey same key entries

/-- The tally of a list of keys, the last of which is the latest. -/
def tally (same : α → α → Bool) (keys : List α) : List (α × Nat) :=
  keys.foldl (fun entries key => addKey same key entries) []

variable {same : α → α → Bool} {P : α → Prop} {keys : List α} {key : α} {entries : List (α × Nat)}

@[simp] theorem tally_nil : tally same [] = [] := rfl

@[simp] theorem tally_append_one : tally same (keys ++ [key]) = addKey same key (tally same keys) := by
  simp [tally]

theorem total_addKey : total Prod.snd (addKey same key entries) = total Prod.snd entries + 1 := by
  induction entries with
  | nil => rfl
  | cons entry entries ih =>
    simp only [addKey]
    split
    · simp only [total_cons]
      omega
    · simp only [total_cons, ih]
      omega

/-- The counts of a tally sum to the number of keys. -/
theorem total_tally : total Prod.snd (tally same keys) = keys.length := by
  induction keys using List.reverseRecOn with
  | nil => rfl
  | append_singleton keys key ih => simp [total_addKey, ih]

/-- The entries of a tally are of different kinds, and each counts the keys of its kind. -/
structure Counted (same : α → α → Bool) (keys : List α) (entries : List (α × Nat)) : Prop where
  known : ∀ entry ∈ entries, entry.1 ∈ keys
  different : entries.Pairwise fun entry other => same entry.1 other.1 = false
  counts : ∀ entry ∈ entries, entry.2 = keys.countP fun key => same entry.1 key
  complete : ∀ key ∈ keys, ∃ entry ∈ entries, same key entry.1 = true

/-- A key of a kind not met before gets an entry of its own. -/
theorem addKey_of_new (new : ∀ entry ∈ entries, same key entry.1 = false) :
    addKey same key entries = entries ++ [(key, 1)] := by
  induction entries with
  | nil => rfl
  | cons head entries ih =>
    obtain ⟨here, there⟩ := List.forall_mem_cons.mp new
    simp [addKey, here, ih there]

/-- One more for the entries a key is counted by. -/
def countOne (same : α → α → Bool) (key : α) (entry : α × Nat) : α × Nat :=
  (entry.1, if same key entry.1 then entry.2 + 1 else entry.2)

/-- A key of a kind met before is counted by every entry of its kind: there is but one. -/
theorem addKey_of_known (equiv : Comparison same P) (met : P key)
    (all : ∀ entry ∈ entries, P entry.1)
    (different : entries.Pairwise fun entry other => same entry.1 other.1 = false)
    (known : ∃ entry ∈ entries, same key entry.1 = true) :
    addKey same key entries = entries.map (countOne same key) := by
  induction entries with
  | nil => simp at known
  | cons head entries ih =>
    obtain ⟨here, there⟩ := List.forall_mem_cons.mp all
    obtain ⟨apart, different⟩ := List.pairwise_cons.mp different
    by_cases alike : same key head.1 = true
    · have others : entries.map (countOne same key) = entries := by
        refine (List.map_congr_left fun entry mem => ?_).trans (List.map_id entries)
        have unlike : same key entry.1 = false := by
          rw [equiv.congr met here (there entry mem) alike]
          exact apart entry mem
        simp [countOne, unlike]
      simp [addKey, alike, countOne, others]
    · have rest : ∃ entry ∈ entries, same key entry.1 = true := by
        obtain ⟨entry, mem, same⟩ := known
        rcases List.mem_cons.mp mem with rfl | mem
        · exact absurd same alike
        · exact ⟨entry, mem, same⟩
      simp [addKey, alike, countOne, ih there different rest]

/-- A step of a tally. -/
theorem Counted.add (equiv : Comparison same P) (met : P key) (all : ∀ key ∈ keys, P key)
    (counted : Counted same keys entries) :
    Counted same (keys ++ [key]) (addKey same key entries) := by
  have met_known : ∀ entry ∈ entries, P entry.1 :=
    fun entry mem => all _ (counted.known entry mem)
  by_cases known : ∃ entry ∈ entries, same key entry.1 = true
  · rw [addKey_of_known equiv met met_known counted.different known]
    refine ⟨?_, ?_, ?_, ?_⟩
    · intro entry mem
      obtain ⟨old, old_mem, rfl⟩ := List.mem_map.mp mem
      exact List.mem_append_left _ (counted.known old old_mem)
    · exact List.pairwise_map.mpr counted.different
    · intro entry mem
      obtain ⟨old, old_mem, rfl⟩ := List.mem_map.mp mem
      have before := counted.counts old old_mem
      have turned := equiv.comm met (met_known old old_mem)
      simp only [countOne, List.countP_append, List.countP_singleton, turned, before]
      split <;> rfl
    · intro other mem
      rcases List.mem_append.mp mem with mem | mem
      · obtain ⟨entry, mem, alike⟩ := counted.complete other mem
        exact ⟨_, List.mem_map_of_mem mem, alike⟩
      · obtain rfl := List.mem_singleton.mp mem
        obtain ⟨entry, mem, alike⟩ := known
        exact ⟨_, List.mem_map_of_mem mem, alike⟩
  · have new : ∀ entry ∈ entries, same key entry.1 = false :=
      fun entry mem => by simpa using fun alike => known ⟨entry, mem, alike⟩
    rw [addKey_of_new new]
    refine ⟨?_, ?_, ?_, ?_⟩
    · intro entry mem
      rcases List.mem_append.mp mem with mem | mem
      · exact List.mem_append_left _ (counted.known entry mem)
      · obtain rfl := List.mem_singleton.mp mem
        exact List.mem_append_right _ (List.mem_singleton_self _)
    · refine List.pairwise_append.mpr ⟨counted.different, List.pairwise_singleton _ _, ?_⟩
      intro entry mem added added_mem
      obtain rfl := List.mem_singleton.mp added_mem
      rw [equiv.comm (met_known entry mem) met]
      exact new entry mem
    · intro entry mem
      rcases List.mem_append.mp mem with mem | mem
      · have before := counted.counts entry mem
        have apart : same entry.1 key = false := by
          rw [equiv.comm (met_known entry mem) met]
          exact new entry mem
        simp [before, apart]
      · obtain rfl := List.mem_singleton.mp mem
        have none_before : keys.countP (fun other => same key other) = 0 := by
          refine List.countP_eq_zero.mpr fun other mem alike => ?_
          obtain ⟨entry, entry_mem, kind⟩ := counted.complete other mem
          have same_kind := equiv.trans met (all other mem) (met_known entry entry_mem) alike kind
          simp [new entry entry_mem] at same_kind
        simp [none_before, equiv.refl met]
    · intro other mem
      rcases List.mem_append.mp mem with mem | mem
      · obtain ⟨entry, mem, alike⟩ := counted.complete other mem
        exact ⟨entry, List.mem_append_left _ mem, alike⟩
      · obtain rfl := List.mem_singleton.mp mem
        exact ⟨_, List.mem_append_right _ (List.mem_singleton_self _), equiv.refl met⟩

/-- Each key is counted by exactly one entry. -/
theorem Counted.one (equiv : Comparison same P) (all : ∀ key ∈ keys, P key)
    (counted : Counted same keys entries) (mem : key ∈ keys) :
    entries.countP (fun entry => same key entry.1) = 1 := by
  obtain ⟨entry, entry_mem, alike⟩ := counted.complete key mem
  have met_known : ∀ entry ∈ entries, P entry.1 :=
    fun entry mem => all _ (counted.known entry mem)
  have different := counted.different
  clear counted
  induction entries with
  | nil => simp at entry_mem
  | cons head entries ih =>
    obtain ⟨here, there⟩ := List.forall_mem_cons.mp met_known
    obtain ⟨apart, different⟩ := List.pairwise_cons.mp different
    rcases List.mem_cons.mp entry_mem with rfl | entry_mem
    · have others : entries.countP (fun other => same key other.1) = 0 := by
        refine List.countP_eq_zero.mpr fun other other_mem again => ?_
        rw [equiv.congr (all key mem) here (there other other_mem) alike] at again
        simp [apart other other_mem] at again
      simp [others, alike]
    · have unlike : same key head.1 = false := by
        rw [equiv.congr (all key mem) (there entry entry_mem) here alike,
          equiv.comm (there entry entry_mem) here]
        exact apart entry entry_mem
      simp [unlike, ih entry_mem there different]

/-- The tally of keys on which the comparison is an equivalence counts each kind once. -/
theorem tally_counted (equiv : Comparison same P) (all : ∀ key ∈ keys, P key) :
    Counted same keys (tally same keys) := by
  induction keys using List.reverseRecOn with
  | nil => exact ⟨by simp, by simp, by simp, by simp⟩
  | append_singleton keys key ih =>
    obtain ⟨before, now⟩ := List.forall_mem_append.mp all
    rw [tally_append_one]
    exact (ih before).add equiv (now key (List.mem_singleton_self _)) before

end ProgramLogic

import Mathlib.Algebra.Order.Ring.Int
import Mathlib.Data.List.AList
import TorchGcu.Statistics.Params

/-! The table of recorded operator calls. -/
namespace TorchGcu.Statistics
open ProgramLogic
variable {V Schema : Type} [DecidableEq Schema]

/-- `std::unordered_map<Params, int>`: keys with their counts. -/
abbrev ParamMap (V : Type) := List (Params V × BitVec 32)

structure OpEntry (V : Type) where
  paramMap : ParamMap V := []
  totalCount : BitVec 64 := 0

abbrev OpMap (Schema V : Type) := AList fun _ : Schema => OpEntry V

/-- A call to record: the schema of the operator and its parameters. -/
abbrev Call (Schema V : Type) := Schema × Params V

namespace Torch
variable (torch : Torch V)

/-- What makes a key of an unordered map the one that is looked up: its hash and `equal_to`. -/
def isKey (param key : Params V) : Bool :=
  torch.hashParams param == torch.hashParams key && torch.equalTo param key

def count (param : Params V) (paramMap : ParamMap V) : Bool :=
  paramMap.any fun entry => torch.isKey param entry.1

/-- `param_map[param]++` of a key that is there. -/
def increment (param : Params V) : ParamMap V → ParamMap V
  | [] => []
  | (key, count) :: entries =>
    if torch.isKey param key then (key, count + 1) :: entries
    else (key, count) :: increment param entries

/-- What `OpStatistics::record` does to the entry of a schema. -/
def recordParam (param : Params V) (entry : OpEntry V) : OpEntry V where
  paramMap :=
    if !torch.count param entry.paramMap then entry.paramMap ++ [(param, 1)]
    else torch.increment param entry.paramMap
  totalCount := entry.totalCount + 1

/-- `OpStatistics::record`. -/
def record (opMap : OpMap Schema V) (call : Call Schema V) : OpMap Schema V :=
  -- 1. Insert op_schema
  let opMap := if call.1 ∈ opMap then opMap else opMap.insert call.1 {}
  -- 2. Insert param
  let opEntry := (opMap.lookup call.1).getD {}
  opMap.insert call.1 (torch.recordParam call.2 opEntry)

/-- The table after calls of `record` from all threads, in the order they took the lock. -/
def recordAll (calls : List (Call Schema V)) : OpMap Schema V := calls.foldl torch.record ∅

end Torch

/-! ### What the table is for -/

/-- The parameters recorded for a schema. -/
def recordsOf (schema : Schema) (calls : List (Call Schema V)) : List (Params V) :=
  (calls.filter fun call => call.1 = schema).map Prod.snd

/-- The number of records of parameters equal to given ones. -/
def recordCount (torch : Torch V) (param : Params V) (records : List (Params V)) : Nat :=
  records.countP fun other => torch.equalTo param other

/-- An entry that is the multiset of its records. -/
structure ExactEntry (torch : Torch V) (records : List (Params V)) (entry : OpEntry V) : Prop where
  recorded : ∀ found ∈ entry.paramMap, found.1 ∈ records
  one : ∀ param ∈ records, entry.paramMap.countP (fun found => torch.equalTo param found.1) = 1
  counts : ∀ found ∈ entry.paramMap, found.2.toInt = recordCount torch found.1 records
  sum : (entry.paramMap.map fun found => found.2.toInt).sum = entry.totalCount.toNat
  total : entry.totalCount.toNat = records.length

/-- A table with an exact entry for every schema that is recorded, and no other entries. -/
structure Exact (torch : Torch V) (calls : List (Call Schema V)) (opMap : OpMap Schema V) :
    Prop where
  schemas : ∀ schema, schema ∈ opMap ↔ recordsOf schema calls ≠ []
  entries : ∀ schema entry, opMap.lookup schema = some entry →
    ExactEntry torch (recordsOf schema calls) entry

/-! ### The entry of a schema is a tally -/

variable {torch : Torch V} {records : List (Params V)} {param : Params V} {schema : Schema}
variable {calls : List (Call Schema V)} {call : Call Schema V} {opMap : OpMap Schema V}

/-- Counts as the table holds them. -/
def heldCounts (entries : List (Params V × Nat)) : ParamMap V :=
  entries.map fun entry => (entry.1, BitVec.ofNat 32 entry.2)

@[simp] theorem heldCounts_cons {entry : Params V × Nat} {entries : List (Params V × Nat)} :
    heldCounts (entry :: entries) = (entry.1, BitVec.ofNat 32 entry.2) :: heldCounts entries := rfl

@[simp] theorem count_cons {found : Params V × BitVec 32} {paramMap : ParamMap V} :
    torch.count param (found :: paramMap) =
      (torch.isKey param found.1 || torch.count param paramMap) := rfl

/-- Insertion and increment together are the step of a tally. -/
theorem recordParam_paramMap {entries : List (Params V × Nat)} {entry : OpEntry V}
    (held : entry.paramMap = heldCounts entries) :
    (torch.recordParam param entry).paramMap = heldCounts (addKey torch.isKey param entries) := by
  simp only [Torch.recordParam, held]
  clear held
  induction entries with
  | nil => rfl
  | cons head entries ih =>
    by_cases key : torch.isKey param head.1 = true
    · simp [Torch.increment, addKey, key, BitVec.ofNat_add]
    · simp only [Torch.increment, addKey, key, heldCounts_cons, count_cons, Bool.false_or,
        Bool.false_eq_true, if_false, ← ih]
      split <;> rfl

/-- The entry after the records of its schema. -/
def entryOf (torch : Torch V) (records : List (Params V)) : OpEntry V :=
  records.foldl (fun entry param => torch.recordParam param entry) {}

theorem entryOf_append : entryOf torch (records ++ [param]) =
    torch.recordParam param (entryOf torch records) := by
  simp [entryOf]

theorem entryOf_paramMap :
    (entryOf torch records).paramMap = heldCounts (tally torch.isKey records) := by
  induction records using List.reverseRecOn with
  | nil => rfl
  | append_singleton records param ih =>
    rw [entryOf_append, tally_append_one]
    exact recordParam_paramMap ih

theorem entryOf_totalCount :
    (entryOf torch records).totalCount = BitVec.ofNat 64 records.length := by
  induction records using List.reverseRecOn with
  | nil => rfl
  | append_singleton records param ih =>
    rw [entryOf_append]
    simp [Torch.recordParam, ih, BitVec.ofNat_add]

theorem recordsOf_append : recordsOf schema (calls ++ [call]) =
    recordsOf schema calls ++ (if call.1 = schema then [call.2] else []) := by
  by_cases same : call.1 = schema <;> simp [recordsOf, same]

theorem recordsOf_length (schema : Schema) (calls : List (Call Schema V)) :
    (recordsOf schema calls).length ≤ calls.length := by
  simpa [recordsOf] using List.length_filter_le _ calls

/-- A record changes the entry of its schema and no other. -/
theorem record_lookup : (torch.record opMap call).lookup schema =
    if call.1 = schema then some (torch.recordParam call.2 ((opMap.lookup schema).getD {}))
    else opMap.lookup schema := by
  by_cases same : call.1 = schema
  · subst same
    by_cases mem : call.1 ∈ opMap
    · simp [Torch.record, mem]
    · simp [Torch.record, mem, AList.lookup_eq_none.mpr mem]
  · have other : schema ≠ call.1 := fun eq => same eq.symm
    by_cases mem : call.1 ∈ opMap <;> simp [Torch.record, mem, same, other, AList.lookup_insert_ne]

/-- Every schema has the entry its records make, if it has any. -/
theorem recordAll_lookup : (torch.recordAll calls).lookup schema =
    if recordsOf schema calls = [] then none else some (entryOf torch (recordsOf schema calls)) := by
  induction calls using List.reverseRecOn with
  | nil => rfl
  | append_singleton calls call ih =>
    have step : torch.recordAll (calls ++ [call]) = torch.record (torch.recordAll calls) call := by
      simp [Torch.recordAll]
    rw [step, record_lookup, ih, recordsOf_append]
    by_cases same : call.1 = schema
    · by_cases first : recordsOf schema calls = []
      · simp [same, first, entryOf]
      · simp [same, first, entryOf_append]
    · simp [same]

/-! ### Exact entries -/

theorem isKey_of_comparable (lawful : torch.Lawful) {lhs rhs : Params V}
    (comparable : torch.Comparable lhs) : torch.isKey lhs rhs = torch.equalTo lhs rhs := by
  by_cases same : torch.equalTo lhs rhs = true
  · simp [Torch.isKey, same, Torch.hashParams_congr lawful comparable same]
  · simp [Torch.isKey, same]

theorem isKey_comparison (lawful : torch.Lawful) :
    Comparison torch.isKey torch.Comparable where
  refl left := by
    rw [isKey_of_comparable lawful left]
    exact (Torch.equalTo_comparison lawful).refl left
  symm left right := by
    rw [isKey_of_comparable lawful left, isKey_of_comparable lawful right]
    exact (Torch.equalTo_comparison lawful).symm left right
  trans left middle right := by
    rw [isKey_of_comparable lawful left, isKey_of_comparable lawful middle,
      isKey_of_comparable lawful left]
    exact (Torch.equalTo_comparison lawful).trans left middle right

theorem toInt_ofNat {n : Nat} (small : n < 2 ^ 31) : (BitVec.ofNat 32 n).toInt = n := by
  rw [BitVec.toInt_eq_toNat_of_lt] <;> simp <;> omega

theorem entryOf_exact (lawful : torch.Lawful)
    (comparable : ∀ param ∈ records, torch.Comparable param)
    (countable : ∀ param ∈ records, recordCount torch param records < 2 ^ 31)
    (bounded : records.length < 2 ^ 64) : ExactEntry torch records (entryOf torch records) := by
  have equiv := isKey_comparison lawful
  have counted := tally_counted equiv comparable
  have count_eq : ∀ entry ∈ tally torch.isKey records,
      entry.2 = recordCount torch entry.1 records := by
    intro entry mem
    rw [counted.counts entry mem]
    refine List.countP_congr fun other _ => ?_
    rw [isKey_of_comparable lawful (comparable _ (counted.known entry mem))]
  have held_count : ∀ entry ∈ tally torch.isKey records,
      (BitVec.ofNat 32 entry.2).toInt = entry.2 := by
    intro entry mem
    rw [count_eq entry mem]
    exact toInt_ofNat (countable _ (counted.known entry mem))
  have total_eq : (entryOf torch records).totalCount.toNat = records.length := by
    rw [entryOf_totalCount, BitVec.toNat_ofNat, Nat.mod_eq_of_lt bounded]
  have found_iff : ∀ found, found ∈ (entryOf torch records).paramMap ↔
      ∃ entry ∈ tally torch.isKey records, (entry.1, BitVec.ofNat 32 entry.2) = found := by
    simp [entryOf_paramMap, heldCounts]
  refine ⟨?_, ?_, ?_, ?_, total_eq⟩
  · intro found found_mem
    obtain ⟨entry, mem, rfl⟩ := (found_iff found).mp found_mem
    exact counted.known entry mem
  · intro param mem
    have once := counted.one equiv comparable mem
    rw [entryOf_paramMap, heldCounts, List.countP_map, ← once]
    refine List.countP_congr fun entry _ => ?_
    simp [isKey_of_comparable lawful (comparable param mem)]
  · intro found found_mem
    obtain ⟨entry, mem, rfl⟩ := (found_iff found).mp found_mem
    rw [held_count entry mem, count_eq entry mem]
  · have sum : total Prod.snd (tally torch.isKey records) = records.length := total_tally
    rw [total_eq, ← sum, entryOf_paramMap, heldCounts, List.map_map, total]
    have same : (tally torch.isKey records).map ((fun found => found.2.toInt) ∘
        fun entry => (entry.1, BitVec.ofNat 32 entry.2)) =
        (tally torch.isKey records).map fun entry => (entry.2 : Int) :=
      List.map_congr_left held_count
    rw [same]
    induction tally torch.isKey records with
    | nil => rfl
    | cons entry entries ih => simp [ih]

/-- The comparison is reflexive exactly on parameters without a storage or a value unequal to
itself, and among these it is an equivalence that the hash is congruent with. A table of such
records is their exact multiset, as long as its counts have not wrapped. -/
theorem statistics_are_exact (lawful : torch.Lawful) :
    (∀ params, torch.equalTo params params = true ↔ torch.Comparable params) ∧
      (∀ lhs rhs, torch.equalTo lhs rhs = true → torch.equalTo rhs lhs = true) ∧
      (∀ a b c, torch.Comparable a → torch.equalTo a b = true → torch.equalTo b c = true →
        torch.equalTo a c = true) ∧
      (∀ lhs rhs, torch.Comparable lhs → torch.equalTo lhs rhs = true →
        torch.hashParams lhs = torch.hashParams rhs) ∧
      ∀ calls : List (Call Schema V), (∀ call ∈ calls, torch.Comparable call.2) →
        (∀ call ∈ calls, recordCount torch call.2 (recordsOf call.1 calls) < 2 ^ 31) →
        (∀ schema, (recordsOf schema calls).length < 2 ^ 64) →
        Exact torch calls (torch.recordAll calls) := by
  refine ⟨Torch.equalTo_self, fun _ _ => Torch.equalTo_symm lawful,
    fun _ _ _ comparable => Torch.equalTo_trans lawful comparable,
    fun _ _ comparable => Torch.hashParams_congr lawful comparable, ?_⟩
  intro calls comparable countable bounded
  have recorded {schema : Schema} {param : Params V} (mem : param ∈ recordsOf schema calls) :
      (schema, param) ∈ calls := by
    simpa [recordsOf] using mem
  refine ⟨fun schema => ?_, fun schema entry found => ?_⟩
  · rw [← AList.lookup_isSome, recordAll_lookup]
    split <;> simp [*]
  · rw [recordAll_lookup] at found
    split at found
    · exact absurd found nofun
    · obtain rfl := Option.some.inj found
      exact entryOf_exact lawful (fun _ mem => comparable _ (recorded mem))
        (fun _ mem => countable _ (recorded mem)) (bounded schema)

/-! ### Integers and lists of integers -/

mutual
def sameIvalue : IValue Int → IValue Int → Bool
  | .list h xs, .list k ys => h == k && sameElements xs ys
  | .other a, .other b => a == b
  | .list _ _, .other _ => false
  | .other _, .list _ _ => false

def sameElements : List (IValue Int) → List (IValue Int) → Bool
  | [], [] => true
  | x :: xs, y :: ys => sameIvalue x y && sameElements xs ys
  | [], _ :: _ => false
  | _ :: _, [] => false
end

mutual
theorem sameIvalue_iff : (a b : IValue Int) → (sameIvalue a b = true ↔ a = b)
  | .list h xs, .list k ys => by simp [sameIvalue, sameElements_iff xs ys]
  | .other a, .other b => by simp [sameIvalue]
  | .list _ _, .other _ => by simp [sameIvalue]
  | .other _, .list _ _ => by simp [sameIvalue]

theorem sameElements_iff : (xs ys : List (IValue Int)) → (sameElements xs ys = true ↔ xs = ys)
  | [], [] => by simp [sameElements]
  | x :: xs, y :: ys => by simp [sameElements, sameIvalue_iff x y, sameElements_iff xs ys]
  | [], _ :: _ => by simp [sameElements]
  | _ :: _, [] => by simp [sameElements]
end

/-- Hashes that combine as torch combines them, with every number as its own hash. -/
def intTorch : Torch Int where
  hashCombine seed value := seed ^^^ (value + 0x9e3779b9 + (seed <<< 6) + (seed >>> 2))
  hashInts := List.foldl (fun seed value =>
    seed ^^^ (value + 0x9e3779b9 + (seed <<< 6) + (seed >>> 2))) 0
  hashScalarType t := BitVec.ofNat 64 t.ctorIdx
  hashSize n := n
  hashBool b := if b then 1 else 0
  hashValue n := BitVec.ofInt 64 n
  equal := sameIvalue

theorem intTorch_lawful : intTorch.Lawful where
  symm same := (sameIvalue_iff _ _).mpr ((sameIvalue_iff _ _).mp same).symm
  trans first second := (sameIvalue_iff _ _).mpr
    (((sameIvalue_iff _ _).mp first).trans ((sameIvalue_iff _ _).mp second))
  hash_other same := by
    cases (sameIvalue_iff _ _).mp same
    rfl
  lists same := by
    cases (sameIvalue_iff _ _).mp same
    exact .inl rfl
  list_other := by simp [intTorch, sameIvalue]

/-- An operator on a float tensor and an integer, recorded twice, and once on another tensor. -/
def someCalls : List (Call String Int) :=
  let t : TensorInfo := ⟨true, .float, [2, 3], [3, 1], true⟩
  let u : TensorInfo := ⟨true, .half, [2], [1], true⟩
  [("aten::add", [.tensor t, .ivalue (.other 1)]), ("aten::add", [.tensor u, .ivalue (.other 1)]),
    ("aten::add", [.tensor t, .ivalue (.other 1)])]

theorem someCalls_comparable : ∀ call ∈ someCalls, intTorch.Comparable call.2 := by
  simp [someCalls, Torch.Comparable, Torch.comparableParam, intTorch, sameIvalue]

theorem statistics_are_exact_some : Exact intTorch someCalls (intTorch.recordAll someCalls) := by
  refine (@statistics_are_exact Int String _ _ intTorch_lawful).2.2.2.2 someCalls
    someCalls_comparable ?_ ?_
  · intro call _
    have few := recordsOf_length call.1 someCalls
    have counted := List.countP_le_length (l := recordsOf call.1 someCalls)
      (p := fun other => intTorch.equalTo call.2 other)
    simp only [recordCount, someCalls, List.length_cons, List.length_nil] at few counted ⊢
    omega
  · intro schema
    have few := recordsOf_length schema someCalls
    simp only [someCalls, List.length_cons, List.length_nil] at few ⊢
    omega

/-- A storage of 16 bytes, given to one operator twice. -/
def storageCalls : List (Call String Int) :=
  [("aten::set_", [.storage ⟨16, true⟩]), ("aten::set_", [.storage ⟨16, true⟩])]

/-- Parameters with a storage are not equal to themselves: recorded twice they have two entries,
and the table is not exact. -/
theorem equal_storages_are_recorded_apart :
    intTorch.equalTo [.storage ⟨16, true⟩] [.storage ⟨16, true⟩] = false ∧
      ((intTorch.recordAll storageCalls).lookup "aten::set_").map
          (fun entry => entry.paramMap.map Prod.snd) = some [1, 1] ∧
      ¬ Exact intTorch storageCalls (intTorch.recordAll storageCalls) := by
  refine ⟨by decide, by decide, fun exact => ?_⟩
  have entry := exact.entries "aten::set_" (entryOf intTorch (storageCalls.map Prod.snd))
    (by rw [recordAll_lookup]; rfl)
  exact absurd (entry.one [.storage ⟨16, true⟩] (by simp [recordsOf, storageCalls])) (by decide)

end TorchGcu.Statistics

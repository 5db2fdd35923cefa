import TorchGcu.Logic.GreedyLabels
import TorchGcu.Profiler.DataFlow

/-! When tensor IDs are the connected components of the observations. One pass over the sorted
pairs gives a version the ID of a version that it is paired with and that began earlier, so that a
component in which two versions have no such neighbour gets two IDs. -/
namespace TorchGcu.DataFlow

/-! ### Versions of storages -/

/-- The storage is freed by one of the observations from `i` to before `j`. -/
def Freed (tensors : List RawTensorInfo) (key : Nat × Device) (i j : Nat) : Prop :=
  ∃ k t, i ≤ k ∧ k < j ∧ tensors[k]? = some t ∧ t.isFree = true ∧ t.key = key

/-- Two observations see one storage with no free between them. -/
def SameVersion (tensors : List RawTensorInfo) (i j : Nat) : Prop :=
  ∃ t u, tensors[i]? = some t ∧ tensors[j]? = some u ∧ t.key = u.key ∧
    ¬ Freed tensors t.key (min i j) (max i j)

/-- What the map of versions and the counter keep to. -/
structure Counted (versions : Nat × Device → Option Nat) (counter : Nat) : Prop where
  below : ∀ key id, versions key = some id → id < counter
  injective : ∀ key key' id, versions key = some id → versions key' = some id → key = key'

section Assign
variable {versions : Nat × Device → Option Nat} {counter : Nat} {t : RawTensorInfo}
  {tensors : List RawTensorInfo}

def nextId (versions : Nat × Device → Option Nat) (counter : Nat) (t : RawTensorInfo) : Nat :=
  (versions t.key).getD counter

def nextCounter (versions : Nat × Device → Option Nat) (counter : Nat) (t : RawTensorInfo) : Nat :=
  if (versions t.key).isSome then counter else counter + 1

def nextVersions (versions : Nat × Device → Option Nat) (counter : Nat) (t : RawTensorInfo) :
    Nat × Device → Option Nat := fun key =>
  if key = t.key then if t.isFree then none else some (nextId versions counter t) else versions key

theorem assign_cons : assignAllocationIds versions counter (t :: tensors) =
    nextId versions counter t :: assignAllocationIds (nextVersions versions counter t)
      (nextCounter versions counter t) tensors := rfl

theorem counter_le : counter ≤ nextCounter versions counter t := by
  unfold nextCounter
  split <;> omega

theorem Counted.id_lt (counted : Counted versions counter) :
    nextId versions counter t < nextCounter versions counter t := by
  unfold nextId nextCounter
  cases found : versions t.key with
  | none => simp
  | some id =>
    have below := counted.below _ _ found
    simpa using below

/-- Another storage does not have the ID. -/
theorem Counted.other (counted : Counted versions counter) {key : Nat × Device}
    (apart : key ≠ t.key) : versions key ≠ some (nextId versions counter t) := by
  intro same
  unfold nextId at same
  cases found : versions t.key with
  | none =>
    rw [found, Option.getD_none] at same
    exact absurd (counted.below _ _ same) (Nat.lt_irrefl _)
  | some id =>
    rw [found, Option.getD_some] at same
    exact apart (counted.injective _ _ _ same found)

theorem Counted.next (counted : Counted versions counter) (t : RawTensorInfo) :
    Counted (nextVersions versions counter t) (nextCounter versions counter t) := by
  have live : ∀ key id, nextVersions versions counter t key = some id →
      (key = t.key ∧ id = nextId versions counter t) ∨ (key ≠ t.key ∧ versions key = some id) := by
    intro key id found
    unfold nextVersions at found
    split at found
    · rename_i same
      split at found
      · cases found
      · exact .inl ⟨same, (Option.some.inj found).symm⟩
    · rename_i apart
      exact .inr ⟨apart, found⟩
  refine ⟨fun key id found => ?_, fun key key' id found found' => ?_⟩
  · rcases live key id found with ⟨-, rfl⟩ | ⟨-, old⟩
    · exact counted.id_lt
    · exact Nat.lt_of_lt_of_le (counted.below _ _ old) counter_le
  · rcases live key id found with ⟨same, rfl⟩ | ⟨apart, old⟩
    · rcases live key' _ found' with ⟨same', -⟩ | ⟨apart', old'⟩
      · exact same.trans same'.symm
      · exact absurd old' (counted.other apart')
    · rcases live key' id found' with ⟨same', rfl⟩ | ⟨apart', old'⟩
      · exact absurd old (counted.other apart)
      · exact counted.injective _ _ _ old old'

/-- Nothing is freed in an empty range. -/
theorem not_freed_self (tensors : List RawTensorInfo) (key : Nat × Device) (i : Nat) :
    ¬ Freed tensors key i i := fun ⟨_, _, low, high, _⟩ => absurd high (Nat.not_lt.mpr low)

theorem freed_cons_succ {key : Nat × Device} {i j : Nat} :
    Freed (t :: tensors) key (i + 1) (j + 1) ↔ Freed tensors key i j := by
  constructor
  · rintro ⟨k, u, low, high, found, free⟩
    obtain ⟨k, rfl⟩ := Nat.exists_eq_succ_of_ne_zero (Nat.ne_of_gt (Nat.lt_of_lt_of_le (Nat.succ_pos i) low))
    exact ⟨k, u, Nat.le_of_succ_le_succ low, Nat.lt_of_succ_lt_succ high, found, free⟩
  · rintro ⟨k, u, low, high, found, free⟩
    exact ⟨k + 1, u, Nat.succ_le_succ low, Nat.succ_lt_succ high, found, free⟩

theorem freed_cons_zero {key : Nat × Device} {j : Nat} : Freed (t :: tensors) key 0 (j + 1) ↔
    (t.isFree = true ∧ t.key = key) ∨ Freed tensors key 0 j := by
  constructor
  · rintro ⟨k, u, low, high, found, free⟩
    cases k with
    | zero =>
      obtain rfl := Option.some.inj found
      exact .inl free
    | succ k => exact .inr ⟨k, u, Nat.zero_le k, Nat.lt_of_succ_lt_succ high, found, free⟩
  · rintro (free | ⟨k, u, low, high, found, free⟩)
    · exact ⟨0, t, Nat.le_refl 0, Nat.succ_pos j, rfl, free⟩
    · exact ⟨k + 1, u, Nat.zero_le _, Nat.succ_lt_succ high, found, free⟩

theorem length_assign : (assignAllocationIds versions counter tensors).length = tensors.length := by
  induction tensors generalizing versions counter with
  | nil => rfl
  | cons t tensors ih => rw [assign_cons, List.length_cons, ih, List.length_cons]

theorem nextId_old {id : Nat} (old : id < counter) :
    nextId versions counter t = id ↔ versions t.key = some id := by
  unfold nextId
  cases versions t.key with
  | none =>
    simp only [Option.getD_none, reduceCtorEq, iff_false]
    omega
  | some other => simp

theorem nextVersions_old {key : Nat × Device} {id : Nat} (old : id < counter) :
    nextVersions versions counter t key = some id ↔
      versions key = some id ∧ ¬ (t.isFree = true ∧ t.key = key) := by
  unfold nextVersions
  by_cases same : key = t.key
  · subst same
    rw [if_pos rfl]
    cases t.isFree <;> simp [nextId_old old]
  · have apart : t.key ≠ key := fun equal => same equal.symm
    simp [same, apart]

/-- An observation has an ID from before exactly when its storage had it and is not freed. -/
theorem assign_old {i id : Nat} (old : id < counter) :
    (assignAllocationIds versions counter tensors)[i]? = some id ↔
      ∃ u, tensors[i]? = some u ∧ versions u.key = some id ∧ ¬ Freed tensors u.key 0 i := by
  induction tensors generalizing versions counter i with
  | nil => simp [assignAllocationIds]
  | cons t tensors ih =>
    rw [assign_cons]
    cases i with
    | zero =>
      simp only [List.getElem?_cons_zero, Option.some.injEq, nextId_old old]
      constructor
      · intro found
        exact ⟨t, rfl, found, not_freed_self _ _ 0⟩
      · rintro ⟨u, rfl, found, -⟩
        exact found
    | succ i =>
      simp only [List.getElem?_cons_succ, ih (Nat.lt_of_lt_of_le old counter_le),
        nextVersions_old old, freed_cons_zero, not_or, and_assoc]

theorem SameVersion.symm {i j : Nat} (same : SameVersion tensors i j) : SameVersion tensors j i := by
  obtain ⟨t, u, first, second, key, open_⟩ := same
  exact ⟨u, t, second, first, key.symm, by rwa [Nat.min_comm, Nat.max_comm, ← key]⟩

theorem sameVersion_self {i : Nat} (found : tensors[i]? = some t) : SameVersion tensors i i :=
  ⟨t, t, found, found, rfl, by rw [Nat.min_self, Nat.max_self]; exact not_freed_self _ _ i⟩

theorem sameVersion_cons_succ {i j : Nat} :
    SameVersion (t :: tensors) (i + 1) (j + 1) ↔ SameVersion tensors i j := by
  simp only [SameVersion, List.getElem?_cons_succ, Nat.succ_min_succ, Nat.succ_max_succ,
    freed_cons_succ]

theorem sameVersion_cons_zero {j : Nat} : SameVersion (t :: tensors) 0 (j + 1) ↔
    ∃ u, tensors[j]? = some u ∧ (u.key = t.key ∧ ¬ t.isFree = true) ∧ ¬ Freed tensors u.key 0 j := by
  simp only [SameVersion, List.getElem?_cons_zero, List.getElem?_cons_succ, Nat.zero_min,
    Nat.zero_max, freed_cons_zero, not_or, Option.some.injEq]
  constructor
  · rintro ⟨_, u, rfl, found, key, free, open_⟩
    exact ⟨u, found, ⟨key.symm, fun isFree => free ⟨isFree, rfl⟩⟩, key ▸ open_⟩
  · rintro ⟨u, found, ⟨key, free⟩, open_⟩
    exact ⟨t, u, rfl, found, key.symm, fun both => free both.1, key ▸ open_⟩

/-- The ID of an observation is that of its storage after it, unless that is freed. -/
theorem Counted.nextVersions_eq (counted : Counted versions counter) {key : Nat × Device} :
    nextVersions versions counter t key = some (nextId versions counter t) ↔
      key = t.key ∧ ¬ t.isFree = true := by
  unfold nextVersions
  by_cases same : key = t.key
  · cases t.isFree <;> simp [same]
  · simp [same, counted.other same]

/-- Observations have one ID exactly when they see one version of a storage. -/
theorem assign_eq_iff (counted : Counted versions counter) {i j a b : Nat}
    (first : (assignAllocationIds versions counter tensors)[i]? = some a)
    (second : (assignAllocationIds versions counter tensors)[j]? = some b) :
    a = b ↔ SameVersion tensors i j := by
  induction tensors generalizing versions counter i j a b with
  | nil => simp [assignAllocationIds] at first
  | cons t tensors ih =>
    rw [assign_cons] at first second
    -- the first observation and a later one
    have head : ∀ {j b : Nat}, (assignAllocationIds (nextVersions versions counter t)
        (nextCounter versions counter t) tensors)[j]? = some b →
          (nextId versions counter t = b ↔ SameVersion (t :: tensors) 0 (j + 1)) := by
      intro j b found
      have same : nextId versions counter t = b ↔ (assignAllocationIds
          (nextVersions versions counter t) (nextCounter versions counter t) tensors)[j]? =
            some (nextId versions counter t) := by
        rw [found, Option.some.injEq, eq_comm]
      rw [same, assign_old counted.id_lt, sameVersion_cons_zero]
      simp only [counted.nextVersions_eq]
    cases i with
    | zero =>
      obtain rfl := Option.some.inj first
      cases j with
      | zero =>
        obtain rfl := Option.some.inj second
        exact iff_of_true rfl (sameVersion_self (List.getElem?_cons_zero))
      | succ j => exact head second
    | succ i =>
      cases j with
      | zero =>
        obtain rfl := Option.some.inj second
        rw [eq_comm, head first]
        exact ⟨SameVersion.symm, SameVersion.symm⟩
      | succ j => exact (ih (counted.next t) first second).trans sameVersion_cons_succ.symm

/-- A new ID is above all the earlier ones. -/
theorem assign_new (counted : Counted versions counter) {i id : Nat} (above : counter ≤ id)
    (found : (assignAllocationIds versions counter tensors)[i]? = some id)
    (isNew : ∀ k < i, (assignAllocationIds versions counter tensors)[k]? ≠ some id) :
    ∀ k < i, ∀ earlier, (assignAllocationIds versions counter tensors)[k]? = some earlier →
      earlier < id := by
  induction tensors generalizing versions counter i with
  | nil => simp [assignAllocationIds] at found
  | cons t tensors ih =>
    rw [assign_cons] at found isNew ⊢
    cases i with
    | zero => exact fun k never => absurd never (Nat.not_lt_zero k)
    | succ i =>
      have apart : nextId versions counter t ≠ id := fun same =>
        isNew 0 (Nat.succ_pos i) (by rw [List.getElem?_cons_zero, same])
      -- the ID is not the one that the counter gave here
      have above : nextCounter versions counter t ≤ id := by
        unfold nextCounter
        unfold nextId at apart
        cases live : versions t.key with
        | none =>
          rw [live, Option.getD_none] at apart
          simp only [Option.isSome_none, Bool.false_eq_true, if_false]
          omega
        | some old => simpa using above
      intro k small earlier isEarlier
      cases k with
      | zero =>
        obtain rfl := Option.some.inj isEarlier
        exact Nat.lt_of_lt_of_le counted.id_lt above
      | succ k =>
        exact ih (counted.next t) above found
          (fun k small => isNew (k + 1) (Nat.succ_lt_succ small)) k
          (Nat.lt_of_succ_lt_succ small) earlier isEarlier

end Assign

/-! ### The order of versions -/

section Order
variable {tensors : List RawTensorInfo}

/-- The version that one observation sees begins before that of another one. -/
def Earlier (tensors : List RawTensorInfo) (i j : Nat) : Prop :=
  ∃ k, SameVersion tensors k i ∧ ∀ l, SameVersion tensors l j → k < l

theorem counted_empty : Counted (fun _ => none) 1 where
  below _ _ never := by cases never
  injective _ _ _ never := by cases never

theorem length_allocationIds (tensors : List RawTensorInfo) :
    (allocationIds tensors).length = tensors.length := length_assign

theorem allocationIds_eq_iff {i j a b : Nat} (first : (allocationIds tensors)[i]? = some a)
    (second : (allocationIds tensors)[j]? = some b) : a = b ↔ SameVersion tensors i j :=
  assign_eq_iff counted_empty first second

theorem allocationIds_pos {i a : Nat} (found : (allocationIds tensors)[i]? = some a) : 1 ≤ a := by
  by_contra small
  obtain ⟨u, -, never, -⟩ := (assign_old (Nat.not_le.mp small)).mp found
  cases never

/-- Every observation that sees a version has its ID. -/
theorem SameVersion.allocationId {i j a : Nat} (same : SameVersion tensors i j)
    (found : (allocationIds tensors)[i]? = some a) : (allocationIds tensors)[j]? = some a := by
  obtain ⟨t, u, -, second, -⟩ := id same
  have small : j < (allocationIds tensors).length := by
    rw [length_allocationIds]
    exact (List.getElem?_eq_some_iff.mp second).1
  have other := List.getElem?_eq_getElem small
  rw [other, ← (allocationIds_eq_iff found other).mpr same]

theorem exists_begin {ids : List Nat} {i a : Nat} (found : ids[i]? = some a) :
    ∃ k : Nat, ids[k]? = some a ∧ ∀ l < k, ids[l]? ≠ some a := by
  have exist : ∃ k : Nat, ids[k]? = some a := ⟨i, found⟩
  exact ⟨Nat.find exist, Nat.find_spec exist, fun l below => Nat.find_min exist below⟩

/-- IDs are in the order in which the versions begin. -/
theorem allocationIds_lt_iff {i j a b : Nat} (first : (allocationIds tensors)[i]? = some a)
    (second : (allocationIds tensors)[j]? = some b) : a < b ↔ Earlier tensors i j := by
  obtain ⟨k, beginsA, firstA⟩ := exists_begin first
  obtain ⟨l, beginsB, firstB⟩ := exists_begin second
  constructor
  · intro smaller
    refine ⟨k, (allocationIds_eq_iff beginsA first).mp rfl, fun m same => ?_⟩
    have isB := same.symm.allocationId second
    have least : l ≤ m := Nat.not_lt.mp fun below => firstB m below isB
    refine Nat.lt_of_lt_of_le (Nat.not_le.mp fun late => ?_) least
    rcases Nat.lt_or_eq_of_le late with before | equal
    · have reversed := assign_new counted_empty (allocationIds_pos beginsA) beginsA firstA l before b beginsB
      omega
    · rw [equal, beginsA, Option.some.injEq] at beginsB
      omega
  · rintro ⟨m, sameA, before⟩
    have isA := sameA.symm.allocationId first
    have early : m < l := before l ((allocationIds_eq_iff beginsB second).mp rfl)
    exact assign_new counted_empty (allocationIds_pos beginsB) beginsB firstB m early a isA

end Order

/-! ### The pairs -/

def orderPair (first allocation : Nat) : Nat × Nat :=
  if first < allocation then (first, allocation) else (allocation, first)

/-- The allocation of the first observation of a `TensorImpl`. -/
def firstAllocation (observations : List (RawTensorInfo × Nat)) (impl : Nat) : Option Nat :=
  (observations.find? fun o => o.1.impl = impl).map Prod.snd

theorem mem_sameGroup {implMap : Nat → Option Nat} {observations : List (RawTensorInfo × Nat)}
    {pair : Nat × Nat} : pair ∈ sameGroup implMap observations ↔
      ∃ o ∈ observations, o.1.impl ≠ noTensorImpl ∧
        ∃ first, (implMap o.1.impl).or (firstAllocation observations o.1.impl) = some first ∧
          pair = orderPair first o.2 := by
  induction observations generalizing implMap with
  | nil => simp [sameGroup]
  | cons o observations ih =>
    obtain ⟨t, allocation⟩ := o
    rw [sameGroup]
    split
    · rename_i isNone
      have skipped : ∀ impl ≠ noTensorImpl, firstAllocation ((t, allocation) :: observations) impl =
          firstAllocation observations impl := by
        intro impl isSome
        have other : t.impl ≠ impl := fun same => isSome (same ▸ isNone)
        simp [firstAllocation, other]
      rw [ih]
      constructor
      · rintro ⟨o, isLater, isSome, first, found, rfl⟩
        exact ⟨o, List.mem_cons_of_mem _ isLater, isSome, first, skipped _ isSome ▸ found, rfl⟩
      · rintro ⟨o, isObservation, isSome, first, found, rfl⟩
        rcases List.mem_cons.mp isObservation with rfl | isLater
        · exact absurd isNone isSome
        · exact ⟨o, isLater, isSome, first, skipped _ isSome ▸ found, rfl⟩
    · rename_i isSome
      -- the map then holds what it and the first observation say together
      have known : ∀ impl, ((fun impl => if impl = t.impl then
          some ((implMap t.impl).getD allocation) else implMap impl) impl).or
            (firstAllocation observations impl) =
          (implMap impl).or (firstAllocation ((t, allocation) :: observations) impl) := by
        intro impl
        by_cases same : impl = t.impl
        · subst same
          cases implMap t.impl <;> simp [firstAllocation]
        · have other : t.impl ≠ impl := fun equal => same equal.symm
          simp [firstAllocation, same, other]
      have head : ((implMap t.impl).or (firstAllocation ((t, allocation) :: observations) t.impl)) =
          some ((implMap t.impl).getD allocation) := by
        rw [← known]
        simp
      rw [List.mem_cons, ih]
      simp only [known, List.exists_mem_cons_iff, head, Option.some.injEq, exists_eq_left', isSome,
        ne_eq, not_false_eq_true, true_and]
      rfl

/-- An observation of a `TensorImpl`. -/
def Sees (tensors : List RawTensorInfo) (i impl : Nat) : Prop :=
  ∃ t, tensors[i]? = some t ∧ t.impl = impl

def FirstSees (tensors : List RawTensorInfo) (i impl : Nat) : Prop :=
  Sees tensors i impl ∧ ∀ k < i, ¬ Sees tensors k impl

section Pairs
variable {tensors : List RawTensorInfo}

/-- The observations of tensors, with their allocation IDs. -/
def kept (tensors : List RawTensorInfo) : List (RawTensorInfo × Nat) :=
  (observe tensors).filter fun (_, allocation) => inTensorSet (observe tensors) allocation

theorem observe_getElem? {i : Nat} {o : RawTensorInfo × Nat} : (observe tensors)[i]? = some o ↔
    tensors[i]? = some o.1 ∧ (allocationIds tensors)[i]? = some o.2 :=
  List.getElem?_zip_eq_some

theorem mem_observe {o : RawTensorInfo × Nat} : o ∈ observe tensors ↔
    ∃ i : Nat, tensors[i]? = some o.1 ∧ (allocationIds tensors)[i]? = some o.2 := by
  simp only [List.mem_iff_getElem?, observe_getElem?]

theorem inTensorSet_iff {allocation : Nat} : inTensorSet (observe tensors) allocation = true ↔
    ∃ i impl, impl ≠ noTensorImpl ∧ Sees tensors i impl ∧
      (allocationIds tensors)[i]? = some allocation := by
  simp only [inTensorSet, List.any_eq_true, Bool.and_eq_true, decide_eq_true_eq, mem_observe]
  constructor
  · rintro ⟨⟨t, a⟩, ⟨i, found, isId⟩, isSome, rfl⟩
    exact ⟨i, t.impl, isSome, ⟨t, found, rfl⟩, isId⟩
  · rintro ⟨i, impl, isSome, ⟨t, found, rfl⟩, isId⟩
    exact ⟨(t, allocation), ⟨i, found, isId⟩, isSome, rfl⟩

theorem find?_filter_of_imp {α : Type} {holds keeps : α → Bool} {l : List α}
    (implies : ∀ x ∈ l, holds x = true → keeps x = true) :
    (l.filter keeps).find? holds = l.find? holds := by
  induction l with
  | nil => rfl
  | cons x l ih =>
    simp only [List.forall_mem_cons] at implies
    cases keep : keeps x with
    | true => simp only [List.filter_cons, keep, if_true, List.find?_cons, ih implies.2]
    | false =>
      have fails : holds x = false := by
        by_contra hold
        rw [implies.1 (by simpa using hold)] at keep
        cases keep
      simp [keep, fails, ih implies.2]

/-- Nothing that sees a `TensorImpl` is left out. -/
theorem firstAllocation_kept {impl : Nat} (isSome : impl ≠ noTensorImpl) :
    firstAllocation (kept tensors) impl = firstAllocation (observe tensors) impl := by
  rw [firstAllocation, kept, find?_filter_of_imp, firstAllocation]
  intro o isObservation sees
  obtain ⟨i, found, isId⟩ := mem_observe.mp isObservation
  exact inTensorSet_iff.mpr ⟨i, impl, isSome, ⟨o.1, found, by simpa using sees⟩, isId⟩

theorem firstAllocation_eq_some {impl allocation : Nat} :
    firstAllocation (observe tensors) impl = some allocation ↔
      ∃ i, FirstSees tensors i impl ∧ (allocationIds tensors)[i]? = some allocation := by
  simp only [firstAllocation, Option.map_eq_some_iff, List.find?_eq_some_iff_getElem,
    decide_eq_true_eq, Bool.not_eq_true', decide_eq_false_iff_not]
  constructor
  · rintro ⟨⟨t, a⟩, ⟨sees, i, small, found, isFirst⟩, rfl⟩
    obtain ⟨foundT, foundA⟩ := observe_getElem?.mp (List.getElem?_eq_some_iff.mpr ⟨small, found⟩)
    refine ⟨i, ⟨⟨t, foundT, sees⟩, fun k below => ?_⟩, foundA⟩
    rintro ⟨u, foundU, sees⟩
    have there := (observe_getElem?.mp (List.getElem?_eq_getElem (Nat.lt_trans below small))).1
    rw [foundU, Option.some.injEq] at there
    exact isFirst k below (there ▸ sees)
  · rintro ⟨i, ⟨⟨t, found, sees⟩, isFirst⟩, isId⟩
    obtain ⟨small, here⟩ := List.getElem?_eq_some_iff.mp (observe_getElem?.mpr ⟨found, isId⟩ : (observe tensors)[i]? = some (t, allocation))
    refine ⟨(t, allocation), ⟨sees, i, small, here, fun k below => ?_⟩, rfl⟩
    have isK : k < (observe tensors).length := Nat.lt_trans below small
    have there := (observe_getElem?.mp (List.getElem?_eq_getElem isK)).1
    exact fun same => isFirst k below ⟨_, there, same⟩

theorem mem_kept {o : RawTensorInfo × Nat} :
    o ∈ kept tensors ↔ o ∈ observe tensors ∧ inTensorSet (observe tensors) o.2 = true := by
  rw [kept, List.mem_filter]

theorem mem_pairs {pair : Nat × Nat} : pair ∈ uniquePairs (kept tensors) ↔
    ∃ i k impl allocation first, impl ≠ noTensorImpl ∧ Sees tensors i impl ∧
      FirstSees tensors k impl ∧ (allocationIds tensors)[i]? = some allocation ∧
        (allocationIds tensors)[k]? = some first ∧ pair = orderPair first allocation := by
  rw [uniquePairs, (List.perm_insertionSort _ _).mem_iff, List.mem_dedup, mem_sameGroup]
  constructor
  · rintro ⟨⟨t, allocation⟩, isKept, isSome, first, known, rfl⟩
    obtain ⟨i, found, isId⟩ := mem_observe.mp (mem_kept.mp isKept).1
    simp only [Option.none_or, firstAllocation_kept isSome, firstAllocation_eq_some] at known
    obtain ⟨k, isFirst, isFirstId⟩ := known
    exact ⟨i, k, t.impl, allocation, first, isSome, ⟨t, found, rfl⟩, isFirst, isId, isFirstId, rfl⟩
  · rintro ⟨i, k, impl, allocation, first, isSome, ⟨t, found, rfl⟩, isFirst, isId, isFirstId, rfl⟩
    refine ⟨(t, allocation), mem_kept.mpr ⟨mem_observe.mpr ⟨i, found, isId⟩,
      inTensorSet_iff.mpr ⟨i, t.impl, isSome, ⟨t, found, rfl⟩, isId⟩⟩, isSome, first, ?_, rfl⟩
    rw [Option.none_or, firstAllocation_kept isSome, firstAllocation_eq_some]
    exact ⟨k, isFirst, isFirstId⟩

theorem orderPair_le (first allocation : Nat) :
    (orderPair first allocation).1 ≤ (orderPair first allocation).2 := by
  unfold orderPair
  split
  · rename_i below
    exact Nat.le_of_lt below
  · rename_i above
    exact Nat.not_lt.mp above

theorem ascending_pairs (tensors : List RawTensorInfo) :
    GreedyLabels.Ascending (uniquePairs (kept tensors)) where
  ordered pair isPair := by
    obtain ⟨_, _, _, allocation, first, _, _, _, _, _, rfl⟩ := mem_pairs.mp isPair
    exact orderPair_le first allocation
  sorted := by
    have total : Std.Total pairLe := ⟨fun p q => by unfold pairLe; omega⟩
    have transitive : IsTrans (Nat × Nat) pairLe := ⟨fun p q r => by unfold pairLe; omega⟩
    refine (List.pairwise_insertionSort pairLe _).imp fun {p q} le => ?_
    unfold pairLe at le
    omega

/-- The pairs are gone through as a greedy labelling goes through them. -/
theorem coalesce_run (pairs : List (Nat × Nat)) :
    (pairs.foldl coalesce ⟨fun _ => none, 0⟩).ids = (GreedyLabels.run pairs).labels := by
  have steps : ∀ (idMap : IdMap) (s : GreedyLabels.State Nat), idMap.ids = s.labels →
      idMap.currentId = s.next →
        (pairs.foldl coalesce idMap).ids = (pairs.foldl GreedyLabels.step s).labels := by
    induction pairs with
    | nil => exact fun _ _ same _ => same
    | cons pair pairs ih =>
      intro idMap s same next
      refine ih _ _ ?_ ?_
      · funext v
        simp only [coalesce, GreedyLabels.step_labels, same, next]
        rfl
      · simp only [coalesce, GreedyLabels.step, same, next]
  exact steps _ _ rfl rfl

theorem orderPair_components {first allocation v : Nat} :
    (v = (orderPair first allocation).1 ∨ v = (orderPair first allocation).2) ↔
      v = first ∨ v = allocation := by
  unfold orderPair
  split
  · rfl
  · exact Or.comm

/-- An observation of a `TensorImpl` comes after the first one, which has an ID as well. -/
theorem exists_first {i impl : Nat} (sees : Sees tensors i impl) :
    ∃ k first, FirstSees tensors k impl ∧ (allocationIds tensors)[k]? = some first := by
  classical
  have exist : ∃ k, Sees tensors k impl := ⟨i, sees⟩
  have isFirst : FirstSees tensors (Nat.find exist) impl :=
    ⟨Nat.find_spec exist, fun k below => Nat.find_min exist below⟩
  obtain ⟨t, found, -⟩ := isFirst.1
  have small := (List.getElem?_eq_some_iff.mp found).1
  rw [← length_allocationIds] at small
  exact ⟨_, _, isFirst, List.getElem?_eq_getElem small⟩

theorem occurs_iff {allocation : Nat} :
    GreedyLabels.Occurs (uniquePairs (kept tensors)) allocation ↔
      inTensorSet (observe tensors) allocation = true := by
  rw [inTensorSet_iff]
  constructor
  · rintro ⟨pair, isPair, component⟩
    obtain ⟨i, k, impl, a, first, isSome, sees, isFirst, isId, isFirstId, rfl⟩ :=
      mem_pairs.mp isPair
    rcases orderPair_components.mp component with rfl | rfl
    · exact ⟨k, impl, isSome, isFirst.1, isFirstId⟩
    · exact ⟨i, impl, isSome, sees, isId⟩
  · rintro ⟨i, impl, isSome, sees, isId⟩
    obtain ⟨k, first, isFirst, isFirstId⟩ := exists_first sees
    exact ⟨_, mem_pairs.mpr ⟨i, k, impl, allocation, first, isSome, sees, isFirst, isId, isFirstId,
      rfl⟩, orderPair_components.mpr (.inr rfl)⟩

/-- Tensor IDs by the labels of the versions, which all versions of tensors have. -/
theorem calculateTensorIds_eq (tensors : List RawTensorInfo) : calculateTensorIds tensors =
    some ((observe tensors).map fun o => if inTensorSet (observe tensors) o.2
      then (GreedyLabels.run (uniquePairs (kept tensors))).labels o.2 else none) := by
  have labelled := GreedyLabels.run_labelled (ascending_pairs tensors)
  have each : ∀ l : List (RawTensorInfo × Nat), (l.mapM fun o => if inTensorSet (observe tensors) o.2
      then ((GreedyLabels.run (uniquePairs (kept tensors))).labels o.2).map some else some none) =
        some (l.map fun o => if inTensorSet (observe tensors) o.2
          then (GreedyLabels.run (uniquePairs (kept tensors))).labels o.2 else none) := by
    intro l
    induction l with
    | nil => rfl
    | cons o l ih =>
      rw [List.mapM_cons, ih, List.map_cons]
      by_cases isTensor : inTensorSet (observe tensors) o.2 = true
      · obtain ⟨label, found⟩ := Option.isSome_iff_exists.mp
          ((labelled.occurs o.2).mpr (occurs_iff.mpr isTensor))
        rw [if_pos isTensor, if_pos isTensor, found]
        rfl
      · rw [if_neg isTensor, if_neg isTensor]
        rfl
  simp only [calculateTensorIds, coalesce_run]
  exact each _

end Pairs

/-! ### Components of observations -/

section Components
variable {tensors : List RawTensorInfo}

/-- Two observations share a version of a storage or a `TensorImpl`. -/
def Linked (tensors : List RawTensorInfo) (i j : Nat) : Prop :=
  SameVersion tensors i j ∨
    ∃ impl, impl ≠ noTensorImpl ∧ Sees tensors i impl ∧ Sees tensors j impl

/-- There is a chain of observations. -/
def Connected (tensors : List RawTensorInfo) : Nat → Nat → Prop :=
  Relation.ReflTransGen (Linked tensors)

/-- The version of an observation is seen with a `TensorImpl`. -/
def IsTensor (tensors : List RawTensorInfo) (i : Nat) : Prop :=
  ∃ j impl, impl ≠ noTensorImpl ∧ Sees tensors j impl ∧ SameVersion tensors j i

/-- The versions of two observations are seen with one `TensorImpl`, which the second one is the
first to be seen with. -/
def Adjacent (tensors : List RawTensorInfo) (i j : Nat) : Prop :=
  ∃ k l impl, impl ≠ noTensorImpl ∧ Sees tensors k impl ∧ FirstSees tensors l impl ∧
    SameVersion tensors k i ∧ SameVersion tensors l j

/-- No adjacent version begins earlier. -/
def Begins (tensors : List RawTensorInfo) (i : Nat) : Prop :=
  ∀ j, Adjacent tensors i j ∨ Adjacent tensors j i → ¬ Earlier tensors j i

/-- Every component has one version that no adjacent version begins before. -/
def OneBeginning (tensors : List RawTensorInfo) : Prop :=
  ∀ i j, IsTensor tensors i → IsTensor tensors j → Connected tensors i j →
    Begins tensors i → Begins tensors j → SameVersion tensors i j

theorem isTensor_iff {i a : Nat} (isId : (allocationIds tensors)[i]? = some a) :
    IsTensor tensors i ↔ inTensorSet (observe tensors) a = true := by
  rw [inTensorSet_iff]
  constructor
  · rintro ⟨j, impl, isSome, sees, same⟩
    exact ⟨j, impl, isSome, sees, same.symm.allocationId isId⟩
  · rintro ⟨j, impl, isSome, sees, isJ⟩
    exact ⟨j, impl, isSome, sees, (allocationIds_eq_iff isJ isId).mp rfl⟩

theorem SameVersion.exists_id {i j : Nat} (same : SameVersion tensors i j) :
    ∃ a, (allocationIds tensors)[i]? = some a ∧ (allocationIds tensors)[j]? = some a := by
  obtain ⟨t, u, found, -⟩ := id same
  have small := (List.getElem?_eq_some_iff.mp found).1
  rw [← length_allocationIds] at small
  have isId := List.getElem?_eq_getElem small
  exact ⟨_, isId, same.allocationId isId⟩

theorem sameVersion_of_id {i j a : Nat} (first : (allocationIds tensors)[i]? = some a)
    (second : (allocationIds tensors)[j]? = some a) : SameVersion tensors i j :=
  (allocationIds_eq_iff first second).mp rfl

theorem begins_iff {i v : Nat} (isId : (allocationIds tensors)[i]? = some v) :
    Begins tensors i ↔ GreedyLabels.Least (uniquePairs (kept tensors)) v := by
  constructor
  · intro begins a isPair smaller
    obtain ⟨k, l, impl, b, first, isSome, sees, isFirst, isK, isL, same⟩ := mem_pairs.mp isPair
    unfold orderPair at same
    split at same
    · obtain ⟨rfl, rfl⟩ := Prod.mk.inj same
      exact begins l (.inl ⟨k, l, impl, isSome, sees, isFirst, sameVersion_of_id isK isId,
        sameVersion_of_id isL isL⟩) ((allocationIds_lt_iff isL isId).mp smaller)
    · obtain ⟨rfl, rfl⟩ := Prod.mk.inj same
      exact begins k (.inr ⟨k, l, impl, isSome, sees, isFirst, sameVersion_of_id isK isK,
        sameVersion_of_id isL isId⟩) ((allocationIds_lt_iff isK isId).mp smaller)
  · rintro least j (⟨k, l, impl, isSome, sees, isFirst, sameI, sameJ⟩ |
      ⟨k, l, impl, isSome, sees, isFirst, sameJ, sameI⟩) earlier
    · obtain ⟨a, isL, isJ⟩ := sameJ.exists_id
      have smaller := (allocationIds_lt_iff isJ isId).mpr earlier
      refine least a (mem_pairs.mpr ⟨k, l, impl, v, a, isSome, sees, isFirst,
        sameI.symm.allocationId isId, isL, ?_⟩) smaller
      rw [orderPair, if_pos smaller]
    · obtain ⟨a, isK, isJ⟩ := sameJ.exists_id
      have smaller := (allocationIds_lt_iff isJ isId).mpr earlier
      refine least a (mem_pairs.mpr ⟨k, l, impl, a, v, isSome, sees, isFirst, isK,
        sameI.symm.allocationId isId, ?_⟩) smaller
      rw [orderPair, if_neg (Nat.not_lt.mpr (Nat.le_of_lt smaller))]

theorem Linked.symm {i j : Nat} (linked : Linked tensors i j) : Linked tensors j i := by
  rcases linked with same | ⟨impl, isSome, first, second⟩
  · exact .inl same.symm
  · exact .inr ⟨impl, isSome, second, first⟩

theorem Connected.symm {i j : Nat} (connected : Connected tensors i j) : Connected tensors j i := by
  induction connected with
  | refl => exact .refl
  | tail _ linked ih => exact .head linked.symm ih

/-- The versions of two observations of one `TensorImpl` are connected through the first one. -/
theorem connected_of_sees {i j impl v w : Nat} (isSome : impl ≠ noTensorImpl)
    (seesI : Sees tensors i impl) (seesJ : Sees tensors j impl)
    (isV : (allocationIds tensors)[i]? = some v) (isW : (allocationIds tensors)[j]? = some w) :
    GreedyLabels.Connected (uniquePairs (kept tensors)) v w := by
  obtain ⟨k, first, isFirst, isFirstId⟩ := exists_first seesI
  have star : ∀ {i v : Nat}, Sees tensors i impl → (allocationIds tensors)[i]? = some v →
      GreedyLabels.Connected (uniquePairs (kept tensors)) first v := by
    intro i v sees isId
    have isPair := mem_pairs.mpr ⟨i, k, impl, v, first, isSome, sees, isFirst, isId, isFirstId, rfl⟩
    unfold orderPair at isPair
    split at isPair
    · exact .rel _ _ isPair
    · exact .symm _ _ (.rel _ _ isPair)
  exact .trans _ _ _ (.symm _ _ (star seesI isV)) (star seesJ isW)

theorem sees_isTensor {i impl : Nat} (isSome : impl ≠ noTensorImpl) (sees : Sees tensors i impl) :
    IsTensor tensors i := by
  obtain ⟨t, found, -⟩ := id sees
  exact ⟨i, impl, isSome, sees, sameVersion_self found⟩

theorem exists_id {i impl : Nat} (sees : Sees tensors i impl) :
    ∃ a, (allocationIds tensors)[i]? = some a := by
  obtain ⟨t, found, -⟩ := sees
  obtain ⟨a, isId, -⟩ := (sameVersion_self found).exists_id
  exact ⟨a, isId⟩

/-- A chain of observations is one of versions. -/
theorem Connected.versions {i j v : Nat} (connected : Connected tensors i j)
    (isV : (allocationIds tensors)[i]? = some v) : ∃ w, (allocationIds tensors)[j]? = some w ∧
      GreedyLabels.Connected (uniquePairs (kept tensors)) v w := by
  induction connected with
  | refl => exact ⟨v, isV, .refl v⟩
  | tail _ linked ih =>
    obtain ⟨w, isW, connected⟩ := ih
    rcases linked with same | ⟨impl, isSome, sees, sees'⟩
    · exact ⟨w, same.allocationId isW, connected⟩
    · obtain ⟨x, isX⟩ := exists_id sees'
      exact ⟨x, isX, .trans _ _ _ connected (connected_of_sees isSome sees sees' isW isX)⟩

/-- A chain of versions is one of any of their observations. -/
theorem observations_connected {v w : Nat}
    (connected : GreedyLabels.Connected (uniquePairs (kept tensors)) v w) :
    v = w ∨ (∃ i : Nat, (allocationIds tensors)[i]? = some v) ∧
      (∃ j : Nat, (allocationIds tensors)[j]? = some w) ∧
      ∀ i j : Nat, (allocationIds tensors)[i]? = some v → (allocationIds tensors)[j]? = some w →
        Connected tensors i j := by
  induction connected with
  | rel v w isPair =>
    obtain ⟨k, l, impl, b, first, isSome, sees, isFirst, isK, isL, same⟩ := mem_pairs.mp isPair
    have link : Connected tensors k l := .single (.inr ⟨impl, isSome, sees, isFirst.1⟩)
    have around : ∀ {i j k l a b : Nat}, (allocationIds tensors)[i]? = some a →
        (allocationIds tensors)[k]? = some a → (allocationIds tensors)[j]? = some b →
          (allocationIds tensors)[l]? = some b → Connected tensors k l → Connected tensors i j :=
      fun isI isK isJ isL between => .head (.inl (sameVersion_of_id isI isK))
        (between.tail (.inl (sameVersion_of_id isL isJ)))
    unfold orderPair at same
    split at same
    · obtain ⟨rfl, rfl⟩ := Prod.mk.inj same
      exact .inr ⟨⟨l, isL⟩, ⟨k, isK⟩, fun i j isI isJ => around isI isL isJ isK link.symm⟩
    · obtain ⟨rfl, rfl⟩ := Prod.mk.inj same
      exact .inr ⟨⟨k, isK⟩, ⟨l, isL⟩, fun i j isI isJ => around isI isK isJ isL link⟩
  | refl => exact .inl rfl
  | symm v w _ ih =>
    rcases ih with rfl | ⟨isV, isW, connected⟩
    · exact .inl rfl
    · exact .inr ⟨isW, isV, fun i j isI isJ => (connected j i isJ isI).symm⟩
  | trans u v w _ _ first second =>
    rcases first with rfl | ⟨isU, ⟨k, isK⟩, left⟩
    · exact second
    · rcases second with rfl | ⟨_, isW, right⟩
      · exact .inr ⟨isU, ⟨k, isK⟩, left⟩
      · exact .inr ⟨isU, isW, fun i j isI isJ => (left i k isI isK).trans (right k j isK isJ)⟩

theorem connected_iff {i j v w : Nat} (isV : (allocationIds tensors)[i]? = some v)
    (isW : (allocationIds tensors)[j]? = some w) :
    Connected tensors i j ↔ GreedyLabels.Connected (uniquePairs (kept tensors)) v w := by
  constructor
  · intro connected
    obtain ⟨x, isX, versions⟩ := connected.versions isV
    rw [isW, Option.some.injEq] at isX
    exact isX ▸ versions
  · intro connected
    rcases observations_connected connected with rfl | ⟨-, -, chain⟩
    · exact .single (.inl (sameVersion_of_id isV isW))
    · exact chain i j isV isW

/-! ### Tensor IDs and components -/

/-- Nothing is thrown, every observation of a `TensorImpl` gets an ID, and observations that got
one have the same ID exactly when they are connected. -/
def Identifies (tensors : List RawTensorInfo) (outcome : Option (List (Option Nat))) : Prop :=
  ∃ ids, outcome = some ids ∧
    (∀ i impl, impl ≠ noTensorImpl → Sees tensors i impl → ∃ id, ids[i]? = some (some id)) ∧
    ∀ i j a b, ids[i]? = some (some a) → ids[j]? = some (some b) →
      (a = b ↔ Connected tensors i j)

/-- The label of the version of an observation of a tensor is its tensor ID. -/
theorem tensorId_iff {i id : Nat} : ((observe tensors).map fun o =>
      if inTensorSet (observe tensors) o.2
        then (GreedyLabels.run (uniquePairs (kept tensors))).labels o.2 else none)[i]? =
          some (some id) ↔
      ∃ v, (allocationIds tensors)[i]? = some v ∧ inTensorSet (observe tensors) v = true ∧
        (GreedyLabels.run (uniquePairs (kept tensors))).labels v = some id := by
  rw [List.getElem?_map, Option.map_eq_some_iff]
  constructor
  · rintro ⟨o, found, isId⟩
    split at isId
    · rename_i isTensor
      exact ⟨o.2, (observe_getElem?.mp found).2, isTensor, isId⟩
    · cases isId
  · rintro ⟨v, isV, isTensor, isId⟩
    have small := (List.getElem?_eq_some_iff.mp isV).1
    rw [length_allocationIds] at small
    exact ⟨(tensors[i], v), observe_getElem?.mpr ⟨List.getElem?_eq_getElem small, isV⟩,
      by rw [if_pos isTensor, isId]⟩

/-- The IDs are the components exactly when every component has one beginning. -/
theorem identifies_iff (sortedResults : List Result) :
    Identifies (flatten ⟨[], []⟩ sortedResults) (calculateUniqueTensorIds sortedResults) ↔
      OneBeginning (flatten ⟨[], []⟩ sortedResults) := by
  rw [calculateUniqueTensorIds]
  generalize flatten ⟨[], []⟩ sortedResults = tensors
  have labelled := GreedyLabels.run_labelled (ascending_pairs tensors)
  have label : ∀ {v}, inTensorSet (observe tensors) v = true →
      ∃ id, (GreedyLabels.run (uniquePairs (kept tensors))).labels v = some id := fun isTensor =>
    Option.isSome_iff_exists.mp ((labelled.occurs _).mpr (occurs_iff.mpr isTensor))
  rw [calculateTensorIds_eq]
  constructor
  · rintro ⟨ids, ran, -, same⟩ i j isTensorI isTensorJ connected beginsI beginsJ
    obtain rfl := Option.some.inj ran
    obtain ⟨_, _, _, _, sameI⟩ := id isTensorI
    obtain ⟨_, _, _, _, sameJ⟩ := id isTensorJ
    obtain ⟨v, -, isV⟩ := sameI.exists_id
    obtain ⟨w, -, isW⟩ := sameJ.exists_id
    have tensorV := (isTensor_iff isV).mp isTensorI
    have tensorW := (isTensor_iff isW).mp isTensorJ
    obtain ⟨a, labelV⟩ := label tensorV
    obtain ⟨b, labelW⟩ := label tensorW
    have equal := (same i j a b (tensorId_iff.mpr ⟨v, isV, tensorV, labelV⟩)
      (tensorId_iff.mpr ⟨w, isW, tensorW, labelW⟩)).mpr connected
    have oneVersion := labelled.least v w (occurs_iff.mpr tensorV) (occurs_iff.mpr tensorW)
      ((begins_iff isV).mp beginsI) ((begins_iff isW).mp beginsJ) (by rw [labelV, labelW, equal])
    exact (allocationIds_eq_iff isV isW).mp oneVersion
  · intro oneBeginning
    have components := labelled.components_iff.mpr fun v w occursV occursW leastV leastW connected => by
      obtain ⟨i, impl, isSome, sees, isV⟩ := inTensorSet_iff.mp (occurs_iff.mp occursV)
      obtain ⟨j, impl', isSome', sees', isW⟩ := inTensorSet_iff.mp (occurs_iff.mp occursW)
      exact (allocationIds_eq_iff isV isW).mpr (oneBeginning i j (sees_isTensor isSome sees)
        (sees_isTensor isSome' sees') ((connected_iff isV isW).mpr connected)
        ((begins_iff isV).mpr leastV) ((begins_iff isW).mpr leastW))
    refine ⟨_, rfl, fun i impl isSome sees => ?_, fun i j a b isA isB => ?_⟩
    · obtain ⟨v, isV⟩ := exists_id sees
      have isTensor := inTensorSet_iff.mpr ⟨i, impl, isSome, sees, isV⟩
      obtain ⟨a, labelV⟩ := label isTensor
      exact ⟨a, tensorId_iff.mpr ⟨v, isV, isTensor, labelV⟩⟩
    · obtain ⟨v, isV, tensorV, labelV⟩ := tensorId_iff.mp isA
      obtain ⟨w, isW, tensorW, labelW⟩ := tensorId_iff.mp isB
      rw [connected_iff isV isW, ← components v w (occurs_iff.mpr tensorV) (occurs_iff.mpr tensorW),
        labelV, labelW, Option.some.injEq]

/-- Two storages, and a third one that the tensors of both move to. -/
def threeStorages : List Result :=
  let cpu : Device := ⟨0, -1⟩
  [.torchOp [.tensor ⟨1, 10, cpu⟩], .torchOp [.tensor ⟨2, 20, cpu⟩],
    .torchOp [.tensor ⟨1, 30, cpu⟩], .torchOp [.tensor ⟨2, 30, cpu⟩]]

theorem threeStorages_ids : calculateUniqueTensorIds threeStorages =
    some [some 0, some 1, some 0, some 0] := by
  decide

theorem threeStorages_apart : ¬ ∀ sortedResults, Identifies (flatten ⟨[], []⟩ sortedResults)
    (calculateUniqueTensorIds sortedResults) := by
  intro identifies
  obtain ⟨ids, ran, -, same⟩ := identifies threeStorages
  rw [threeStorages_ids, Option.some.injEq] at ran
  subst ran
  -- from the first storage to the third one, and from there to the second one
  have first : Linked (flatten ⟨[], []⟩ threeStorages) 0 2 :=
    .inr ⟨1, by decide, ⟨_, rfl, rfl⟩, ⟨_, rfl, rfl⟩⟩
  have version : Linked (flatten ⟨[], []⟩ threeStorages) 2 3 := by
    refine .inl ⟨_, _, rfl, rfl, rfl, ?_⟩
    rintro ⟨k, t, low, high, found, free, -⟩
    obtain rfl : k = 2 := by simp at low high; omega
    obtain rfl := Option.some.inj found
    cases free
  have second : Linked (flatten ⟨[], []⟩ threeStorages) 3 1 :=
    .inr ⟨2, by decide, ⟨_, rfl, rfl⟩, ⟨_, rfl, rfl⟩⟩
  have connected : Connected (flatten ⟨[], []⟩ threeStorages) 0 1 :=
    .head first (.head version (.single second))
  exact absurd ((same 0 1 0 1 rfl rfl).mpr connected) (by decide)

end Components

end TorchGcu.DataFlow

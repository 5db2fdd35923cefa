import Mathlib.Data.List.Forall2
import TorchGcu.Logic.Tally
import TorchGcu.Tensor.ScalarType

/-! Recorded parameters of operator calls, their comparison and their hash. -/
namespace TorchGcu.Statistics

abbrev Hash := BitVec 64

/-- What is recorded of a tensor. -/
structure TensorInfo where
  isDefined : Bool := false
  dtype : ScalarType := .undefined
  shape : List (BitVec 64) := []
  strides : List (BitVec 64) := []
  isContiguous : Bool := false
  deriving DecidableEq

structure StorageInfo where
  nbytes : BitVec 64
  resizable : Bool
  deriving DecidableEq

/-- `at::IValue`: a list, with whatever else its identity and type consist of, or a value of
another kind. -/
inductive IValue (V : Type) where
  | list (header : V) (elements : List (IValue V))
  | other (value : V)

/-- A recorded value, under its tag. -/
inductive MetaIValue (V : Type) where
  | ivalue (value : IValue V)
  | tensor (info : TensorInfo)
  | tensorList (infos : List TensorInfo)
  | optionalTensorList (infos : List TensorInfo)
  | storage (info : StorageInfo)

abbrev Params (V : Type) := List (MetaIValue V)

/-- The comparison and the hashes of torch. -/
structure Torch (V : Type) where
  hashCombine : Hash → Hash → Hash
  hashInts : List (BitVec 64) → Hash
  hashScalarType : ScalarType → Hash
  hashSize : BitVec 64 → Hash
  hashBool : Bool → Hash
  hashValue : V → Hash
  /-- `operator==` of `at::IValue`. -/
  equal : IValue V → IValue V → Bool

variable {V : Type}

def tensorInfoEqual (lhs rhs : TensorInfo) : Bool :=
  if !lhs.isDefined && !rhs.isDefined then true
  else lhs.isDefined == rhs.isDefined && lhs.dtype == rhs.dtype && lhs.shape == rhs.shape &&
    lhs.strides == rhs.strides

def storageInfoEqual (lhs rhs : StorageInfo) : Bool :=
  lhs.nbytes == rhs.nbytes && lhs.resizable == rhs.resizable

namespace Torch
variable (torch : Torch V)

def hashTensorInfo (t : TensorInfo) : Hash :=
  if !t.isDefined then 0
  else
    let seed := torch.hashCombine 0 (torch.hashInts t.shape)
    let seed := torch.hashCombine seed (torch.hashInts t.strides)
    torch.hashCombine seed (torch.hashScalarType t.dtype)

def hashStorageInfo (s : StorageInfo) : Hash :=
  torch.hashCombine (torch.hashCombine 0 (torch.hashSize s.nbytes)) (torch.hashBool s.resizable)

mutual
def hashIvalue : IValue V → Hash
  | .list _ elements => hashElements 0 elements
  | .other value => torch.hashValue value

/-- The loop of `hashIvalue` over the elements of a list. -/
def hashElements (seed : Hash) : List (IValue V) → Hash
  | [] => seed
  | e :: l => hashElements (torch.hashCombine seed (hashIvalue e)) l
end

/-- The hash of one parameter, which for a list of tensors goes on from the hash of the
parameter before it. -/
def hashParam (newSeed : Hash) : MetaIValue V → Hash
  | .tensor info => torch.hashTensorInfo info
  | .tensorList infos | .optionalTensorList infos =>
    infos.foldl (fun newSeed t => torch.hashCombine newSeed (torch.hashTensorInfo t)) newSeed
  | .storage info => torch.hashStorageInfo info
  | .ivalue value => torch.hashIvalue value

/-- One round of the loop of `hash<Params>`, on its `seed` and `new_seed`. -/
def hashRound (seeds : Hash × Hash) (elem : MetaIValue V) : Hash × Hash :=
  let newSeed := torch.hashParam seeds.2 elem
  (torch.hashCombine seeds.1 newSeed, newSeed)

/-- `hash<Params>`. -/
def hashParams (params : Params V) : Hash := (params.foldl torch.hashRound (0, 0)).1

end Torch

/-- The loop of a comparison of two vectors: their sizes, then their elements in turn. -/
def allEqual {α : Type} (same : α → α → Bool) (lhs rhs : List α) : Bool :=
  lhs.length == rhs.length && (lhs.zip rhs).all fun pair => same pair.1 pair.2

namespace Torch
variable (torch : Torch V)

/-- One round of the loop of `equal_to<Params>`. Storages count as equal when they differ:
the comparison is not negated as it is in the other branches. -/
def paramEqual : MetaIValue V → MetaIValue V → Bool
  | .tensor lt, .tensor rt => tensorInfoEqual lt rt
  | .tensorList lt, .tensorList rt => allEqual tensorInfoEqual lt rt
  | .optionalTensorList lt, .optionalTensorList rt => allEqual tensorInfoEqual lt rt
  | .storage ls, .storage rs => !storageInfoEqual ls rs
  | .ivalue l, .ivalue r => torch.equal l r
  | _, _ => false

/-- `equal_to<Params>`. -/
def equalTo (lhs rhs : Params V) : Bool := allEqual torch.paramEqual lhs rhs

/-! ### The comparison of values that are equal to themselves -/

/-- What torch promises of `at::IValue`. A value need not be equal to itself: a number that is
not a number is not. Lists are equal when they are one list or equal in every element. -/
structure Lawful (torch : Torch V) : Prop where
  symm : ∀ {a b}, torch.equal a b = true → torch.equal b a = true
  trans : ∀ {a b c}, torch.equal a b = true → torch.equal b c = true → torch.equal a c = true
  hash_other : ∀ {a b}, torch.equal (.other a) (.other b) = true →
    torch.hashValue a = torch.hashValue b
  lists : ∀ {h k xs ys}, torch.equal (.list h xs) (.list k ys) = true →
    xs = ys ∨ List.Forall₂ (fun a b => torch.equal a b = true) xs ys
  list_other : ∀ {h xs b}, torch.equal (.list h xs) (.other b) = false

/-- The parameters that are no storages, and no values unequal to themselves. -/
def comparableParam : MetaIValue V → Prop
  | .storage _ => False
  | .ivalue value => torch.equal value value = true
  | _ => True

def Comparable (params : Params V) : Prop := ∀ param ∈ params, torch.comparableParam param

end Torch

theorem allEqual_iff {α : Type} {same : α → α → Bool} {lhs rhs : List α} :
    allEqual same lhs rhs = true ↔ List.Forall₂ (fun a b => same a b = true) lhs rhs := by
  simp [allEqual, List.forall₂_iff_zip]

theorem forall₂_symm {α : Type} {R : α → α → Prop} (symm : ∀ {a b}, R a b → R b a)
    {lhs rhs : List α} (all : List.Forall₂ R lhs rhs) : List.Forall₂ R rhs lhs :=
  (all.imp fun _ _ => symm).flip

theorem forall₂_trans {α : Type} {R : α → α → Prop} {as bs cs : List α}
    (trans : ∀ a ∈ as, ∀ b ∈ bs, ∀ c ∈ cs, R a b → R b c → R a c)
    (first : List.Forall₂ R as bs) (second : List.Forall₂ R bs cs) : List.Forall₂ R as cs := by
  induction first generalizing cs with
  | nil => exact second
  | @cons a b as bs here there ih =>
    obtain ⟨c, cs, here', there', rfl⟩ := List.forall₂_cons_left_iff.mp second
    refine .cons (trans a (by simp) b (by simp) c (by simp) here here') (ih ?_ there')
    intro a a_mem b b_mem c c_mem
    exact trans a (by simp [a_mem]) b (by simp [b_mem]) c (by simp [c_mem])

/-- A loop takes the same course on lists whose elements it cannot tell apart. -/
theorem foldl_congr₂ {α β : Type} {f : β → α → β} {lhs rhs : List α} {b : β}
    (same : List.Forall₂ (fun a a' => ∀ b, f b a = f b a') lhs rhs) :
    lhs.foldl f b = rhs.foldl f b := by
  induction same generalizing b with
  | nil => rfl
  | cons here _ ih => simp only [List.foldl_cons, here b, ih]

theorem tensorInfoEqual_iff {l r : TensorInfo} : tensorInfoEqual l r = true ↔
    l.isDefined = r.isDefined ∧
      (l.isDefined = true → l.dtype = r.dtype ∧ l.shape = r.shape ∧ l.strides = r.strides) := by
  cases left : l.isDefined <;> cases right : r.isDefined <;>
    simp [tensorInfoEqual, left, right, and_assoc]

theorem tensorInfoEqual_refl (t : TensorInfo) : tensorInfoEqual t t = true := by
  simp [tensorInfoEqual_iff]

theorem tensorInfoEqual_symm {l r : TensorInfo} (same : tensorInfoEqual l r = true) :
    tensorInfoEqual r l = true := by
  grind [tensorInfoEqual_iff]

theorem tensorInfoEqual_trans {a b c : TensorInfo} (first : tensorInfoEqual a b = true)
    (second : tensorInfoEqual b c = true) : tensorInfoEqual a c = true := by
  grind [tensorInfoEqual_iff]

theorem storageInfoEqual_comm (l r : StorageInfo) : storageInfoEqual l r = storageInfoEqual r l := by
  simp [storageInfoEqual, Bool.beq_comm]

namespace Torch
variable {torch : Torch V} {lhs rhs : Params V} {l r : MetaIValue V}

/-- A parameter is equal to itself exactly when it is comparable. -/
theorem paramEqual_self : torch.paramEqual l l = true ↔ torch.comparableParam l := by
  cases l <;> simp [paramEqual, comparableParam, storageInfoEqual, allEqual_iff,
    tensorInfoEqual_refl, List.forall₂_same]

theorem equalTo_self (params : Params V) :
    torch.equalTo params params = true ↔ torch.Comparable params := by
  simp [equalTo, allEqual_iff, List.forall₂_same, paramEqual_self, Comparable]

theorem paramEqual_symm (lawful : torch.Lawful) (same : torch.paramEqual l r = true) :
    torch.paramEqual r l = true := by
  cases l <;> cases r <;> simp only [paramEqual, Bool.false_eq_true] at same ⊢
  case ivalue.ivalue => exact lawful.symm same
  case tensor.tensor => exact tensorInfoEqual_symm same
  case storage.storage => rwa [storageInfoEqual_comm]
  all_goals exact allEqual_iff.mpr (forall₂_symm tensorInfoEqual_symm (allEqual_iff.mp same))

theorem equalTo_symm (lawful : torch.Lawful) (same : torch.equalTo lhs rhs = true) :
    torch.equalTo rhs lhs = true :=
  allEqual_iff.mpr (forall₂_symm (paramEqual_symm lawful) (allEqual_iff.mp same))

theorem paramEqual_trans (lawful : torch.Lawful) {a b c : MetaIValue V}
    (comparable : torch.comparableParam a) (first : torch.paramEqual a b = true)
    (second : torch.paramEqual b c = true) : torch.paramEqual a c = true := by
  have lists {as bs cs : List TensorInfo} (first : allEqual tensorInfoEqual as bs = true)
      (second : allEqual tensorInfoEqual bs cs = true) : allEqual tensorInfoEqual as cs = true :=
    allEqual_iff.mpr (forall₂_trans (fun _ _ _ _ _ _ => tensorInfoEqual_trans)
      (allEqual_iff.mp first) (allEqual_iff.mp second))
  cases a <;> cases b <;> cases c <;> simp only [paramEqual, Bool.false_eq_true] at first second ⊢
  case ivalue.ivalue.ivalue => exact lawful.trans first second
  case tensor.tensor.tensor => exact tensorInfoEqual_trans first second
  case storage.storage.storage => exact comparable.elim
  all_goals exact lists first second

theorem equalTo_trans (lawful : torch.Lawful) {a b c : Params V} (comparable : torch.Comparable a)
    (first : torch.equalTo a b = true) (second : torch.equalTo b c = true) :
    torch.equalTo a c = true :=
  allEqual_iff.mpr (forall₂_trans
    (fun l mem _ _ _ _ => paramEqual_trans lawful (comparable l mem))
    (allEqual_iff.mp first) (allEqual_iff.mp second))

/-! ### The hash -/

mutual
/-- Equal values have equal hashes, the elements of a list in turn. -/
theorem hashIvalue_congr (lawful : torch.Lawful) : (a b : IValue V) → torch.equal a b = true →
    torch.hashIvalue a = torch.hashIvalue b
  | .list _ xs, .list _ ys, same => by
    simp only [hashIvalue]
    rcases lawful.lists same with rfl | same
    · rfl
    · exact hashElements_congr lawful xs ys 0 same
  | .other _, .other _, same => by simpa only [hashIvalue] using lawful.hash_other same
  | .list _ _, .other _, same => by simp [lawful.list_other] at same
  | .other _, .list _ _, same => by simpa [lawful.list_other] using lawful.symm same

theorem hashElements_congr (lawful : torch.Lawful) : (xs ys : List (IValue V)) → (seed : Hash) →
    List.Forall₂ (fun a b => torch.equal a b = true) xs ys →
    torch.hashElements seed xs = torch.hashElements seed ys
  | [], [], _, _ => rfl
  | x :: xs, y :: ys, seed, .cons here there => by
    simp only [hashElements, hashIvalue_congr lawful x y here]
    exact hashElements_congr lawful xs ys _ there
end

theorem hashTensorInfo_congr {l r : TensorInfo} (same : tensorInfoEqual l r = true) :
    torch.hashTensorInfo l = torch.hashTensorInfo r := by
  obtain ⟨defined, fields⟩ := tensorInfoEqual_iff.mp same
  by_cases left : l.isDefined = true
  · obtain ⟨dtype, shape, strides⟩ := fields left
    simp [hashTensorInfo, ← defined, left, dtype, shape, strides]
  · simp [hashTensorInfo, ← defined, left]

theorem hashParam_congr (lawful : torch.Lawful) (comparable : torch.comparableParam l)
    (same : torch.paramEqual l r = true) (newSeed : Hash) :
    torch.hashParam newSeed l = torch.hashParam newSeed r := by
  have lists {ls rs : List TensorInfo} (same : allEqual tensorInfoEqual ls rs = true) :
      ls.foldl (fun newSeed t => torch.hashCombine newSeed (torch.hashTensorInfo t)) newSeed =
        rs.foldl (fun newSeed t => torch.hashCombine newSeed (torch.hashTensorInfo t)) newSeed :=
    foldl_congr₂ ((allEqual_iff.mp same).imp fun _ _ same _ => by rw [hashTensorInfo_congr same])
  cases l <;> cases r <;> simp only [paramEqual, Bool.false_eq_true] at same
  case ivalue.ivalue => exact hashIvalue_congr lawful _ _ same
  case tensor.tensor => exact hashTensorInfo_congr same
  case storage.storage => exact comparable.elim
  all_goals exact lists same

theorem hashParams_congr (lawful : torch.Lawful) (comparable : torch.Comparable lhs)
    (same : torch.equalTo lhs rhs = true) : torch.hashParams lhs = torch.hashParams rhs := by
  have rounds : List.Forall₂ (fun l r => ∀ seeds, torch.hashRound seeds l = torch.hashRound seeds r)
      lhs rhs := by
    have pairs := (List.forall₂_and_left _ _).mpr ⟨comparable, allEqual_iff.mp same⟩
    refine pairs.imp fun l r pair seeds => ?_
    simp only [hashRound, hashParam_congr lawful pair.1 pair.2]
  exact congrArg Prod.fst (foldl_congr₂ rounds)

/-- On comparable parameters the comparison is an equivalence. -/
theorem equalTo_comparison (lawful : torch.Lawful) :
    ProgramLogic.Comparison torch.equalTo torch.Comparable where
  refl comparable := (equalTo_self _).mpr comparable
  symm _ _ := equalTo_symm lawful
  trans comparable _ _ := equalTo_trans lawful comparable

end Torch
end TorchGcu.Statistics

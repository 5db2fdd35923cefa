import Mathlib.Data.List.Forall2
import TorchGcu.CpuFallback.Fallback

/-! The tensors that the fallback makes, with the tensors that are there before left alone. -/
namespace TorchGcu.CpuFallback
open ProgramLogic

variable {α ω : Type}

/-- Tensors were made, and those that were there are as they were. -/
structure Grown (before after : Heap α) : Prop where
  next : before.next ≤ after.next
  same : ∀ t, t < before.next → after.contents t = before.contents t

namespace Grown

theorem refl (heap : Heap α) : Grown heap heap := ⟨Nat.le_refl _, fun _ _ => rfl⟩

theorem trans {first second third : Heap α} (begun : Grown first second)
    (continued : Grown second third) : Grown first third where
  next := Nat.le_trans begun.next continued.next
  same t below := by
    rw [continued.same t (Nat.lt_of_lt_of_le below begun.next), begun.same t below]

end Grown

/-- The tensor as another type. -/
def TensorImpl.converted (b : Backend α) (impl : TensorImpl α) (dtype : ScalarType) :
    TensorImpl α :=
  { impl with dtype, data := b.convert impl.dtype dtype impl.data }

@[simp] theorem TensorImpl.converted_same (b : Backend α) (impl : TensorImpl α) :
    impl.converted b impl.dtype = impl := by
  simp [converted, b.same]

/-! ### One tensor -/

theorem wp_implOf (t : TensorId) (heap : Heap α) {normal : TensorImpl α → Heap α → Prop}
    {raised : Fault → Heap α → Prop} :
    wp (implOf t) normal raised heap ↔ normal (heap.contents t) heap := Iff.rfl

theorem alloc_makes (impl : TensorImpl α) (heap : Heap α) :
    wp (alloc impl) (fun made after => Grown heap after ∧ heap.next ≤ made ∧
      made < after.next ∧ after.contents made = impl) (fun _ _ => False) heap := by
  refine ⟨⟨Nat.le_succ _, fun t below => ?_⟩, Nat.le_refl _, Nat.lt_succ_self _, ?_⟩
  · exact if_neg (Nat.ne_of_lt below)
  · exact if_pos rfl

theorem toDevice_makes (t : TensorId) (device : Device) (heap : Heap α)
    (present : t < heap.next) :
    wp (toDevice t device) (fun made after => Grown heap after ∧ (made = t ∨ heap.next ≤ made) ∧
      made < after.next ∧ after.contents made = { heap.contents t with device })
      (fun _ _ => False) heap := by
  unfold toDevice
  rw [wp_bind, wp_implOf, wp_ite]
  refine ⟨fun there => ?_, fun _ => ?_⟩
  · exact ⟨.refl heap, .inl rfl, present, by rw [← there]⟩
  · refine wp_mono (alloc_makes _ heap) ?_ fun _ _ no => no
    rintro made after ⟨grown, fresh, below, contents⟩
    exact ⟨grown, .inr fresh, below, contents⟩

theorem toDtype_makes (b : Backend α) (t : TensorId) (dtype : ScalarType) (heap : Heap α)
    (present : t < heap.next) :
    wp (toDtype b t dtype) (fun made after => Grown heap after ∧
      ((heap.contents t).dtype ≠ dtype → heap.next ≤ made) ∧ (made = t ∨ heap.next ≤ made) ∧
      made < after.next ∧ after.contents made = (heap.contents t).converted b dtype)
      (fun _ _ => False) heap := by
  unfold toDtype
  rw [wp_bind, wp_implOf, wp_ite]
  refine ⟨fun same => ?_, fun _ => ?_⟩
  · refine ⟨.refl heap, fun differs => absurd same differs, .inl rfl, present, ?_⟩
    rw [← same, TensorImpl.converted_same]
  · refine wp_mono (alloc_makes _ heap) ?_ fun _ _ no => no
    rintro made after ⟨grown, fresh, below, contents⟩
    exact ⟨grown, fun _ => fresh, .inr fresh, below, contents⟩

theorem convertInPlace_makes (b : Backend α) (t : TensorId) (dtype : ScalarType) (heap : Heap α)
    (present : t < heap.next) :
    wp (convertInPlace b t dtype) (fun made after => Grown heap after ∧
      ((heap.contents t).dtype ≠ dtype → heap.next ≤ made) ∧
      made < after.next ∧ after.contents made = (heap.contents t).converted b dtype)
      (fun _ _ => False) heap := by
  unfold convertInPlace
  rw [wp_bind, wp_implOf, wp_bind]
  refine wp_mono (toDevice_makes t .cpu heap present) ?_ fun _ _ no => no
  rintro onCpu first ⟨grown, origin, below, contents⟩
  rw [wp_bind]
  refine wp_mono (toDtype_makes b onCpu dtype first below) ?_ fun _ _ no => no
  rintro converted second ⟨grown', fresh, origin', below', contents'⟩
  refine wp_mono (toDevice_makes converted _ second below') ?_ fun _ _ no => no
  rintro made after ⟨grown'', origin'', below'', contents''⟩
  refine ⟨(grown.trans grown').trans grown'', fun differs => ?_, below'', ?_⟩
  · have new : first.next ≤ converted := fresh (by rwa [contents])
    obtain rfl | later := origin''
    · exact Nat.le_trans grown.next new
    · exact Nat.le_trans (grown.trans grown').next later
  · rw [contents'', contents', contents]
    rfl

/-! ### Float copies -/

def IsHalf (heap : Heap α) (t : TensorId) : Prop := (heap.contents t).dtype = .half

/-- A new tensor that is a tensor as Float. -/
structure FloatCopy (b : Backend α) (before after : Heap α) (t copy : TensorId) : Prop where
  fresh : before.next ≤ copy
  below : copy < after.next
  contents : after.contents copy = (before.contents t).converted b .float

/-- A tensor itself or, of a Half tensor, a Float copy. -/
def Replaced (b : Backend α) (before after : Heap α) : Tensor → Tensor → Prop
  | none, none => True
  | some t, some replacement => (IsHalf before t ∧ FloatCopy b before after t replacement) ∨
      (¬ IsHalf before t ∧ replacement = t)
  | _, _ => False

def IValue.isOptionalTensorList : IValue ω → Bool
  | .optionalTensorList _ => true
  | _ => false

/-- The tensors of an argument, undefined ones too. -/
def IValue.tensors : IValue ω → List Tensor
  | .tensor t => [t]
  | .tensorList l => l
  | .optionalTensorList l => l.map (·.getD none)
  | .other _ => []

theorem FloatCopy.grown {b : Backend α} {before after later : Heap α} {t copy : TensorId}
    (made : FloatCopy b before after t copy) (grown : Grown after later) :
    FloatCopy b before later t copy where
  fresh := made.fresh
  below := Nat.lt_of_lt_of_le made.below grown.next
  contents := by rw [grown.same copy made.below, made.contents]

theorem Replaced.grown {b : Backend α} {before after later : Heap α} {t replacement : Tensor}
    (replaced : Replaced b before after t replacement) (grown : Grown after later) :
    Replaced b before later t replacement := by
  match t, replacement, replaced with
  | none, none, _ => trivial
  | some _, some _, .inl ⟨half, made⟩ => exact .inl ⟨half, made.grown grown⟩
  | some _, some _, .inr same => exact .inr same

/-- What `promote` gives of a tensor. -/
def PromotedTo (b : Backend α) (before after : Heap α) (t : Tensor) : Option TensorId → Prop
  | some copy => ∃ original, t = some original ∧ IsHalf before original ∧
      FloatCopy b before after original copy
  | none => ∀ original, t = some original → ¬ IsHalf before original

theorem promote_makes (b : Backend α) (before heap : Heap α) (t : Tensor)
    (grown : Grown before heap) (present : ∀ original, t = some original → original < before.next) :
    wp (promote b t) (fun copy after => Grown heap after ∧ PromotedTo b before after t copy)
      (fun _ _ => False) heap := by
  cases t with
  | none => exact ⟨.refl heap, fun _ impossible => nomatch impossible⟩
  | some original =>
    have below := present original rfl
    have same := grown.same original below
    unfold promote
    rw [wp_bind, wp_implOf, wp_ite, same]
    refine ⟨fun half => ?_, fun other => ?_⟩
    · rw [wp_bind]
      refine wp_mono (convertInPlace_makes b original .float heap
        (Nat.lt_of_lt_of_le below grown.next)) ?_ fun _ _ no => no
      rintro copy after ⟨grown', fresh, made, contents⟩
      rw [same] at fresh contents
      have new := fresh (by rw [half]; decide)
      exact ⟨grown', original, rfl, half, Nat.le_trans grown.next new, made, contents⟩
    · refine ⟨.refl heap, fun named given => ?_⟩
      cases given
      exact other

/-- The value that takes the place of a tensor. -/
theorem PromotedTo.replaced {b : Backend α} {before after : Heap α} {t : Tensor}
    {copy : Option TensorId} (promoted : PromotedTo b before after t copy) :
    Replaced b before after t (copy.map some |>.getD t) := by
  cases copy with
  | some copy =>
    obtain ⟨original, rfl, half, made⟩ := promoted
    exact .inl ⟨half, made⟩
  | none =>
    cases t with
    | none => trivial
    | some original => exact .inr ⟨promoted original rfl, rfl⟩

/-- The copies of a list, with their positions in it counted from `j`. -/
def ListCopies (before : Heap α) (i j : Nat) (l promoted : List Tensor)
    (copies : List (Nat × Nat × TensorId)) : Prop :=
  ∀ place position copy, (place, position, copy) ∈ copies ↔ place = i ∧ ∃ k original,
    position = j + k ∧ l[k]? = some (some original) ∧ IsHalf before original ∧
    promoted[k]? = some (some copy)

theorem ListCopies.cons_copy {before : Heap α} {i j : Nat} {l promoted : List Tensor}
    {copies : List (Nat × Nat × TensorId)} {original copy : TensorId}
    (listed : ListCopies before i (j + 1) l promoted copies) (half : IsHalf before original) :
    ListCopies before i j (some original :: l) (some copy :: promoted)
      ((i, j, copy) :: copies) := by
  intro place position other
  rw [List.mem_cons, listed]
  constructor
  · rintro (same | ⟨rfl, k, t, rfl, found, isHalf, made⟩)
    · cases same
      exact ⟨rfl, 0, original, rfl, rfl, half, rfl⟩
    · exact ⟨rfl, k + 1, t, by omega, found, isHalf, made⟩
  · rintro ⟨rfl, k, t, rfl, found, isHalf, made⟩
    cases k with
    | zero =>
      cases made
      exact .inl rfl
    | succ k => exact .inr ⟨rfl, k, t, by omega, found, isHalf, made⟩

theorem ListCopies.cons_same {before : Heap α} {i j : Nat} {l promoted : List Tensor}
    {copies : List (Nat × Nat × TensorId)} {t : Tensor}
    (listed : ListCopies before i (j + 1) l promoted copies)
    (other : ∀ original, t = some original → ¬ IsHalf before original) :
    ListCopies before i j (t :: l) (t :: promoted) copies := by
  intro place position copy
  rw [listed]
  constructor
  · rintro ⟨rfl, k, original, rfl, found, isHalf, made⟩
    exact ⟨rfl, k + 1, original, by omega, found, isHalf, made⟩
  · rintro ⟨rfl, k, original, rfl, found, isHalf, made⟩
    cases k with
    | zero =>
      cases found
      exact absurd isHalf (other original rfl)
    | succ k => exact ⟨rfl, k, original, by omega, found, isHalf, made⟩

theorem promoteList_makes (b : Backend α) (before : Heap α) (i : Nat) (l : List Tensor) :
    ∀ (j : Nat) (heap : Heap α), Grown before heap →
      (∀ original, some original ∈ l → original < before.next) →
      wp (promoteList b i j l) (fun made after => Grown heap after ∧
        List.Forall₂ (Replaced b before after) l made.1 ∧ ListCopies before i j l made.1 made.2)
        (fun _ _ => False) heap := by
  induction l with
  | nil =>
    intro j heap _ _
    refine ⟨.refl heap, .nil, fun place position copy => ?_⟩
    simp
  | cons t l ih =>
    intro j heap grown present
    unfold promoteList
    rw [wp_bind]
    refine wp_mono (promote_makes b before heap t grown fun original given =>
      present original (given ▸ List.mem_cons_self)) ?_ fun _ _ no => no
    rintro copy first ⟨grown', promoted⟩
    rw [wp_bind]
    refine wp_mono (ih (j + 1) first (grown.trans grown') fun original member =>
      present original (List.mem_cons_of_mem _ member)) ?_ fun _ _ no => no
    rintro ⟨others, copies⟩ after ⟨grown'', replaced, listed⟩
    have head := promoted.replaced.grown grown''
    cases copy with
    | some copy =>
      obtain ⟨original, rfl, half, -⟩ := promoted
      exact ⟨grown'.trans grown'', .cons head replaced, listed.cons_copy half⟩
    | none => exact ⟨grown'.trans grown'', .cons head replaced, listed.cons_same promoted⟩

theorem promoteOptionalList_makes (b : Backend α) (before : Heap α) (i : Nat)
    (l : List (Option Tensor)) :
    ∀ (j : Nat) (heap : Heap α), Grown before heap →
      (∀ original, some original ∈ l.map (·.getD none) → original < before.next) →
      wp (promoteOptionalList b i j l) (fun made after => Grown heap after ∧
        ((∀ original, some original ∈ l.map (·.getD none) → ¬ IsHalf before original) →
          made.2 = [])) (fun _ _ => False) heap := by
  induction l with
  | nil => exact fun _ heap _ _ => ⟨.refl heap, fun _ => rfl⟩
  | cons t l ih =>
    intro j heap grown present
    rw [List.map_cons] at present
    unfold promoteOptionalList
    rw [wp_bind]
    refine wp_mono (promote_makes b before heap _ grown fun original given =>
      present original (given ▸ List.mem_cons_self)) ?_ fun _ _ no => no
    rintro copy first ⟨grown', promoted⟩
    rw [wp_bind]
    refine wp_mono (ih (j + 1) first (grown.trans grown') fun original member =>
      present original (List.mem_cons_of_mem _ member)) ?_ fun _ _ no => no
    rintro ⟨others, copies⟩ after ⟨grown'', none⟩
    cases copy with
    | some copy =>
      obtain ⟨original, given, half, -⟩ := promoted
      refine ⟨grown'.trans grown'', fun without => ?_⟩
      exact absurd half (without original (given ▸ List.mem_cons_self))
    | none =>
      exact ⟨grown'.trans grown'', fun without =>
        none fun original member => without original (List.mem_cons_of_mem _ member)⟩

/-! ### The arguments -/

/-- What `convert_tensor_to_f32` puts on the stack for an argument. -/
def Stored (b : Backend α) (before after : Heap α) : IValue ω → IValue ω → Prop
  | .tensor t, .tensor t' => Replaced b before after t t'
  | .tensorList l, .tensorList l' => List.Forall₂ (Replaced b before after) l l'
  | .optionalTensorList l, .optionalTensorList l' => l' = l
  | .other v, .other v' => v' = v
  | _, _ => False

theorem Stored.grown {b : Backend α} {before after later : Heap α} {v stored : IValue ω}
    (holds : Stored b before after v stored) (grown : Grown after later) :
    Stored b before later v stored := by
  match v, stored, holds with
  | .tensor _, .tensor _, replaced => exact Replaced.grown replaced grown
  | .tensorList _, .tensorList _, replaced => exact replaced.imp fun _ _ each => each.grown grown
  | .optionalTensorList _, .optionalTensorList _, same => exact same
  | .other _, .other _, same => exact same

/-- The entries of a list that belong to the pairs of two others, with their positions from `i`
on. -/
def Indexed {β γ : Type} (belongs : β → β → γ → Prop) (i : Nat) (l l' : List β)
    (entries : List (Nat × γ)) : Prop :=
  ∀ place entry, (place, entry) ∈ entries ↔ ∃ k v v', place = i + k ∧ l[k]? = some v ∧
    l'[k]? = some v' ∧ belongs v v' entry

theorem Indexed.cons {β γ : Type} {belongs : β → β → γ → Prop} {i : Nat} {v v' : β}
    {l l' : List β} {entries first : List (Nat × γ)} (rest : Indexed belongs (i + 1) l l' entries)
    (head : ∀ place entry, (place, entry) ∈ first ↔ place = i ∧ belongs v v' entry) :
    Indexed belongs i (v :: l) (v' :: l') (first ++ entries) := by
  intro place entry
  rw [List.mem_append, head, rest]
  constructor
  · rintro (⟨rfl, here⟩ | ⟨k, w, w', rfl, found, found', there⟩)
    · exact ⟨0, v, v', rfl, rfl, rfl, here⟩
    · exact ⟨k + 1, w, w', by omega, found, found', there⟩
  · rintro ⟨k, w, w', rfl, found, found', holds⟩
    cases k with
    | zero =>
      cases found
      cases found'
      exact .inl ⟨rfl, holds⟩
    | succ k => exact .inr ⟨k, w, w', by omega, found, found', holds⟩

/-- An argument that is a Half tensor, and its copy. -/
def TensorCopy (before : Heap α) (v v' : IValue ω) (copy : TensorId) : Prop :=
  ∃ t, v = .tensor (some t) ∧ IsHalf before t ∧ v' = .tensor (some copy)

/-- A Half tensor of a list that is an argument, and its copy. -/
def EntryCopy (before : Heap α) (v v' : IValue ω) (entry : Nat × TensorId) : Prop :=
  ∃ l l' t, v = .tensorList l ∧ v' = .tensorList l' ∧ l[entry.1]? = some (some t) ∧
    IsHalf before t ∧ l'[entry.1]? = some (some entry.2)

/-- No tensor of an optional tensor list is Half. -/
def IValue.NoHalfOptional (heap : Heap α) (v : IValue ω) : Prop :=
  v.isOptionalTensorList = true → ∀ t, some t ∈ v.tensors → ¬ IsHalf heap t

/-- The copies with their positions. -/
structure Copies (before : Heap α) (i : Nat) (l l' : List (IValue ω)) (promoted : Promoted) :
    Prop where
  tensors : Indexed (TensorCopy before) i l l' promoted.tensors
  lists : Indexed (EntryCopy before) i l l' promoted.lists
  optionals : (∀ v ∈ l, v.NoHalfOptional before) → promoted.optionals = []

/-! ### Meta tensors -/

theorem metaTensor_grows (t : Tensor) (heap : Heap α) :
    wp (metaTensor t) (fun _ after => Grown heap after) (fun _ _ => False) heap := by
  cases t with
  | none => exact .refl heap
  | some t =>
    unfold metaTensor
    rw [wp_bind, wp_implOf, wp_bind]
    exact wp_mono (alloc_makes _ heap) (fun _ _ made => made.1) fun _ _ no => no

theorem metaList_grows (l : List Tensor) :
    ∀ heap : Heap α, wp (metaList l) (fun _ after => Grown heap after) (fun _ _ => False) heap := by
  induction l with
  | nil => exact fun heap => .refl heap
  | cons t l ih =>
    intro heap
    unfold metaList
    rw [wp_bind]
    refine wp_mono (metaTensor_grows t heap) (fun made first grown => ?_) fun _ _ no => no
    rw [wp_bind]
    exact wp_mono (ih first) (fun _ _ grown' => grown.trans grown') fun _ _ no => no

theorem metaOptionalOne_grows (t : Option Tensor) (heap : Heap α) :
    wp (metaOptionalOne t) (fun _ after => Grown heap after) (fun _ _ => False) heap := by
  match t with
  | none | some none => exact .refl heap
  | some (some t) =>
    unfold metaOptionalOne
    rw [wp_bind, wp_implOf, wp_ite]
    refine ⟨fun _ => ?_, fun _ => .refl heap⟩
    rw [wp_bind]
    exact metaTensor_grows (some t) heap

theorem metaOptionalList_grows (l : List (Option Tensor)) :
    ∀ heap : Heap α,
      wp (metaOptionalList l) (fun _ after => Grown heap after) (fun _ _ => False) heap := by
  induction l with
  | nil => exact fun heap => .refl heap
  | cons t l ih =>
    intro heap
    unfold metaOptionalList
    rw [wp_bind]
    refine wp_mono (metaOptionalOne_grows t heap) (fun made first grown => ?_) fun _ _ no => no
    rw [wp_bind]
    exact wp_mono (ih first) (fun _ _ grown' => grown.trans grown') fun _ _ no => no

theorem metaValue_grows (v : IValue ω) (heap : Heap α) :
    wp (metaValue v) (fun _ after => Grown heap after) (fun _ _ => False) heap := by
  cases v with
  | tensor t =>
    unfold metaValue
    rw [wp_bind]
    exact metaTensor_grows t heap
  | tensorList l =>
    unfold metaValue
    rw [wp_bind]
    exact metaList_grows l heap
  | optionalTensorList l =>
    unfold metaValue
    rw [wp_bind]
    exact metaOptionalList_grows l heap
  | other _ => exact .refl heap

theorem convertToMeta_grows (values : List (IValue ω)) :
    ∀ heap : Heap α,
      wp (convertToMeta values) (fun _ after => Grown heap after) (fun _ _ => False) heap := by
  induction values with
  | nil => exact fun heap => .refl heap
  | cons v values ih =>
    intro heap
    unfold convertToMeta
    rw [wp_bind]
    refine wp_mono (metaValue_grows v heap) (fun made first grown => ?_) fun _ _ no => no
    rw [wp_bind]
    exact wp_mono (ih first) (fun _ _ grown' => grown.trans grown') fun _ _ no => no

end TorchGcu.CpuFallback

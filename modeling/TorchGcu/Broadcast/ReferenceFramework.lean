import TorchGcu.Broadcast.CoalescedChunks

/-! A framework that keeps its promises: every tensor is a chunk. -/
namespace TorchGcu.Broadcast
open Resize (contiguousStrides)

variable {hardware : Hardware}

/-- A copy, which keeps what it is not asked about here: values of another type. -/
def referenceCopy (out tensor : Tensor hardware) : Tensor hardware :=
  if same : out.sizes = tensor.sizes ∧ out.dtype = tensor.dtype then
    { out with
      data := tensor.data
      full := by rw [tensor.full, same.1, same.2] }
  else out

/-- All elements of a chunk of one type. -/
def referenceFlatten (chunk : List (Tensor hardware)) : Tensor hardware :=
  let device := (chunk.head?.map (·.device)).getD 0
  let sizes := [(chunk.map Tensor.numel).sum]
  if full : (chunk.flatMap (·.data)).length =
      Resize.numel sizes * deviceElementSize hardware (typeId chunk) then
    ⟨device, typeId chunk, sizes, contiguousStrides sizes, chunk.flatMap (·.data), full⟩
  else
    ⟨device, typeId chunk, [0], [1], [], (Nat.zero_mul _).symm⟩

def referenceSizes (sizes : List Nat) : List Nat := if Resize.numel sizes = 0 then [0] else sizes

theorem numel_referenceSizes (sizes : List Nat) :
    Resize.numel (referenceSizes sizes) = Resize.numel sizes := by
  unfold referenceSizes
  split
  · next empty => exact empty.symm
  · rfl

/-- The bytes cut into tensors of the sizes of a chunk. -/
def cut (device : Int) (dtype : ScalarType) :
    List (Tensor hardware) → List UInt8 → List (Tensor hardware)
  | [], _ => []
  | t :: chunk, bytes =>
    if full : (bytes.take (t.numel * deviceElementSize hardware dtype)).length =
        Resize.numel (referenceSizes t.sizes) * deviceElementSize hardware dtype then
      ⟨device, dtype, referenceSizes t.sizes, contiguousStrides (referenceSizes t.sizes),
        bytes.take (t.numel * deviceElementSize hardware dtype), full⟩ ::
      cut device dtype chunk (bytes.drop (t.numel * deviceElementSize hardware dtype))
    else []

/-- The first tensor of each type in turn. -/
def referenceReorder : List (Tensor hardware) → List (Tensor hardware) → List (Tensor hardware)
  | _, [] => []
  | tensors, like :: order =>
    match tensors.find? (·.dtype = like.dtype) with
    | none => []
    | some t => t :: referenceReorder (tensors.eraseP (·.dtype = like.dtype)) order

def referenceFramework : Framework hardware where
  copy := referenceCopy
  takeTensors tensors _ := tensors.map fun t => [t]
  flattenDenseTensors := referenceFlatten
  unflattenDenseTensors flat chunk := cut flat.device flat.dtype chunk flat.data
  reorderTensorsLike := referenceReorder
  emptySizes _ := ⟨[0], rfl⟩
  countMax := 2 ^ 64 - 1

theorem referenceFramework_copies : (referenceFramework : Framework hardware).Copies := by
  refine ⟨fun out tensor _ => ?_, fun out tensor sizes dtype => ?_⟩
  · by_cases same : out.sizes = tensor.sizes ∧ out.dtype = tensor.dtype <;>
      simp [referenceFramework, referenceCopy, same]
  · simp [referenceFramework, referenceCopy, sizes, dtype]

theorem length_flatMap_data {chunk : List (Tensor hardware)} {dtype : ScalarType}
    (types : ∀ t ∈ chunk, t.dtype = dtype) :
    (chunk.flatMap (·.data)).length =
      (chunk.map Tensor.numel).sum * deviceElementSize hardware dtype := by
  induction chunk with
  | nil => simp
  | cons t chunk ih =>
    have rest := ih fun other inside => types other (List.mem_cons_of_mem _ inside)
    rw [List.flatMap_cons, List.length_append, rest, t.full, types t List.mem_cons_self,
      List.map_cons, List.sum_cons, Nat.add_mul]
    rfl

theorem numel_singleton (count : Nat) : Resize.numel [count] = count := Nat.mul_one count

theorem cut_spec {flat : Tensor hardware} {chunk : List (Tensor hardware)} (bytes : List UInt8)
    (whole : bytes.length = (chunk.map Tensor.numel).sum * deviceElementSize hardware flat.dtype) :
    List.Forall₂ (referenceFramework.Piece flat) chunk (cut flat.device flat.dtype chunk bytes) ∧
      (cut flat.device flat.dtype chunk bytes).flatMap (·.data) = bytes := by
  induction chunk generalizing bytes with
  | nil =>
    have empty : bytes = [] := List.length_eq_zero_iff.mp (by simpa using whole)
    simp [cut, empty]
  | cons t chunk ih =>
    rw [List.map_cons, List.sum_cons, Nat.add_mul] at whole
    have full : (bytes.take (t.numel * deviceElementSize hardware flat.dtype)).length =
        Resize.numel (referenceSizes t.sizes) * deviceElementSize hardware flat.dtype := by
      rw [numel_referenceSizes, List.length_take, whole]
      exact Nat.min_eq_left (Nat.le_add_right _ _)
    have rest := ih (bytes.drop (t.numel * deviceElementSize hardware flat.dtype)) (by
      rw [List.length_drop, whole]
      omega)
    rw [cut, dif_pos full]
    refine ⟨List.Forall₂.cons ⟨rfl, rfl, rfl, rfl⟩ rest.1, ?_⟩
    rw [List.flatMap_cons, rest.2]
    exact List.take_append_drop _ _

/-- The first tensor of a type, taken out. -/
theorem find_eraseP {tensors : List (Tensor hardware)} {dtype : ScalarType}
    (exist : ∃ t ∈ tensors, t.dtype = dtype) :
    ∃ t, tensors.find? (·.dtype = dtype) = some t ∧ t.dtype = dtype ∧
      ∀ other, tensors.filter (·.dtype = other) =
        if other = dtype then t :: (tensors.eraseP (·.dtype = dtype)).filter (·.dtype = other)
        else (tensors.eraseP (·.dtype = dtype)).filter (·.dtype = other) := by
  induction tensors with
  | nil => simp at exist
  | cons t tensors ih =>
    by_cases first : t.dtype = dtype
    · refine ⟨t, by simp [first], first, fun other => ?_⟩
      by_cases same : other = dtype
      · simp [first, same]
      · simp [first, same, Ne.symm same]
    · obtain ⟨found, finds, type, filters⟩ := ih (by simpa [first] using exist)
      refine ⟨found, by simpa [first] using finds, type, fun other => ?_⟩
      have rest := filters other
      have kept : (t :: tensors).eraseP (·.dtype = dtype) = t :: tensors.eraseP (·.dtype = dtype) :=
        List.eraseP_cons_of_neg (by simpa using first)
      rw [kept]
      by_cases same : other = dtype
      · subst same
        simpa [first] using rest
      · rw [if_neg same] at rest ⊢
        rw [List.filter_cons, List.filter_cons, rest]

theorem referenceReorder_spec {tensors order : List (Tensor hardware)}
    (counts : ∀ dtype, (tensors.filter (·.dtype = dtype)).length =
      (order.filter (·.dtype = dtype)).length) :
    (referenceReorder tensors order).map (·.dtype) = order.map (·.dtype) ∧
      ∀ dtype, (referenceReorder tensors order).filter (·.dtype = dtype) =
        tensors.filter (·.dtype = dtype) := by
  induction order generalizing tensors with
  | nil =>
    refine ⟨by cases tensors <;> rfl, fun dtype => ?_⟩
    have none := List.length_eq_zero_iff.mp (counts dtype)
    rw [none]
    cases tensors <;> rfl
  | cons like order ih =>
    have some : ∃ t ∈ tensors, t.dtype = like.dtype := by
      have count := counts like.dtype
      rw [List.filter_cons_of_pos (by simp), List.length_cons] at count
      obtain ⟨t, inside⟩ := List.exists_mem_of_length_pos (Nat.lt_of_lt_of_eq (Nat.succ_pos _)
        count.symm)
      exact ⟨t, (List.mem_filter.mp inside).1, of_decide_eq_true (List.mem_filter.mp inside).2⟩
    obtain ⟨t, finds, type, filters⟩ := find_eraseP some
    have rest := @ih (tensors.eraseP (·.dtype = like.dtype)) fun dtype => by
      have count := counts dtype
      rw [filters dtype] at count
      by_cases own : dtype = like.dtype
      · simpa [own] using count
      · simpa [own, Ne.symm own] using count
    rw [referenceReorder, finds]
    refine ⟨?_, fun dtype => ?_⟩
    · rw [List.map_cons, List.map_cons, type, rest.1]
    · rw [filters dtype]
      by_cases own : dtype = like.dtype
      · simp [own, type, rest.2]
      · simp [own, type, Ne.symm own, rest.2]

theorem referenceFramework_gathers : (referenceFramework : Framework hardware).Gathers where
  nonempty tensors limit chunk among := by
    obtain ⟨t, -, rfl⟩ := List.mem_map.mp among
    exact List.cons_ne_nil _ _
  oneType tensors limit chunk among t inside := by
    obtain ⟨own, -, rfl⟩ := List.mem_map.mp among
    rw [List.mem_singleton.mp inside]
    rfl
  inOrder tensors limit dtype := by
    have alone : ∀ l : List (Tensor hardware), (l.map fun t => [t]).flatten = l := by
      intro l
      induction l with
      | nil => rfl
      | cons t l ih => simp [ih]
    exact congrArg (List.filter _) (alone tensors)
  flatten chunk device dtype nonempty known := by
    obtain ⟨t, rest, rfl⟩ := List.exists_cons_of_ne_nil nonempty
    have type : typeId (t :: rest) = dtype := (known t List.mem_cons_self).2
    have full := length_flatMap_data fun other inside => (known other inside).2
    rw [← type, ← numel_singleton ((t :: rest).map Tensor.numel).sum] at full
    have flat : referenceFramework.flattenDenseTensors (t :: rest) = _ := dif_pos full
    rw [flat]
    exact ⟨⟨(known t List.mem_cons_self).1, type, rfl⟩, rfl⟩
  unflatten chunk device dtype flat types isFlat := by
    refine cut_spec flat.data ?_
    rw [flat.full, isFlat.sizes, numel_singleton]
  reorder tensors order counts := referenceReorder_spec counts

end TorchGcu.Broadcast

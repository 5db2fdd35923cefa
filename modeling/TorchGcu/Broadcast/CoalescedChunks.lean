import TorchGcu.Broadcast.NewTensors
import TorchGcu.Logic.KeyedLists

/-! Chunks of tensors: how they are flattened, broadcast and cut again. -/
namespace TorchGcu.Broadcast
open Resize (contiguousStrides)
open ProgramLogic

variable {hardware : Hardware} (framework : Framework hardware)

/-! ### Cut tensors -/

/-- The sizes of a tensor after it was cut. -/
def Framework.keptSizes (t : Tensor hardware) : List Nat :=
  if t.numel = 0 then (framework.emptySizes t.sizes).val else t.sizes

theorem numel_keptSizes (t : Tensor hardware) :
    Resize.numel (framework.keptSizes t) = t.numel := by
  unfold Framework.keptSizes
  split
  · next empty => rw [(framework.emptySizes t.sizes).property, empty]
  · rfl

/-- A tensor as it is on a device after it was cut from a flat tensor. -/
def Framework.onDevice (device : Int) (t : Tensor hardware) : Tensor hardware where
  device := device
  dtype := t.dtype
  sizes := framework.keptSizes t
  strides := contiguousStrides (framework.keptSizes t)
  data := t.data
  full := by rw [numel_keptSizes]; exact t.full

/-- A part of a flat tensor with the sizes of a tensor. -/
structure Framework.Piece (flat t piece : Tensor hardware) : Prop where
  device : piece.device = flat.device
  dtype : piece.dtype = flat.dtype
  sizes : piece.sizes = framework.keptSizes t
  strides : piece.strides = contiguousStrides (framework.keptSizes t)

/-- The contiguous tensor of one dimension with all elements of a chunk. -/
structure Flat (chunk : List (Tensor hardware)) (device : Int) (dtype : ScalarType)
    (flat : Tensor hardware) : Prop where
  device : flat.device = device
  dtype : flat.dtype = dtype
  sizes : flat.sizes = [(chunk.map Tensor.numel).sum]

/-- What the framework promises of chunks: no chunk is empty, it has tensors of one type only, and
the tensors of each type are in order. Flattening puts the elements one after the other, and
cutting divides them again. Tensors put in the order of others have the types of the others in
order, and those of each type stay in order. -/
structure Framework.Gathers (framework : Framework hardware) : Prop where
  nonempty : ∀ tensors limit, ∀ chunk ∈ framework.takeTensors tensors limit, chunk ≠ []
  oneType : ∀ tensors limit, ∀ chunk ∈ framework.takeTensors tensors limit,
    ∀ t ∈ chunk, t.dtype = typeId chunk
  inOrder : ∀ tensors limit dtype,
    (framework.takeTensors tensors limit).flatten.filter (·.dtype = dtype) =
      tensors.filter (·.dtype = dtype)
  flatten : ∀ chunk device dtype, chunk ≠ [] → (∀ t ∈ chunk, t.device = device ∧ t.dtype = dtype) →
    Flat chunk device dtype (framework.flattenDenseTensors chunk) ∧
      (framework.flattenDenseTensors chunk).data = chunk.flatMap (·.data)
  unflatten : ∀ chunk device dtype flat, (∀ t ∈ chunk, t.dtype = dtype) →
    Flat chunk device dtype flat →
      List.Forall₂ (framework.Piece flat) chunk (framework.unflattenDenseTensors flat chunk) ∧
        (framework.unflattenDenseTensors flat chunk).flatMap (·.data) = flat.data
  reorder : ∀ tensors order,
    (∀ dtype, (tensors.filter (·.dtype = dtype)).length = (order.filter (·.dtype = dtype)).length) →
      (framework.reorderTensorsLike tensors order).map (·.dtype) = order.map (·.dtype) ∧
        ∀ dtype, (framework.reorderTensorsLike tensors order).filter (·.dtype = dtype) =
          tensors.filter (·.dtype = dtype)

/-- What the framework promises of copies and of chunks. -/
structure Framework.Lawful (framework : Framework hardware) : Prop where
  copies : framework.Copies
  gathers : framework.Gathers

variable {framework}

theorem Framework.Piece.length {flat t piece : Tensor hardware} (isPiece : framework.Piece flat t piece)
    (dtype : t.dtype = flat.dtype) : piece.data.length = t.data.length := by
  rw [piece.full, t.full, isPiece.sizes, numel_keptSizes, isPiece.dtype, dtype]
  rfl

theorem map_dtype_of_pieces {flat : Tensor hardware} {chunk pieces : List (Tensor hardware)}
    (types : ∀ t ∈ chunk, t.dtype = flat.dtype)
    (cut : List.Forall₂ (framework.Piece flat) chunk pieces) :
    pieces.map (·.dtype) = chunk.map (·.dtype) := by
  induction cut with
  | nil => rfl
  | @cons t piece chunk pieces first _ ih =>
    rw [List.map_cons, List.map_cons, first.dtype, types t List.mem_cons_self,
      ih fun other inside => types other (List.mem_cons_of_mem _ inside)]

/-- The pieces are the tensors on the device when the bytes of the flat tensor are theirs. -/
theorem pieces_eq_iff {flat : Tensor hardware} {chunk pieces : List (Tensor hardware)}
    (types : ∀ t ∈ chunk, t.dtype = flat.dtype)
    (cut : List.Forall₂ (framework.Piece flat) chunk pieces) :
    pieces = chunk.map (framework.onDevice flat.device) ↔
      pieces.flatMap (·.data) = chunk.flatMap (·.data) := by
  induction cut with
  | nil => simp
  | @cons t piece chunk pieces first _ ih =>
    have rest := ih fun other inside => types other (List.mem_cons_of_mem _ inside)
    have type : t.dtype = flat.dtype := types t List.mem_cons_self
    simp only [List.map_cons, List.flatMap_cons, List.cons.injEq]
    constructor
    · rintro ⟨same, later⟩
      rw [rest.mp later, same]
      rfl
    · intro bytes
      obtain ⟨own, later⟩ := List.append_inj bytes (first.length type)
      refine ⟨?_, rest.mpr later⟩
      exact Tensor.ext first.device (first.dtype.trans type.symm) first.sizes first.strides own

/-! ### The loop over the chunks -/

/-- The tensors that a chunk adds to the outputs of a device. -/
def chunkPieces (framework : Framework hardware) (eccl : Bool) (memory : Nat → Int → Nat → UInt8)
    (devices : List Int) (device : Int) (numbered : List (Tensor hardware) × Nat) :
    List (Tensor hardware) :=
  framework.unflattenDenseTensors
    (landed framework eccl (memory numbered.2) (framework.flattenDenseTensors numbered.1) devices
      device) numbered.1

theorem broadcastChunks_ok {eccl : Bool} {memory : Nat → Int → Nat → UInt8} {first : Int}
    {others : List Int} {chunks : List (List (Tensor hardware))} (i : Nat)
    (checker : UniqueTypeChecker) (before : Int → List (Tensor hardware))
    (runs : ∀ numbered ∈ chunks.zipIdx i, broadcast framework eccl (memory numbered.2)
      (framework.flattenDenseTensors numbered.1) (first :: others) =
        .ok ((first :: others).map (landed framework eccl (memory numbered.2)
          (framework.flattenDenseTensors numbered.1) (first :: others)))) :
    broadcastChunks framework eccl memory (first :: others) i checker (others.map before) chunks =
      .ok (chunks.foldl (fun checker chunk => checker.show (typeId chunk)) checker,
        others.map fun device => before device ++ (chunks.zipIdx i).flatMap
          (chunkPieces framework eccl memory (first :: others) device)) := by
  induction chunks generalizing i checker before with
  | nil => simp [broadcastChunks]
  | cons chunk chunks ih =>
    rw [List.zipIdx_cons] at runs ⊢
    have one := runs _ List.mem_cons_self
    have later := ih (i + 1) (checker.show (typeId chunk))
      (fun device => before device ++
        chunkPieces framework eccl memory (first :: others) device (chunk, i))
      fun numbered inside => runs numbered (List.mem_cons_of_mem _ inside)
    simp only [broadcastChunks, one, bind, Except.bind, List.map_cons, List.tail_cons,
      List.zipWith_map, List.zipWith_self]
    simp only [List.append_assoc] at later
    exact later

/-- The loop ends early with the first chunk whose broadcast does. -/
theorem broadcastChunks_each {eccl : Bool} {memory : Nat → Int → Nat → UInt8} {devices : List Int}
    {chunks : List (List (Tensor hardware))} {i : Nat} {checker : UniqueTypeChecker}
    {outputs : List (List (Tensor hardware))}
    {result : UniqueTypeChecker × List (List (Tensor hardware))}
    (ran : broadcastChunks framework eccl memory devices i checker outputs chunks = .ok result) :
    ∀ numbered ∈ chunks.zipIdx i, ∃ results, broadcast framework eccl (memory numbered.2)
      (framework.flattenDenseTensors numbered.1) devices = .ok results := by
  induction chunks generalizing i checker outputs with
  | nil => simp
  | cons chunk chunks ih =>
    simp only [broadcastChunks, bind, Except.bind] at ran
    rw [List.zipIdx_cons]
    cases one : broadcast framework eccl (memory i) (framework.flattenDenseTensors chunk) devices with
    | error stop =>
      rw [one] at ran
      cases ran
    | ok results =>
      rw [one] at ran
      intro numbered inside
      rcases List.mem_cons.mp inside with rfl | inside
      · exact ⟨results, one⟩
      · exact ih ran numbered inside

end TorchGcu.Broadcast

import TorchGcu.Tensor.Resize

/-! The shapes of Fourier transforms. A transform runs over at most three dimensions at a time, and
each pass writes a buffer with strides of its own. -/
namespace TorchGcu.SpectralOps
open Resize (numel contiguousStrides extent)

/-! ### Tensors -/

inductive Error where
  | torchCheck (message : String)
  | internalAssert
  /-- The loop of a transform would go on. -/
  | unfinished
deriving DecidableEq, Repr

def torchCheck (condition : Bool) (message : String) : Except Error Unit :=
  if condition then .ok () else .error (.torchCheck message)

def internalAssert (condition : Bool) : Except Error Unit :=
  if condition then .ok () else .error .internalAssert

/-- A tensor over a storage of `storage` elements. -/
structure Tensor where
  sizes : List Nat
  strides : List Nat
  storageOffset : Nat
  storage : Nat
  dtype : ScalarType
deriving DecidableEq

def isComplex : ScalarType → Bool
  | .complexHalf | .complexFloat | .complexDouble => true
  | _ => false

def isFloatingPoint : ScalarType → Bool
  | .half | .float | .double | .bfloat16
  | .float8e5m2 | .float8e4m3fn | .float8e5m2fnuz | .float8e4m3fnuz => true
  | _ => false

/-- `toComplexType`. -/
def toComplexType : ScalarType → Except Error ScalarType
  | .half => .ok .complexHalf
  | .float | .bfloat16 => .ok .complexFloat
  | .double => .ok .complexDouble
  | .complexHalf => .ok .complexHalf
  | .complexFloat => .ok .complexFloat
  | .complexDouble => .ok .complexDouble
  | _ => .error (.torchCheck "Unknown Complex ScalarType")

/-- `empty`, without a memory format. -/
def empty (sizes : List Nat) (dtype : ScalarType) : Tensor where
  sizes := sizes
  strides := contiguousStrides sizes
  storageOffset := 0
  storage := numel sizes
  dtype := dtype

namespace Tensor
variable (tensor : Tensor)

/-- The elements that the storage must have. -/
def needed : Nat :=
  if 0 ∈ tensor.sizes then 0 else tensor.storageOffset + extent tensor.sizes tensor.strides

def permute (dims : List Nat) : Tensor :=
  { tensor with
    sizes := dims.map (tensor.sizes.getD · 0)
    strides := dims.map (tensor.strides.getD · 0) }

/-- `movedim(dim, -1)`. -/
def movedimLast (dim : Nat) : Tensor :=
  { tensor with
    sizes := tensor.sizes.eraseIdx dim ++ [tensor.sizes.getD dim 0]
    strides := tensor.strides.eraseIdx dim ++ [tensor.strides.getD dim 0] }

/-- `movedim(-1, dim)`. -/
def movedimBack (dim : Nat) : Tensor :=
  { tensor with
    sizes := tensor.sizes.dropLast.insertIdx dim (tensor.sizes.getLastD 0)
    strides := tensor.strides.dropLast.insertIdx dim (tensor.strides.getLastD 0) }

end Tensor

/-! ### One pass -/

/-- The functions that are called: `std::sort` and `std::partition`, which permute, and ATen's on a
tensor: `resize_` and `clone` with the contiguous format, `reshape` to sizes of which the first one
is inferred, and `as_strided_`, which needs a storage that is large enough. -/
structure Library where
  sort : (Nat → Nat → Bool) → List Nat → List Nat
  sort_perm : ∀ less values, (sort less values).Perm values
  partition : (Nat → Bool) → List Nat → List Nat × List Nat
  partition_fst : ∀ holds values, (partition holds values).1.Perm (values.filter holds)
  resize : Tensor → List Nat → Tensor
  resize_sizes : ∀ tensor sizes, (resize tensor sizes).sizes = sizes
  resize_strides : ∀ tensor sizes, (resize tensor sizes).strides = contiguousStrides sizes
  resize_storage : ∀ tensor sizes, (resize tensor sizes).needed ≤ (resize tensor sizes).storage
  reshapeSizes : Tensor → List Nat → Except Error (List Nat)
  reshapeSizes_infers : ∀ tensor sizes batch, numel sizes ≠ 0 →
    numel tensor.sizes = batch * numel sizes → reshapeSizes tensor sizes = .ok (batch :: sizes)
  asStrided : Tensor → List Nat → List Nat → Nat → Except Error Tensor
  asStrided_view : ∀ tensor sizes strides storageOffset, sizes.length = strides.length →
    Tensor.needed { tensor with sizes, strides, storageOffset } ≤ tensor.storage →
      asStrided tensor sizes strides storageOffset =
        .ok { tensor with sizes, strides, storageOffset }
  clone : Tensor → Tensor
  clone_sizes : ∀ tensor, (clone tensor).sizes = tensor.sizes

variable (lib : Library)

/-- `movedim(dim, -1)`, `clone` and `movedim(-1, dim)`. -/
def cloneWithLast (tensor : Tensor) (dim : Nat) : Tensor :=
  (lib.clone (tensor.movedimLast dim)).movedimBack dim

def maxNdim : Nat := 3

/-- By descending strides. -/
def byStrides (strides : List Nat) (a b : Nat) : Bool := strides.getD b 0 < strides.getD a 0

/-- The dimensions with the batch first and in stride order, and the transformed ones at the end. -/
def dimPermute (self : Tensor) (dim : List Nat) : List Nat × List Nat :=
  let batch := (lib.partition (fun d => !dim.contains d) (List.range self.sizes.length)).1
  (lib.sort (byStrides self.strides) batch, dim)

/-- The signal size of a dimension is its input or its output size, and the other one may be
halved. -/
def checkSignal (outSizes : List Nat) : List (Nat × Nat) → Except Error Unit
  | [] => .ok ()
  | (d, inSize) :: rest => do
    let outSize := outSizes.getD d 0
    let signalSize := max inSize outSize
    internalAssert (inSize = signalSize || inSize = signalSize / 2 + 1)
    internalAssert (outSize = signalSize || outSize = signalSize / 2 + 1)
    checkSignal outSizes rest

/-- The strides of the batch dimensions, from the last one, and the number of elements so far. -/
def batchStrides (outSizes : List Nat) (ndim stride : Nat) (batch : List Nat) : List Nat × Nat :=
  batch.foldr (fun d (strides, batchNumel) =>
    (strides.set d (batchNumel * stride), batchNumel * outSizes.getD d 0))
    (List.replicate ndim 0, 1)

/-- The strides of the transformed dimensions, set one after the other. -/
def setStrides (strides : List Nat) : List (Nat × Nat) → List Nat
  | [] => strides
  | (d, stride) :: rest => setStrides (strides.set d stride) rest

/-- `_exec_fft_shape_infer`. -/
def execFft (out self : Tensor) (outSizes : List Nat) (dim : List Nat) : Except Error Tensor := do
  let ndim := self.sizes.length
  let (batch, transformed) := dimPermute lib self dim
  let input := self.permute (batch ++ transformed)
  let inputSizes ← lib.reshapeSizes input (input.sizes.drop (ndim - dim.length))
  checkSignal outSizes (dim.zip inputSizes.tail)
  let out := lib.resize out (inputSizes.headD 0 :: dim.map (outSizes.getD · 0))
  let (strides, _) := batchStrides outSizes ndim (out.strides.headD 0) batch
  let strides := setStrides strides (transformed.zip out.strides.tail)
  lib.asStrided out outSizes strides out.storageOffset

/-! ### Complex transforms -/

/-- The passes of `_fft_c2c_shape_infer`: the last dimensions by descending strides, at most three,
are transformed from the working tensor to the output. `first` says that the working tensor is the
argument still. -/
def c2cPasses (outSizes : List Nat) (dtype : ScalarType) :
    Nat → Bool → (output working : Tensor) → List Nat → Except Error Tensor
  | 0, _, _, _, _ => .error .unfinished
  | fuel + 1, first, output, working, sortedDims => do
    let sortedDims := lib.sort (byStrides working.strides) sortedDims
    let kept := sortedDims.length - min maxNdim sortedDims.length
    let output ← execFft lib output working outSizes (sortedDims.drop kept)
    let sortedDims := sortedDims.take kept
    if sortedDims.isEmpty then pure output
    else if first then c2cPasses outSizes dtype fuel false (empty outSizes dtype) output sortedDims
    else c2cPasses outSizes dtype fuel false working output sortedDims

/-- `_fft_c2c_shape_infer`, of which every pass leaves fewer dimensions. -/
def fftC2c (self : Tensor) (dim : List Nat) : Except Error Tensor := do
  torchCheck (isComplex self.dtype) "Input must be a complex tensor"
  if dim.isEmpty then
    pure { empty self.sizes self.dtype with strides := self.strides }
  else
    c2cPasses lib self.sizes self.dtype dim.length true (empty self.sizes self.dtype) self dim

/-! ### Real transforms -/

/-- The dimensions of a `TensorIterator`, with their strides and sizes: nothing is assumed of how
they are coalesced. -/
abbrev Iterator := Tensor → List Nat → List (Nat × Nat)

/-- Several indices address one element. -/
def hasInternalOverlap (tensor : Tensor) : Bool :=
  (tensor.sizes.zip tensor.strides).any fun (size, stride) => decide (stride = 0 ∧ 1 < size)

/-- `_fft_fill_with_conjugate_symmetry_shape_infer`. -/
def fillWithConjugateSymmetry (iterator : Iterator) (input : Tensor) (dim : List Nat) :
    Except Error Unit := do
  torchCheck (!dim.isEmpty) "dim is empty"
  if numel input.sizes = 0 || input.sizes.getD (dim.getLastD 0) 0 ≤ 2 then pure ()
  else do
    let dim := dim.filter fun d => !decide (input.sizes.getD d 0 ≤ 2)
    torchCheck (!hasInternalOverlap input)
      "unsupported operation: more than one element of the written-to tensor refers to a single memory location"
    let iter := iterator input dim
    let ndim := iter.length + dim.length
    let inStrides := iter.map Prod.fst ++
      dim.map fun d => input.strides.getD d 0 * elementSize input.dtype
    let dimPermute := lib.sort (fun a b => inStrides.getD a 0 < inStrides.getD b 0)
      (List.range ndim)
    let mirrorDims := (List.range ndim).filter fun i =>
      decide (iter.length ≤ dimPermute.getD i 0) && dimPermute.getD i 0 ≠ ndim - 1
    internalAssert (mirrorDims.length = dim.length - 1)

def useOptimizedCufftPath (dim : List Nat) : Bool :=
  !(decide (maxNdim < dim.length) ||
    (decide (2 ≤ dim.length) && dim.getD 0 0 = 0 && dim.getD 1 0 = 1))

/-- The complex passes of `_fft_r2c_shape_infer`, which swap the two tensors first. -/
def r2cPasses (onesidedSizes : List Nat) :
    Nat → (output working : Tensor) → List Nat → Except Error Tensor
  | 0, output, _, sortedDims => if sortedDims.isEmpty then pure output else .error .unfinished
  | fuel + 1, output, working, sortedDims =>
    if sortedDims.isEmpty then pure output
    else do
      let (output, working) := (working, output)
      let sortedDims := lib.sort (byStrides working.strides) sortedDims
      let kept := sortedDims.length - min maxNdim sortedDims.length
      let output ← execFft lib output working onesidedSizes (sortedDims.drop kept)
      r2cPasses onesidedSizes fuel output working (sortedDims.take kept)

/-- The transform on the last dimension, and on the remaining ones after it. -/
def r2cTransforms (outSizes onesidedSizes : List Nat) (dtype : ScalarType)
    (output working : Tensor) (dim : List Nat) : Except Error Tensor := do
  let targetSizes := if dim.length = 1 then outSizes else onesidedSizes
  let output ← execFft lib output working targetSizes [dim.getLastD 0]
  let working := if 1 < dim.length then empty outSizes dtype else working
  r2cPasses lib onesidedSizes (dim.length - 1) output working dim.dropLast

/-- Both paths of the transform. -/
def r2cTransform (outSizes onesidedSizes : List Nat) (dtype : ScalarType) (working : Tensor)
    (dim : List Nat) : Except Error Tensor :=
  let output := empty outSizes dtype
  if useOptimizedCufftPath dim then execFft lib output working outSizes dim
  else r2cTransforms lib outSizes onesidedSizes dtype output working dim

def halve (sizes : List Nat) (dim : Nat) : List Nat := sizes.set dim (sizes.getD dim 0 / 2 + 1)

/-- What is returned of a transform that is not onesided. -/
def completeSymmetry (iterator : Iterator) (outSizes : List Nat) (dtype : ScalarType)
    (output : Tensor) (dim : List Nat) : Except Error Tensor := do
  let lastDim := dim.getLastD 0
  let output := if output.sizes.getD lastDim 0 ≠ outSizes.getD lastDim 0 then
      lib.resize (empty outSizes dtype) outSizes
    else output
  fillWithConjugateSymmetry lib iterator output dim
  pure output

/-- `_fft_r2c_shape_infer`. `complexAligned` says that the address of the data is aligned for
complex elements. -/
def fftR2c (iterator : Iterator) (complexAligned : Bool) (self : Tensor) (dim : List Nat)
    (onesided : Bool) : Except Error Tensor := do
  torchCheck (isFloatingPoint self.dtype) "Expected a floating point tensor"
  let lastDim := dim.getLastD 0
  let onesidedSizes := halve self.sizes lastDim
  let outSizes := if onesided then onesidedSizes else self.sizes
  let dtype ← toComplexType self.dtype
  let working := if complexAligned then self else cloneWithLast lib self lastDim
  let output ← r2cTransform lib outSizes onesidedSizes dtype working dim
  if onesided then pure output
  else completeSymmetry lib iterator outSizes dtype output dim

end TorchGcu.SpectralOps

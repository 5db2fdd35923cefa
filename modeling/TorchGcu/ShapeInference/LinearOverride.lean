import Mathlib.Algebra.BigOperators.Group.List.Basic
import TorchGcu.Tensor.ScalarType

/-! The shapes of `matmul` and `linear`: which route the operands take, and what each route asks of the
shape functions of `mm`, `addmv_`, `bmm`, `addmm`, `add_` and `add`. -/
namespace TorchGcu.LinearOverride

/-- The sizes and the type of a tensor. -/
structure Meta where
  sizes : List Nat
  dtype : ScalarType
deriving DecidableEq

structure Dim where
  size : Nat
  stride : Nat
deriving DecidableEq

structure Tensor where
  dims : List Dim
  dtype : ScalarType
  requiresGrad : Bool
  /-- `at::isTensorSubclassLike` -/
  isTensorSubclassLike : Bool
  /-- `_fw_grad(0).defined()` -/
  hasFwGrad : Bool
  /-- The layout is `c10::kStrided`. -/
  isStrided : Bool
deriving DecidableEq

/-- The last two of a list, swapped. -/
def swapLast {α : Type} : List α → List α
  | [] => []
  | [a] => [a]
  | [a, b] => [b, a]
  | a :: b :: c :: rest => a :: swapLast (b :: c :: rest)

namespace Tensor

def sizes (t : Tensor) : List Nat := t.dims.map Dim.size
def dim (t : Tensor) : Nat := t.dims.length
def numel (t : Tensor) : Nat := t.sizes.prod
def shape (t : Tensor) : Meta := ⟨t.sizes, t.dtype⟩

/-- `mT()`, and `t()` of a matrix. -/
def mT (t : Tensor) : Tensor := { t with dims := swapLast t.dims }

/-- `squeeze(0)` -/
def squeeze (t : Tensor) : Tensor :=
  { t with dims := if t.sizes.headD 0 = 1 then t.dims.tail else t.dims }

end Tensor

/-- `is_contiguous()` of dimensions from the last to the first, after those of `z` elements. -/
def contiguousFrom (z : Nat) : List Dim → Bool
  | [] => true
  | d :: dims =>
    if d.size = 1 then contiguousFrom z dims
    else d.stride == z && contiguousFrom (z * d.size) dims

def Tensor.isContiguous (t : Tensor) : Bool := t.numel == 0 || contiguousFrom 1 t.dims.reverse

/-! ### Sizes that are broadcast -/

/-- Sizes that are broadcast, from the last dimension to the first. -/
def broadcast : List Nat → List Nat → Option (List Nat)
  | [], sizes => some sizes
  | size :: sizes, [] => some (size :: sizes)
  | size :: sizes, size' :: sizes' =>
    if size = size' ∨ size' = 1 then (size :: ·) <$> broadcast sizes sizes'
    else if size = 1 then (size' :: ·) <$> broadcast sizes sizes'
    else none

/-- What is documented of `infer_size`. -/
def inferSize (a b : List Nat) : Option (List Nat) :=
  (broadcast a.reverse b.reverse).map List.reverse

theorem broadcast_self (sizes : List Nat) : broadcast sizes sizes = some sizes := by
  induction sizes with
  | nil => rfl
  | cons size sizes ih => simp [broadcast, ih]

theorem inferSize_self (sizes : List Nat) : inferSize sizes sizes = some sizes := by
  simp [inferSize, broadcast_self]

/-! ### Views of results -/

namespace Meta

/-- `reshape`, and `_unsafe_view` and `view` of a new tensor. -/
def view (t : Meta) (sizes : List Nat) : Option Meta :=
  if sizes.prod = t.sizes.prod then some ⟨sizes, t.dtype⟩ else none

def expand (t : Meta) (sizes : List Nat) : Option Meta :=
  if inferSize t.sizes sizes = some sizes then some ⟨sizes, t.dtype⟩ else none

/-- `squeeze_(0)` -/
def squeezeFirst (t : Meta) : Meta :=
  { t with sizes := if t.sizes.headD 0 = 1 then t.sizes.tail else t.sizes }

/-- `squeeze(-1)` -/
def squeezeLast (t : Meta) : Meta :=
  { t with sizes := if t.sizes.getLastD 0 = 1 then t.sizes.dropLast else t.sizes }

def mT (t : Meta) : Meta := { t with sizes := swapLast t.sizes }

end Meta

/-- `infer_size` and the shape functions of the operators that the routes call, each of which raises
or returns the result. -/
structure ShapeFunctions where
  inferSize : List Nat → List Nat → Option (List Nat)
  mm : Meta → Meta → Option Meta
  addmv_ : Meta → Meta → Meta → Option Meta
  bmm : Meta → Meta → Option Meta
  addmm : Meta → Meta → Meta → Option Meta
  add_ : Meta → Meta → Option Meta
  add : Meta → Meta → Option Meta

/-! ### `matmul` -/

variable (f : ShapeFunctions)

def mvShapeInfer (self vec : Meta) : Option Meta :=
  f.addmv_ ⟨[self.sizes.headD 0], vec.dtype⟩ self vec

def dotShapeInfer (self _tensor : Meta) : Option Meta := some ⟨[], self.dtype⟩

/-- Whether `view(-1, size(-1))` copies nothing. -/
def viewable : List Dim → Bool
  | d :: d' :: d'' :: dims => d.stride == d'.stride * d'.size && viewable (d' :: d'' :: dims)
  | _ => true

def shouldFold (tensor1 tensor2 : Tensor) : Bool :=
  let tensor1Larger := decide (tensor1.dim ≥ tensor2.dim)
  let t1 := if tensor1Larger then tensor1 else tensor2.mT
  let dimT2 := if tensor1Larger then tensor2.dim else tensor1.dim
  let t2RequiresGrad := if tensor1Larger then tensor2.requiresGrad else tensor1.requiresGrad
  if ¬ (t1.dim ≥ 3 ∧ dimT2 ≤ 2) then false
  else if t2RequiresGrad then true
  else if tensor1.dim = 2 then false
  else if t1.numel = 0 then true
  else viewable t1.dims

/-- The batch of the larger operand is folded into its rows. -/
def foldRoute (tensor1 tensor2 : Tensor) : Option Meta := do
  let transpose := decide (tensor2.dim > tensor1.dim)
  let t1 := if transpose then tensor2.mT else tensor1
  let t2 := if ¬ transpose then tensor2 else if tensor1.dim = 2 then tensor1.mT else tensor1
  let outputShape := t1.sizes.dropLast
  let t1Folded ← t1.shape.view [outputShape.prod, t1.sizes.getLastD 0]
  if t2.dim = 2 then
    let product ← f.mm t1Folded t2.shape
    let output ← product.view (outputShape ++ [t2.sizes.getD 1 0])
    return if transpose then output.mT else output
  else
    let product ← mvShapeInfer f t1Folded t2.shape
    product.view outputShape

/-- `sizes().cend()[-2]` -/
def beforeLast (sizes : List Nat) : Nat := sizes.getD (sizes.length - 2) 0

def batch (sizes : List Nat) : List Nat := sizes.take (sizes.length - 2)

/-- The batches are expanded and multiplied one by one. -/
def bmmRoute (tensor1 tensor2 : Tensor) : Option Meta := do
  let n := if tensor1.dim > 1 then beforeLast tensor1.sizes else 1
  let m1 := tensor1.sizes.getLastD 0
  let m2 := if tensor2.dim > 1 then beforeLast tensor2.sizes else tensor2.sizes.headD 0
  let p := if tensor2.dim > 1 then tensor2.sizes.getLastD 0 else 1
  let outputShape ← f.inferSize (batch tensor1.sizes) (batch tensor2.sizes)
  let expandBatchProduct := outputShape.prod
  let tensor1Expanded ← tensor1.shape.expand (outputShape ++ [n, m1])
  let tensor1Expanded ← tensor1Expanded.view [expandBatchProduct, n, m1]
  let sizes := outputShape ++ (if tensor1.dim > 1 then [n] else []) ++
    (if tensor2.dim > 1 then [p] else [])
  if tensor2.dim = 1 then
    let tensor2Expanded ← tensor2.shape.expand (outputShape ++ [m2])
    let tensor2Expanded ← tensor2Expanded.view [expandBatchProduct, m2]
    let product ← f.bmm tensor1Expanded { tensor2Expanded with sizes := tensor2Expanded.sizes ++ [1] }
    product.squeezeLast.view sizes
  else
    let tensor2Expanded ← tensor2.shape.expand (outputShape ++ [m2, p])
    let tensor2Expanded ← tensor2Expanded.view [expandBatchProduct, m2, p]
    let product ← f.bmm tensor1Expanded tensor2Expanded
    product.view sizes

/-- The operand is one batch that is going to be broadcast, and it requires its gradient. -/
def squeezes (t other : Tensor) : Bool :=
  t.dim = 3 && other.dim = 3 && t.sizes.headD 0 != other.sizes.headD 0 && t.sizes.headD 0 == 1 &&
    (t.requiresGrad || t.isTensorSubclassLike)

theorem dim_squeeze_lt {t other : Tensor} (squeezed : squeezes t other = true) :
    t.squeeze.dim < t.dim := by
  simp only [squeezes, Bool.and_eq_true, decide_eq_true_eq, beq_iff_eq] at squeezed
  obtain ⟨⟨⟨⟨rank, _⟩, _⟩, one⟩, _⟩ := squeezed
  simp only [Tensor.squeeze, Tensor.dim, one, if_true, List.length_tail] at rank ⊢
  omega

def matmulImplShapeInfer (tensor1 tensor2 : Tensor) : Option Meta :=
  if tensor1.dim = 0 ∨ tensor2.dim = 0 then none
  else if tensor1.dim = 1 ∧ tensor2.dim = 1 then dotShapeInfer tensor1.shape tensor2.shape
  else if tensor1.dim = 2 ∧ tensor2.dim = 1 then mvShapeInfer f tensor1.shape tensor2.shape
  else if tensor1.dim = 1 ∧ tensor2.dim = 2 then
    (f.mm { tensor1.shape with sizes := 1 :: tensor1.sizes } tensor2.shape).map Meta.squeezeFirst
  else if tensor1.dim = 2 ∧ tensor2.dim = 2 then f.mm tensor1.shape tensor2.shape
  else if shouldFold tensor1 tensor2 then foldRoute f tensor1 tensor2
  else if squeezes tensor1 tensor2 then matmulImplShapeInfer tensor1.squeeze tensor2
  else if squeezes tensor2 tensor1 then matmulImplShapeInfer tensor1 tensor2.squeeze
  else bmmRoute f tensor1 tensor2
termination_by tensor1.dim + tensor2.dim
decreasing_by
  · have less := dim_squeeze_lt (by assumption : squeezes tensor1 tensor2 = true)
    omega
  · have less := dim_squeeze_lt (by assumption : squeezes tensor2 tensor1 = true)
    omega

def matmulShapeInfer (tensor1 tensor2 : Tensor) : Option Meta :=
  matmulImplShapeInfer f tensor1 tensor2

/-! ### `linear` -/

def flattenNdLinearShapeInfer (input : Tensor) (weight bias : Meta) : Option Meta := do
  let rows := input.sizes.dropLast
  let inpReshape ← input.shape.view [rows.prod, input.sizes.getLastD 0]
  let result ← f.addmm bias inpReshape weight
  result.view (rows ++ [result.sizes.getD 1 0])

/-- The bias is added by `addmm`, to the input as a matrix. -/
def flattens (parseLinearFlatten3d : Bool) (input weight bias : Tensor) : Bool :=
  (input.isContiguous && input.dim == 3) ||
    (input.isContiguous && input.isStrided && weight.isStrided && bias.dim == 1) ||
    (parseLinearFlatten3d && input.dim == 3)

/-- The bias is added to the product, which has its sizes already. -/
def addBias (output : Meta) (bias : Tensor) : Option Meta :=
  if bias.isTensorSubclassLike || bias.hasFwGrad then f.add output bias.shape
  else f.add_ output bias.shape

def linearShapeInfer (parseLinearFlatten3d : Bool) (input weight : Tensor) :
    Option Tensor → Option Meta
  | none => matmulShapeInfer f input weight.mT
  | some bias =>
    if input.dim = 2 then f.addmm bias.shape input.shape weight.mT.shape
    else if flattens parseLinearFlatten3d input weight bias then
      flattenNdLinearShapeInfer f input weight.mT.shape bias.shape
    else do
      let output ← matmulShapeInfer f input weight.mT
      addBias f output bias

/-! ### What the shape functions check -/

/-- `mm`: matrices of one type whose inner sizes agree. -/
def mmDocumented (self mat2 : Meta) : Option Meta :=
  match self.sizes, mat2.sizes with
  | [n, k], [k', p] =>
    if k = k' ∧ self.dtype = mat2.dtype then some ⟨[n, p], self.dtype⟩ else none
  | _, _ => none

/-- `addmv_`: a matrix, a vector and a result that is as long as the matrix has rows. -/
def addmvDocumented (self mat vec : Meta) : Option Meta :=
  match mat.sizes, vec.sizes with
  | [n, k], [k'] =>
    if self.sizes = [n] ∧ k = k' ∧ mat.dtype = vec.dtype ∧ self.dtype = vec.dtype then some self
    else none
  | _, _ => none

def bmmDocumented (self mat2 : Meta) : Option Meta :=
  match self.sizes, mat2.sizes with
  | [b, n, k], [b', k', p] =>
    if b = b' ∧ k = k' ∧ self.dtype = mat2.dtype then some ⟨[b, n, p], self.dtype⟩ else none
  | _, _ => none

/-- The sizes can be expanded to others. -/
def Expands (sizes target : List Nat) : Prop := inferSize sizes target = some target

instance (sizes target : List Nat) : Decidable (Expands sizes target) :=
  inferInstanceAs (Decidable (_ = _))

/-- `addmm`: `mm` of the last two, to whose result the first is expanded; of one type. -/
def addmmDocumented (self mat1 mat2 : Meta) : Option Meta := do
  let product ← mmDocumented mat1 mat2
  if Expands self.sizes product.sizes ∧ self.dtype = product.dtype then some product else none

/-- `add_`: the other is expanded to the first, whose type the sum can be cast to. -/
def addInPlaceDocumented (canCast : ScalarType → ScalarType → Bool) (self other : Meta) :
    Option Meta :=
  if Expands other.sizes self.sizes ∧ canCast self.dtype other.dtype then some self else none

def addDocumented (promote : ScalarType → ScalarType → ScalarType) (self other : Meta) :
    Option Meta :=
  (inferSize self.sizes other.sizes).map (⟨·, promote self.dtype other.dtype⟩)

/-- The shape functions check and return what is documented: `canCast` says when a sum of two types is
cast to the first, and `promote` is the type of a sum. -/
structure Documented (canCast : ScalarType → ScalarType → Bool)
    (promote : ScalarType → ScalarType → ScalarType) : Prop where
  inferSize : ∀ a b, f.inferSize a b = LinearOverride.inferSize a b
  mm : ∀ self mat2, f.mm self mat2 = mmDocumented self mat2
  addmv_ : ∀ self mat vec, f.addmv_ self mat vec = addmvDocumented self mat vec
  bmm : ∀ self mat2, f.bmm self mat2 = bmmDocumented self mat2
  addmm : ∀ self mat1 mat2, f.addmm self mat1 mat2 = addmmDocumented self mat1 mat2
  add_ : ∀ self other, f.add_ self other = addInPlaceDocumented canCast self other
  add : ∀ self other, f.add self other = addDocumented promote self other

/-! ### The reference -/

/-- The size of the operand on the right that is summed over. -/
def innerSize (sizes : List Nat) : Nat :=
  if sizes.length = 1 then sizes.headD 0 else beforeLast sizes

def rowSizes (sizes : List Nat) : List Nat :=
  if sizes.length = 1 then [] else [beforeLast sizes]

def columnSizes (sizes : List Nat) : List Nat :=
  if sizes.length = 1 then [] else [sizes.getLastD 0]

/-- `matmul` of two operands of rank at least one. -/
def matmulReference (a b : Meta) : Option Meta :=
  if a.sizes.getLastD 0 = innerSize b.sizes ∧ a.dtype = b.dtype then
    (inferSize (batch a.sizes) (batch b.sizes)).map fun common =>
      ⟨common ++ rowSizes a.sizes ++ columnSizes b.sizes, a.dtype⟩
  else none

end TorchGcu.LinearOverride

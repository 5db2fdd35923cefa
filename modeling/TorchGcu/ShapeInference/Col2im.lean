import Mathlib.Data.Int.DivMod
import Mathlib.Data.List.Basic
import Mathlib.Tactic.Ring

/-! The shapes of `im2col` and `col2im`, which undo each other. Both make their own output, and
integers are exact. -/
namespace TorchGcu.Col2im

inductive Error where
  | torchCheck (message : String)
  | indexError
deriving DecidableEq, Repr

def torchCheck (condition : Bool) (message : String) : Except Error Unit :=
  if condition then .ok () else .error (.torchCheck message)

/-- `div_rtn`, which rounds the quotient towards minus infinity. -/
structure ATen where
  divRtn : Int → Int → Int
  rounds : ∀ x y, 0 < y → divRtn x y = x / y

/-! ### Tensors -/

/-- A tensor, which is on the CPU when it has no device. -/
structure Tensor where
  sizes : List Nat
  device : Option Nat
deriving DecidableEq

namespace Tensor

def size (tensor : Tensor) (dim : Nat) : Except Error Int :=
  match tensor.sizes[dim]? with
  | some size => .ok (Int.ofNat size)
  | none => .error .indexError

def resize (tensor : Tensor) (size : List Int) : Except Error Tensor :=
  if size.any (· < 0) then .error (.torchCheck "Trying to resize to a negative dimension")
  else .ok { tensor with sizes := size.map Int.toNat }

def unsqueeze (tensor : Tensor) : Tensor := { tensor with sizes := 1 :: tensor.sizes }

/-- `squeeze(0)`, which leaves a dimension of another size. -/
def squeeze (tensor : Tensor) : Tensor :=
  if tensor.sizes.head? = some 1 then { tensor with sizes := tensor.sizes.tail } else tensor

end Tensor

/-- `checkAllSameGCU` of two tensors. -/
def checkSameGcu (t1 t2 : Tensor) : Except Error Unit := do
  torchCheck (t1.device.isSome && t2.device.isSome) "expected it to be on GPU"
  torchCheck (t1.device = t2.device) "Expected tensors to have the same device"

/-- What the height, or the width, is unfolded with. -/
structure Side where
  kernel : Int
  dilation : Int
  pad : Int
  stride : Int

structure Params where
  kernelSize : List Int
  dilation : List Int
  padding : List Int
  stride : List Int

namespace Params
variable (params : Params)

def side (i : Nat) : Side where
  kernel := params.kernelSize.getD i 0
  dilation := params.dilation.getD i 0
  pad := params.padding.getD i 0
  stride := params.stride.getD i 0

def height : Side := params.side 0

def width : Side := params.side 1

/-- The lists have two numbers each. -/
def checkLengths : Except Error Unit := do
  torchCheck (params.kernelSize.length = 2) "It is expected kernel_size equals to 2"
  torchCheck (params.dilation.length = 2) "It is expected dilation equals to 2"
  torchCheck (params.padding.length = 2) "It is expected padding equals to 2"
  torchCheck (params.stride.length = 2) "It is expected stride equals to 2"

end Params

/-! ### `col2im` -/

variable (aten : ATen)

/-- The number of blocks of one side, as `col2im` has it. -/
def nBlocks (side : Side) (output : Int) : Int :=
  aten.divRtn (output + 2 * side.pad - side.dilation * (side.kernel - 1) - 1) side.stride + 1

def col2imShapeCheck (input : Tensor) (outputHeight outputWidth : Int) (height width : Side) :
    Except Error Unit := do
  torchCheck (0 < width.kernel && 0 < height.kernel) "kernel size should be greater than zero"
  torchCheck (0 < width.stride && 0 < height.stride) "stride should be greater than zero"
  torchCheck (0 < width.dilation && 0 < height.dilation) "dilation should be greater than zero"
  torchCheck (0 ≤ width.pad && 0 ≤ height.pad) "padding should be non-negative"
  let ndim := input.sizes.length
  torchCheck
    ((ndim = 2 && input.sizes.getD 0 0 ≠ 0 && input.sizes.getD 1 0 ≠ 0) ||
      (ndim = 3 && input.sizes.getD 1 0 ≠ 0 && input.sizes.getD 2 0 ≠ 0))
    "Expected 2D or 3D (batch mode) tensor for input"
  let batch := if ndim = 3 then 1 else 0
  let nInputPlane ← input.size batch
  torchCheck (nInputPlane.tmod (width.kernel * height.kernel) = 0)
    "Expected size of input's dimension 1 to be divisible by the product of kernel_size"
  let inputLength ← input.size (batch + 1)
  let nBlocksHeight := nBlocks aten height outputHeight
  let nBlocksWidth := nBlocks aten width outputWidth
  torchCheck (inputLength = nBlocksHeight * nBlocksWidth)
    "expected size of input's dimension 2 to match the calculated number of sliding blocks"
  torchCheck (1 ≤ nBlocksHeight && 1 ≤ nBlocksWidth)
    "calculated shape of the array of sliding blocks is too small (non-positive)"
  torchCheck (!(decide (outputWidth < 1) || decide (outputHeight < 1)))
    "Expected output spatial size to be positive"

def col2imShapeInfer (input : Tensor) (outputSize : List Int) (params : Params) :
    Except Error Tensor := do
  let output := input
  checkSameGcu input output
  torchCheck (outputSize.length = 2) "It is expected output_size equals to 2"
  params.checkLengths
  let outputHeight := outputSize.getD 0 0
  let outputWidth := outputSize.getD 1 0
  col2imShapeCheck aten input outputHeight outputWidth params.height params.width
  let batched := input.sizes.length ≠ 2
  let input := if batched then input else input.unsqueeze
  let batchSize ← input.size 0
  let nInputPlane ← input.size 1
  let nOutputPlane := nInputPlane.tdiv (params.width.kernel * params.height.kernel)
  let output ← output.resize [batchSize, nOutputPlane, outputHeight, outputWidth]
  pure (if batched then output else output.squeeze)

/-! ### `im2col` -/

/-- How far the kernel can move on one side of the input. -/
def Side.room (side : Side) (input : Int) : Int :=
  input + 2 * side.pad - (side.dilation * (side.kernel - 1) + 1)

/-- The second size is not read when the first one is zero. -/
def validDims (input : Tensor) : Except Error Bool := do
  let size1 ← input.size 1
  if size1 = 0 then pure false
  else do
    let size2 ← input.size 2
    pure (size2 ≠ 0)

def im2colShapeCheck (input : Tensor) (height width : Side) : Except Error Unit := do
  torchCheck (0 < width.kernel && 0 < height.kernel) "kernel size should be greater than zero"
  torchCheck (0 < width.dilation && 0 < height.dilation) "dilation should be greater than zero"
  torchCheck (0 ≤ width.pad && 0 ≤ height.pad) "padding should be non-negative"
  torchCheck (0 < width.stride && 0 < height.stride) "stride should be greater than zero"
  let ndim := input.sizes.length
  let validDims ← validDims input
  torchCheck
    ((ndim = 3 && input.sizes.getD 0 0 ≠ 0 && validDims) ||
      (ndim = 4 && validDims && input.sizes.getD 3 0 ≠ 0))
    "Expected 3D or 4D (batch mode) tensor"
  let batch := if ndim = 3 then 0 else 1
  let inputHeight ← input.size (batch + 1)
  let inputWidth ← input.size (batch + 2)
  let outputHeight := aten.divRtn (height.room inputHeight) height.stride + 1
  let outputWidth := aten.divRtn (width.room inputWidth) width.stride + 1
  torchCheck (!(decide (outputHeight < 1) || decide (outputWidth < 1)))
    "its components must be at least one"

def im2colShapeInfer (input : Tensor) (params : Params) : Except Error Tensor := do
  let output := input
  params.checkLengths
  checkSameGcu input output
  im2colShapeCheck aten input params.height params.width
  let batched := input.sizes.length ≠ 3
  let input := if batched then input else input.unsqueeze
  let batchSize ← input.size 0
  let nInputPlane ← input.size 1
  let inputHeight ← input.size 2
  let inputWidth ← input.size 3
  let outputHeight := (params.height.room inputHeight).tdiv params.height.stride + 1
  let outputWidth := (params.width.room inputWidth).tdiv params.width.stride + 1
  let nOutputPlane := nInputPlane * params.width.kernel * params.height.kernel
  let outputLength := outputHeight * outputWidth
  let output ← output.resize [batchSize, nOutputPlane, outputLength]
  pure (if batched then output else output.squeeze)

/-! ### What the checks accept -/

variable {aten : ATen}

theorem check_bind {α : Type} (check : Except Error Unit) (next : Unit → Except Error α) (a : α) :
    (check >>= next) = .ok a ↔ check = .ok () ∧ next () = .ok a := by
  cases check <;> simp [Bind.bind, Except.bind]

@[simp] theorem torchCheck_eq_ok (condition : Bool) (message : String) :
    torchCheck condition message = .ok () ↔ condition = true := by
  cases condition <;> simp [torchCheck]

theorem Tensor.size_bind {α : Type} (tensor : Tensor) (dim : Nat) (next : Int → Except Error α)
    (a : α) : (tensor.size dim >>= next) = .ok a ↔
      ∃ n : Nat, tensor.sizes[dim]? = some n ∧ next n = .ok a := by
  unfold Tensor.size
  cases tensor.sizes[dim]? <;> simp [Bind.bind, Except.bind]

theorem validDims_bind {α : Type} (input : Tensor) (next : Bool → Except Error α) (a : α) :
    (validDims input >>= next) = .ok a ↔ ∃ c : Nat, input.sizes[1]? = some c ∧
      (c = 0 ∧ next false = .ok a ∨
        c ≠ 0 ∧ ∃ h : Nat, input.sizes[2]? = some h ∧ next (decide (h ≠ 0)) = .ok a) := by
  unfold validDims Tensor.size
  cases input.sizes[1]? with
  | none => simp [Bind.bind, Except.bind]
  | some c => by_cases zero : c = 0 <;> cases input.sizes[2]? <;>
      simp [Bind.bind, Except.bind, Pure.pure, Except.pure, zero]

namespace Side

structure Valid (side : Side) : Prop where
  kernel : 0 < side.kernel
  dilation : 0 < side.dilation
  pad : 0 ≤ side.pad
  stride : 0 < side.stride

/-- The number of blocks on one side. -/
def blocks (side : Side) (size : Int) : Int := side.room size / side.stride + 1

theorem Valid.nBlocks (aten : ATen) {side : Side} (valid : side.Valid) (output : Int) :
    nBlocks aten side output = side.blocks output := by
  have same : output + 2 * side.pad - side.dilation * (side.kernel - 1) - 1 = side.room output := by
    unfold room
    ring
  rw [Col2im.nBlocks, aten.rounds _ _ valid.stride, same, blocks]

end Side

/-- The sizes of a tensor that may have a batch. -/
def batched (batch : Option Nat) (sizes : List Nat) : List Nat := batch.toList ++ sizes

theorem exists_three {sizes : List Nat} (rank : sizes.length = 3) :
    ∃ c h w, sizes = batched none [c, h, w] := List.length_eq_three.mp rank

theorem exists_four {sizes : List Nat} (rank : sizes.length = 4) :
    ∃ b c h w, sizes = batched (some b) [c, h, w] := by
  obtain ⟨b, rest, rfl⟩ := List.exists_of_length_succ sizes rank
  obtain ⟨c, h, w, rfl⟩ := List.length_eq_three.mp (Nat.succ.inj rank)
  exact ⟨b, c, h, w, rfl⟩

theorem im2colShapeCheck_eq_ok (input : Tensor) (height width : Side) :
    im2colShapeCheck aten input height width = .ok () ↔
      (height.Valid ∧ width.Valid) ∧ ∃ batch c h w, input.sizes = batched batch [c, h, w] ∧
        (c ≠ 0 ∧ h ≠ 0 ∧ w ≠ 0) ∧ 1 ≤ height.blocks h ∧ 1 ≤ width.blocks w := by
  simp only [im2colShapeCheck, check_bind, validDims_bind, Tensor.size_bind, torchCheck_eq_ok,
    Bool.and_eq_true, Bool.or_eq_true, decide_eq_true_eq]
  constructor
  · rintro ⟨kernel, dilation, pad, stride, c, size1, ⟨_, dims, _⟩ |
      ⟨channels, _, size2, dims, h, hRead, w, wRead, least⟩⟩
    · simp at dims
    have valid : height.Valid ∧ width.Valid := ⟨⟨kernel.2, dilation.2, pad.2, stride.2⟩,
      ⟨kernel.1, dilation.1, pad.1, stride.1⟩⟩
    rw [aten.rounds _ _ valid.1.stride, aten.rounds _ _ valid.2.stride] at least
    have blocks : 1 ≤ height.blocks h ∧ 1 ≤ width.blocks w := by
      simpa [Side.blocks] using least
    refine ⟨valid, ?_⟩
    rcases dims with ⟨⟨rank, first⟩, nonzero⟩ | ⟨⟨rank, nonzero⟩, last⟩
    · obtain ⟨c, h', w', sizes⟩ := exists_three rank
      rw [sizes] at size1 size2 hRead wRead first
      cases size1
      cases size2
      cases hRead
      cases wRead
      exact ⟨none, _, _, _, sizes, ⟨first, channels, nonzero⟩, blocks⟩
    · obtain ⟨b, c, h', w', sizes⟩ := exists_four rank
      rw [sizes] at size1 size2 hRead wRead last
      cases size1
      cases size2
      cases hRead
      cases wRead
      exact ⟨some b, _, _, _, sizes, ⟨channels, nonzero, last⟩, blocks⟩
  · rintro ⟨⟨height', width'⟩, batch, c, h, w, sizes, ⟨c', h', w'⟩, bh, bw⟩
    have blocks : 1 ≤ aten.divRtn (height.room h) height.stride + 1 ∧
        1 ≤ aten.divRtn (width.room w) width.stride + 1 := by
      rw [aten.rounds _ _ height'.stride, aten.rounds _ _ width'.stride]
      exact ⟨bh, bw⟩
    rw [sizes]
    refine ⟨⟨width'.kernel, height'.kernel⟩, ⟨width'.dilation, height'.dilation⟩,
      ⟨width'.pad, height'.pad⟩, ⟨width'.stride, height'.stride⟩, ?_⟩
    cases batch <;> simpa [batched, c', h', w'] using blocks

theorem Tensor.resize_bind {α : Type} (tensor : Tensor) (size : List Int)
    (next : Tensor → Except Error α) (a : α) : (tensor.resize size >>= next) = .ok a ↔
      (∀ s ∈ size, 0 ≤ s) ∧ next { tensor with sizes := size.map Int.toNat } = .ok a := by
  unfold Tensor.resize
  split
  · rename_i negative
    refine ⟨fun never => by simp [Bind.bind, Except.bind] at never, fun both => ?_⟩
    obtain ⟨s, isSize, below⟩ := List.any_eq_true.mp negative
    exact absurd (both.1 s isSize) (Int.not_le.mpr (by simpa using below))
  · rename_i nonneg
    refine (and_iff_right ?_).symm
    simpa using nonneg

namespace Params

/-- The lists have two numbers each, which a window can have. -/
structure Valid (params : Params) : Prop where
  kernelSize : params.kernelSize.length = 2
  dilation : params.dilation.length = 2
  padding : params.padding.length = 2
  stride : params.stride.length = 2
  height : params.height.Valid
  width : params.width.Valid

theorem checkLengths_eq_ok (params : Params) : params.checkLengths = .ok () ↔
    params.kernelSize.length = 2 ∧ params.dilation.length = 2 ∧ params.padding.length = 2 ∧
      params.stride.length = 2 := by
  simp only [checkLengths, check_bind, torchCheck_eq_ok, decide_eq_true_eq]

/-- The number of elements of a window. -/
def window (params : Params) : Nat := params.width.kernel.toNat * params.height.kernel.toNat

/-- The number of windows on an input of two spatial sizes. -/
def blocks (params : Params) (h w : Nat) : Nat :=
  (params.height.blocks h).toNat * (params.width.blocks w).toNat

end Params

theorem checkSameGcu_self (input : Tensor) :
    checkSameGcu input input = .ok () ↔ input.device.isSome = true := by
  simp [checkSameGcu, check_bind]

/-- What both functions take for granted of an input and its parameters. -/
structure Ready (input : Tensor) (params : Params) : Prop where
  device : input.device.isSome = true
  valid : params.Valid

namespace Params.Valid
variable {params : Params} (valid : params.Valid)
include valid

theorem window_eq : (params.window : Int) = params.width.kernel * params.height.kernel := by
  have width := valid.width.kernel
  have height := valid.height.kernel
  rw [window, Int.natCast_mul, Int.toNat_of_nonneg (by omega), Int.toNat_of_nonneg (by omega)]

theorem window_pos : 0 < params.window := by
  have width := valid.width.kernel
  have height := valid.height.kernel
  exact Nat.mul_pos (by omega) (by omega)

end Params.Valid

theorem Params.blocks_eq {params : Params} {h w : Nat}
    (blocks : 1 ≤ params.height.blocks h ∧ 1 ≤ params.width.blocks w) :
    (params.blocks h w : Int) = params.height.blocks h * params.width.blocks w := by
  rw [Params.blocks, Int.natCast_mul, Int.toNat_of_nonneg (by omega),
    Int.toNat_of_nonneg (by omega)]

/-- Where there are blocks, rounding towards zero gives their number. -/
theorem Side.Valid.tdiv_eq {side : Side} (valid : side.Valid) {size : Int}
    (blocks : 1 ≤ side.blocks size) : (side.room size).tdiv side.stride + 1 = side.blocks size := by
  have nonneg : 0 ≤ side.room size := by
    unfold Side.blocks at blocks
    exact (Int.ediv_nonneg_iff_of_pos valid.stride).mp (by omega)
  rw [Int.tdiv_eq_ediv_of_nonneg nonneg, Side.blocks]

/-- The inputs that `im2col` accepts. -/
structure Unfolds (params : Params) (c h w : Nat) : Prop where
  channels : c ≠ 0
  height : h ≠ 0
  width : w ≠ 0
  blocks : 1 ≤ params.height.blocks h ∧ 1 ≤ params.width.blocks w

theorem im2colShapeInfer_ok {input : Tensor} {params : Params} (ready : Ready input params)
    {batch : Option Nat} {c h w : Nat} (sizes : input.sizes = batched batch [c, h, w])
    (unfolds : Unfolds params c h w) : im2colShapeInfer aten input params =
      .ok { input with sizes := batched batch [c * params.window, params.blocks h w] } := by
  obtain ⟨device, valid⟩ := ready
  have check : im2colShapeCheck aten input params.height params.width = .ok () :=
    (im2colShapeCheck_eq_ok _ _ _).mpr ⟨⟨valid.height, valid.width⟩, batch, c, h, w, sizes,
      ⟨unfolds.channels, unfolds.height, unfolds.width⟩, unfolds.blocks⟩
  have plane : (c : Int) * params.width.kernel * params.height.kernel =
      ((c * params.window : Nat) : Int) := by
    rw [Int.natCast_mul, valid.window_eq, Int.mul_assoc]
  have length := Params.blocks_eq unfolds.blocks
  rw [← valid.height.tdiv_eq unfolds.blocks.1, ← valid.width.tdiv_eq unfolds.blocks.2] at length
  simp only [im2colShapeInfer, check_bind, Tensor.size_bind, Tensor.resize_bind,
    Params.checkLengths_eq_ok, checkSameGcu_self, check]
  refine ⟨⟨valid.kernelSize, valid.dilation, valid.padding, valid.stride⟩, device, trivial, ?_⟩
  generalize c * params.window = nOutputPlane at plane ⊢
  cases batch with
  | none =>
    simp [sizes, batched, Tensor.unsqueeze, plane, ← length]
    rfl
  | some b =>
    simp [sizes, batched, plane, ← length]
    rfl

theorem im2colShapeInfer_accepts {input result : Tensor} {params : Params}
    (ran : im2colShapeInfer aten input params = .ok result) : Ready input params ∧
      ∃ batch c h w, input.sizes = batched batch [c, h, w] ∧ Unfolds params c h w := by
  simp only [im2colShapeInfer, check_bind, Params.checkLengths_eq_ok, checkSameGcu_self,
    im2colShapeCheck_eq_ok] at ran
  obtain ⟨lengths, device, ⟨valid, batch, c, h, w, sizes, nonzero, blocks⟩, _⟩ := ran
  exact ⟨⟨device, lengths.1, lengths.2.1, lengths.2.2.1, lengths.2.2.2, valid.1, valid.2⟩,
    batch, c, h, w, sizes, nonzero.1, nonzero.2.1, nonzero.2.2, blocks⟩

theorem col2imShapeCheck_eq_ok (input : Tensor) (outputHeight outputWidth : Int)
    (height width : Side) :
    col2imShapeCheck aten input outputHeight outputWidth height width = .ok () ↔
      (height.Valid ∧ width.Valid) ∧ ∃ batch plane length,
        input.sizes = batched batch [plane, length] ∧ (plane ≠ 0 ∧ length ≠ 0) ∧
          (plane : Int).tmod (width.kernel * height.kernel) = 0 ∧
          (length : Int) = height.blocks outputHeight * width.blocks outputWidth ∧
          (1 ≤ height.blocks outputHeight ∧ 1 ≤ width.blocks outputWidth) ∧
          1 ≤ outputHeight ∧ 1 ≤ outputWidth := by
  simp only [col2imShapeCheck, check_bind, Tensor.size_bind, torchCheck_eq_ok,
    Bool.and_eq_true, Bool.or_eq_true, decide_eq_true_eq]
  constructor
  · rintro ⟨kernel, stride, dilation, pad, dims, plane, planeRead, divides, length, lengthRead,
      same, blocks, least⟩
    have valid : height.Valid ∧ width.Valid := ⟨⟨kernel.2, dilation.2, pad.2, stride.2⟩,
      ⟨kernel.1, dilation.1, pad.1, stride.1⟩⟩
    rw [valid.1.nBlocks aten, valid.2.nBlocks aten] at same blocks
    have sides : 1 ≤ outputHeight ∧ 1 ≤ outputWidth := by
      simpa [and_comm] using least
    refine ⟨valid, ?_⟩
    rcases dims with ⟨⟨rank, first⟩, second⟩ | ⟨⟨rank, second⟩, third⟩
    · obtain ⟨plane', length', sizes⟩ := List.length_eq_two.mp rank
      rw [sizes] at planeRead lengthRead first second
      cases planeRead
      cases lengthRead
      exact ⟨none, _, _, sizes, ⟨first, second⟩, divides, same, blocks, sides⟩
    · obtain ⟨b, plane', length', sizes⟩ := exists_three rank
      rw [sizes] at planeRead lengthRead second third
      cases planeRead
      cases lengthRead
      exact ⟨some b, _, _, sizes, ⟨second, third⟩, divides, same, blocks, sides⟩
  · rintro ⟨⟨height', width'⟩, batch, plane, length, sizes, nonzero, divides, same, blocks, sides⟩
    rw [← height'.nBlocks aten, ← width'.nBlocks aten] at same blocks
    rw [sizes]
    refine ⟨⟨width'.kernel, height'.kernel⟩, ⟨width'.stride, height'.stride⟩,
      ⟨width'.dilation, height'.dilation⟩, ⟨width'.pad, height'.pad⟩, ?_⟩
    cases batch with
    | none => simpa [batched, nonzero, divides, same, blocks, and_comm] using sides
    | some b => simpa [batched, nonzero, divides, same, blocks, and_comm] using sides

/-- The inputs and output sizes that `col2im` accepts. -/
structure Folds (params : Params) (plane length h w : Nat) : Prop where
  nonzero : plane ≠ 0
  divides : params.window ∣ plane
  height : h ≠ 0
  width : w ≠ 0
  blocks : 1 ≤ params.height.blocks h ∧ 1 ≤ params.width.blocks w
  length_eq : length = params.blocks h w

/-- There is a block, so that the length is not checked for nothing. -/
theorem Folds.length_ne {params : Params} {plane length h w : Nat}
    (folds : Folds params plane length h w) : length ≠ 0 := by
  obtain ⟨height, width⟩ := folds.blocks
  rw [folds.length_eq]
  exact Nat.ne_of_gt (Nat.mul_pos (by omega) (by omega))

theorem col2imShapeInfer_ok {input : Tensor} {params : Params} (ready : Ready input params)
    {batch : Option Nat} {plane length h w : Nat}
    (sizes : input.sizes = batched batch [plane, length])
    (folds : Folds params plane length h w) : col2imShapeInfer aten input [(h : Int), (w : Int)] params =
      .ok { input with sizes := batched batch [plane / params.window, h, w] } := by
  obtain ⟨device, valid⟩ := ready
  have height := folds.height
  have width := folds.width
  have check : col2imShapeCheck aten input h w params.height params.width = .ok () := by
    refine (col2imShapeCheck_eq_ok _ _ _ _ _).mpr ⟨⟨valid.height, valid.width⟩, batch, plane,
      length, sizes, ⟨folds.nonzero, folds.length_ne⟩, ?_, ?_, folds.blocks, by omega, by omega⟩
    · rw [← valid.window_eq]
      exact Int.tmod_eq_zero_of_dvd (Int.natCast_dvd_natCast.mpr folds.divides)
    · rw [folds.length_eq, Params.blocks_eq folds.blocks]
  have channels : (plane : Int) / (params.width.kernel * params.height.kernel) =
      ((plane / params.window : Nat) : Int) := by
    rw [← valid.window_eq]
    rfl
  simp only [col2imShapeInfer, check_bind, Tensor.size_bind, Tensor.resize_bind,
    Params.checkLengths_eq_ok, checkSameGcu_self, torchCheck_eq_ok]
  refine ⟨device, rfl, ⟨valid.kernelSize, valid.dilation, valid.padding, valid.stride⟩, check, ?_⟩
  generalize plane / params.window = nOutputPlane at channels ⊢
  cases batch with
  | none =>
    simp [sizes, batched, Tensor.unsqueeze, channels]
    rfl
  | some b =>
    simp [sizes, batched, channels]
    rfl

theorem col2imShapeInfer_accepts {input result : Tensor} {outputSize : List Int} {params : Params}
    (ran : col2imShapeInfer aten input outputSize params = .ok result) : Ready input params ∧
      ∃ (batch : Option Nat) (plane length h w : Nat), outputSize = [(h : Int), (w : Int)] ∧
        input.sizes = batched batch [plane, length] ∧ Folds params plane length h w := by
  simp only [col2imShapeInfer, check_bind, Params.checkLengths_eq_ok, checkSameGcu_self,
    col2imShapeCheck_eq_ok, torchCheck_eq_ok, decide_eq_true_eq] at ran
  obtain ⟨device, pair, lengths, ⟨valid, batch, plane, length, sizes, nonzero, divides, same,
    blocks, sides⟩, _⟩ := ran
  have ready : Ready input params :=
    ⟨device, lengths.1, lengths.2.1, lengths.2.2.1, lengths.2.2.2, valid.1, valid.2⟩
  obtain ⟨outputHeight, outputWidth, rfl⟩ := List.length_eq_two.mp pair
  obtain ⟨h, rfl⟩ := Int.eq_ofNat_of_zero_le (show 0 ≤ outputHeight from by
    have := sides.1
    simp at this
    omega)
  obtain ⟨w, rfl⟩ := Int.eq_ofNat_of_zero_le (show 0 ≤ outputWidth from by
    have := sides.2
    simp at this
    omega)
  simp only [List.getD_cons_zero, List.getD_cons_succ] at *
  refine ⟨ready, batch, plane, length, h, w, rfl, sizes, nonzero.1, ?_, by omega, by omega, blocks, ?_⟩
  · rw [← Int.natCast_dvd_natCast, ready.valid.window_eq]
    exact Int.dvd_of_tmod_eq_zero divides
  · rw [← Int.natCast_inj, Params.blocks_eq blocks, same]

/-- `col2im` with the spatial sizes of its input gives back the input of `im2col`. -/
theorem col2im_im2col {input result : Tensor} {params : Params}
    (accepts : im2colShapeInfer aten input params = .ok result) :
    ∃ (batch : Option Nat) (c h w : Nat), input.sizes = batched batch [c, h, w] ∧
      col2imShapeInfer aten result [(h : Int), (w : Int)] params = .ok input := by
  obtain ⟨ready, batch, c, h, w, sizes, unfolds⟩ := im2colShapeInfer_accepts accepts
  obtain rfl := Except.ok.inj ((im2colShapeInfer_ok ready sizes unfolds).symm.trans accepts)
  have window := ready.valid.window_pos
  have folds : Folds params (c * params.window) (params.blocks h w) h w :=
    { nonzero := Nat.mul_ne_zero unfolds.channels (by omega)
      divides := Nat.dvd_mul_left _ _
      height := unfolds.height
      width := unfolds.width
      blocks := unfolds.blocks
      length_eq := rfl }
  have next : Ready { input with sizes := batched batch [c * params.window, params.blocks h w] }
      params := ⟨ready.device, ready.valid⟩
  refine ⟨batch, c, h, w, sizes, ?_⟩
  rw [col2imShapeInfer_ok next rfl folds, Nat.mul_div_cancel c window, ← sizes]

/-- `im2col` gives back the input of `col2im`. -/
theorem im2col_col2im {input result : Tensor} {outputSize : List Int} {params : Params}
    (accepts : col2imShapeInfer aten input outputSize params = .ok result) :
    im2colShapeInfer aten result params = .ok input := by
  obtain ⟨ready, batch, plane, length, h, w, rfl, sizes, folds⟩ := col2imShapeInfer_accepts accepts
  obtain rfl := Except.ok.inj ((col2imShapeInfer_ok ready sizes folds).symm.trans accepts)
  obtain ⟨c, rfl⟩ := folds.divides
  have window := ready.valid.window_pos
  have unfolds : Unfolds params c h w :=
    { channels := fun zero => folds.nonzero (by rw [zero, Nat.mul_zero])
      height := folds.height
      width := folds.width
      blocks := folds.blocks }
  rw [Nat.mul_div_cancel_left c window]
  have next : Ready { input with sizes := batched batch [c, h, w] } params :=
    ⟨ready.device, ready.valid⟩
  rw [im2colShapeInfer_ok next rfl unfolds, ← folds.length_eq, Nat.mul_comm, ← sizes]

/-- Each function undoes the other, on every input that it accepts. -/
theorem undo_each_other (params : Params) :
    (∀ input result, im2colShapeInfer aten input params = .ok result →
      ∃ (batch : Option Nat) (c h w : Nat), input.sizes = batched batch [c, h, w] ∧
        col2imShapeInfer aten result [(h : Int), (w : Int)] params = .ok input) ∧
      ∀ input outputSize result, col2imShapeInfer aten input outputSize params = .ok result →
        im2colShapeInfer aten result params = .ok input :=
  ⟨fun _ _ => col2im_im2col, fun _ _ _ => im2col_col2im⟩

def ATen.documented : ATen :=
  ⟨Int.fdiv, fun x _ positive => Int.fdiv_eq_ediv_of_nonneg x positive.le⟩

/-- An empty batch of two channels, with kernels of two by three. -/
theorem emptyBatch_undo :
    let params : Params := ⟨[2, 3], [1, 2], [0, 1], [2, 1]⟩
    let input : Tensor := ⟨[0, 2, 5, 7], some 0⟩
    let columns : Tensor := ⟨[0, 12, 10], some 0⟩
    (∃ (batch : Option Nat) (c h w : Nat), input.sizes = batched batch [c, h, w] ∧
      col2imShapeInfer .documented columns [(h : Int), (w : Int)] params = .ok input) ∧
      im2colShapeInfer .documented input params = .ok columns :=
  ⟨(undo_each_other _).1 _ _ (by decide), (undo_each_other _).2 _ [5, 7] _ (by decide)⟩

end TorchGcu.Col2im

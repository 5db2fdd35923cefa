import TorchGcu.ShapeInference.Col2im

/-! The shape of `max_pool3d_with_indices`: the sizes of the outputs, and what the windows of the
pooling meet. Integers are exact. -/
namespace TorchGcu.MaxPool3d
open Col2im (Error ATen checkSameGcu)
variable (aten : ATen)

/-! ### Sizes -/

/-- What one dimension is pooled with. -/
structure Side where
  kernel : Int
  stride : Int
  pad : Int
  dilation : Int
deriving DecidableEq

def poolingOutputShapePadLr (inputSize : Int) (side : Side) (padL padR : Int) (ceilMode : Bool) :
    Int :=
  let outputSize :=
    aten.divRtn (inputSize + padL + padR - side.dilation * (side.kernel - 1) - 1 +
      if ceilMode then side.stride - 1 else 0) side.stride + 1
  if ceilMode && decide ((outputSize - 1) * side.stride ≥ inputSize + padL) then outputSize - 1
  else outputSize

def poolingOutputShape (inputSize : Int) (side : Side) (ceilMode : Bool) : Except Error Int := do
  Col2im.torchCheck (side.stride ≠ 0) "stride should not be zero"
  Col2im.torchCheck (side.pad ≥ 0) "pad must be non-negative, but got pad: "
  Col2im.torchCheck (side.pad ≤ ((side.kernel - 1) * side.dilation + 1).tdiv 2)
    "pad should be at most half of effective kernel size, but got pad="
  return poolingOutputShapePadLr aten inputSize side side.pad side.pad ceilMode

/-- A value for each of the three dimensions. -/
structure Dims (α : Type) where
  time : α
  height : α
  width : α
deriving DecidableEq

namespace Dims

def all {α : Type} (dims : Dims α) (p : α → Bool) : Bool :=
  p dims.time && p dims.width && p dims.height

end Dims

/-- The input, with what its strides make of the questions for a memory format. -/
structure Input where
  sizes : List Nat
  device : Option Nat
  /-- `suggest_memory_format` is `ChannelsLast3d`. -/
  suggestsChannelsLast3d : Bool
  /-- `unsqueeze(0)` is contiguous. -/
  unsqueezedContiguous : Bool
  /-- `unsqueeze(0)` is contiguous in `ChannelsLast3d`. -/
  unsqueezedChannelsLast3d : Bool

/-- `size(-dim)`. -/
def Input.sizeFromEnd (input : Input) (dim : Nat) : Except Error Int :=
  match input.sizes.reverse[dim - 1]? with
  | some size => .ok (Int.ofNat size)
  | none => .error .indexError

def Input.nbatch (input : Input) : Except Error Int :=
  if input.sizes.length = 5 then input.sizeFromEnd 5 else .ok 1

/-- `pool3d_shape_check`, which does not check the size of the input here. -/
def pool3dShapeCheck (input : Input) (side : Dims Side) (output : Dims Int) :
    Except Error Unit := do
  let ndim := input.sizes.length
  Col2im.torchCheck (side.all fun s => s.kernel > 0) "kernel size should be greater than zero, but got "
  Col2im.torchCheck (side.all fun s => s.stride > 0) "stride should be greater than zero, but got "
  Col2im.torchCheck (side.all fun s => s.dilation > 0) "dilation should be greater than zero, but got "
  Col2im.torchCheck (ndim = 4 || ndim = 5) ": Expected 4D or 5D tensor for input, but got: "
  Col2im.torchCheck ((if ndim = 5 then input.sizes.tail else input.sizes).all (· > 0))
    ": Expected input's non-batch dimensions to have positive length"
  Col2im.torchCheck (side.all fun s => s.kernel.tdiv 2 ≥ s.pad)
    "pad should be smaller than or equal to half of kernel size, but got "
  Col2im.torchCheck (output.all (· ≥ 1)) "Output size is too small"

/-! ### The function -/

/-- One value for all dimensions, or one for each. -/
def expand (message : String) : List Int → Except Error (Dims Int)
  | [a] => .ok ⟨a, a, a⟩
  | [a, b, c] => .ok ⟨a, b, c⟩
  | _ => .error (.torchCheck message)

structure Params where
  kernelSize : List Int
  stride : List Int
  padding : List Int
  dilation : List Int
  ceilMode : Bool

def Params.sides (params : Params) : Except Error (Dims Side) := do
  let kernel ← expand
    "max_pool3d: kernel_size must either be a single int, or a tuple of three ints"
    params.kernelSize
  let stride ← if params.stride = [] then .ok kernel else
    expand "max_pool3d: stride must either be omitted, a single int, or a tuple of three ints"
      params.stride
  let pad ← expand "max_pool3d: padding must either be a single int, or a tuple of three ints"
    params.padding
  let dilation ← expand
    "max_pool3d: dilation must be either a single int, or a tuple of three ints" params.dilation
  return {
    time := ⟨kernel.time, stride.time, pad.time, dilation.time⟩
    height := ⟨kernel.height, stride.height, pad.height, dilation.height⟩
    width := ⟨kernel.width, stride.width, pad.width, dilation.width⟩ }

/-- The tensors that handles stand for. -/
abbrev Heap := List Col2im.Tensor

def find (heap : Heap) (handle : Nat) : Except Error Col2im.Tensor :=
  match heap[handle]? with
  | some tensor => .ok tensor
  | none => .error .indexError

def resize (heap : Heap) (handle : Nat) (sizes : List Int) : Except Error Heap := do
  return heap.set handle (← (← find heap handle).resize sizes)

/-- `squeeze(0)`, a new tensor. -/
def squeeze (heap : Heap) (handle : Nat) : Except Error (Heap × Nat) := do
  return (heap ++ [(← find heap handle).squeeze], heap.length)

/-- The outputs: the tensors, and the handles `out` and `indices` stand for in the end. -/
structure Outputs where
  heap : Heap
  out : Nat
  indices : Nat
deriving DecidableEq

def resizeBoth (o : Outputs) (sizes : List Int) : Except Error Outputs := do
  return { o with heap := ← resize (← resize o.heap o.out sizes) o.indices sizes }

def squeezeBoth (o : Outputs) : Except Error Outputs := do
  let (heap, out) ← squeeze o.heap o.out
  let (heap, indices) ← squeeze heap o.indices
  return ⟨heap, out, indices⟩

/-- `channels_last`. -/
def channelsLast (input : Input) : Bool :=
  if input.sizes.length = 4 then !input.unsqueezedContiguous && input.unsqueezedChannelsLast3d
  else input.sizes.length = 5 && input.suggestsChannelsLast3d

/-- The outputs get their sizes. The memory formats that they also get are left out. -/
def setSizes (input : Input) (nbatch nslices : Int) (output : Dims Int) (o : Outputs) :
    Except Error Outputs :=
  if input.sizes.length = 4 then
    if !channelsLast input then
      resizeBoth o [nslices, output.time, output.height, output.width]
    else do
      squeezeBoth (← resizeBoth o [1, nslices, output.time, output.height, output.width])
  else resizeBoth o [nbatch, nslices, output.time, output.height, output.width]

/-- `max_pool3d_with_indices_out_shape_infer`. -/
def maxPool3dWithIndicesOutShapeInfer (input : Input) (params : Params) (o : Outputs) :
    Except Error Outputs := do
  let out ← find o.heap o.out
  checkSameGcu out (← find o.heap o.indices)
  checkSameGcu out { sizes := input.sizes, device := input.device }
  let side ← params.sides
  let nbatch ← input.nbatch
  let nslices ← input.sizeFromEnd 4
  let itime ← input.sizeFromEnd 3
  let iheight ← input.sizeFromEnd 2
  let iwidth ← input.sizeFromEnd 1
  let output : Dims Int := {
    time := ← poolingOutputShape aten itime side.time params.ceilMode
    height := ← poolingOutputShape aten iheight side.height params.ceilMode
    width := ← poolingOutputShape aten iwidth side.width params.ceilMode }
  pool3dShapeCheck input side output
  setSizes input nbatch nslices output o

variable {aten}

/-! ### Windows -/

/-- A quotient that is rounded up. -/
def ceilDiv (a b : Int) : Int := -(-a / b)

/-- The pooling size: as many windows as fit into the padded input, and in `ceil_mode` also those
that only start in the input or its left padding. -/
def poolingSize (inputSize : Int) (side : Side) (ceilMode : Bool) : Int :=
  let room := inputSize + 2 * side.pad - side.dilation * (side.kernel - 1) - 1
  if ceilMode then min (ceilDiv room side.stride + 1) (ceilDiv (inputSize + side.pad) side.stride)
  else room / side.stride + 1

/-- The parameters that are accepted for a dimension. -/
structure Side.Valid (side : Side) : Prop where
  kernel : 0 < side.kernel
  stride : 0 < side.stride
  dilation : 0 < side.dilation
  pad : 0 ≤ side.pad
  half : side.pad ≤ side.kernel / 2

/-- Where a window starts. -/
def Side.start (side : Side) (window : Int) : Int := window * side.stride - side.pad

/-- One of the taps of a window is an element of the input. -/
def Side.Taps (side : Side) (inputSize window : Int) : Prop :=
  ∃ i, 0 ≤ i ∧ i < side.kernel ∧ 0 ≤ side.start window + i * side.dilation ∧
    side.start window + i * side.dilation < inputSize

/-- A window starts in the input, or has a tap on its left end that is not behind its right end. -/
def Side.Reaches (side : Side) (inputSize window : Int) : Prop :=
  0 ≤ side.start window ∨ side.start window % side.dilation < inputSize

/-- What is known of the windows of a dimension. -/
structure Windows (inputSize : Int) (side : Side) (ceilMode : Bool) (output : Int) : Prop where
  size : output = poolingSize inputSize side ceilMode
  some : 1 ≤ output
  starts : ∀ window, 0 ≤ window → window < output →
    -side.pad ≤ side.start window ∧ side.start window < inputSize
  taps : ∀ window, 0 ≤ window → window < output →
    (side.Taps inputSize window ↔ side.Reaches inputSize window)

theorem ceilDiv_le_iff {a b q : Int} (positive : 0 < b) : ceilDiv a b ≤ q ↔ a ≤ q * b := by
  have quotient : -q ≤ -a / b ↔ -q * b ≤ -a := Int.le_ediv_iff_mul_le positive
  rw [Int.neg_mul] at quotient
  rw [ceilDiv]
  omega

theorem ceilDiv_eq {a b : Int} (positive : 0 < b) : (a + (b - 1)) / b = ceilDiv a b := by
  apply le_antisymm
  · refine Int.lt_add_one_iff.mp (Int.ediv_lt_of_lt_mul positive ?_)
    have := (ceilDiv_le_iff positive).mp (le_refl (ceilDiv a b))
    rw [Int.add_mul, Int.one_mul]
    omega
  · refine (ceilDiv_le_iff positive).mpr ?_
    have := Int.lt_ediv_add_one_mul_self (a + (b - 1)) positive
    rw [Int.add_mul, Int.one_mul] at this
    omega

namespace Side.Valid

variable {side : Side} {inputSize : Int}

/-- The reach of a window is at least its padding. -/
theorem pad_le_reach (valid : side.Valid) : side.pad ≤ side.dilation * (side.kernel - 1) := by
  have half := valid.half
  have kernel := valid.kernel
  have wide : 1 * (side.kernel - 1) ≤ side.dilation * (side.kernel - 1) :=
    Int.mul_le_mul_of_nonneg_right valid.dilation (by omega)
  omega

theorem poolingOutputShape_eq (valid : side.Valid) (ceilMode : Bool) :
    poolingOutputShapePadLr aten inputSize side side.pad side.pad ceilMode =
      poolingSize inputSize side ceilMode := by
  have reach := valid.pad_le_reach
  have room : inputSize + side.pad + side.pad - side.dilation * (side.kernel - 1) - 1 =
      inputSize + 2 * side.pad - side.dilation * (side.kernel - 1) - 1 := by ring
  simp only [poolingOutputShapePadLr, poolingSize, aten.rounds _ _ valid.stride, room]
  cases ceilMode with
  | false => simp
  | true =>
    simp only [if_true, Bool.true_and, decide_eq_true_eq, ceilDiv_eq valid.stride]
    have order : ceilDiv (inputSize + 2 * side.pad - side.dilation * (side.kernel - 1) - 1)
        side.stride ≤ ceilDiv (inputSize + side.pad) side.stride := by
      rw [ceilDiv_le_iff valid.stride]
      have := (ceilDiv_le_iff valid.stride).mp (le_refl (ceilDiv (inputSize + side.pad) side.stride))
      omega
    have last (q : Int) : (q + 1 - 1) * side.stride ≥ inputSize + side.pad ↔
        ceilDiv (inputSize + side.pad) side.stride ≤ q := by
      rw [ceilDiv_le_iff valid.stride, add_sub_cancel_right]
    split
    · rename_i behind
      have := (last _).mp behind
      omega
    · rename_i inside
      have := (last _).not.mp inside
      omega

theorem starts (valid : side.Valid) (ceilMode : Bool) {window : Int} (nonneg : 0 ≤ window)
    (below : window < poolingSize inputSize side ceilMode) :
    -side.pad ≤ side.start window ∧ side.start window < inputSize := by
  have first := Int.mul_nonneg nonneg valid.stride.le
  have reach := valid.pad_le_reach
  rw [Side.start]
  refine ⟨by omega, ?_⟩
  rw [poolingSize] at below
  cases ceilMode with
  | false =>
    simp only [Bool.false_eq_true, if_false] at below
    have := (Int.le_ediv_iff_mul_le valid.stride).mp (Int.lt_add_one_iff.mp below)
    omega
  | true =>
    simp only [if_true] at below
    have := (ceilDiv_le_iff (a := inputSize + side.pad) (q := window) valid.stride).not.mp (by omega)
    omega

theorem taps_iff (valid : side.Valid) {window : Int} (least : -side.pad ≤ side.start window)
    (below : side.start window < inputSize) :
    side.Taps inputSize window ↔ side.Reaches inputSize window := by
  have positive := valid.dilation
  constructor
  · rintro ⟨i, _, _, above, inside⟩
    by_cases started : 0 ≤ side.start window
    · exact .inl started
    · refine .inr ?_
      have same := Int.add_mul_emod_self_right (side.start window) i side.dilation
      have split := Int.emod_add_mul_ediv (side.start window + i * side.dilation) side.dilation
      have whole := Int.mul_nonneg positive.le (Int.ediv_nonneg above positive.le)
      rw [same] at split
      omega
  · intro reaches
    have kernel := valid.kernel
    by_cases started : 0 ≤ side.start window
    · exact ⟨0, le_refl 0, kernel, by omega, by omega⟩
    · -- the first tap that is not in the left padding
      have inside := reaches.resolve_left started
      have half := valid.half
      have split := Int.emod_add_mul_ediv (side.start window) side.dilation
      have nonneg := Int.emod_nonneg (side.start window) positive.ne'
      have least' := Int.ediv_neg_of_neg_of_pos (not_le.mp started) positive
      have near : side.start window ≤ side.start window / side.dilation := by
        rw [Int.le_ediv_iff_mul_le positive]
        have product := Int.mul_nonneg (show 0 ≤ -side.start window by omega)
          (show 0 ≤ side.dilation - 1 by omega)
        rw [Int.mul_sub, Int.neg_mul, Int.mul_one] at product
        omega
      refine ⟨-(side.start window / side.dilation), by omega, by omega, ?_, ?_⟩
      all_goals
        rw [Int.neg_mul, Int.mul_comm]
        omega

theorem windows (valid : side.Valid) (ceilMode : Bool)
    (some : 1 ≤ poolingSize inputSize side ceilMode) :
    Windows inputSize side ceilMode (poolingSize inputSize side ceilMode) where
  size := rfl
  some := some
  starts := fun _ nonneg below => valid.starts ceilMode nonneg below
  taps := fun _ nonneg below =>
    have bounds := valid.starts ceilMode nonneg below
    valid.taps_iff bounds.1 bounds.2

end Side.Valid

/-! ### Accepted calls -/

theorem bind_eq_ok {α β : Type} {action : Except Error α} {next : α → Except Error β} {b : β} :
    (action >>= next) = .ok b ↔ ∃ a, action = .ok a ∧ next a = .ok b := by
  cases action with
  | error e => simp [Bind.bind, Except.bind]
  | ok a => simp [Bind.bind, Except.bind]

theorem poolingOutputShape_ok {inputSize : Int} {side : Side} {ceilMode : Bool} {output : Int}
    (accepted : poolingOutputShape aten inputSize side ceilMode = .ok output) :
    0 ≤ side.pad ∧
      output = poolingOutputShapePadLr aten inputSize side side.pad side.pad ceilMode := by
  simp only [poolingOutputShape, Col2im.check_bind, Col2im.torchCheck_eq_ok, decide_eq_true_eq]
    at accepted
  obtain ⟨_, pad, _, same⟩ := accepted
  exact ⟨pad, (Except.ok.inj same).symm⟩

/-- The parameters and sizes that the check of the shape lets through. -/
structure Checked (input : Input) (side : Dims Side) (output : Dims Int) : Prop where
  positive : ∀ s ∈ [side.time, side.height, side.width],
    0 < s.kernel ∧ 0 < s.stride ∧ 0 < s.dilation ∧ s.pad ≤ s.kernel.tdiv 2
  rank : input.sizes.length = 4 ∨ input.sizes.length = 5
  output : 1 ≤ output.time ∧ 1 ≤ output.height ∧ 1 ≤ output.width

theorem pool3dShapeCheck_ok {input : Input} {side : Dims Side} {output : Dims Int}
    (accepted : pool3dShapeCheck input side output = .ok ()) : Checked input side output := by
  simp only [pool3dShapeCheck, Col2im.check_bind, Col2im.torchCheck_eq_ok, Dims.all,
    Bool.and_eq_true, Bool.or_eq_true, decide_eq_true_eq] at accepted
  obtain ⟨kernel, stride, dilation, rank, _, half, output⟩ := accepted
  refine ⟨?_, rank, output.1.1, output.2, output.1.2⟩
  intro s member
  simp only [List.mem_cons, List.not_mem_nil, or_false] at member
  rcases member with rfl | rfl | rfl
  · exact ⟨kernel.1.1, stride.1.1, dilation.1.1, half.1.1⟩
  · exact ⟨kernel.2, stride.2, dilation.2, half.2⟩
  · exact ⟨kernel.1.2, stride.1.2, dilation.1.2, half.1.2⟩

theorem windows_of_accepted {inputSize : Int} {side : Side} {ceilMode : Bool} {output : Int}
    (accepted : poolingOutputShape aten inputSize side ceilMode = .ok output)
    (checked : 0 < side.kernel ∧ 0 < side.stride ∧ 0 < side.dilation ∧
      side.pad ≤ side.kernel.tdiv 2)
    (some : 1 ≤ output) : Windows inputSize side ceilMode output := by
  obtain ⟨pad, same⟩ := poolingOutputShape_ok accepted
  obtain ⟨kernel, stride, dilation, half⟩ := checked
  rw [Int.tdiv_eq_ediv_of_nonneg kernel.le] at half
  have valid : side.Valid := ⟨kernel, stride, dilation, pad, half⟩
  rw [same, valid.poolingOutputShape_eq] at some ⊢
  exact valid.windows ceilMode some

/-! ### The outputs -/

/-- The sizes of the tensor that a handle stands for. -/
def sizesOf (heap : Heap) (handle : Nat) : Option (List Nat) := heap[handle]?.map (·.sizes)

theorem find_ok {heap : Heap} {handle : Nat} {tensor : Col2im.Tensor} :
    find heap handle = .ok tensor ↔ heap[handle]? = some tensor := by
  unfold find
  split <;> simp_all

theorem resize_ok {heap heap' : Heap} {handle : Nat} {sizes : List Int}
    (resized : resize heap handle sizes = .ok heap') :
    handle < heap.length ∧ heap'.length = heap.length ∧ ∀ other,
      sizesOf heap' other =
        if other = handle then some (sizes.map Int.toNat) else sizesOf heap other := by
  simp only [resize, bind_eq_ok, find_ok] at resized
  obtain ⟨tensor, found, tensor', changed, same⟩ := resized
  have inside : handle < heap.length := (List.getElem?_eq_some_iff.mp found).1
  have sizes' : tensor'.sizes = sizes.map Int.toNat := by
    unfold Col2im.Tensor.resize at changed
    split at changed
    · cases changed
    · cases changed
      rfl
  cases same
  refine ⟨inside, List.length_set, fun other => ?_⟩
  unfold sizesOf
  split
  · rename_i own
    rw [own, List.getElem?_set_self inside, Option.map_some, sizes']
  · rename_i another
    rw [List.getElem?_set_ne (Ne.symm another)]

theorem resizeBoth_ok {o o' : Outputs} {sizes : List Int} (resized : resizeBoth o sizes = .ok o') :
    o'.out = o.out ∧ o'.indices = o.indices ∧
      sizesOf o'.heap o.out = some (sizes.map Int.toNat) ∧
      sizesOf o'.heap o.indices = some (sizes.map Int.toNat) := by
  simp only [resizeBoth, bind_eq_ok] at resized
  obtain ⟨heap, first, heap', second, same⟩ := resized
  cases same
  obtain ⟨_, _, out⟩ := resize_ok first
  obtain ⟨_, _, indices⟩ := resize_ok second
  refine ⟨rfl, rfl, ?_, ?_⟩
  · rw [indices, out, if_pos rfl, ite_self]
  · rw [indices, if_pos rfl]

theorem squeeze_ok {heap heap' : Heap} {handle handle' : Nat} {rest : List Nat}
    (sizes : sizesOf heap handle = some (1 :: rest))
    (squeezed : squeeze heap handle = .ok (heap', handle')) :
    sizesOf heap' handle' = some rest ∧ ∀ other sizes, sizesOf heap other = some sizes →
      sizesOf heap' other = some sizes := by
  simp only [squeeze, bind_eq_ok, find_ok] at squeezed
  obtain ⟨tensor, found, same⟩ := squeezed
  cases same
  unfold sizesOf at sizes ⊢
  rw [found, Option.map_some, Option.some.injEq] at sizes
  constructor
  · simp [Col2im.Tensor.squeeze, sizes]
  · intro other known isKnown
    obtain ⟨tensor', isTensor, same⟩ := Option.map_eq_some_iff.mp isKnown
    rw [List.getElem?_append_left (List.getElem?_eq_some_iff.mp isTensor).1, isTensor,
      Option.map_some, same]

theorem squeezeBoth_ok {o o' : Outputs} {rest : List Nat}
    (out : sizesOf o.heap o.out = some (1 :: rest))
    (indices : sizesOf o.heap o.indices = some (1 :: rest)) (squeezed : squeezeBoth o = .ok o') :
    sizesOf o'.heap o'.out = some rest ∧ sizesOf o'.heap o'.indices = some rest ∧
      sizesOf o'.heap o.out = some (1 :: rest) ∧ sizesOf o'.heap o.indices = some (1 :: rest) := by
  simp only [squeezeBoth, bind_eq_ok] at squeezed
  obtain ⟨⟨heap, out'⟩, first, ⟨heap', indices'⟩, second, same⟩ := squeezed
  cases same
  obtain ⟨made, kept⟩ := squeeze_ok out first
  obtain ⟨made', kept'⟩ := squeeze_ok (kept _ _ indices) second
  exact ⟨kept' _ _ made, made', kept' _ _ (kept _ _ out), kept' _ _ (kept _ _ indices)⟩

/-- A call that is accepted. -/
structure Pooled (input : Input) (params : Params) (o o' : Outputs) (lead : List Nat)
    (itime iheight iwidth : Nat) (side : Dims Side) (output : Dims Int) : Prop where
  sizes : input.sizes = lead ++ [itime, iheight, iwidth]
  sides : params.sides = .ok side
  time : Windows itime side.time params.ceilMode output.time
  height : Windows iheight side.height params.ceilMode output.height
  width : Windows iwidth side.width params.ceilMode output.width
  returned : ∀ handle ∈ [o'.out, o'.indices], sizesOf o'.heap handle =
    some (lead ++ [output.time.toNat, output.height.toNat, output.width.toNat])
  supplied : ∀ handle ∈ [o.out, o.indices], sizesOf o'.heap handle =
    some ((if input.sizes.length = 4 ∧ channelsLast input = true then [1] else []) ++ lead ++
      [output.time.toNat, output.height.toNat, output.width.toNat])

theorem sizeFromEnd_ok {input : Input} {dim : Nat} {size : Int}
    (read : input.sizeFromEnd dim = .ok size) :
    ∃ n : Nat, input.sizes.reverse[dim - 1]? = some n ∧ size = n := by
  unfold Input.sizeFromEnd at read
  split at read
  · rename_i n found
    exact ⟨n, found, (Except.ok.inj read).symm⟩
  · cases read

/-- The dimensions that are pooled are the last three ones. -/
theorem sizes_split {sizes : List Nat} {itime iheight iwidth : Nat}
    (rank : sizes.length = 4 ∨ sizes.length = 5) (time : sizes.reverse[2]? = some itime)
    (height : sizes.reverse[1]? = some iheight) (width : sizes.reverse[0]? = some iwidth) :
    sizes = sizes.take (sizes.length - 3) ++ [itime, iheight, iwidth] := by
  rcases rank with four | five
  · obtain ⟨n, rest, rfl⟩ := List.exists_of_length_succ sizes four
    obtain ⟨t, h, w, rfl⟩ := List.length_eq_three.mp (Nat.succ.inj four)
    simp at time height width ⊢
    exact ⟨time, height, width⟩
  · obtain ⟨b, rest, rfl⟩ := List.exists_of_length_succ sizes five
    obtain ⟨n, rest, rfl⟩ := List.exists_of_length_succ rest (Nat.succ.inj five)
    obtain ⟨t, h, w, rfl⟩ := List.length_eq_three.mp (Nat.succ.inj (Nat.succ.inj five))
    simp at time height width ⊢
    exact ⟨time, height, width⟩

/-- The sizes that the outputs get, from the ones in front and the pooled ones. -/
theorem setSizes_ok {input : Input} {nbatch nslices : Int} {output : Dims Int} {o o' : Outputs}
    (rank : input.sizes.length = 4 ∨ input.sizes.length = 5) {lead : List Nat}
    (four : input.sizes.length = 4 → lead = [nslices.toNat])
    (five : input.sizes.length = 5 → lead = [nbatch.toNat, nslices.toNat])
    (set : setSizes input nbatch nslices output o = .ok o') :
    let pooled := lead ++ [output.time.toNat, output.height.toNat, output.width.toNat]
    (∀ handle ∈ [o'.out, o'.indices], sizesOf o'.heap handle = some pooled) ∧
      ∀ handle ∈ [o.out, o.indices], sizesOf o'.heap handle =
        some ((if input.sizes.length = 4 ∧ channelsLast input = true then [1] else []) ++
          pooled) := by
  unfold setSizes at set
  by_cases isFour : input.sizes.length = 4
  · rw [four isFour]
    rw [if_pos isFour] at set
    by_cases last : channelsLast input = true
    · simp only [last, Bool.not_true, Bool.false_eq_true, if_false, bind_eq_ok] at set
      obtain ⟨middle, resized, squeezed⟩ := set
      obtain ⟨sameOut, sameIndices, out, indices⟩ := resizeBoth_ok resized
      rw [← sameOut] at out
      rw [← sameIndices] at indices
      obtain ⟨newOut, newIndices, oldOut, oldIndices⟩ := squeezeBoth_ok out indices squeezed
      rw [sameOut] at oldOut
      rw [sameIndices] at oldIndices
      rw [if_pos ⟨isFour, last⟩]
      simp [newOut, newIndices, oldOut, oldIndices]
    · simp only [Bool.not_eq_true] at last
      simp only [last, Bool.not_false, if_true] at set
      obtain ⟨sameOut, sameIndices, out, indices⟩ := resizeBoth_ok set
      rw [if_neg (by simp [last])]
      simp [sameOut, sameIndices, out, indices]
  · rw [five (rank.resolve_left isFour)]
    rw [if_neg isFour] at set
    obtain ⟨sameOut, sameIndices, out, indices⟩ := resizeBoth_ok set
    rw [if_neg (by simp [isFour])]
    simp [sameOut, sameIndices, out, indices]

/-- What an accepted call says of its windows, and of the tensors that it returns and was given. -/
theorem maxPool3d_pooled {input : Input} {params : Params} {o o' : Outputs}
    (accepted : maxPool3dWithIndicesOutShapeInfer aten input params o = .ok o') :
    ∃ lead itime iheight iwidth side output,
      Pooled input params o o' lead itime iheight iwidth side output := by
  simp only [maxPool3dWithIndicesOutShapeInfer, bind_eq_ok] at accepted
  obtain ⟨_, _, _, _, _, _, _, _, side, sides, nbatch, batch, nslices, slices, _, time, _, height,
    _, width, otime, pooledTime, oheight, pooledHeight, owidth, pooledWidth, _, checked, set⟩ :=
      accepted
  obtain ⟨itime, isTime, rfl⟩ := sizeFromEnd_ok time
  obtain ⟨iheight, isHeight, rfl⟩ := sizeFromEnd_ok height
  obtain ⟨iwidth, isWidth, rfl⟩ := sizeFromEnd_ok width
  obtain ⟨positive, rank, some⟩ := pool3dShapeCheck_ok checked
  obtain ⟨n, isSlices, rfl⟩ := sizeFromEnd_ok slices
  have sizes := sizes_split rank isTime isHeight isWidth
  obtain ⟨returned, supplied⟩ := @setSizes_ok _ _ _ _ _ _ rank
    (input.sizes.take (input.sizes.length - 3))
    (fun four => by
      obtain ⟨m, rest, split⟩ := List.exists_of_length_succ input.sizes four
      obtain ⟨t, h, w, rfl⟩ := List.length_eq_three.mp (Nat.succ.inj (split ▸ four))
      rw [split] at isSlices ⊢
      simp at isSlices ⊢
      exact isSlices)
    (fun five => by
      rw [Input.nbatch, if_pos five] at batch
      obtain ⟨b, isBatch, rfl⟩ := sizeFromEnd_ok batch
      obtain ⟨b', rest, split⟩ := List.exists_of_length_succ input.sizes five
      obtain ⟨m, rest', rfl⟩ := List.exists_of_length_succ rest (Nat.succ.inj (split ▸ five))
      obtain ⟨t, h, w, rfl⟩ :=
        List.length_eq_three.mp (Nat.succ.inj (Nat.succ.inj (split ▸ five)))
      rw [split] at isSlices isBatch ⊢
      simp at isSlices isBatch ⊢
      exact ⟨isBatch, isSlices⟩) set
  exact ⟨_, itime, iheight, iwidth, side, ⟨otime, oheight, owidth⟩, sizes, sides,
    windows_of_accepted pooledTime (positive _ (by simp)) some.1,
    windows_of_accepted pooledHeight (positive _ (by simp)) some.2.1,
    windows_of_accepted pooledWidth (positive _ (by simp)) some.2.2, returned, by
      simpa only [List.append_assoc] using supplied⟩

/-- An image of one element, pooled with kernels of two taps that are two elements apart. -/
def narrowInput : Input where
  sizes := [1, 1, 1, 1]
  device := some 0
  suggestsChannelsLast3d := false
  unsqueezedContiguous := true
  unsqueezedChannelsLast3d := true

def dilatedParams : Params where
  kernelSize := [2]
  stride := [1]
  padding := [1]
  dilation := [2]
  ceilMode := false

/-- Two channels of two elements, the channels next to each other. -/
def channelsLastInput : Input where
  sizes := [2, 1, 1, 2]
  device := some 0
  suggestsChannelsLast3d := true
  unsqueezedContiguous := false
  unsqueezedChannelsLast3d := true

def singleParams : Params where
  kernelSize := [1]
  stride := []
  padding := [0]
  dilation := [1]
  ceilMode := false

def freshOutputs : Outputs := ⟨[⟨[0], some 0⟩, ⟨[0], some 0⟩], 0, 1⟩

/-- Two images of three channels. -/
def batchInput : Input where
  sizes := [2, 3, 5, 8, 7]
  device := some 0
  suggestsChannelsLast3d := false
  unsqueezedContiguous := true
  unsqueezedChannelsLast3d := false

/-- The last windows in height and width end behind the input, and the one in time is dropped. -/
def ceilParams : Params where
  kernelSize := [2, 3, 4]
  stride := [2, 3, 2]
  padding := [1, 1, 2]
  dilation := [1, 2, 1]
  ceilMode := true

theorem batch_pooled :
    ∃ lead itime iheight iwidth side output,
      Pooled batchInput ceilParams freshOutputs
        ⟨[⟨[2, 3, 3, 3, 5], some 0⟩, ⟨[2, 3, 3, 3, 5], some 0⟩], 0, 1⟩ lead itime iheight iwidth
        side output :=
  @maxPool3d_pooled .documented _ _ _ _ (by rfl)

/-- A call is accepted whose only window has its taps at -1 and 1 of a single element; and the
tensor that is supplied for a channels-last input gets a dimension more than the one returned. -/
theorem dilated_window_empty :
    (∃ o', maxPool3dWithIndicesOutShapeInfer .documented narrowInput dilatedParams freshOutputs = .ok o' ∧
        dilatedParams.sides = .ok ⟨⟨2, 1, 1, 2⟩, ⟨2, 1, 1, 2⟩, ⟨2, 1, 1, 2⟩⟩ ∧
        sizesOf o'.heap o'.out = some [1, 1, 1, 1]) ∧
      ¬ Side.Taps ⟨2, 1, 1, 2⟩ 1 0 ∧
      ∃ o', maxPool3dWithIndicesOutShapeInfer .documented channelsLastInput singleParams freshOutputs =
          .ok o' ∧ sizesOf o'.heap o'.out = some [2, 1, 1, 2] ∧
        sizesOf o'.heap freshOutputs.out = some [1, 2, 1, 1, 2] := by
  refine ⟨⟨_, rfl, rfl, rfl⟩, ?_, ⟨_, rfl, rfl, rfl⟩⟩
  rintro ⟨i, least, below, above, inside⟩
  simp only [Side.start] at above inside below
  omega

end TorchGcu.MaxPool3d

import Mathlib.Algebra.Order.Ring.Int
import Mathlib.Tactic.Ring

/-! The shapes of convolutions, forward and backward. The checks are made on parameters whose
`groups` is an `int`, and the sizes are computed with 64 bits. -/
namespace TorchGcu.Convolution

/-! ### Parameters -/

/-- How a shape function ends without a result: a check, or what the language leaves undefined. -/
inductive Error where
  | torchCheck (message : String)
  | divisionByZero
  | valueOfNullopt
deriving DecidableEq, Repr

def torchCheck (condition : Bool) (message : String) : Except Error Unit :=
  if condition then .ok () else .error (.torchCheck message)

/-- What is kept of a result in an `int64_t`, and of an `int64_t` in an `int`. -/
def int64 (x : Int) : Int := x.bmod (2 ^ 64)

def int32 (x : Int) : Int := x.bmod (2 ^ 32)

structure ConvParams where
  stride : List Int
  padding : List Int
  dilation : List Int
  transposed : Bool
  outputPadding : List Int
  groups : Int

namespace ConvParams

def isPaddingNeg (params : ConvParams) : Bool := params.padding.any (· < 0)

def isOutputPaddingNeg (params : ConvParams) : Bool := params.outputPadding.any (· < 0)

def isStrideNonpos (params : ConvParams) : Bool := params.stride.any (· ≤ 0)

end ConvParams

/-- The arguments of a convolution: the sizes of its tensors, and 64-bit parameters. -/
structure Args where
  input : List Nat
  weight : List Nat
  bias : Option (List Nat)
  stride : List Int
  padding : List Int
  dilation : List Int
  transposed : Bool
  outputPadding : List Int
  groups : Int
  strideRange : ∀ s ∈ stride, s < 2 ^ 63

/-- `expand_param_if_needed`, `conv_output_size` and `conv_input_size`. -/
structure ATen where
  expandParamIfNeeded : List Int → String → Nat → Except Error (List Int)
  convOutputSize : List Nat → List Nat → ConvParams → List Int
  convInputSize : List Nat → List Nat → ConvParams → Int → List Int

variable (aten : ATen)

/-- The parameters as both shape functions collect them. -/
def collectParams (args : Args) (dim : Nat) : Except Error ConvParams := do
  let stride ← aten.expandParamIfNeeded args.stride "stride" dim
  let padding ← aten.expandParamIfNeeded args.padding "padding" dim
  let dilation ← aten.expandParamIfNeeded args.dilation "dilation" dim
  let outputPadding ← aten.expandParamIfNeeded args.outputPadding "output_padding" dim
  pure ⟨stride, padding, dilation, args.transposed, outputPadding, int32 args.groups⟩

/-! ### The checks -/

/-- One spatial dimension, with its parameters. -/
structure Spatial where
  input : Int
  kernel : Int
  stride : Int
  padding : Int
  dilation : Int
  outputPadding : Int

/-- The spatial dimensions, by their index in the parameters. -/
def spatial (input weight : List Nat) (params : ConvParams) : List Spatial :=
  (List.range (input.length - 2)).map fun i =>
    { input := input.getD (i + 2) 0
      kernel := weight.getD (i + 2) 0
      stride := params.stride.getD i 0
      padding := params.padding.getD i 0
      dilation := params.dilation.getD i 0
      outputPadding := params.outputPadding.getD i 0 }

namespace Spatial

def inputShape (d : Spatial) : Int := int64 (d.input + int64 (2 * d.padding))

/-- The size of the kernel with its dilation. -/
def kernelShape (d : Spatial) : Int := int64 (int64 (d.dilation * int64 (d.kernel - 1)) + 1)

end Spatial

/-- The check of a division: nothing is said of one by zero. -/
def modulo (a b : Int) : Except Error Int :=
  if b = 0 then .error .divisionByZero else .ok (a.tmod b)

def checkChannels (input weight : List Nat) (bias : Option (List Nat)) (params : ConvParams) :
    Except Error Unit := do
  torchCheck ((input.getD 1 0 : Int) = int64 ((weight.getD 1 0 : Nat) * params.groups))
    "expected input to have other channels"
  torchCheck (bias.all fun bias => bias = [weight.getD 0 0]) "expected bias to be 1-dimensional"
  torchCheck ((spatial input weight params).all fun d => !decide (d.inputShape < d.kernelShape))
    "Kernel size can't be greater than actual input size"

def checkTransposed (input weight : List Nat) (bias : Option (List Nat)) (params : ConvParams) :
    Except Error Unit := do
  torchCheck (input.getD 1 0 = weight.getD 0 0) "expected input to have other channels"
  torchCheck (bias.all fun bias =>
      bias.map Int.ofNat = [int64 ((weight.getD 1 0 : Nat) * params.groups)])
    "expected bias to be 1-dimensional"

def checkShapeForward (input weight : List Nat) (bias : Option (List Nat)) (params : ConvParams) :
    Except Error Unit := do
  torchCheck (!params.isPaddingNeg) "negative padding is not supported"
  torchCheck (!params.isOutputPaddingNeg) "negative output_padding is not supported"
  torchCheck (!params.isStrideNonpos) "non-positive stride is not supported"
  torchCheck (weight.length = input.length) "Expected input of another dimension"
  torchCheck (params.groups ≤ (weight.getD 0 0 : Nat)) "expected weight to be at least groups"
  let remainder ← modulo (weight.getD 0 0 : Nat) params.groups
  torchCheck (remainder = 0) "expected weight to be divisible by groups"
  if params.transposed then checkTransposed input weight bias params
  else checkChannels input weight bias params

/-- `check_shape_backward`. -/
def checkShapeBackward (input weight : List Nat) (params : ConvParams) : Except Error Unit :=
  checkShapeForward input weight none params

/-! ### The shapes -/

/-- Which sizes a tensor can be made of: with the options of the input and of the weight in the
memory format of the backend, and contiguous. -/
structure Memory where
  makes : List Int → Bool
  makesWeight : List Int → Bool
  makesContiguous : List Int → Bool

/-- `empty`. -/
def empty (makes : List Int → Bool) (size : List Int) : Except Error (List Int) :=
  if size.any (· < 0) then
    .error (.torchCheck "Trying to create tensor with negative dimension")
  else if makes size then .ok size
  else .error (.torchCheck "Storage size calculation overflowed")

def outSize (args : Args) (params : ConvParams) : List Int :=
  if args.transposed then aten.convInputSize args.input args.weight params args.groups
  else aten.convOutputSize args.input args.weight params

variable (memory : Memory)

def convolutionShapeInfer (args : Args) : Except Error (List Int) := do
  torchCheck (2 < args.weight.length) "weight should have at least three dimensions"
  torchCheck (0 < args.groups) "non-positive groups is not supported"
  let params ← collectParams aten args (args.weight.length - 2)
  checkShapeForward args.input args.weight args.bias params
  empty memory.makes (outSize aten args params)

/-- Which gradients are asked for. -/
structure OutputMask where
  input : Bool
  weight : Bool
  bias : Bool

structure Gradients where
  input : Option (List Int)
  weight : Option (List Int)
  bias : Option (List Int)
deriving DecidableEq

def emptyIf (asked : Bool) (makes : List Int → Bool) (size : List Int) :
    Except Error (Option (List Int)) :=
  if asked then some <$> empty makes size else .ok none

/-- The gradient of the bias has the sizes that are passed for it. -/
def emptyBias (asked : Bool) (makes : List Int → Bool) (biasSizes : Option (List Nat)) :
    Except Error (Option (List Int)) :=
  match asked, biasSizes with
  | true, none => .error .valueOfNullopt
  | true, some sizes => emptyIf true makes (sizes.map Int.ofNat)
  | false, _ => .ok none

def checkOutputPadding (params : ConvParams) : Except Error Unit :=
  torchCheck (params.transposed || params.outputPadding.all (· = 0))
    "output_padding is not supported for non-transposed convolutions"

/-- What `convolution_backward_shape_infer` does once the shapes are checked. -/
def gradients (gradOutput : List Int) (args : Args) (biasSizes : Option (List Nat))
    (outputMask : OutputMask) (params : ConvParams) : Except Error Gradients := do
  torchCheck (args.input.length = gradOutput.length)
    "Expected input and grad_output to have the same number of dimensions"
  checkOutputPadding params
  let input ← emptyIf outputMask.input memory.makes (args.input.map Int.ofNat)
  let weight ← emptyIf outputMask.weight memory.makesWeight (args.weight.map Int.ofNat)
  let bias ← emptyBias outputMask.bias memory.makesContiguous biasSizes
  pure ⟨input, weight, bias⟩

def convolutionBackwardShapeInfer (gradOutput : List Int) (args : Args)
    (biasSizes : Option (List Nat)) (outputMask : OutputMask) : Except Error Gradients := do
  torchCheck (2 < args.weight.length) "weight should have at least three dimensions"
  let params ← collectParams aten args (args.weight.length - 2)
  checkShapeBackward args.input args.weight params
  gradients memory gradOutput args biasSizes outputMask params

/-! ### What the functions accept -/

/-- A parameter has one value, or one for each dimension. -/
def Expands (listParam : List Int) (dim : Nat) : Prop :=
  listParam.length = 1 ∨ listParam.length = dim

def expand (listParam : List Int) (dim : Nat) : List Int :=
  match listParam with
  | [value] => List.replicate dim value
  | listParam => listParam

namespace Spatial

/-- How far the kernel can move in the padded input. -/
def room (d : Spatial) : Int := d.input + 2 * d.padding - (d.dilation * (d.kernel - 1) + 1)

/-- The size that a transposed convolution gives. -/
def transposedSize (d : Spatial) : Int :=
  (d.input - 1) * d.stride - 2 * d.padding + d.dilation * (d.kernel - 1) + 1 + d.outputPadding

/-- The size that a convolution gives, in 64 bits. -/
def outputSize (d : Spatial) : Int := int64 ((int64 d.room).tdiv d.stride + 1)

end Spatial

/-- What is documented of the functions: a parameter of one value is repeated, and the sizes are
those of the formulas, in the arithmetic of 64 bits. -/
structure ATen.Documented (aten : ATen) : Prop where
  expands (listParam : List Int) (name : String) (dim : Nat) : Expands listParam dim →
    aten.expandParamIfNeeded listParam name dim = .ok (expand listParam dim)
  refuses (listParam : List Int) (name : String) (dim : Nat) : ¬ Expands listParam dim →
    ∃ message, aten.expandParamIfNeeded listParam name dim = .error (.torchCheck message)
  convOutputSize (input weight : List Nat) (params : ConvParams) :
    (∀ d ∈ spatial input weight params, 0 < d.stride) →
      aten.convOutputSize input weight params =
        ((input.getD 0 0 : Nat) : Int) :: ((weight.getD 0 0 : Nat) : Int) ::
          (spatial input weight params).map Spatial.outputSize
  convInputSize (input weight : List Nat) (params : ConvParams) (groups : Int) :
    aten.convInputSize input weight params groups =
      ((input.getD 0 0 : Nat) : Int) :: int64 ((weight.getD 1 0 : Nat) * groups) ::
        (spatial input weight params).map fun d => int64 d.transposedSize

namespace Args
variable (args : Args)

def dim : Nat := args.weight.length - 2

/-- The parameters, where they can be expanded. -/
def params : ConvParams where
  stride := expand args.stride args.dim
  padding := expand args.padding args.dim
  dilation := expand args.dilation args.dim
  transposed := args.transposed
  outputPadding := expand args.outputPadding args.dim
  groups := int32 args.groups

def dims : List Spatial := spatial args.input args.weight args.params

/-- What is checked before the weight is divided by the groups. -/
structure ReachesGroups : Prop where
  weight : 2 < args.weight.length
  stride : Expands args.stride args.dim
  padding : Expands args.padding args.dim
  dilation : Expands args.dilation args.dim
  outputPadding : Expands args.outputPadding args.dim
  paddingNonneg : ∀ p ∈ args.params.padding, 0 ≤ p
  outputPaddingNonneg : ∀ p ∈ args.params.outputPadding, 0 ≤ p
  stridePositive : ∀ s ∈ args.params.stride, 0 < s
  rank : args.weight.length = args.input.length
  groups : args.params.groups ≤ (args.weight.getD 0 0 : Nat)

/-- The groups divide the weight, and the input, the bias and the kernel fit. -/
def Fits (bias : Option (List Nat)) : Prop :=
  ((args.weight.getD 0 0 : Nat) : Int).tmod args.params.groups = 0 ∧
    if args.transposed then
      args.input.getD 1 0 = args.weight.getD 0 0 ∧ ∀ sizes ∈ bias, sizes.map Int.ofNat =
        [int64 ((args.weight.getD 1 0 : Nat) * args.params.groups)]
    else
      (args.input.getD 1 0 : Int) = int64 ((args.weight.getD 1 0 : Nat) * args.params.groups) ∧
        (∀ sizes ∈ bias, sizes = [args.weight.getD 0 0]) ∧
        ∀ d ∈ args.dims, d.kernelShape ≤ d.inputShape

/-- The formula of the size of a spatial dimension of the output. -/
def formula (d : Spatial) : Int :=
  if args.transposed then d.transposedSize else d.room / d.stride + 1

/-- The formula with what 64 bits keep of its values. -/
def size (d : Spatial) : Int :=
  if args.transposed then int64 d.transposedSize else d.outputSize

/-- The sizes of the output, with what 64 bits keep of them. -/
def sizes : List Int :=
  (args.input.getD 0 0 : Nat) ::
    (if args.transposed then int64 ((args.weight.getD 1 0 : Nat) * args.groups)
      else (args.weight.getD 0 0 : Nat)) :: args.dims.map args.size

end Args

/-- The convolution passes the checks, and its output can be made. -/
structure Accepts (args : Args) : Prop where
  positive : 0 < args.groups
  reaches : args.ReachesGroups
  nonzero : args.params.groups ≠ 0
  fits : args.Fits args.bias
  nonneg : ∀ size ∈ args.sizes, 0 ≤ size
  makes : memory.makes args.sizes = true

/-! ### The course of the checks -/

/-- An expression raises an error of a check. -/
def Refuses {α : Type} (result : Except Error α) : Prop :=
  ∃ message, result = .error (.torchCheck message)

theorem torchCheck_bind {α : Type} (condition : Bool) (message : String)
    (next : Unit → Except Error α) : (torchCheck condition message >>= next) =
      if condition = true then next () else .error (.torchCheck message) := by
  cases condition <;> rfl

theorem ok_bind {α β : Type} (a : α) (next : α → Except Error β) :
    ((.ok a : Except Error α) >>= next) = next a := rfl

theorem Refuses.bind {α β : Type} {result : Except Error α} (refuses : Refuses result)
    (next : α → Except Error β) : Refuses (result >>= next) := by
  obtain ⟨message, rfl⟩ := refuses
  exact ⟨message, rfl⟩

variable {aten : ATen}

/-- The parameters are collected, or one of them cannot be expanded. -/
theorem collectParams_cases (documented : aten.Documented) (args : Args) :
    ((Expands args.stride args.dim ∧ Expands args.padding args.dim ∧
        Expands args.dilation args.dim ∧ Expands args.outputPadding args.dim) ∧
      collectParams aten args args.dim = .ok args.params) ∨
    ¬ (Expands args.stride args.dim ∧ Expands args.padding args.dim ∧
        Expands args.dilation args.dim ∧ Expands args.outputPadding args.dim) ∧
      Refuses (collectParams aten args args.dim) := by
  unfold collectParams
  by_cases stride : Expands args.stride args.dim
  · rw [documented.expands _ _ _ stride, ok_bind]
    by_cases padding : Expands args.padding args.dim
    · rw [documented.expands _ _ _ padding, ok_bind]
      by_cases dilation : Expands args.dilation args.dim
      · rw [documented.expands _ _ _ dilation, ok_bind]
        by_cases outputPadding : Expands args.outputPadding args.dim
        · rw [documented.expands _ _ _ outputPadding]
          exact .inl ⟨⟨stride, padding, dilation, outputPadding⟩, rfl⟩
        · exact .inr ⟨fun all => outputPadding all.2.2.2,
            Refuses.bind (documented.refuses _ _ _ outputPadding) _⟩
      · exact .inr ⟨fun all => dilation all.2.2.1,
          Refuses.bind (documented.refuses _ _ _ dilation) _⟩
    · exact .inr ⟨fun all => padding all.2.1, Refuses.bind (documented.refuses _ _ _ padding) _⟩
  · exact .inr ⟨fun all => stride all.1, Refuses.bind (documented.refuses _ _ _ stride) _⟩

/-- The checks before the division by the groups. -/
def Args.Front (args : Args) : Prop :=
  (∀ p ∈ args.params.padding, 0 ≤ p) ∧ (∀ p ∈ args.params.outputPadding, 0 ≤ p) ∧
    (∀ s ∈ args.params.stride, 0 < s) ∧ args.weight.length = args.input.length ∧
    args.params.groups ≤ (args.weight.getD 0 0 : Nat)

/-- The checks of channels, bias and kernel. -/
theorem checkFits_cases (args : Args) (bias : Option (List Nat)) :
    let remains := ((args.weight.getD 0 0 : Nat) : Int).tmod args.params.groups = 0
    let check := if args.params.transposed then
        checkTransposed args.input args.weight bias args.params
      else checkChannels args.input args.weight bias args.params
    remains → (args.Fits bias ∧ check = .ok ()) ∨ (¬ args.Fits bias ∧ Refuses check) := by
  intro remains check divides
  have fits : args.Fits bias ↔ if args.transposed then
      args.input.getD 1 0 = args.weight.getD 0 0 ∧ ∀ sizes ∈ bias, sizes.map Int.ofNat =
        [int64 ((args.weight.getD 1 0 : Nat) * args.params.groups)]
    else
      (args.input.getD 1 0 : Int) = int64 ((args.weight.getD 1 0 : Nat) * args.params.groups) ∧
        (∀ sizes ∈ bias, sizes = [args.weight.getD 0 0]) ∧
        ∀ d ∈ args.dims, d.kernelShape ≤ d.inputShape := and_iff_right divides
  have transposed : args.params.transposed = args.transposed := rfl
  have biasAll : ∀ holds : List Nat → Bool, bias.all holds = true ↔ ∀ sizes ∈ bias, holds sizes := by
    intro holds
    cases bias <;> simp
  rw [fits]
  cases kind : args.transposed with
  | true =>
    simp only [check, transposed, kind, if_true, checkTransposed, torchCheck_bind]
    split
    · rename_i channels
      simp only [torchCheck]
      split
      · rename_i sizes
        exact .inl ⟨⟨by simpa using channels, by simpa [biasAll] using sizes⟩, rfl⟩
      · rename_i sizes
        exact .inr ⟨fun both => sizes (by simpa [biasAll] using both.2), _, rfl⟩
    · rename_i channels
      exact .inr ⟨fun both => channels (by simpa using both.1), _, rfl⟩
  | false =>
    simp only [check, transposed, kind, Bool.false_eq_true, if_false, checkChannels,
      torchCheck_bind]
    split
    · rename_i channels
      split
      · rename_i sizes
        simp only [torchCheck]
        split
        · rename_i kernels
          refine .inl ⟨⟨by simpa using channels, by simpa [biasAll] using sizes, ?_⟩, rfl⟩
          intro d isDim
          simpa using List.all_eq_true.mp kernels d isDim
        · rename_i kernels
          refine .inr ⟨fun all => kernels (List.all_eq_true.mpr fun d isDim => ?_), _, rfl⟩
          simpa using all.2.2 d isDim
      · rename_i sizes
        exact .inr ⟨fun all => sizes (by simpa [biasAll] using all.2.1), _, rfl⟩
    · rename_i channels
      exact .inr ⟨fun all => channels (by simpa using all.1), _, rfl⟩

/-- The checks of the shapes: they pass, refuse, or reach a division by zero groups. -/
theorem checkShapeForward_cases (args : Args) (bias : Option (List Nat)) :
    (args.Front ∧ args.params.groups = 0 ∧
        checkShapeForward args.input args.weight bias args.params = .error .divisionByZero) ∨
      ((args.Front ∧ args.params.groups ≠ 0 ∧ args.Fits bias) ∧
        checkShapeForward args.input args.weight bias args.params = .ok ()) ∨
      ¬ (args.Front ∧ args.params.groups = 0) ∧
        ¬ (args.Front ∧ args.params.groups ≠ 0 ∧ args.Fits bias) ∧
          Refuses (checkShapeForward args.input args.weight bias args.params) := by
  have refused : ∀ {condition : Prop} {next : Except Error Unit}, (args.Front → condition) →
      ¬ condition → Refuses next → ¬ (args.Front ∧ args.params.groups = 0) ∧
        ¬ (args.Front ∧ args.params.groups ≠ 0 ∧ args.Fits bias) ∧ Refuses next :=
    fun asks fails refuses =>
      ⟨fun both => fails (asks both.1), fun all => fails (asks all.1), refuses⟩
  simp only [checkShapeForward, torchCheck_bind]
  split
  · rename_i padding
    split
    · rename_i outputPadding
      split
      · rename_i stride
        split
        · rename_i rank
          split
          · rename_i groups
            have front : args.Front := by
              refine ⟨fun p isPad => ?_, fun p isPad => ?_, fun s isStride => ?_,
                by simpa using rank, by simpa using groups⟩
              · simp only [ConvParams.isPaddingNeg, Bool.not_eq_true', List.any_eq_false,
                  decide_eq_true_eq] at padding
                exact Int.not_lt.mp (padding p isPad)
              · simp only [ConvParams.isOutputPaddingNeg, Bool.not_eq_true', List.any_eq_false,
                  decide_eq_true_eq] at outputPadding
                exact Int.not_lt.mp (outputPadding p isPad)
              · simp only [ConvParams.isStrideNonpos, Bool.not_eq_true', List.any_eq_false,
                  decide_eq_true_eq] at stride
                exact Int.not_le.mp (stride s isStride)
            by_cases zero : args.params.groups = 0
            · refine .inl ⟨front, zero, ?_⟩
              simp only [modulo, zero, if_true]
              rfl
            · simp only [modulo, zero, if_false, ok_bind]
              split
              · rename_i remains
                rcases checkFits_cases args bias (by simpa using remains) with
                  ⟨fits, ok⟩ | ⟨unfit, refuses⟩
                · exact .inr (.inl ⟨⟨front, zero, fits⟩, ok⟩)
                · exact .inr (.inr ⟨fun both => both.2, fun all => unfit all.2.2, refuses⟩)
              · rename_i remains
                refine .inr (.inr ⟨fun both => both.2, fun all => remains ?_, _, rfl⟩)
                simpa using all.2.2.1
          · rename_i groups
            exact .inr (.inr (refused (fun front => front.2.2.2.2) (by simpa using groups) ⟨_, rfl⟩))
        · rename_i rank
          exact .inr (.inr (refused (fun front => front.2.2.2.1) (by simpa using rank) ⟨_, rfl⟩))
      · rename_i stride
        refine .inr (.inr (refused (fun front => front.2.2.1) (fun positive => stride ?_) ⟨_, rfl⟩))
        simpa [ConvParams.isStrideNonpos] using positive
    · rename_i outputPadding
      refine .inr (.inr (refused (fun front => front.2.1) (fun nonneg => outputPadding ?_) ⟨_, rfl⟩))
      simpa [ConvParams.isOutputPaddingNeg] using nonneg
  · rename_i padding
    refine .inr (.inr (refused (fun front => front.1) (fun nonneg => padding ?_) ⟨_, rfl⟩))
    simpa [ConvParams.isPaddingNeg] using nonneg

/-! ### The output sizes -/

theorem expand_length {listParam : List Int} {dim : Nat} (expands : Expands listParam dim) :
    (expand listParam dim).length = dim := by
  unfold expand
  split
  · simp
  · rename_i other
    rcases expands with one | same
    · obtain ⟨value, single⟩ := List.length_eq_one_iff.mp one
      exact absurd single (other value)
    · exact same

theorem mem_expand {listParam : List Int} {dim : Nat} {value : Int}
    (isValue : value ∈ expand listParam dim) : value ∈ listParam := by
  unfold expand at isValue
  split at isValue
  · simpa using (List.mem_replicate.mp isValue).2
  · exact isValue

/-- The stride of a dimension is one of the strides that are checked. -/
theorem Args.ReachesGroups.stride_mem {args : Args} (reaches : args.ReachesGroups) {d : Spatial}
    (isDim : d ∈ args.dims) : d.stride ∈ args.params.stride := by
  simp only [Args.dims, spatial, List.mem_map, List.mem_range] at isDim
  obtain ⟨i, small, rfl⟩ := isDim
  have length : args.params.stride.length = args.dim := expand_length reaches.stride
  have bound : i < args.params.stride.length := by
    rw [length, Args.dim, reaches.rank]
    exact small
  simp only [List.getD_eq_getElem?_getD, List.getElem?_eq_getElem bound, Option.getD_some]
  exact List.getElem_mem bound

/-- The strides are positive, so that the sizes are those of the formulas. -/
theorem outSize_eq (documented : aten.Documented) {args : Args} (reaches : args.ReachesGroups) :
    outSize aten args args.params = args.sizes := by
  unfold outSize Args.sizes
  split
  · rename_i transposed
    have size : args.size = fun d => int64 d.transposedSize := by
      funext d
      exact if_pos transposed
    rw [documented.convInputSize, size]
    rfl
  · rename_i transposed
    have size : args.size = Spatial.outputSize := by
      funext d
      exact if_neg transposed
    rw [documented.convOutputSize _ _ _ fun d isDim =>
      reaches.stridePositive _ (reaches.stride_mem isDim), size]
    rfl

theorem empty_cases (makes : List Int → Bool) (size : List Int) :
    (((∀ s ∈ size, 0 ≤ s) ∧ makes size = true) ∧ empty makes size = .ok size) ∨
      ¬ ((∀ s ∈ size, 0 ≤ s) ∧ makes size = true) ∧ Refuses (empty makes size) := by
  unfold empty
  split
  · rename_i negative
    refine .inr ⟨fun both => ?_, _, rfl⟩
    simp only [List.any_eq_true, decide_eq_true_eq] at negative
    obtain ⟨s, isSize, below⟩ := negative
    exact absurd (both.1 s isSize) (Int.not_le.mpr below)
  · rename_i nonneg
    split
    · rename_i makes
      refine .inl ⟨⟨fun s isSize => ?_, makes⟩, rfl⟩
      simp only [List.any_eq_true, decide_eq_true_eq, not_exists, not_and, Int.not_lt] at nonneg
      exact nonneg s isSize
    · rename_i refuses
      exact .inr ⟨fun both => refuses both.2, _, rfl⟩

variable {memory}

/-- What both functions check once the weight has spatial dimensions. -/
theorem check_cases {α : Type} (documented : aten.Documented) {args : Args} (weight : 2 < args.weight.length)
    (bias : Option (List Nat)) (next : ConvParams → Except Error α) :
    let result := do
      let params ← collectParams aten args args.dim
      checkShapeForward args.input args.weight bias params
      next params
    ((args.ReachesGroups ∧ args.params.groups = 0) ∧ result = .error .divisionByZero) ∨
      ((args.ReachesGroups ∧ args.params.groups ≠ 0 ∧ args.Fits bias) ∧
        result = next args.params) ∨
      (¬ (args.ReachesGroups ∧ args.params.groups = 0) ∧
        ¬ (args.ReachesGroups ∧ args.params.groups ≠ 0 ∧ args.Fits bias) ∧ Refuses result) := by
  intro result
  have fronts : args.ReachesGroups → args.Front := fun reaches =>
    ⟨reaches.paddingNonneg, reaches.outputPaddingNonneg, reaches.stridePositive,
      reaches.rank, reaches.groups⟩
  rcases collectParams_cases documented args with ⟨⟨stride, padding, dilation, outputPadding⟩, ok⟩ |
    ⟨unexpanded, refuses⟩
  · have reaches : args.Front → args.ReachesGroups := fun front =>
      ⟨weight, stride, padding, dilation, outputPadding, front.1, front.2.1, front.2.2.1,
        front.2.2.2.1, front.2.2.2.2⟩
    simp only [result, ok, ok_bind]
    rcases checkShapeForward_cases args bias with ⟨front, zero, divides⟩ |
      ⟨⟨front, nonzero, fits⟩, passes⟩ | ⟨notZero, unfit, refuses⟩
    · rw [divides]
      exact .inl ⟨⟨reaches front, zero⟩, rfl⟩
    · rw [passes]
      exact .inr (.inl ⟨⟨reaches front, nonzero, fits⟩, rfl⟩)
    · exact .inr (.inr ⟨fun both => notZero ⟨fronts both.1, both.2⟩,
        fun all => unfit ⟨fronts all.1, all.2⟩, refuses.bind _⟩)
  · have expanded : args.ReachesGroups → _ := fun reaches =>
      unexpanded ⟨reaches.stride, reaches.padding, reaches.dilation, reaches.outputPadding⟩
    exact .inr (.inr ⟨fun both => expanded both.1, fun all => expanded all.1, refuses.bind _⟩)

/-- What the forward function does: it divides by zero groups, accepts or refuses. -/
theorem convolutionShapeInfer_cases (documented : aten.Documented) (args : Args) :
    ((0 < args.groups ∧ args.ReachesGroups ∧ args.params.groups = 0) ∧
        convolutionShapeInfer aten memory args = .error .divisionByZero) ∨
      (Accepts memory args ∧ convolutionShapeInfer aten memory args = .ok args.sizes) ∨
      (¬ (0 < args.groups ∧ args.ReachesGroups ∧ args.params.groups = 0) ∧
        ¬ Accepts memory args ∧ Refuses (convolutionShapeInfer aten memory args)) := by
  simp only [convolutionShapeInfer, torchCheck_bind, decide_eq_true_eq]
  split
  · rename_i weight
    split
    · rename_i positive
      rcases check_cases documented weight args.bias fun params =>
          empty memory.makes (outSize aten args params) with
        ⟨zero, divides⟩ | ⟨⟨reaches, nonzero, fits⟩, passes⟩ | ⟨notZero, unfit, refuses⟩
      · exact .inl ⟨⟨positive, zero⟩, divides⟩
      · rw [outSize_eq documented reaches] at passes
        have notZero : ¬ (0 < args.groups ∧ args.ReachesGroups ∧ args.params.groups = 0) :=
          fun all => nonzero all.2.2
        rcases empty_cases memory.makes args.sizes with ⟨⟨nonneg, makes⟩, ok⟩ | ⟨unmade, refuses⟩
        · exact .inr (.inl ⟨⟨positive, reaches, nonzero, fits, nonneg, makes⟩, passes.trans ok⟩)
        · obtain ⟨message, refuses⟩ := refuses
          exact .inr (.inr ⟨notZero, fun accepts => unmade ⟨accepts.nonneg, accepts.makes⟩,
            message, passes.trans refuses⟩)
      · exact .inr (.inr ⟨fun all => notZero all.2,
          fun accepts => unfit ⟨accepts.reaches, accepts.nonzero, accepts.fits⟩, refuses⟩)
    · rename_i nonpositive
      exact .inr (.inr ⟨fun all => nonpositive all.1, fun accepts => nonpositive accepts.positive,
        _, rfl⟩)
  · rename_i weight
    exact .inr (.inr ⟨fun all => weight all.2.1.weight, fun accepts => weight accepts.reaches.weight,
      _, rfl⟩)

/-! ### The exact sizes -/

theorem int64_eq_self {x : Int} (low : -2 ^ 63 ≤ x) (high : x < 2 ^ 63) : int64 x = x := by
  unfold int64
  rw [Int.bmod_eq_iff (by decide)]
  refine ⟨?_, ?_, ?_⟩ <;> omega

theorem int64_range (x : Int) : -2 ^ 63 ≤ int64 x ∧ int64 x < 2 ^ 63 := by
  have low := @Int.le_bmod x (2 ^ 64) (by decide)
  have high := @Int.bmod_lt x (2 ^ 64) (by decide)
  unfold int64
  omega

/-- What 64 bits drop is a multiple of `2 ^ 64`. -/
theorem int64_eq (x : Int) : ∃ k : Int, x = int64 x + 2 ^ 64 * k := by
  obtain ⟨k, dropped⟩ := @Int.dvd_self_sub_bmod x (2 ^ 64)
  refine ⟨k, ?_⟩
  unfold int64
  omega

/-- A size of a transposed convolution is right when the formula gives a positive 64-bit value. -/
theorem transposed_exact (T : Int) : (0 < int64 T ∧ int64 T = T) ↔ 1 ≤ T ∧ T < 2 ^ 63 := by
  constructor
  · intro both
    have range := int64_range T
    omega
  · intro both
    rw [int64_eq_self (by omega) both.2]
    omega

/-- A size is right when the room of the kernel and the formula are 64-bit values: a stride is
smaller than the values that are dropped, so that no other room gives the same number of steps. -/
theorem steps_exact {room stride : Int} (positive : 0 < stride) (bounded : stride < 2 ^ 63) :
    (0 < int64 ((int64 room).tdiv stride + 1) ∧
      int64 ((int64 room).tdiv stride + 1) = room / stride + 1) ↔
      0 ≤ room ∧ room < 2 ^ 63 ∧ room / stride + 1 < 2 ^ 63 := by
  constructor
  · intro both
    have range := int64_range ((int64 room).tdiv stride + 1)
    have steps : 0 ≤ room / stride := by omega
    have nonneg : 0 ≤ room := (Int.ediv_nonneg_iff_of_pos positive).mp steps
    refine ⟨nonneg, Int.not_le.mp fun large => ?_, by omega⟩
    have kept := int64_range room
    obtain ⟨j, dropped⟩ := int64_eq room
    obtain ⟨k, wrapped⟩ := int64_eq ((int64 room).tdiv stride + 1)
    rcases Int.le_total 0 (int64 room) with below | above
    · -- the room that is kept is smaller by more than one step
      rw [Int.tdiv_eq_ediv_of_nonneg below] at range wrapped both
      have fewer : int64 room / stride ≤ int64 room :=
        Int.ediv_le_self stride below
      have some := Int.ediv_nonneg below (Int.le_of_lt positive)
      have step : (int64 room + stride) / stride = int64 room / stride + 1 :=
        Int.add_ediv_of_dvd_right (Int.dvd_refl _) |>.trans (by rw [Int.ediv_self (by omega)])
      have more := Int.ediv_le_ediv positive (show int64 room + stride ≤ room by omega)
      omega
    · -- no step is kept
      have backward : (int64 room).tdiv stride = -(-int64 room / stride) := by
        rw [← Int.tdiv_eq_ediv_of_nonneg (by omega), Int.neg_tdiv, Int.neg_neg]
      rw [backward] at range wrapped both
      have fewer : -int64 room / stride ≤ -int64 room := Int.ediv_le_self stride (by omega)
      have some := Int.ediv_nonneg (show 0 ≤ -int64 room by omega) (Int.le_of_lt positive)
      have zero : room / stride = 0 := by omega
      have short : room < 1 * stride :=
        (Int.ediv_lt_iff_lt_mul positive).mp (by omega)
      omega
  · rintro ⟨nonneg, small, bounded⟩
    have steps := Int.ediv_nonneg nonneg (Int.le_of_lt positive)
    rw [int64_eq_self (by omega) small, Int.tdiv_eq_ediv_of_nonneg nonneg,
      int64_eq_self (by omega) bounded]
    omega

namespace Args

/-- The formula gives a positive size, and 64 bits hold its values. -/
def Exact (args : Args) (d : Spatial) : Prop :=
  if args.transposed then 1 ≤ d.transposedSize ∧ d.transposedSize < 2 ^ 63
  else 0 ≤ d.room ∧ d.room < 2 ^ 63 ∧ d.room / d.stride + 1 < 2 ^ 63

theorem exact_iff {args : Args} (reaches : args.ReachesGroups) {d : Spatial}
    (isDim : d ∈ args.dims) :
    (0 < args.size d ∧ args.size d = args.formula d) ↔ args.Exact d := by
  have isStride := reaches.stride_mem isDim
  have positive : 0 < d.stride := reaches.stridePositive _ isStride
  have bounded : d.stride < 2 ^ 63 := args.strideRange _ (mem_expand isStride)
  unfold size formula Exact
  split
  · exact transposed_exact d.transposedSize
  · exact steps_exact positive bounded

end Args

/-! ### The backward function -/

/-- The gradients that are asked for, with the sizes of what they are gradients of. -/
def Gradients.expected (args : Args) (biasSizes : Option (List Nat)) (outputMask : OutputMask) :
    Gradients where
  input := if outputMask.input then some (args.input.map Int.ofNat) else none
  weight := if outputMask.weight then some (args.weight.map Int.ofNat) else none
  bias := if outputMask.bias then biasSizes.map (·.map Int.ofNat) else none

/-- The tensors of the gradients can be made. -/
structure MakesGradients (memory : Memory) (args : Args) (biasSizes : Option (List Nat))
    (outputMask : OutputMask) : Prop where
  input : outputMask.input = true → memory.makes (args.input.map Int.ofNat) = true
  weight : outputMask.weight = true → memory.makesWeight (args.weight.map Int.ofNat) = true
  bias : outputMask.bias = true →
    ∀ sizes ∈ biasSizes, memory.makesContiguous (sizes.map Int.ofNat) = true

/-- Output padding is for transposed convolutions. -/
def Args.OutputPaddingFits (args : Args) : Prop :=
  args.transposed = true ∨ ∀ p ∈ args.params.outputPadding, p = 0

theorem checkOutputPadding_cases (args : Args) :
    (args.OutputPaddingFits ∧ checkOutputPadding args.params = .ok ()) ∨
      ¬ args.OutputPaddingFits ∧ Refuses (checkOutputPadding args.params) := by
  have asks : (args.params.transposed || args.params.outputPadding.all (· = 0)) = true ↔
      args.OutputPaddingFits := by
    simp only [Bool.or_eq_true, List.all_eq_true, decide_eq_true_eq]
    rfl
  unfold checkOutputPadding torchCheck
  split
  · rename_i fits
    exact .inl ⟨asks.mp fits, rfl⟩
  · rename_i unfit
    exact .inr ⟨fun fits => unfit (asks.mpr fits), _, rfl⟩

theorem emptyIf_cases (asked : Bool) (makes : List Int → Bool) (sizes : List Nat) :
    ((asked = true → makes (sizes.map Int.ofNat) = true) ∧
        emptyIf asked makes (sizes.map Int.ofNat) =
          .ok (if asked then some (sizes.map Int.ofNat) else none)) ∨
      ¬ (asked = true → makes (sizes.map Int.ofNat) = true) ∧
        Refuses (emptyIf asked makes (sizes.map Int.ofNat)) := by
  have nonneg : ∀ s ∈ sizes.map Int.ofNat, 0 ≤ s := by
    intro s isSize
    obtain ⟨n, -, rfl⟩ := List.mem_map.mp isSize
    exact Int.natCast_nonneg n
  unfold emptyIf
  cases asked with
  | false => exact .inl ⟨fun never => by simp at never, rfl⟩
  | true =>
    simp only [if_true, forall_const]
    rcases empty_cases makes (sizes.map Int.ofNat) with ⟨both, ok⟩ | ⟨unmade, message, refuses⟩
    · refine .inl ⟨both.2, ?_⟩
      rw [ok]
      rfl
    · refine .inr ⟨fun made => unmade ⟨nonneg, made⟩, message, ?_⟩
      rw [refuses]
      rfl

/-- The gradient of a bias is asked for with the sizes of the bias. -/
def BiasGiven (biasSizes : Option (List Nat)) (outputMask : OutputMask) : Prop :=
  outputMask.bias = true → biasSizes.isSome = true

theorem emptyBias_cases {biasSizes : Option (List Nat)} {outputMask : OutputMask}
    (given : BiasGiven biasSizes outputMask) (makes : List Int → Bool) :
    let made := outputMask.bias = true → ∀ sizes ∈ biasSizes, makes (sizes.map Int.ofNat) = true
    (made ∧ emptyBias outputMask.bias makes biasSizes =
        .ok (if outputMask.bias then biasSizes.map (·.map Int.ofNat) else none)) ∨
      ¬ made ∧ Refuses (emptyBias outputMask.bias makes biasSizes) := by
  cases asked : outputMask.bias with
  | false => exact .inl ⟨fun never => by simp at never, rfl⟩
  | true =>
    obtain ⟨sizes, rfl⟩ := Option.isSome_iff_exists.mp (given asked)
    simpa [emptyBias] using emptyIf_cases true makes sizes

theorem gradients_cases (gradOutput : List Int) (args : Args) {biasSizes : Option (List Nat)}
    {outputMask : OutputMask} (given : BiasGiven biasSizes outputMask) :
    let returns := args.input.length = gradOutput.length ∧ args.OutputPaddingFits ∧
      MakesGradients memory args biasSizes outputMask
    let result := gradients memory gradOutput args biasSizes outputMask args.params
    (returns ∧ result = .ok (.expected args biasSizes outputMask)) ∨ ¬ returns ∧ Refuses result := by
  intro returns result
  simp only [result, gradients, torchCheck_bind, decide_eq_true_eq]
  split
  · rename_i sameRank
    rcases checkOutputPadding_cases args with ⟨fits, ok⟩ | ⟨unfit, refuses⟩
    · rcases emptyIf_cases outputMask.input memory.makes args.input with
        ⟨input, made⟩ | ⟨input, refuses⟩
      · rcases emptyIf_cases outputMask.weight memory.makesWeight args.weight with
          ⟨weight, madeWeight⟩ | ⟨weight, refuses⟩
        · rcases emptyBias_cases given memory.makesContiguous with
            ⟨bias, madeBias⟩ | ⟨bias, refuses⟩
          · refine .inl ⟨⟨sameRank, fits, input, weight, bias⟩, ?_⟩
            rw [ok, made, madeWeight, madeBias]
            rfl
          · refine .inr ⟨fun all => bias all.2.2.bias, ?_⟩
            rw [ok, made, madeWeight]
            exact refuses.bind _
        · refine .inr ⟨fun all => weight all.2.2.weight, ?_⟩
          rw [ok, made]
          exact refuses.bind _
      · refine .inr ⟨fun all => input all.2.2.input, ?_⟩
        rw [ok]
        exact refuses.bind _
    · exact .inr ⟨fun all => unfit all.2.1, refuses.bind _⟩
  · rename_i otherRank
    exact .inr ⟨fun all => otherRank all.1, _, rfl⟩

/-- What the backward function does: it divides by zero groups, returns the gradients or refuses. -/
theorem convolutionBackwardShapeInfer_cases (documented : aten.Documented)
    (gradOutput : List Int) (args : Args)
    {biasSizes : Option (List Nat)} {outputMask : OutputMask}
    (given : BiasGiven biasSizes outputMask) :
    let returns := args.input.length = gradOutput.length ∧ args.ReachesGroups ∧
      args.params.groups ≠ 0 ∧ args.Fits none ∧ args.OutputPaddingFits ∧
        MakesGradients memory args biasSizes outputMask
    let result := convolutionBackwardShapeInfer aten memory gradOutput args biasSizes outputMask
    ((args.ReachesGroups ∧ args.params.groups = 0) ∧ result = .error .divisionByZero) ∨
      (returns ∧ result = .ok (.expected args biasSizes outputMask)) ∨
      (¬ (args.ReachesGroups ∧ args.params.groups = 0) ∧ ¬ returns ∧ Refuses result) := by
  intro returns result
  simp only [result, convolutionBackwardShapeInfer, checkShapeBackward, torchCheck_bind,
    decide_eq_true_eq]
  split
  · rename_i weight
    rcases check_cases documented weight none (gradients memory gradOutput args biasSizes outputMask) with
      ⟨zero, divides⟩ | ⟨⟨reaches, nonzero, fits⟩, passes⟩ | ⟨notZero, unfit, refuses⟩
    · exact .inl ⟨zero, divides⟩
    · have notZero : ¬ (args.ReachesGroups ∧ args.params.groups = 0) := fun both => nonzero both.2
      rcases gradients_cases gradOutput args given with ⟨makes, ok⟩ | ⟨unmade, message, refuses⟩
      · exact .inr (.inl ⟨⟨makes.1, reaches, nonzero, fits, makes.2⟩, passes.trans ok⟩)
      · exact .inr (.inr ⟨notZero, fun all => unmade ⟨all.1, all.2.2.2.2⟩, message,
          passes.trans refuses⟩)
    · exact .inr (.inr ⟨notZero, fun all => unfit ⟨all.2.1, all.2.2.1, all.2.2.2.1⟩, refuses⟩)
  · rename_i weight
    exact .inr (.inr ⟨fun both => weight both.1.weight, fun all => weight all.2.1.weight, _, rfl⟩)

/-! ### Forward and backward -/

/-- An expression returns or raises an error of a check. -/
def Ends {α : Type} (result : Except Error α) : Prop := (∃ value, result = .ok value) ∨ Refuses result

/-- Both functions return or raise an error of a check. Where the forward function returns, the
spatial sizes are positive and those of the formula, and the backward function returns the
gradients that are asked for. -/
structure Agrees (aten : ATen) (memory : Memory) (args : Args) : Prop where
  forwardEnds : Ends (convolutionShapeInfer aten memory args)
  backwardEnds : ∀ gradOutput biasSizes outputMask, BiasGiven biasSizes outputMask →
    Ends (convolutionBackwardShapeInfer aten memory gradOutput args biasSizes outputMask)
  exact : ∀ output, convolutionShapeInfer aten memory args = .ok output →
    output.drop 2 = args.dims.map args.formula ∧ ∀ size ∈ output.drop 2, 0 < size
  backward : ∀ output, convolutionShapeInfer aten memory args = .ok output →
    ∀ outputMask, BiasGiven args.bias outputMask →
      convolutionBackwardShapeInfer aten memory output args args.bias outputMask =
        .ok (.expected args args.bias outputMask)

/-- An accepted convolution has sizes that 64 bits hold and gradients that can be made. -/
structure Sized (memory : Memory) (args : Args) : Prop where
  exact : ∀ d ∈ args.dims, args.Exact d
  outputPadding : args.OutputPaddingFits
  input : memory.makes (args.input.map Int.ofNat) = true
  weight : memory.makesWeight (args.weight.map Int.ofNat) = true
  bias : ∀ sizes ∈ args.bias, memory.makesContiguous (sizes.map Int.ofNat) = true

theorem not_ends_divisionByZero {α : Type} : ¬ Ends (.error .divisionByZero : Except Error α) := by
  rintro (⟨value, ok⟩ | ⟨message, refuses⟩)
  · cases ok
  · cases refuses

/-- Nothing is asked of a bias that is not passed. -/
theorem Args.Fits.without_bias {args : Args} {bias : Option (List Nat)} (fits : args.Fits bias) :
    args.Fits none := by
  refine ⟨fits.1, ?_⟩
  have rest := fits.2
  split at rest
  · rename_i transposed
    rw [if_pos transposed]
    exact ⟨rest.1, fun sizes never => by simp at never⟩
  · rename_i transposed
    rw [if_neg transposed]
    exact ⟨rest.1, fun sizes never => by simp at never, rest.2.2⟩

theorem Args.sizes_drop (args : Args) : args.sizes.drop 2 = args.dims.map args.size := rfl

theorem Args.sizes_length {args : Args} (reaches : args.ReachesGroups) :
    args.input.length = args.sizes.length := by
  have rank := reaches.rank
  have weight := reaches.weight
  simp only [Args.sizes, Args.dims, spatial, List.length_cons, List.length_map, List.length_range]
  omega

/-- The forward function returns the sizes of what it accepts, and nothing else. -/
theorem convolutionShapeInfer_eq_ok (documented : aten.Documented) {args : Args} {output : List Int} :
    convolutionShapeInfer aten memory args = .ok output ↔ Accepts memory args ∧ output = args.sizes := by
  rcases convolutionShapeInfer_cases documented args with ⟨zero, divides⟩ |
    ⟨accepts, ok⟩ | ⟨notZero, unaccepted, message, refuses⟩
  · rw [divides]
    exact ⟨fun never => by simp at never, fun both => absurd zero.2.2 both.1.nonzero⟩
  · rw [ok]
    exact ⟨fun same => ⟨accepts, (Except.ok.inj same).symm⟩, fun both => by rw [both.2]⟩
  · rw [refuses]
    exact ⟨fun never => by simp at never, fun both => absurd both.1 unaccepted⟩

/-- All the gradients that can be asked for. -/
def OutputMask.all (args : Args) : OutputMask := ⟨true, true, args.bias.isSome⟩

theorem Agrees.notZero (documented : aten.Documented) {args : Args}
    (agrees : Agrees aten memory args) :
    ¬ (args.ReachesGroups ∧ args.params.groups = 0) := by
  intro zero
  have given : BiasGiven none ⟨false, false, false⟩ := fun never => by simp at never
  have ends := agrees.backwardEnds [] none ⟨false, false, false⟩ given
  rcases @convolutionBackwardShapeInfer_cases memory aten documented [] args _ _ given with
    ⟨_, divides⟩ | ⟨returns, _⟩ | ⟨notZero, _⟩
  · rw [divides] at ends
    exact not_ends_divisionByZero ends
  · exact returns.2.2.1 zero.2
  · exact notZero zero

theorem Agrees.sized (documented : aten.Documented) {args : Args}
    (agrees : Agrees aten memory args) (accepts : Accepts memory args) : Sized memory args := by
  have forward := (convolutionShapeInfer_eq_ok documented).mpr ⟨accepts, rfl⟩
  have given : BiasGiven args.bias (.all args) := fun isGiven => isGiven
  have backward := agrees.backward _ forward (.all args) given
  obtain ⟨formulas, positive⟩ := agrees.exact _ forward
  rw [Args.sizes_drop, List.map_inj_left] at formulas
  rw [Args.sizes_drop] at positive
  have exact : ∀ d ∈ args.dims, args.Exact d := fun d isDim =>
    (Args.exact_iff accepts.reaches isDim).mp
      ⟨positive _ (List.mem_map_of_mem isDim), formulas d isDim⟩
  rcases @convolutionBackwardShapeInfer_cases memory aten documented args.sizes args _ _ given with
    ⟨zero, _⟩ | ⟨returns, _⟩ | ⟨_, _, message, refuses⟩
  · exact absurd zero.2 accepts.nonzero
  · obtain ⟨_, _, _, _, outputPadding, makes⟩ := returns
    refine ⟨exact, outputPadding, makes.input rfl, makes.weight rfl, fun sizes isBias => ?_⟩
    exact makes.bias (by simp [OutputMask.all, Option.mem_def.mp isBias]) sizes isBias
  · rw [refuses] at backward
    exact absurd backward (by simp)

/-- The functions agree exactly when a number of groups that is checked is not a multiple of
`2 ^ 32`, and every convolution that is accepted is sized. -/
theorem agrees_iff (documented : aten.Documented) (args : Args) : Agrees aten memory args ↔
    ¬ (args.ReachesGroups ∧ args.params.groups = 0) ∧
      (Accepts memory args → Sized memory args) := by
  constructor
  · intro agrees
    exact ⟨agrees.notZero documented, agrees.sized documented⟩
  · rintro ⟨notZero, sized⟩
    refine ⟨?_, fun gradOutput biasSizes outputMask given => ?_, fun output forward => ?_,
      fun output forward outputMask given => ?_⟩
    · rcases convolutionShapeInfer_cases documented args with ⟨zero, _⟩ | ⟨_, ok⟩ |
        ⟨_, _, refuses⟩
      · exact absurd zero.2 notZero
      · exact .inl ⟨_, ok⟩
      · exact .inr refuses
    · rcases @convolutionBackwardShapeInfer_cases memory aten documented gradOutput args _ _ given with
        ⟨zero, _⟩ | ⟨_, ok⟩ | ⟨_, _, refuses⟩
      · exact absurd zero notZero
      · exact .inl ⟨_, ok⟩
      · exact .inr refuses
    · obtain ⟨accepts, rfl⟩ := (convolutionShapeInfer_eq_ok documented).mp forward
      have exact : ∀ d ∈ args.dims, 0 < args.size d ∧ args.size d = args.formula d :=
        fun d isDim => (Args.exact_iff accepts.reaches isDim).mpr ((sized accepts).exact d isDim)
      rw [Args.sizes_drop]
      refine ⟨List.map_congr_left fun d isDim => (exact d isDim).2, fun size isSize => ?_⟩
      obtain ⟨d, isDim, rfl⟩ := List.mem_map.mp isSize
      exact (exact d isDim).1
    · obtain ⟨accepts, rfl⟩ := (convolutionShapeInfer_eq_ok documented).mp forward
      have sized := sized accepts
      rcases @convolutionBackwardShapeInfer_cases memory aten documented args.sizes args _ _ given with
        ⟨zero, _⟩ | ⟨_, ok⟩ | ⟨_, unreturned, _⟩
      · exact absurd zero notZero
      · exact ok
      · refine absurd ⟨Args.sizes_length accepts.reaches, accepts.reaches, accepts.nonzero,
          accepts.fits.without_bias, sized.outputPadding, ?_⟩ unreturned
        exact ⟨fun _ => sized.input, fun _ => sized.weight, fun _ => sized.bias⟩

/-- The functions as they are documented. -/
def ATen.formulas : ATen where
  expandParamIfNeeded listParam name dim :=
    if listParam.length = 1 ∨ listParam.length = dim then .ok (expand listParam dim)
    else .error (.torchCheck ("expected " ++ name))
  convOutputSize input weight params := ((input.getD 0 0 : Nat) : Int) ::
    ((weight.getD 0 0 : Nat) : Int) :: (spatial input weight params).map Spatial.outputSize
  convInputSize input weight params groups := ((input.getD 0 0 : Nat) : Int) ::
    int64 ((weight.getD 1 0 : Nat) * groups) ::
      (spatial input weight params).map fun d => int64 d.transposedSize

theorem ATen.formulas_documented : ATen.formulas.Documented where
  expands _ _ _ fits := if_pos fits
  refuses _ _ _ unfit := ⟨_, if_neg unfit⟩
  convOutputSize _ _ _ _ := rfl
  convInputSize _ _ _ _ := rfl

def anyMemory : Memory := ⟨fun _ => true, fun _ => true, fun _ => true⟩

/-- Two images of two channels in two groups, with a bias; the stride has one value. -/
def strided : Args where
  input := [2, 2, 7, 9]
  weight := [4, 1, 3, 3]
  bias := some [4]
  stride := [2]
  padding := [1, 0]
  dilation := [1, 2]
  transposed := false
  outputPadding := [0]
  groups := 2
  strideRange := by decide

theorem strided_agrees : Agrees .formulas anyMemory strided ∧
    convolutionShapeInfer .formulas anyMemory strided = .ok [2, 4, 4, 3] := by
  refine ⟨(agrees_iff ATen.formulas_documented strided).mpr ⟨fun zero => ?_, fun _ => ?_⟩, ?_⟩
  · exact absurd zero.2 (by decide)
  · have dims : strided.dims = [⟨7, 3, 2, 1, 1, 0⟩, ⟨9, 3, 2, 0, 2, 0⟩] := rfl
    refine ⟨fun d isDim => ?_, .inr (by decide), rfl, rfl, fun _ _ => rfl⟩
    rw [dims] at isDim
    obtain rfl | rfl := by simpa only [List.mem_cons, List.not_mem_nil, or_false] using isDim
    all_goals
      change 0 ≤ Spatial.room _ ∧ Spatial.room _ < 2 ^ 63 ∧ _ / _ + 1 < _
      decide
  · decide +kernel

/-- A weight of one channel, with a number of groups that an `int` keeps as zero. -/
def manyGroups : Args where
  input := [1, 1, 1]
  weight := [1, 1, 1]
  bias := none
  stride := [1]
  padding := [0]
  dilation := [1]
  transposed := false
  outputPadding := [0]
  groups := 2 ^ 32
  strideRange := by decide

theorem manyGroups_divides : ¬ ∀ (aten : ATen) (memory : Memory) (args : Args),
    aten.Documented → Agrees aten memory args := by
  intro agrees
  refine (agrees .formulas anyMemory manyGroups ATen.formulas_documented).notZero
    ATen.formulas_documented ⟨⟨?_, ?_, ?_, ?_, ?_, ?_, ?_, ?_, ?_, ?_⟩, ?_⟩ <;>
    first | decide | exact .inl rfl

end TorchGcu.Convolution

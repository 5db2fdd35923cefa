import TorchGcu.ShapeInference.MatmulShapes

/-! The sizes of `linear`, whose bias is left to `addmm` or added to the product. -/
namespace TorchGcu.LinearOverride

variable {f : ShapeFunctions} {canCast : ScalarType → ScalarType → Bool}
  {promote : ScalarType → ScalarType → ScalarType} {tensor1 tensor2 : Tensor}

/-! ### Agreement with the reference -/

/-- `matmul` returns the sizes of the reference, where it has some. -/
def MatmulAgrees (f : ShapeFunctions) (tensor1 tensor2 : Tensor) : Prop :=
  (matmulShapeInfer f tensor1 tensor2).map Meta.sizes =
    (matmulReference tensor1.shape tensor2.shape).map Meta.sizes

/-- Nothing checks a product of two vectors. -/
def MatmulFits (tensor1 tensor2 : Tensor) : Prop :=
  tensor1.dim = 1 → tensor2.dim = 1 → tensor1.shape = tensor2.shape

theorem matmul_agrees_iff (documented : Documented f canCast promote) (rank1 : 1 ≤ tensor1.dim)
    (rank2 : 1 ≤ tensor2.dim) :
    MatmulAgrees f tensor1 tensor2 ↔ MatmulFits tensor1 tensor2 := by
  by_cases product : tensor1.dim = 1 ∧ tensor2.dim = 1
  · obtain ⟨k, left⟩ := sizes_of_dim_one product.1
    obtain ⟨k', right⟩ := sizes_of_dim_one product.2
    rw [MatmulAgrees, matmulShapeInfer, matmulImplShapeInfer, if_neg (by omega), if_pos product]
    have fits : MatmulFits tensor1 tensor2 ↔ k = k' ∧ tensor1.dtype = tensor2.dtype := by
      simp [MatmulFits, product.1, product.2, Tensor.shape, left, right]
    rw [fits]
    simp only [dotShapeInfer, matmulReference, Tensor.shape, left, right, innerSize,
      List.getLastD_cons, List.getLastD_nil, List.length_singleton, if_true, List.headD_cons,
      batch_one, inferSize_nil, rowSizes, columnSizes, Option.map_some, List.append_nil]
    split
    · next agree => simp [agree]
    · next apart => simp [apart]
  · have same := matmulImpl_eq documented (by omega) (by omega) product
    have fits : MatmulFits tensor1 tensor2 := fun one one' => absurd ⟨one, one'⟩ product
    exact ⟨fun _ => fits, fun _ => congrArg (Option.map Meta.sizes) same⟩

/-- `input @ weight.T`, to which a bias is expanded. -/
def linearReference (input weight : Tensor) (bias : Option Tensor) : Option Meta := do
  let output ← matmulReference input.shape weight.mT.shape
  if ∀ b ∈ bias, Expands b.sizes output.sizes then some output else none

def LinearAgrees (f : ShapeFunctions) (parseLinearFlatten3d : Bool) (input weight : Tensor)
    (bias : Option Tensor) : Prop :=
  (linearShapeInfer f parseLinearFlatten3d input weight bias).map Meta.sizes =
    (linearReference input weight bias).map Meta.sizes

/-- The bias goes to `addmm`. -/
def fuses (parseLinearFlatten3d : Bool) (input weight bias : Tensor) : Bool :=
  input.dim == 2 || flattens parseLinearFlatten3d input weight bias

/-- What the routes ask of the type of a bias that is expanded, and what the route that adds it out of
place does not ask of its sizes. -/
def BiasFits (canCast : ScalarType → ScalarType → Bool) (parseLinearFlatten3d : Bool)
    (input weight bias : Tensor) (output : Meta) : Prop :=
  if fuses parseLinearFlatten3d input weight bias then
    Expands bias.sizes output.sizes → bias.dtype = output.dtype
  else if bias.isTensorSubclassLike || bias.hasFwGrad then
    (inferSize bias.sizes output.sizes).isSome → Expands bias.sizes output.sizes
  else Expands bias.sizes output.sizes → canCast output.dtype bias.dtype = true

def LinearFits (canCast : ScalarType → ScalarType → Bool) (parseLinearFlatten3d : Bool)
    (input weight : Tensor) (bias : Option Tensor) : Prop :=
  ∀ b ∈ bias, ∀ output ∈ matmulReference input.shape weight.mT.shape,
    BiasFits canCast parseLinearFlatten3d input weight b output

theorem broadcast_comm (a b : List Nat) : broadcast a b = broadcast b a := by
  induction a generalizing b with
  | nil => cases b <;> rfl
  | cons size sizes ih =>
    cases b with
    | nil => rfl
    | cons size' sizes' =>
      simp only [broadcast, ih sizes']
      by_cases same : size = size'
      · simp [same]
      · by_cases one : size = 1 <;> by_cases one' : size' = 1 <;>
          simp [same, one, one', Ne.symm same] <;> simp_all

theorem inferSize_comm (a b : List Nat) : inferSize a b = inferSize b a := by
  rw [inferSize, inferSize, broadcast_comm]

/-- A bias of rank at most one is expanded to the last size. -/
theorem expands_bias {sizes : List Nat} (rank : sizes.length ≤ 1) (front front' : List Nat)
    (p : Nat) : Expands sizes (front ++ [p]) ↔ Expands sizes (front' ++ [p]) := by
  have last (front : List Nat) (c : Nat) : Expands [c] (front ++ [p]) ↔ c = p ∨ c = 1 := by
    unfold Expands inferSize
    by_cases same : c = p
    · simp [broadcast, same]
    · by_cases one : c = 1 <;> by_cases one' : p = 1 <;> simp [broadcast, same, one, one']
  rcases sizes with _ | ⟨c, _ | ⟨c', rest⟩⟩
  · simp [Expands]
  · rw [last, last]
  · simp at rank

theorem matmulReference_weight (rows : List Nat) (k k' p : Nat) (d d' : ScalarType) :
    matmulReference ⟨rows ++ [k], d⟩ ⟨[k', p], d'⟩ =
      if k = k' ∧ d = d' then some ⟨rows ++ [p], d⟩ else none := by
  rcases List.eq_nil_or_concat rows with rfl | ⟨front, n, rfl⟩
  · exact @matmulReference_row [] k k' p d d'
  · have reference := @matmulReference_matrices front [] n k k' p d d'
    rw [List.nil_append] at reference
    rw [List.concat_eq_append, List.append_assoc, List.append_assoc]
    exact reference.trans (by simp)
variable {input weight bias : Tensor} {bias? : Option Tensor} {parseLinearFlatten3d : Bool}

/-- The input, as rows of the size that is summed over, and the weight. -/
theorem linear_sizes (rank : 1 ≤ input.dim) (matrix : weight.dim = 2) :
    ∃ rows k k' p, input.sizes = rows ++ [k] ∧ weight.mT.sizes = [k', p] := by
  obtain ⟨k', p, right⟩ := sizes_of_dim_two ((dim_mT weight).trans matrix)
  rcases List.eq_nil_or_concat input.sizes with none | ⟨rows, k, left⟩
  · exact absurd none (sizes_ne_nil (by omega))
  · exact ⟨rows, k, k', p, by rw [left, List.concat_eq_append], right⟩

/-- What a sum with a product returns, when it returns the product where the bias is expanded and a
condition holds. -/
theorem agrees_iff_of_sum {sum : Option Meta} {output : Meta} {expands fits : Prop}
    [Decidable expands] [Decidable fits] (sums : sum = if expands ∧ fits then some output else none) :
    sum.map Meta.sizes = (if expands then some output else none).map Meta.sizes ↔
      (expands → fits) := by
  subst sums
  by_cases yes : expands <;> by_cases holds : fits <;> simp [yes, holds]

/-- A sum that is not in place returns what both sizes are broadcast to. -/
theorem agrees_iff_of_broadcast (sizes target : List Nat) (d d' : ScalarType) :
    ((inferSize sizes target).map (⟨·, d⟩ : List Nat → Meta)).map Meta.sizes =
        (if Expands sizes target then some ⟨target, d'⟩ else none).map Meta.sizes ↔
      ((inferSize sizes target).isSome → Expands sizes target) := by
  cases common : inferSize sizes target with
  | none => simp [Expands, common]
  | some c =>
    by_cases same : c = target <;> simp [Expands, common, same]

theorem addmm_eq (documented : Documented f canCast promote) {rows k k' p : Nat}
    {d d' : ScalarType} (self : Meta) :
    f.addmm self ⟨[rows, k], d⟩ ⟨[k', p], d'⟩ =
      if k = k' ∧ d = d' then
        if Expands self.sizes [rows, p] ∧ self.dtype = d then some ⟨[rows, p], d⟩ else none
      else none := by
  rw [documented.addmm, addmmDocumented, mmDocumented]
  simp only [Option.bind_eq_bind]
  split
  · rfl
  · rfl

/-- The fused route is the product, and the bias is expanded to it and of its type. -/
theorem flatten_eq (documented : Documented f canCast promote) {rows : List Nat} {k k' p : Nat}
    (left : input.sizes = rows ++ [k]) (right : weight.mT.sizes = [k', p])
    (rank : bias.dim ≤ 1) :
    flattenNdLinearShapeInfer f input weight.mT.shape bias.shape =
      if k = k' ∧ input.dtype = weight.dtype then
        if Expands bias.sizes (rows ++ [p]) ∧ bias.dtype = input.dtype then
          some ⟨rows ++ [p], input.dtype⟩ else none
      else none := by
  have expands := expands_bias ((length_sizes bias).le.trans rank) [rows.prod] rows p
  rw [List.singleton_append] at expands
  simp only [flattenNdLinearShapeInfer, Tensor.shape, left, right, Option.bind_eq_bind,
    List.dropLast_concat, List.getLastD_concat]
  rw [view_of_prod (by simp), Option.bind_some, addmm_eq documented]
  simp only [expands, show weight.mT.dtype = weight.dtype from rfl]
  by_cases agree : k = k' ∧ input.dtype = weight.dtype
  · rw [if_pos agree, if_pos agree]
    split
    · rw [Option.bind_some, view_of_prod (by simp)]
      rfl
    · rfl
  · rw [if_neg agree, if_neg agree]
    rfl

/-- The routes that leave the bias to `addmm`. -/
theorem fused_eq (documented : Documented f canCast promote) {rows : List Nat} {k k' p : Nat}
    (left : input.sizes = rows ++ [k]) (right : weight.mT.sizes = [k', p]) (rank : bias.dim ≤ 1)
    (fused : fuses parseLinearFlatten3d input weight bias = true) :
    linearShapeInfer f parseLinearFlatten3d input weight (some bias) =
      if k = k' ∧ input.dtype = weight.dtype then
        if Expands bias.sizes (rows ++ [p]) ∧ bias.dtype = input.dtype then
          some ⟨rows ++ [p], input.dtype⟩ else none
      else none := by
  by_cases matrix : input.dim = 2
  · have one : rows.length = 1 := by
      rw [← length_sizes, left, List.length_append, List.length_singleton] at matrix
      omega
    obtain ⟨n, rfl⟩ := List.length_eq_one_iff.mp one
    rw [List.singleton_append] at left ⊢
    simp only [linearShapeInfer, if_pos matrix, Tensor.shape, left, right]
    exact addmm_eq documented _
  · have flat : flattens parseLinearFlatten3d input weight bias = true := by
      simpa [fuses, matrix] using fused
    simp only [linearShapeInfer, if_neg matrix, if_pos flat]
    exact flatten_eq documented left right rank

/-- The routes that add the bias to the product. -/
theorem added_eq (documented : Documented f canCast promote) (inputRank : 1 ≤ input.dim)
    (weightRank : weight.dim = 2)
    (apart : fuses parseLinearFlatten3d input weight bias = false) :
    linearShapeInfer f parseLinearFlatten3d input weight (some bias) =
      (matmulReference input.shape weight.mT.shape).bind (addBias f · bias) := by
  have transposed : weight.mT.dim = 2 := (dim_mT weight).trans weightRank
  obtain ⟨matrix, flat⟩ : ¬ input.dim = 2 ∧ ¬ flattens parseLinearFlatten3d input weight bias := by
    simpa [fuses] using apart
  simp only [linearShapeInfer, if_neg matrix, if_neg flat, matmulShapeInfer, Option.bind_eq_bind]
  rw [matmulImpl_eq documented (by omega) (by omega) (by omega)]

theorem linear_agrees_iff (documented : Documented f canCast promote) (inputRank : 1 ≤ input.dim)
    (weightRank : weight.dim = 2) (biasRank : ∀ b ∈ bias?, b.dim ≤ 1) :
    LinearAgrees f parseLinearFlatten3d input weight bias? ↔
      LinearFits canCast parseLinearFlatten3d input weight bias? := by
  obtain ⟨rows, k, k', p, left, right⟩ := linear_sizes inputRank weightRank
  have reference := matmulReference_weight rows k k' p input.dtype weight.dtype
  have shapes : matmulReference input.shape weight.mT.shape =
      if k = k' ∧ input.dtype = weight.dtype then some ⟨rows ++ [p], input.dtype⟩ else none := by
    rw [Tensor.shape, Tensor.shape, left, right]
    exact reference
  have transposed : weight.mT.dim = 2 := (dim_mT weight).trans weightRank
  cases bias? with
  | none =>
    have fits : LinearFits canCast parseLinearFlatten3d input weight none := by simp [LinearFits]
    refine ⟨fun _ => fits, fun _ => ?_⟩
    rw [LinearAgrees, linearShapeInfer, matmulShapeInfer,
      matmulImpl_eq documented (by omega) (by omega) (by omega), linearReference]
    simp
  | some bias =>
    have rank := biasRank bias rfl
    by_cases agree : k = k' ∧ input.dtype = weight.dtype
    · rw [if_pos agree] at shapes
      have fits : LinearFits canCast parseLinearFlatten3d input weight (some bias) ↔
          BiasFits canCast parseLinearFlatten3d input weight bias ⟨rows ++ [p], input.dtype⟩ := by
        simp [LinearFits, shapes]
      have expanded : linearReference input weight (some bias) =
          if Expands bias.sizes (rows ++ [p]) then some ⟨rows ++ [p], input.dtype⟩ else none := by
        simp [linearReference, shapes]
      rw [fits, LinearAgrees, expanded, BiasFits]
      cases fused : fuses parseLinearFlatten3d input weight bias with
      | true =>
        have sums := fused_eq documented left right rank fused
        rw [if_pos agree] at sums
        rw [if_pos rfl]
        exact agrees_iff_of_sum sums
      | false =>
        have sums := added_eq documented inputRank weightRank fused
        rw [shapes, Option.bind_some, addBias] at sums
        rw [if_neg Bool.false_ne_true]
        by_cases outOfPlace : (bias.isTensorSubclassLike || bias.hasFwGrad) = true
        · rw [if_pos outOfPlace, documented.add, addDocumented] at sums
          rw [if_pos outOfPlace, sums, inferSize_comm]
          exact agrees_iff_of_broadcast bias.sizes (rows ++ [p]) _ _
        · rw [if_neg outOfPlace, documented.add_, addInPlaceDocumented] at sums
          rw [if_neg outOfPlace]
          exact agrees_iff_of_sum sums
    · rw [if_neg agree] at shapes
      have fits : LinearFits canCast parseLinearFlatten3d input weight (some bias) := by
        simp [LinearFits, shapes]
      refine ⟨fun _ => fits, fun _ => ?_⟩
      rw [LinearAgrees, linearReference, shapes]
      cases fused : fuses parseLinearFlatten3d input weight bias with
      | true => rw [fused_eq documented left right rank fused, if_neg agree]; rfl
      | false => rw [added_eq documented inputRank weightRank fused, shapes]; rfl

/-- The sizes of `matmul` and `linear` are those of the reference, apart from products of two vectors
that do not match and from biases of other types or sizes. -/
theorem shapes_agree_iff (documented : Documented f canCast promote)
    (rank1 : 1 ≤ tensor1.dim) (rank2 : 1 ≤ tensor2.dim) (inputRank : 1 ≤ input.dim)
    (weightRank : weight.dim = 2) (biasRank : ∀ b ∈ bias?, b.dim ≤ 1) :
    (MatmulAgrees f tensor1 tensor2 ↔ MatmulFits tensor1 tensor2) ∧
      (LinearAgrees f parseLinearFlatten3d input weight bias? ↔
        LinearFits canCast parseLinearFlatten3d input weight bias?) :=
  ⟨matmul_agrees_iff documented rank1 rank2,
    linear_agrees_iff documented inputRank weightRank biasRank⟩

/-- Shape functions as they are documented, for which a sum has the first type. -/
def documentedFunctions : ShapeFunctions where
  inferSize := inferSize
  mm := mmDocumented
  addmv_ := addmvDocumented
  bmm := bmmDocumented
  addmm := addmmDocumented
  add_ := addInPlaceDocumented fun _ _ => true
  add := addDocumented fun d _ => d

theorem documentedFunctions_documented :
    Documented documentedFunctions (fun _ _ => true) (fun d _ => d) where
  inferSize _ _ := rfl
  mm _ _ := rfl
  addmv_ _ _ _ := rfl
  bmm _ _ := rfl
  addmm _ _ _ := rfl
  add_ _ _ := rfl
  add _ _ := rfl

/-- A contiguous tensor of floats. -/
def plainTensor (dims : List Dim) : Tensor := ⟨dims, .float, false, false, false, true⟩

theorem shapes_agree_iff_batch :
    (MatmulAgrees documentedFunctions (plainTensor [⟨5, 6⟩, ⟨2, 3⟩, ⟨3, 1⟩])
        (plainTensor [⟨3, 4⟩, ⟨4, 1⟩]) ↔
      MatmulFits (plainTensor [⟨5, 6⟩, ⟨2, 3⟩, ⟨3, 1⟩]) (plainTensor [⟨3, 4⟩, ⟨4, 1⟩])) ∧
    (LinearAgrees documentedFunctions false (plainTensor [⟨2, 3⟩, ⟨3, 1⟩])
        (plainTensor [⟨4, 3⟩, ⟨3, 1⟩]) (some (plainTensor [⟨4, 1⟩])) ↔
      LinearFits (fun _ _ => true) false (plainTensor [⟨2, 3⟩, ⟨3, 1⟩])
        (plainTensor [⟨4, 3⟩, ⟨3, 1⟩]) (some (plainTensor [⟨4, 1⟩]))) :=
  shapes_agree_iff documentedFunctions_documented (by decide) (by decide) (by decide) (by decide)
    (by decide)

/-- The product of a vector of two elements and one of three is accepted. -/
theorem dot_of_lengths : ¬ ∀ (f : ShapeFunctions) (canCast : ScalarType → ScalarType → Bool)
    (promote : ScalarType → ScalarType → ScalarType), Documented f canCast promote →
    ∀ (tensor1 tensor2 input weight : Tensor) (bias : Option Tensor) (flatten3d : Bool),
      1 ≤ tensor1.dim → 1 ≤ tensor2.dim → 1 ≤ input.dim → weight.dim = 2 →
      (∀ b ∈ bias, b.dim ≤ 1) →
      MatmulAgrees f tensor1 tensor2 ∧ LinearAgrees f flatten3d input weight bias := by
  intro agrees
  have product := (agrees _ _ _ documentedFunctions_documented (plainTensor [⟨2, 1⟩])
    (plainTensor [⟨3, 1⟩]) (plainTensor [⟨2, 1⟩]) (plainTensor [⟨1, 2⟩, ⟨2, 1⟩]) none false
    (by decide) (by decide) (by decide) (by decide) (by decide)).1
  have same := (matmul_agrees_iff documentedFunctions_documented (by decide) (by decide)).mp product
    rfl rfl
  exact absurd same (by decide)

end TorchGcu.LinearOverride

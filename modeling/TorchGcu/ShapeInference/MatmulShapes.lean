import TorchGcu.ShapeInference.LinearOverride

/-! The sizes of `matmul`: each route returns what the reference does, apart from the product of two
vectors. -/
namespace TorchGcu.LinearOverride

/-! ### Sizes -/

@[simp] theorem swapLast_append {α : Type} (front : List α) (a b : α) :
    swapLast (front ++ [a, b]) = front ++ [b, a] := by
  induction front with
  | nil => rfl
  | cons c front ih =>
    cases front with
    | nil => rfl
    | cons d front =>
      cases front with
      | nil => rfl
      | cons e front => exact congrArg (c :: ·) ih

theorem map_swapLast {α β : Type} (g : α → β) (l : List α) :
    (swapLast l).map g = swapLast (l.map g) := by
  induction l using swapLast.induct with
  | case1 => rfl
  | case2 => rfl
  | case3 => rfl
  | case4 a b c rest ih => simpa [swapLast] using ih

@[simp] theorem sizes_mT (t : Tensor) : t.mT.sizes = swapLast t.sizes := map_swapLast ..

@[simp] theorem length_swapLast {α : Type} (l : List α) : (swapLast l).length = l.length := by
  induction l using swapLast.induct with
  | case1 => rfl
  | case2 => rfl
  | case3 => rfl
  | case4 a b c rest ih => simpa [swapLast] using ih

@[simp] theorem dim_mT (t : Tensor) : t.mT.dim = t.dim := length_swapLast ..

@[simp] theorem length_sizes (t : Tensor) : t.sizes.length = t.dim := List.length_map ..

@[simp] theorem beforeLast_append (front : List Nat) (n m : Nat) :
    beforeLast (front ++ [n, m]) = n := by
  simp [beforeLast]

@[simp] theorem batch_append (front : List Nat) (n m : Nat) :
    batch (front ++ [n, m]) = front := by
  simp [batch]

@[simp] theorem batch_one (k : Nat) : batch [k] = [] := rfl

theorem last_append (front : List Nat) (n m : Nat) : (front ++ [n, m]).getLastD 0 = m := by
  simp

/-- An operand is a vector or a batch of matrices. -/
theorem operand_cases {sizes : List Nat} (rank : sizes ≠ []) :
    (∃ k, sizes = [k]) ∨ ∃ front n m, sizes = front ++ [n, m] := by
  rcases List.eq_nil_or_concat sizes with none | ⟨front, m, rfl⟩
  · exact absurd none rank
  · rcases List.eq_nil_or_concat front with rfl | ⟨front, n, rfl⟩
    · exact Or.inl ⟨m, rfl⟩
    · exact Or.inr ⟨front, n, m, by simp⟩

/-! ### Broadcasting -/

theorem broadcast_into {a b c : List Nat} (common : broadcast a b = some c) :
    broadcast a c = some c ∧ broadcast b c = some c := by
  induction a generalizing b c with
  | nil =>
    obtain rfl := Option.some.inj common
    exact ⟨rfl, broadcast_self _⟩
  | cons size sizes ih =>
    cases b with
    | nil =>
      obtain rfl := Option.some.inj common
      exact ⟨broadcast_self _, rfl⟩
    | cons size' sizes' =>
      simp only [broadcast] at common
      split at common
      · next same =>
        obtain ⟨rest, found, rfl⟩ := Option.map_eq_some_iff.mp common
        obtain ⟨first, second⟩ := ih found
        rcases same with rfl | rfl
        · simp [broadcast, first, second]
        · by_cases one : size = 1 <;> simp [broadcast, first, second, one, eq_comm]
      · split at common
        · next one =>
          obtain ⟨rest, found, rfl⟩ := Option.map_eq_some_iff.mp common
          obtain ⟨first, second⟩ := ih found
          by_cases same : size' = 1 <;> simp [broadcast, first, second, one, same, eq_comm]
        · cases common

/-- Both sizes expand to those that they are broadcast to. -/
theorem expands_of_inferSize {a b c : List Nat} (common : inferSize a b = some c) :
    inferSize a c = some c ∧ inferSize b c = some c := by
  obtain ⟨reversed, found, rfl⟩ := Option.map_eq_some_iff.mp common
  obtain ⟨first, second⟩ := broadcast_into found
  simp [inferSize, first, second]

theorem broadcast_same_front {a c front : List Nat} (expands : broadcast a c = some c) :
    broadcast (front ++ a) (front ++ c) = some (front ++ c) := by
  induction front with
  | nil => exact expands
  | cons size front ih => simp [broadcast, ih]

theorem expands_append {a c : List Nat} (expands : inferSize a c = some c) (back : List Nat) :
    inferSize (a ++ back) (c ++ back) = some (c ++ back) := by
  obtain ⟨reversed, found, same⟩ := Option.map_eq_some_iff.mp expands
  have reversed : reversed = c.reverse := by rw [← same, List.reverse_reverse]
  rw [reversed] at found
  simp [inferSize, broadcast_same_front found]

@[simp] theorem inferSize_nil (c : List Nat) : inferSize [] c = some c := by
  simp [inferSize, broadcast]

@[simp] theorem inferSize_nil_right (c : List Nat) : inferSize c [] = some c := by
  unfold inferSize
  cases h : c.reverse with
  | nil => simp_all [broadcast]
  | cons size rest =>
    have same : c = (size :: rest).reverse := by rw [← h, List.reverse_reverse]
    simp [broadcast, same]

theorem inferSize_one (size : Nat) : inferSize [1] [size] = some [size] := by
  by_cases one : size = 1 <;> simp [inferSize, broadcast, one, eq_comm]

theorem inferSize_one_right (size : Nat) : inferSize [size] [1] = some [size] := by
  simp [inferSize, broadcast]

/-! ### The routes -/

variable {f : ShapeFunctions} {canCast : ScalarType → ScalarType → Bool}
  {promote : ScalarType → ScalarType → ScalarType} {tensor1 tensor2 : Tensor}

theorem view_of_prod {t : Meta} {sizes : List Nat} (same : sizes.prod = t.sizes.prod) :
    t.view sizes = some ⟨sizes, t.dtype⟩ := if_pos same

theorem expand_of {t : Meta} {sizes : List Nat} (expands : inferSize t.sizes sizes = some sizes) :
    t.expand sizes = some ⟨sizes, t.dtype⟩ := if_pos expands

theorem matmulReference_matrices {front front' : List Nat} {n k k' p : Nat} {d d' : ScalarType} :
    matmulReference ⟨front ++ [n, k], d⟩ ⟨front' ++ [k', p], d'⟩ =
      if k = k' ∧ d = d' then (inferSize front front').map (⟨· ++ [n, p], d⟩) else none := by
  simp [matmulReference, innerSize, rowSizes, columnSizes]

theorem matmulReference_vector {front : List Nat} {n k k' : Nat} {d d' : ScalarType} :
    matmulReference ⟨front ++ [n, k], d⟩ ⟨[k'], d'⟩ =
      if k = k' ∧ d = d' then some ⟨front ++ [n], d⟩ else none := by
  simp [matmulReference, innerSize, rowSizes, columnSizes]

theorem matmulReference_row {front : List Nat} {k k' p : Nat} {d d' : ScalarType} :
    matmulReference ⟨[k], d⟩ ⟨front ++ [k', p], d'⟩ =
      if k = k' ∧ d = d' then some ⟨front ++ [p], d⟩ else none := by
  simp [matmulReference, innerSize, rowSizes, columnSizes]

theorem dim_of_matrices {t : Tensor} {front : List Nat} {n k : Nat}
    (sizes : t.sizes = front ++ [n, k]) : t.dim = front.length + 2 := by
  rw [← length_sizes, sizes]
  simp

theorem dim_of_vector {t : Tensor} {k : Nat} (sizes : t.sizes = [k]) : t.dim = 1 := by
  rw [← length_sizes, sizes]
  rfl

theorem bmmRoute_matrices (documented : Documented f canCast promote)
    {front front' : List Nat} {n k k' p : Nat} (left : tensor1.sizes = front ++ [n, k])
    (right : tensor2.sizes = front' ++ [k', p]) :
    bmmRoute f tensor1 tensor2 = matmulReference tensor1.shape tensor2.shape := by
  have matrix1 : tensor1.dim > 1 := by rw [dim_of_matrices left]; omega
  have matrix2 : tensor2.dim > 1 := by rw [dim_of_matrices right]; omega
  rw [Tensor.shape, Tensor.shape, left, right, matmulReference_matrices]
  simp only [bmmRoute, left, right, batch_append, beforeLast_append, last_append, if_pos matrix1,
    if_pos matrix2, if_neg matrix2.ne', Tensor.shape, documented.inferSize, Option.bind_eq_bind]
  cases common : inferSize front front' with
  | none => simp
  | some batch =>
    obtain ⟨first, second⟩ := expands_of_inferSize common
    simp only [Option.bind_some]
    rw [expand_of (expands_append first _), expand_of (expands_append second _)]
    simp only [Option.bind_some]
    rw [view_of_prod (by simp), view_of_prod (by simp)]
    simp only [Option.bind_some, documented.bmm, bmmDocumented, true_and, Option.map_some]
    split
    · rw [Option.bind_some, view_of_prod (by simp)]
      simp
    · rfl

theorem bmmRoute_vector (documented : Documented f canCast promote) {front : List Nat}
    {n k k' : Nat} (left : tensor1.sizes = front ++ [n, k]) (right : tensor2.sizes = [k']) :
    bmmRoute f tensor1 tensor2 = matmulReference tensor1.shape tensor2.shape := by
  have matrix : tensor1.dim > 1 := by rw [dim_of_matrices left]; omega
  have vector : tensor2.dim = 1 := dim_of_vector right
  have single : ¬ tensor2.dim > 1 := by omega
  have expands := expands_append (inferSize_nil front) [k']
  rw [Tensor.shape, Tensor.shape, left, right, matmulReference_vector]
  simp only [bmmRoute, left, right, batch_append, batch_one, beforeLast_append, last_append,
    if_pos matrix, if_neg single, if_pos vector, Tensor.shape, documented.inferSize,
    Option.bind_eq_bind, inferSize_nil_right, Option.bind_some, List.headD_cons]
  rw [expand_of (inferSize_self _), expand_of expands]
  simp only [Option.bind_some]
  rw [view_of_prod (by simp), view_of_prod (by simp)]
  simp only [Option.bind_some, documented.bmm, bmmDocumented, true_and, List.cons_append,
    List.nil_append]
  split
  · simp only [Option.bind_some, Meta.squeezeLast]
    rw [view_of_prod (by simp)]
    simp
  · rfl

theorem bmmRoute_row (documented : Documented f canCast promote) {front : List Nat}
    {k k' p : Nat} (left : tensor1.sizes = [k]) (right : tensor2.sizes = front ++ [k', p]) :
    bmmRoute f tensor1 tensor2 = matmulReference tensor1.shape tensor2.shape := by
  have matrix : tensor2.dim > 1 := by rw [dim_of_matrices right]; omega
  have single : ¬ tensor1.dim > 1 := by rw [dim_of_vector left]; omega
  have expands : inferSize [k] (front ++ [1, k]) = some (front ++ [1, k]) := by
    have expands := expands_append (inferSize_nil (front ++ [1])) [k]
    rwa [List.append_assoc] at expands
  rw [Tensor.shape, Tensor.shape, left, right, matmulReference_row]
  simp only [bmmRoute, left, right, batch_append, batch_one, beforeLast_append, last_append,
    if_pos matrix, if_neg single, if_neg matrix.ne', Tensor.shape, documented.inferSize,
    Option.bind_eq_bind, inferSize_nil, Option.bind_some, List.getLastD_cons, List.getLastD_nil]
  rw [expand_of expands, expand_of (inferSize_self _)]
  simp only [Option.bind_some]
  rw [view_of_prod (by simp), view_of_prod (by simp)]
  simp only [Option.bind_some, documented.bmm, bmmDocumented, true_and]
  split
  · rw [Option.bind_some, view_of_prod (by simp)]
    simp
  · rfl

theorem foldRoute_matrix (documented : Documented f canCast promote) {front : List Nat}
    {n k k' p : Nat} (left : tensor1.sizes = front ++ [n, k])
    (right : tensor2.sizes = [k', p]) :
    foldRoute f tensor1 tensor2 = matmulReference tensor1.shape tensor2.shape := by
  have matrix : tensor2.dim = 2 := @dim_of_matrices tensor2 [] k' p right
  have larger : ¬ tensor2.dim > tensor1.dim := by rw [matrix, dim_of_matrices left]; omega
  have reference := @matmulReference_matrices front [] n k k' p tensor1.dtype tensor2.dtype
  rw [List.nil_append] at reference
  rw [Tensor.shape, Tensor.shape, left, right, reference]
  simp only [foldRoute, decide_eq_false larger, left, right, Tensor.shape, Option.bind_eq_bind,
    Bool.false_eq_true, if_false, if_pos matrix, not_false_iff, if_true, last_append]
  rw [view_of_prod (by simp [mul_assoc])]
  simp only [Option.bind_some, documented.mm, mmDocumented]
  split
  · rw [Option.bind_some, view_of_prod (by simp [mul_assoc])]
    simp
  · rfl

theorem foldRoute_vector (documented : Documented f canCast promote) {front : List Nat}
    {n k k' : Nat} (left : tensor1.sizes = front ++ [n, k]) (right : tensor2.sizes = [k']) :
    foldRoute f tensor1 tensor2 = matmulReference tensor1.shape tensor2.shape := by
  have vector : tensor2.dim = 1 := dim_of_vector right
  have larger : ¬ tensor2.dim > tensor1.dim := by rw [vector, dim_of_matrices left]; omega
  have single : ¬ tensor2.dim = 2 := by omega
  rw [Tensor.shape, Tensor.shape, left, right, matmulReference_vector]
  simp only [foldRoute, decide_eq_false larger, left, right, Tensor.shape, Option.bind_eq_bind,
    Bool.false_eq_true, if_false, if_neg single, not_false_iff, if_true, last_append, mvShapeInfer]
  rw [view_of_prod (by simp [mul_assoc])]
  simp only [Option.bind_some, documented.addmv_, addmvDocumented, List.headD_cons, true_and]
  by_cases agree : k = k' ∧ tensor1.dtype = tensor2.dtype
  · rw [if_pos ⟨agree.1, agree.2, trivial⟩, if_pos agree, Option.bind_some,
      view_of_prod (by simp), agree.2]
    simp
  · rw [if_neg fun all => agree ⟨all.1, all.2.1⟩, if_neg agree]
    rfl

theorem foldRoute_transposed (documented : Documented f canCast promote) {front : List Nat}
    {n k k' p : Nat} (some : front ≠ []) (left : tensor1.sizes = [n, k])
    (right : tensor2.sizes = front ++ [k', p]) :
    foldRoute f tensor1 tensor2 = matmulReference tensor1.shape tensor2.shape := by
  have matrix : tensor1.dim = 2 := @dim_of_matrices tensor1 [] n k left
  have larger : tensor2.dim > tensor1.dim := by
    rw [matrix, dim_of_matrices right]
    have := List.length_pos_of_ne_nil some
    omega
  have reference := @matmulReference_matrices [] front n k k' p tensor1.dtype tensor2.dtype
  rw [List.nil_append] at reference
  rw [Tensor.shape, Tensor.shape, left, right, reference]
  have swapped : swapLast [n, k] = [k, n] := rfl
  simp only [foldRoute, decide_eq_true larger, left, right, Tensor.shape, Option.bind_eq_bind,
    if_true, not_true, if_false, if_pos matrix, last_append, sizes_mT, swapLast_append, dim_mT,
    swapped]
  rw [view_of_prod (by simp [mul_assoc])]
  simp only [Option.bind_some, documented.mm, mmDocumented]
  by_cases agree : k = k' ∧ tensor1.dtype = tensor2.dtype
  · rw [if_pos ⟨agree.1.symm, agree.2.symm⟩, if_pos agree, Option.bind_some,
      view_of_prod (by simp [mul_assoc]), agree.2]
    simp [Meta.mT, Tensor.mT]
  · rw [if_neg fun all => agree ⟨all.1.symm, all.2.symm⟩, if_neg agree]
    rfl

theorem foldRoute_row (documented : Documented f canCast promote) {front : List Nat}
    {k k' p : Nat} (left : tensor1.sizes = [k]) (right : tensor2.sizes = front ++ [k', p]) :
    foldRoute f tensor1 tensor2 = matmulReference tensor1.shape tensor2.shape := by
  have vector : tensor1.dim = 1 := dim_of_vector left
  have larger : tensor2.dim > tensor1.dim := by rw [vector, dim_of_matrices right]; omega
  have single : ¬ tensor1.dim = 2 := by omega
  rw [Tensor.shape, Tensor.shape, left, right, matmulReference_row]
  simp only [foldRoute, decide_eq_true larger, left, right, Tensor.shape, Option.bind_eq_bind,
    if_true, not_true, if_false, if_neg single, last_append, sizes_mT, swapLast_append, mvShapeInfer]
  rw [view_of_prod (by simp [mul_assoc])]
  simp only [Option.bind_some, documented.addmv_, addmvDocumented, List.headD_cons, true_and]
  by_cases agree : k = k' ∧ tensor1.dtype = tensor2.dtype
  · rw [if_pos ⟨agree.1.symm, agree.2.symm, trivial⟩, if_pos agree, Option.bind_some,
      view_of_prod (by simp)]
    simp
  · rw [if_neg fun all => agree ⟨all.1.symm, all.2.1.symm⟩, if_neg agree]
    rfl
theorem sizes_ne_nil {t : Tensor} (rank : t.dim ≠ 0) : t.sizes ≠ [] := fun none =>
  rank (by rw [← length_sizes, none]; rfl)

theorem shouldFold_ranks (fold : shouldFold tensor1 tensor2 = true) :
    (tensor1.dim ≥ 3 ∧ tensor2.dim ≤ 2) ∨ (tensor2.dim ≥ 3 ∧ tensor1.dim ≤ 2) := by
  by_cases larger : tensor1.dim ≥ tensor2.dim
  · simp only [shouldFold, decide_eq_true larger, if_true] at fold
    by_cases ranks : tensor1.dim ≥ 3 ∧ tensor2.dim ≤ 2
    · exact Or.inl ranks
    · rw [if_pos ranks] at fold
      cases fold
  · simp only [shouldFold, decide_eq_false larger, Bool.false_eq_true, if_false, dim_mT] at fold
    by_cases ranks : tensor2.dim ≥ 3 ∧ tensor1.dim ≤ 2
    · exact Or.inr ranks
    · rw [if_pos ranks] at fold
      cases fold

theorem foldRoute_eq (documented : Documented f canCast promote) (rank1 : tensor1.dim ≠ 0)
    (rank2 : tensor2.dim ≠ 0) (fold : shouldFold tensor1 tensor2 = true) :
    foldRoute f tensor1 tensor2 = matmulReference tensor1.shape tensor2.shape := by
  rcases operand_cases (sizes_ne_nil rank1) with ⟨k, left⟩ | ⟨front, n, k, left⟩ <;>
    rcases operand_cases (sizes_ne_nil rank2) with ⟨k', right⟩ | ⟨front', k', p, right⟩
  · have ranks := shouldFold_ranks fold
    rw [dim_of_vector left, dim_of_vector right] at ranks
    omega
  · exact foldRoute_row documented left right
  · exact foldRoute_vector documented left right
  · have ranks := shouldFold_ranks fold
    rw [dim_of_matrices left, dim_of_matrices right] at ranks
    rcases ranks with ⟨_, small⟩ | ⟨large, small⟩
    · obtain rfl : front' = [] := List.length_eq_zero_iff.mp (by omega)
      exact foldRoute_matrix documented left right
    · obtain rfl : front = [] := List.length_eq_zero_iff.mp (by omega)
      have some : front' ≠ [] := List.ne_nil_of_length_pos (by omega)
      exact foldRoute_transposed documented some left right

theorem bmmRoute_eq (documented : Documented f canCast promote) (rank1 : tensor1.dim ≠ 0)
    (rank2 : tensor2.dim ≠ 0) (product : ¬ (tensor1.dim = 1 ∧ tensor2.dim = 1)) :
    bmmRoute f tensor1 tensor2 = matmulReference tensor1.shape tensor2.shape := by
  rcases operand_cases (sizes_ne_nil rank1) with ⟨k, left⟩ | ⟨front, n, k, left⟩ <;>
    rcases operand_cases (sizes_ne_nil rank2) with ⟨k', right⟩ | ⟨front', k', p, right⟩
  · exact absurd ⟨dim_of_vector left, dim_of_vector right⟩ product
  · exact bmmRoute_row documented left right
  · exact bmmRoute_vector documented left right
  · exact bmmRoute_matrices documented left right

theorem sizes_of_dim_one {t : Tensor} (rank : t.dim = 1) : ∃ k, t.sizes = [k] :=
  List.length_eq_one_iff.mp ((length_sizes t).trans rank)

theorem sizes_of_dim_two {t : Tensor} (rank : t.dim = 2) : ∃ n k, t.sizes = [n, k] :=
  List.length_eq_two.mp ((length_sizes t).trans rank)

/-- The operands of rank at most two. -/
theorem small_eq (documented : Documented f canCast promote) :
    (tensor1.dim = 2 → tensor2.dim = 1 → mvShapeInfer f tensor1.shape tensor2.shape =
        matmulReference tensor1.shape tensor2.shape) ∧
      (tensor1.dim = 1 → tensor2.dim = 2 →
        (f.mm { tensor1.shape with sizes := 1 :: tensor1.sizes } tensor2.shape).map
          Meta.squeezeFirst = matmulReference tensor1.shape tensor2.shape) ∧
      (tensor1.dim = 2 → tensor2.dim = 2 → f.mm tensor1.shape tensor2.shape =
        matmulReference tensor1.shape tensor2.shape) := by
  refine ⟨fun rank1 rank2 => ?_, fun rank1 rank2 => ?_, fun rank1 rank2 => ?_⟩
  · obtain ⟨n, k, left⟩ := sizes_of_dim_two rank1
    obtain ⟨k', right⟩ := sizes_of_dim_one rank2
    have reference := @matmulReference_vector [] n k k' tensor1.dtype tensor2.dtype
    rw [List.nil_append] at reference
    simp only [Tensor.shape, left, right, reference, mvShapeInfer, documented.addmv_,
      addmvDocumented, List.headD_cons, true_and, and_true]
    by_cases agree : k = k' ∧ tensor1.dtype = tensor2.dtype
    · rw [if_pos agree, if_pos agree, agree.2]
      rfl
    · rw [if_neg agree, if_neg agree]
  · obtain ⟨k, left⟩ := sizes_of_dim_one rank1
    obtain ⟨k', p, right⟩ := sizes_of_dim_two rank2
    have reference := @matmulReference_row [] k k' p tensor1.dtype tensor2.dtype
    rw [List.nil_append] at reference
    simp only [Tensor.shape, left, right, reference, documented.mm, mmDocumented]
    split
    · rfl
    · rfl
  · obtain ⟨n, k, left⟩ := sizes_of_dim_two rank1
    obtain ⟨k', p, right⟩ := sizes_of_dim_two rank2
    have reference := @matmulReference_matrices [] [] n k k' p tensor1.dtype tensor2.dtype
    rw [List.nil_append, List.nil_append] at reference
    simp only [Tensor.shape, left, right, reference, documented.mm, mmDocumented]
    split
    · simp
    · rfl

theorem squeezes_ranks {t other : Tensor} (squeezed : squeezes t other = true) :
    t.dim = 3 ∧ other.dim = 3 ∧ t.sizes.headD 0 = 1 := by
  simp only [squeezes, Bool.and_eq_true, decide_eq_true_eq, beq_iff_eq] at squeezed
  exact ⟨squeezed.1.1.1.1, squeezed.1.1.1.2, squeezed.1.2⟩

/-- Operands that are not both of rank three keep their sizes. -/
theorem matmulImpl_eq_of_apart (documented : Documented f canCast promote)
    (rank1 : tensor1.dim ≠ 0) (rank2 : tensor2.dim ≠ 0)
    (product : ¬ (tensor1.dim = 1 ∧ tensor2.dim = 1))
    (first : squeezes tensor1 tensor2 = false) (second : squeezes tensor2 tensor1 = false) :
    matmulImplShapeInfer f tensor1 tensor2 = matmulReference tensor1.shape tensor2.shape := by
  obtain ⟨vector, row, matrices⟩ := @small_eq f canCast promote tensor1 tensor2 documented
  rw [matmulImplShapeInfer, if_neg (not_or.mpr ⟨rank1, rank2⟩), if_neg product, first, second]
  split
  · next ranks => exact vector ranks.1 ranks.2
  · split
    · next ranks => exact row ranks.1 ranks.2
    · split
      · next ranks => exact matrices ranks.1 ranks.2
      · split
        · next fold => exact foldRoute_eq documented rank1 rank2 fold
        · exact bmmRoute_eq documented rank1 rank2 product

theorem sizes_of_squeezed {t : Tensor} (rank : t.dim = 3) (one : t.sizes.headD 0 = 1) :
    ∃ n k, t.sizes = [1] ++ [n, k] ∧ t.squeeze.sizes = [] ++ [n, k] := by
  obtain ⟨a, n, k, sizes⟩ := List.length_eq_three.mp ((length_sizes t).trans rank)
  have tail : t.squeeze.sizes = t.sizes.tail := by
    simp only [Tensor.squeeze, one, if_true]
    exact List.map_tail
  rw [sizes] at one
  obtain rfl : a = 1 := one
  exact ⟨n, k, sizes, by rw [tail, sizes]; rfl⟩

/-- A batch of one that is broadcast has the product of its matrix. -/
theorem matmulReference_squeeze (squeezed : squeezes tensor1 tensor2 = true) :
    matmulReference tensor1.squeeze.shape tensor2.shape =
        matmulReference tensor1.shape tensor2.shape ∧
      matmulReference tensor2.shape tensor1.squeeze.shape =
        matmulReference tensor2.shape tensor1.shape := by
  obtain ⟨rank, rank', one⟩ := squeezes_ranks squeezed
  obtain ⟨n, k, sizes, matrix⟩ := sizes_of_squeezed rank one
  obtain ⟨b, k', p, batched⟩ := List.length_eq_three.mp ((length_sizes tensor2).trans rank')
  have sizes' : tensor2.sizes = [b] ++ [k', p] := batched
  rw [Tensor.shape, Tensor.shape, Tensor.shape, matrix, sizes, sizes']
  simp only [matmulReference_matrices, inferSize_nil, inferSize_nil_right, inferSize_one,
    inferSize_one_right]
  exact ⟨rfl, rfl⟩

theorem squeezes_squeezed {t other : Tensor} (squeezed : squeezes t other = true) :
    squeezes t.squeeze other = false ∧ squeezes other t.squeeze = false := by
  have less := dim_squeeze_lt squeezed
  have rank := (squeezes_ranks squeezed).1
  have apart : ¬ t.squeeze.dim = 3 := by omega
  simp [squeezes, apart]

/-- Operands of rank three are squeezed or multiplied as they are. -/
theorem matmulImpl_of_three (rank1 : tensor1.dim = 3) (rank2 : tensor2.dim = 3) :
    matmulImplShapeInfer f tensor1 tensor2 =
      if squeezes tensor1 tensor2 then matmulImplShapeInfer f tensor1.squeeze tensor2
      else if squeezes tensor2 tensor1 then matmulImplShapeInfer f tensor1 tensor2.squeeze
      else bmmRoute f tensor1 tensor2 := by
  have unfolded : ¬ shouldFold tensor1 tensor2 = true := fun fold => by
    have ranks := shouldFold_ranks fold
    omega
  rw [matmulImplShapeInfer, if_neg (by omega), if_neg (by omega), if_neg (by omega),
    if_neg (by omega), if_neg (by omega), if_neg unfolded]

/-- `matmul`, whichever route is taken, apart from the product of two vectors. -/
theorem matmulImpl_eq (documented : Documented f canCast promote)
    (rank1 : tensor1.dim ≠ 0) (rank2 : tensor2.dim ≠ 0)
    (product : ¬ (tensor1.dim = 1 ∧ tensor2.dim = 1)) :
    matmulImplShapeInfer f tensor1 tensor2 = matmulReference tensor1.shape tensor2.shape := by
  cases first : squeezes tensor1 tensor2 with
  | true =>
    obtain ⟨rank, rank', one⟩ := squeezes_ranks first
    obtain ⟨n, k, _, matrix⟩ := sizes_of_squeezed rank one
    have reduced := dim_of_matrices matrix
    rw [List.length_nil] at reduced
    obtain ⟨apart, apart'⟩ := squeezes_squeezed first
    rw [matmulImpl_of_three rank rank', if_pos first, ← (matmulReference_squeeze first).1]
    exact matmulImpl_eq_of_apart documented (by omega) rank2 (by omega) apart apart'
  | false =>
    cases second : squeezes tensor2 tensor1 with
    | true =>
      obtain ⟨rank, rank', one⟩ := squeezes_ranks second
      obtain ⟨n, k, _, matrix⟩ := sizes_of_squeezed rank one
      have reduced := dim_of_matrices matrix
      rw [List.length_nil] at reduced
      obtain ⟨apart, apart'⟩ := squeezes_squeezed second
      rw [matmulImpl_of_three rank' rank, if_neg (by simp [first]), if_pos second,
        ← (matmulReference_squeeze second).2]
      exact matmulImpl_eq_of_apart documented rank1 (by omega) (by omega) apart' apart
    | false => exact matmulImpl_eq_of_apart documented rank1 rank2 product first second

end TorchGcu.LinearOverride

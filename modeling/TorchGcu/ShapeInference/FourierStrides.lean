import Mathlib.Data.List.Sort
import TorchGcu.Logic.StridedLayout
import TorchGcu.ShapeInference.SpectralOps
import TorchGcu.Tensor.StorageBounds

/-! The strides of Fourier transforms. A pass gives strides that are contiguous in the order in
which it read the dimensions, whatever the strides of its argument were. -/
namespace TorchGcu.SpectralOps
open Resize (numel contiguousStrides extent)
open StridedLayout

/-! ### Strides in order -/

/-- The strides are contiguous in some order of the dimensions, which says nothing of a tensor
without elements. -/
structure Tensor.Ordered (tensor : Tensor) : Prop where
  length : tensor.strides.length = tensor.sizes.length
  order : ∃ order : List Nat, order.Perm (List.range tensor.sizes.length) ∧
    (0 ∉ tensor.sizes →
      arrange order tensor.strides = productStrides (arrange order tensor.sizes))

theorem Tensor.Ordered.dense {tensor : Tensor} (ordered : tensor.Ordered) :
    Dense tensor.sizes tensor.strides := by
  by_cases empty : 0 ∈ tensor.sizes
  · exact .of_prod_eq_zero (List.prod_eq_zero empty)
  · obtain ⟨order, perm, same⟩ := ordered.order
    refine .of_arrange perm ordered.length ?_
    rw [same empty]
    exact dense_productStrides _

theorem extent_eq (sizes strides : List Nat) (nonempty : 0 ∉ sizes) :
    extent sizes strides = 1 + address strides (sizes.map (· - 1)) := by
  have swapped : List.zipWith (fun size stride => (size - 1) * stride) sizes strides =
      List.zipWith (· * ·) strides (sizes.map (· - 1)) := by
    rw [List.zipWith_map_right, List.zipWith_comm]
    simp only [Nat.mul_comm]
  rw [extent, if_neg nonempty, swapped, address]

/-- A tensor in order needs no more than its elements. -/
theorem Tensor.Ordered.needed_le {tensor : Tensor} (ordered : tensor.Ordered) :
    tensor.needed ≤ if 0 ∈ tensor.sizes then 0 else tensor.storageOffset + numel tensor.sizes := by
  unfold Tensor.needed
  split
  · exact Nat.le_refl 0
  · rename_i nonempty
    have last := ordered.dense.last_lt fun zero => nonempty (Resize.numel_eq_zero.mp zero)
    have elements : numel tensor.sizes = tensor.sizes.prod := rfl
    rw [extent_eq _ _ nonempty]
    omega

/-- The storage of a resized tensor holds its elements. -/
theorem Library.numel_le_storage (lib : Library) (tensor : Tensor) (sizes : List Nat) :
    (if 0 ∈ sizes then 0 else (lib.resize tensor sizes).storageOffset + numel sizes) ≤
      (lib.resize tensor sizes).storage := by
  have holds := lib.resize_storage tensor sizes
  rw [Tensor.needed, lib.resize_sizes, lib.resize_strides] at holds
  refine Nat.le_trans (Nat.le_of_eq ?_) holds
  split
  · rfl
  · rename_i nonempty
    rw [Resize.extent_contiguous nonempty]

theorem contiguousStrides_eq {sizes : List Nat} (nonempty : 0 ∉ sizes) :
    contiguousStrides sizes = productStrides sizes := by
  induction sizes with
  | nil => rfl
  | cons size sizes ih =>
    have rest : 0 ∉ sizes := fun zero => nonempty (by simp [zero])
    rw [contiguousStrides, productStrides, ih rest, Resize.map_max_one rest]
    rfl

theorem length_contiguousStrides (sizes : List Nat) :
    (contiguousStrides sizes).length = sizes.length := by
  induction sizes with
  | nil => rfl
  | cons size sizes ih => simp [contiguousStrides, ih]

theorem ordered_of_contiguous {tensor : Tensor}
    (contiguous : tensor.strides = contiguousStrides tensor.sizes) : tensor.Ordered where
  length := by rw [contiguous, length_contiguousStrides]
  order := by
    refine ⟨List.range tensor.sizes.length, List.Perm.refl _, fun nonempty => ?_⟩
    rw [contiguous, arrange_range, ← contiguousStrides_eq nonempty,
      ← length_contiguousStrides tensor.sizes, arrange_range]

theorem Library.ordered_resize (lib : Library) (tensor : Tensor) (sizes : List Nat) :
    (lib.resize tensor sizes).Ordered :=
  ordered_of_contiguous (by rw [lib.resize_strides, lib.resize_sizes])

/-! ### One pass -/

theorem getD_set {values : List Nat} {d : Nat} (small : d < values.length) (v : Nat) :
    (values.set d v).getD d 0 = v := by
  simp [small]

theorem getD_set_ne {d e : Nat} (apart : d ≠ e) (values : List Nat) (v : Nat) :
    (values.set d v).getD e 0 = values.getD e 0 := by
  simp [List.getElem?_set_ne apart]

theorem arrange_set {order : List Nat} {d : Nat} (other : d ∉ order) (values : List Nat) (v : Nat) :
    arrange order (values.set d v) = arrange order values := by
  refine List.map_congr_left fun e isDim => ?_
  have apart : d ≠ e := fun same => other (same ▸ isDim)
  exact getD_set_ne apart values v

theorem length_setStrides (strides : List Nat) (pairs : List (Nat × Nat)) :
    (setStrides strides pairs).length = strides.length := by
  induction pairs generalizing strides with
  | nil => rfl
  | cons pair rest ih => simp [setStrides, ih]

theorem arrange_setStrides_of_notMem {order : List Nat} {pairs : List (Nat × Nat)}
    (others : ∀ pair ∈ pairs, pair.1 ∉ order) (strides : List Nat) :
    arrange order (setStrides strides pairs) = arrange order strides := by
  induction pairs generalizing strides with
  | nil => rfl
  | cons pair rest ih =>
    simp only [List.forall_mem_cons] at others
    rw [setStrides, ih others.2, arrange_set others.1]

theorem arrange_setStrides {dims values strides : List Nat} (distinct : dims.Nodup)
    (valid : ∀ d ∈ dims, d < strides.length) (length : values.length = dims.length) :
    arrange dims (setStrides strides (dims.zip values)) = values := by
  induction dims generalizing values strides with
  | nil => rw [List.eq_nil_of_length_eq_zero length, arrange, List.map_nil]
  | cons d dims ih =>
    obtain ⟨v, values, rfl⟩ := List.exists_cons_of_length_eq_add_one length
    simp only [List.forall_mem_cons] at valid
    obtain ⟨apart, distinct⟩ := List.nodup_cons.mp distinct
    have rest : arrange dims (setStrides (strides.set d v) (dims.zip values)) = values :=
      ih distinct (fun e isDim => by simpa using valid.2 e isDim) (Nat.succ.inj length)
    have kept : (setStrides (strides.set d v) (dims.zip values)).getD d 0 = v := by
      have single := @arrange_setStrides_of_notMem [d] (dims.zip values)
        (fun pair isPair same => apart ((List.mem_singleton.mp same) ▸ (List.of_mem_zip isPair).1))
        (strides.set d v)
      rw [arrange, arrange, List.map_singleton, List.map_singleton] at single
      rw [List.singleton_injective single, getD_set valid.1]
    rw [List.zip_cons_cons, setStrides, arrange, List.map_cons, kept, ← arrange, rest]

theorem length_productStrides (sizes : List Nat) :
    (productStrides sizes).length = sizes.length := by
  induction sizes with
  | nil => rfl
  | cons size sizes ih => simp [productStrides, ih]

theorem productStrides_append (front back : List Nat) : productStrides (front ++ back) =
    (productStrides front).map (· * back.prod) ++ productStrides back := by
  induction front with
  | nil => rfl
  | cons size front ih => simp [productStrides, ih]

/-- The batch has the strides of its sizes, over the elements of the transformed dimensions. -/
theorem batchStrides_spec (outSizes : List Nat) {ndim : Nat} (stride : Nat) {batch : List Nat}
    (distinct : batch.Nodup) (valid : ∀ d ∈ batch, d < ndim) :
    (batchStrides outSizes ndim stride batch).1.length = ndim ∧
      arrange batch (batchStrides outSizes ndim stride batch).1 =
        (productStrides (arrange batch outSizes)).map (· * stride) ∧
      (batchStrides outSizes ndim stride batch).2 = (arrange batch outSizes).prod := by
  induction batch with
  | nil => exact ⟨List.length_replicate, rfl, rfl⟩
  | cons d batch ih =>
    simp only [List.forall_mem_cons] at valid
    obtain ⟨apart, distinct⟩ := List.nodup_cons.mp distinct
    obtain ⟨length, strides, numel⟩ := ih distinct valid.2
    have step : batchStrides outSizes ndim stride (d :: batch) =
        ((batchStrides outSizes ndim stride batch).1.set d
            ((batchStrides outSizes ndim stride batch).2 * stride),
          (batchStrides outSizes ndim stride batch).2 * outSizes.getD d 0) := rfl
    have inside : d < (batchStrides outSizes ndim stride batch).1.length := by
      rw [length]
      exact valid.1
    rw [step]
    refine ⟨by simpa using length, ?_, ?_⟩
    · rw [arrange, List.map_cons, getD_set inside, ← arrange, arrange_set apart, strides, numel]
      rfl
    · rw [numel]
      exact Nat.mul_comm _ _

/-- What a pass is asked for: distinct dimensions, of which the output sizes are the input sizes or
halved, and the other sizes are kept. -/
structure Pass (input : Tensor) (outSizes dim : List Nat) : Prop where
  rank : outSizes.length = input.sizes.length
  distinct : dim.Nodup
  valid : ∀ d ∈ dim, d < input.sizes.length
  batch : ∀ d < input.sizes.length, d ∉ dim → outSizes.getD d 0 = input.sizes.getD d 0
  positive : ∀ d ∈ dim, 1 ≤ input.sizes.getD d 0
  signal : ∀ d ∈ dim, outSizes.getD d 0 = input.sizes.getD d 0 ∨
    outSizes.getD d 0 = input.sizes.getD d 0 / 2 + 1

section Pass
variable {lib : Library} {self out : Tensor} {outSizes dim : List Nat}

namespace Pass
variable (pass : Pass self outSizes dim)
include pass

omit pass in
theorem batch_perm (lib : Library) (self : Tensor) (dim : List Nat) : (dimPermute lib self dim).1.Perm
    ((List.range self.sizes.length).filter fun d => !dim.contains d) :=
  (lib.sort_perm _ _).trans (lib.partition_fst _ _)

/-- The batch and the transformed dimensions are all dimensions. -/
theorem order_perm :
    ((dimPermute lib self dim).1 ++ dim).Perm (List.range self.sizes.length) := by
  have transformed : dim.Perm ((List.range self.sizes.length).filter dim.contains) := by
    rw [List.perm_ext_iff_of_nodup pass.distinct (List.nodup_range.filter _)]
    intro d
    simp only [List.mem_filter, List.mem_range, List.contains_iff_mem]
    exact ⟨fun isDim => ⟨pass.valid d isDim, isDim⟩, fun both => both.2⟩
  exact ((batch_perm lib self dim).append transformed).trans
    (List.perm_append_comm.trans (List.filter_append_perm _ _))

theorem signal_pos : ∀ d ∈ dim, 1 ≤ outSizes.getD d 0 := by
  intro d isDim
  have positive := pass.positive d isDim
  rcases pass.signal d isDim with same | half <;> omega

theorem checkSignal_ok : checkSignal outSizes (dim.zip (arrange dim self.sizes)) = .ok () := by
  have passes : ∀ dims : List Nat, (∀ d ∈ dims, d ∈ dim) →
      checkSignal outSizes (dims.zip (arrange dims self.sizes)) = .ok () := by
    intro dims among
    induction dims with
    | nil => rfl
    | cons d dims ih =>
      simp only [List.forall_mem_cons] at among
      have positive := pass.positive d among.1
      have inHalf : (self.sizes.getD d 0 = max (self.sizes.getD d 0) (outSizes.getD d 0) ||
          self.sizes.getD d 0 = max (self.sizes.getD d 0) (outSizes.getD d 0) / 2 + 1) = true := by
        simp only [Bool.or_eq_true, decide_eq_true_eq]
        rcases pass.signal d among.1 with same | half <;> omega
      have outHalf : (outSizes.getD d 0 = max (self.sizes.getD d 0) (outSizes.getD d 0) ||
          outSizes.getD d 0 = max (self.sizes.getD d 0) (outSizes.getD d 0) / 2 + 1) = true := by
        simp only [Bool.or_eq_true, decide_eq_true_eq]
        rcases pass.signal d among.1 with same | half <;> omega
      simp only [arrange, List.map_cons, List.zip_cons_cons, checkSignal, internalAssert, inHalf,
        outHalf, if_true]
      exact ih among.2
  exact passes dim fun _ isDim => isDim

section Order
variable {batch : List Nat} (order : (batch ++ dim).Perm (List.range self.sizes.length))
include order

omit pass in
theorem permuted_sizes : (self.permute (batch ++ dim)).sizes.drop (self.sizes.length - dim.length) =
    arrange dim self.sizes := by
  have ranks : batch.length + dim.length = self.sizes.length := by
    simpa using order.length_eq
  have sizesOf : (self.permute (batch ++ dim)).sizes =
      arrange batch self.sizes ++ arrange dim self.sizes := arrange_append _ _ _
  rw [sizesOf, List.drop_left' (by simp [arrange]; omega)]

omit order in
/-- The size of the batch is inferred. -/
theorem reshapeSizes_ok (lib : Library) :
    lib.reshapeSizes (self.permute (batch ++ dim)) (arrange dim self.sizes) =
      .ok (numel (arrange batch self.sizes) :: arrange dim self.sizes) := by
  refine lib.reshapeSizes_infers _ _ _ ?_ ?_
  · rw [Ne, Resize.numel_eq_zero, arrange, List.mem_map]
    rintro ⟨d, isDim, zero⟩
    have positive := pass.positive d isDim
    omega
  · rw [show (self.permute (batch ++ dim)).sizes =
      arrange batch self.sizes ++ arrange dim self.sizes from arrange_append _ _ _]
    exact List.prod_append

/-- The strides of the view of the output are in the order of the dimensions. -/
theorem view_strides : ∃ view,
    setStrides (batchStrides outSizes self.sizes.length (arrange dim outSizes).prod batch).1
      (dim.zip (productStrides (arrange dim outSizes))) = view ∧ view.length = outSizes.length ∧
    arrange (batch ++ dim) view = productStrides (arrange (batch ++ dim) outSizes) := by
  have distinct := order.nodup_iff.mpr List.nodup_range
  obtain ⟨batchDistinct, -, apart⟩ := List.nodup_append.mp distinct
  have batchValid : ∀ d ∈ batch, d < self.sizes.length := fun d isBatch =>
    List.mem_range.mp (order.subset (List.mem_append_left dim isBatch))
  obtain ⟨length, batchStride, -⟩ :=
    batchStrides_spec outSizes (arrange dim outSizes).prod batchDistinct batchValid
  generalize batchStrides outSizes self.sizes.length (arrange dim outSizes).prod batch =
    strides at length batchStride ⊢
  refine ⟨_, rfl, by rw [length_setStrides, length, pass.rank], ?_⟩
  have batchView : arrange batch (setStrides strides.1
      (dim.zip (productStrides (arrange dim outSizes)))) = arrange batch strides.1 := by
    refine arrange_setStrides_of_notMem (fun pair isPair isBatch => ?_) _
    exact apart _ isBatch _ (List.of_mem_zip isPair).1 rfl
  have dimView : arrange dim (setStrides strides.1
      (dim.zip (productStrides (arrange dim outSizes)))) = productStrides (arrange dim outSizes) := by
    refine arrange_setStrides pass.distinct (fun d isDim => length ▸ pass.valid d isDim) ?_
    rw [length_productStrides, arrange, List.length_map]
  rw [arrange_append, arrange_append, batchView, dimView, batchStride, productStrides_append]

/-- The output that is resized for the transform has the elements of the output sizes. -/
theorem numel_resized :
    numel (numel (arrange batch outSizes) :: arrange dim outSizes) = numel outSizes := by
  have whole : arrange (List.range self.sizes.length) outSizes = outSizes := by
    rw [← pass.rank, arrange_range]
  calc (arrange batch outSizes).prod * (arrange dim outSizes).prod
      = (arrange (batch ++ dim) outSizes).prod := by rw [arrange_append, List.prod_append]
    _ = (arrange (List.range self.sizes.length) outSizes).prod := (order.map _).prod_eq
    _ = outSizes.prod := by rw [whole]

/-- A view in order fits in the storage of the resized output. -/
theorem view_fits (lib : Library) (out : Tensor) {view : List Nat} (resized : Tensor)
    (isResized : lib.resize out (numel (arrange batch outSizes) :: arrange dim outSizes) = resized)
    (ordered : Tensor.Ordered { resized with sizes := outSizes, strides := view }) :
    Tensor.needed { resized with sizes := outSizes, strides := view } ≤ resized.storage := by
  have elements := pass.numel_resized order
  have noElements : 0 ∈ numel (arrange batch outSizes) :: arrange dim outSizes ↔ 0 ∈ outSizes := by
    rw [← Resize.numel_eq_zero, elements, Resize.numel_eq_zero]
  refine ordered.needed_le.trans ?_
  have holds := lib.numel_le_storage out (numel (arrange batch outSizes) :: arrange dim outSizes)
  simpa only [noElements, elements, isResized] using holds

end Order

/-- The strides of the resized output. -/
theorem resized_strides (lib : Library) (out : Tensor) (batchSize : Nat) :
    (lib.resize out (batchSize :: arrange dim outSizes)).strides =
      (arrange dim outSizes).prod :: productStrides (arrange dim outSizes) := by
  have positive : 0 ∉ arrange dim outSizes := by
    rw [arrange, List.mem_map]
    rintro ⟨d, isDim, zero⟩
    have least := pass.signal_pos d isDim
    omega
  rw [← contiguousStrides_eq positive, lib.resize_strides, contiguousStrides,
    Resize.map_max_one positive]
  rfl

/-- A pass computes sizes and strides in order. -/
theorem execFft_ok (lib : Library) (out : Tensor) : ∃ result,
    execFft lib out self outSizes dim = .ok result ∧ result.sizes = outSizes ∧ result.Ordered := by
  have order := @order_perm lib _ _ _ pass
  have batchPerm := batch_perm lib self dim
  generalize batch_eq : (dimPermute lib self dim).1 = batch at order batchPerm
  have permuted : dimPermute lib self dim = (batch, dim) := Prod.ext batch_eq rfl
  have batchSame : arrange batch self.sizes = arrange batch outSizes := by
    refine List.map_congr_left fun d isBatch => ?_
    have other := List.mem_filter.mp (batchPerm.subset isBatch)
    exact (pass.batch d (List.mem_range.mp other.1) (by simpa using other.2)).symm
  have inferred := @reshapeSizes_ok _ _ _ pass batch lib
  rw [batchSame] at inferred
  simp only [execFft, permuted, permuted_sizes order, inferred]
  simp only [bind, Except.bind, List.tail_cons, List.headD_cons, pass.checkSignal_ok]
  rw [← arrange]
  have strides := pass.resized_strides lib out (numel (arrange batch outSizes))
  generalize resized_eq :
    lib.resize out (numel (arrange batch outSizes) :: arrange dim outSizes) = resized at strides ⊢
  simp only [strides, List.headD_cons, List.tail_cons]
  obtain ⟨view, view_eq, length, inOrder⟩ := pass.view_strides order
  rw [view_eq]
  have ordered : Tensor.Ordered { resized with sizes := outSizes, strides := view } :=
    ⟨length, batch ++ dim, pass.rank ▸ order, fun _ => inOrder⟩
  have fits := pass.view_fits order lib out resized resized_eq ordered
  exact ⟨{ resized with sizes := outSizes, strides := view },
    lib.asStrided_view _ _ _ _ length.symm fits, rfl, ordered⟩

end Pass

end Pass

/-! ### Complex transforms -/

/-- Distinct dimensions of positive sizes. -/
structure Transforms (sizes dims : List Nat) : Prop where
  distinct : dims.Nodup
  valid : ∀ d ∈ dims, d < sizes.length
  positive : ∀ d ∈ dims, 1 ≤ sizes.getD d 0

namespace Transforms
variable {sizes dims : List Nat} (transforms : Transforms sizes dims)
include transforms

theorem perm {others : List Nat} (perm : others.Perm dims) : Transforms sizes others where
  distinct := perm.nodup_iff.mpr transforms.distinct
  valid d isDim := transforms.valid d (perm.subset isDim)
  positive d isDim := transforms.positive d (perm.subset isDim)

theorem sublist {others : List Nat} (sublist : others.Sublist dims) : Transforms sizes others where
  distinct := transforms.distinct.sublist sublist
  valid d isDim := transforms.valid d (sublist.subset isDim)
  positive d isDim := transforms.positive d (sublist.subset isDim)

/-- A pass that keeps the sizes. -/
theorem pass {working : Tensor} (sizes_eq : working.sizes = sizes) : Pass working sizes dims where
  rank := by rw [sizes_eq]
  distinct := transforms.distinct
  valid := sizes_eq ▸ transforms.valid
  batch d _ _ := by rw [sizes_eq]
  positive := sizes_eq ▸ transforms.positive
  signal d _ := .inl (by rw [sizes_eq])

end Transforms

/-- A tensor of the sizes that are asked for, with strides in order. -/
def Shaped (sizes : List Nat) (result : Except Error Tensor) : Prop :=
  ∃ tensor, result = .ok tensor ∧ tensor.sizes = sizes ∧ tensor.Ordered

/-- Every pass transforms some of the dimensions, until none is left. -/
theorem c2cPasses_shaped (lib : Library) {sizes : List Nat} (dtype : ScalarType) {fuel : Nat}
    {first : Bool} {output working : Tensor} {sortedDims : List Nat}
    (transforms : Transforms sizes sortedDims) (some : sortedDims ≠ [])
    (enough : sortedDims.length ≤ fuel) (sizes_eq : working.sizes = sizes) :
    Shaped sizes (c2cPasses lib sizes dtype fuel first output working sortedDims) := by
  induction fuel generalizing first output working sortedDims with
  | zero => exact absurd (List.eq_nil_of_length_eq_zero (Nat.le_zero.mp enough)) some
  | succ fuel ih =>
    rw [c2cPasses]
    have perm := lib.sort_perm (byStrides working.strides) sortedDims
    generalize lib.sort (byStrides working.strides) sortedDims = sorted at perm ⊢
    have transforms := transforms.perm perm
    have length : 0 < sorted.length := by
      rw [perm.length_eq]
      exact List.length_pos_of_ne_nil some
    generalize kept_eq : sorted.length - min maxNdim sorted.length = kept
    have fewer : kept < sorted.length := by
      rw [← kept_eq, maxNdim]
      omega
    obtain ⟨result, ran, resultSizes, ordered⟩ :=
      ((transforms.sublist (List.drop_sublist kept sorted)).pass sizes_eq).execFft_ok lib output
    simp only [ran, bind, Except.bind]
    have rest := transforms.sublist (List.take_sublist kept sorted)
    have restLength : (sorted.take kept).length ≤ fuel := by
      rw [List.length_take]
      have same := perm.length_eq
      omega
    split
    · exact ⟨result, rfl, resultSizes, ordered⟩
    · rename_i remaining
      have some : sorted.take kept ≠ [] := by simpa using remaining
      split
      · exact ih rest some restLength resultSizes
      · exact ih rest some restLength resultSizes

theorem fftC2c_shaped (lib : Library) {self : Tensor} {dim : List Nat}
    (isComplex : isComplex self.dtype = true) (transforms : Transforms self.sizes dim)
    (some : dim ≠ []) : Shaped self.sizes (fftC2c lib self dim) := by
  simp only [fftC2c, torchCheck, isComplex, if_true, List.isEmpty_iff, some, if_false]
  exact c2cPasses_shaped lib self.dtype transforms some (Nat.le_refl _) rfl

/-! ### Real transforms -/

section Real
variable {self : Tensor} {dim : List Nat} (transforms : Transforms self.sizes dim)
  (some : dim ≠ [])

theorem last_mem (some : dim ≠ []) : dim.getLastD 0 ∈ dim := by
  rw [List.getLastD_eq_getLast?, List.getLast?_eq_some_getLast some]
  exact List.getLast_mem some

include transforms in
theorem Transforms.halved : Transforms (halve self.sizes (dim.getLastD 0)) dim where
  distinct := transforms.distinct
  valid d isDim := by simpa [halve] using transforms.valid d isDim
  positive d isDim := by
    have valid := transforms.valid d isDim
    by_cases last : dim.getLastD 0 = d
    · rw [halve, last, getD_set valid]
      omega
    · rw [halve, getD_set_ne last]
      exact transforms.positive d isDim

include transforms in
/-- A pass over dimensions with the last one, which halves it. -/
theorem Transforms.halving {working : Tensor} {dims : List Nat}
    (sizes_eq : working.sizes = self.sizes) (among : dims.Sublist dim)
    (last : dim.getLastD 0 ∈ dims) : Pass working (halve self.sizes (dim.getLastD 0)) dims where
  rank := by simp [halve, sizes_eq]
  distinct := transforms.distinct.sublist among
  valid d isDim := sizes_eq ▸ transforms.valid d (among.subset isDim)
  batch d _ other := by
    have apart : dim.getLastD 0 ≠ d := fun same => other (same ▸ last)
    rw [halve, getD_set_ne apart, sizes_eq]
  positive d isDim := sizes_eq ▸ transforms.positive d (among.subset isDim)
  signal d isDim := by
    by_cases same : dim.getLastD 0 = d
    · right
      rw [halve, same, getD_set (transforms.valid d (among.subset isDim)), sizes_eq]
    · left
      rw [halve, getD_set_ne same, sizes_eq]

/-- The dimension that was moved to the end comes back. -/
theorem cloneWithLast_sizes (lib : Library) {d : Nat} (valid : d < self.sizes.length) :
    (cloneWithLast lib self d).sizes = self.sizes := by
  have last : self.sizes.getD d 0 = self.sizes[d] := by simp [valid]
  simp only [cloneWithLast, Tensor.movedimBack, lib.clone_sizes, Tensor.movedimLast,
    List.dropLast_concat, List.getLastD_concat, last, List.insertIdx_eraseIdx_getElem valid]

/-- Every pass keeps the onesided sizes. -/
theorem r2cPasses_shaped (lib : Library) {sizes : List Nat} {fuel : Nat}
    {output working : Tensor} {sortedDims : List Nat} (transforms : Transforms sizes sortedDims)
    (enough : sortedDims.length ≤ fuel) (sizes_eq : output.sizes = sizes)
    (ordered : output.Ordered) :
    Shaped sizes (r2cPasses lib sizes fuel output working sortedDims) := by
  induction fuel generalizing output working sortedDims with
  | zero =>
    rw [List.eq_nil_of_length_eq_zero (Nat.le_zero.mp enough)]
    exact ⟨output, rfl, sizes_eq, ordered⟩
  | succ fuel ih =>
    rw [r2cPasses]
    split
    · exact ⟨output, rfl, sizes_eq, ordered⟩
    · rename_i remaining
      have perm := lib.sort_perm (byStrides output.strides) sortedDims
      have length : 0 < (lib.sort (byStrides output.strides) sortedDims).length := by
        rw [perm.length_eq]
        exact List.length_pos_of_ne_nil (by simpa using remaining)
      have transforms := transforms.perm perm
      dsimp only
      generalize lib.sort (byStrides output.strides) sortedDims = sorted at *
      generalize kept_eq : sorted.length - min maxNdim sorted.length = kept
      have fewer : kept < sorted.length := by
        rw [← kept_eq, maxNdim]
        omega
      obtain ⟨result, ran, resultSizes, ordered⟩ :=
        ((transforms.sublist (List.drop_sublist kept sorted)).pass sizes_eq).execFft_ok lib working
      simp only [ran, bind, Except.bind]
      have restLength : (sorted.take kept).length ≤ fuel := by
        rw [List.length_take]
        have same := perm.length_eq
        omega
      exact ih (transforms.sublist (List.take_sublist kept sorted)) restLength resultSizes ordered

include transforms some in
theorem r2cTransforms_shaped (lib : Library) (outSizes : List Nat) (dtype : ScalarType)
    (output : Tensor) {working : Tensor} (sizes_eq : working.sizes = self.sizes)
    (several : 1 < dim.length) : Shaped (halve self.sizes (dim.getLastD 0))
      (r2cTransforms lib outSizes (halve self.sizes (dim.getLastD 0)) dtype output working dim) := by
  have single : [dim.getLastD 0].Sublist dim := List.singleton_sublist.mpr (last_mem some)
  obtain ⟨result, ran, resultSizes, ordered⟩ :=
    (transforms.halving sizes_eq single (List.mem_singleton_self _)).execFft_ok lib output
  have notOne : dim.length ≠ 1 := by omega
  simp only [r2cTransforms, notOne, if_false, ran, bind, Except.bind]
  exact r2cPasses_shaped lib (transforms.halved.sublist (List.dropLast_sublist dim))
    (by simp) resultSizes ordered

/-! ### The symmetric half -/

theorem productStrides_pos {sizes : List Nat} (nonempty : 0 ∉ sizes) :
    ∀ stride ∈ productStrides sizes, 0 < stride := by
  induction sizes with
  | nil => exact fun _ never => absurd never List.not_mem_nil
  | cons size sizes ih =>
    have rest : 0 ∉ sizes := fun zero => nonempty (by simp [zero])
    have positive : 0 < sizes.prod :=
      Nat.pos_of_ne_zero fun zero => rest (Resize.numel_eq_zero.mp zero)
    exact List.forall_mem_cons.mpr ⟨positive, ih rest⟩

/-- A tensor in order with elements has no stride of zero. -/
theorem Tensor.Ordered.not_overlap {tensor : Tensor} (ordered : tensor.Ordered)
    (elements : numel tensor.sizes ≠ 0) : hasInternalOverlap tensor = false := by
  have nonempty : 0 ∉ tensor.sizes := fun zero => elements (Resize.numel_eq_zero.mpr zero)
  obtain ⟨order, perm, same⟩ := ordered.order
  have permuted : (arrange order tensor.strides).Perm tensor.strides := by
    have all := perm.map (tensor.strides.getD · 0)
    rwa [← ordered.length, ← arrange, ← arrange, arrange_range] at all
  have sizes : 0 ∉ arrange order tensor.sizes := by
    have all := perm.map (tensor.sizes.getD · 0)
    rw [← arrange, ← arrange, arrange_range] at all
    exact fun zero => nonempty (all.subset zero)
  rw [hasInternalOverlap, List.any_eq_false]
  rintro ⟨size, stride⟩ isDim
  have isStride := permuted.mem_iff.mpr (List.of_mem_zip isDim).2
  rw [same nonempty] at isStride
  have positive := productStrides_pos sizes stride isStride
  simp only [decide_eq_true_eq, not_and]
  omega

/-- All transformed dimensions but the last one are mirrored. -/
theorem mirrorDims_length {dimPermute : List Nat} {batch transformed : Nat}
    (perm : dimPermute.Perm (List.range (batch + transformed))) (some : 0 < transformed) :
    ((List.range (batch + transformed)).filter fun i =>
      decide (batch ≤ dimPermute.getD i 0) &&
        decide (dimPermute.getD i 0 ≠ batch + transformed - 1)).length = transformed - 1 := by
  have length : dimPermute.length = batch + transformed := by simpa using perm.length_eq
  obtain ⟨others, rfl⟩ := Nat.exists_eq_add_one_of_ne_zero (Nat.ne_of_gt some)
  have read : (List.range (batch + (others + 1))).map (dimPermute.getD · 0) = dimPermute := by
    rw [← length]
    exact arrange_range dimPermute
  have counted : ∀ holds : Nat → Bool, ((List.range (batch + (others + 1))).filter fun i =>
      holds (dimPermute.getD i 0)).length =
        ((List.range (batch + (others + 1))).filter holds).length := by
    intro holds
    rw [← (perm.filter holds).length_eq]
    conv_rhs => rw [← read, List.filter_map, List.length_map]
    rfl
  rw [counted fun d => decide (batch ≤ d) && decide (d ≠ batch + (others + 1) - 1), List.range_add,
    List.range_succ, List.filter_append, List.map_append, List.filter_append]
  have front : (List.range batch).filter (fun d =>
      decide (batch ≤ d) && decide (d ≠ batch + (others + 1) - 1)) = [] := by
    rw [List.filter_eq_nil_iff]
    intro d isDim
    have small := List.mem_range.mp isDim
    simp only [Bool.and_eq_true, decide_eq_true_eq, not_and]
    omega
  have back : ((List.range others).map (batch + ·)).filter (fun d =>
      decide (batch ≤ d) && decide (d ≠ batch + (others + 1) - 1)) =
        (List.range others).map (batch + ·) := by
    rw [List.filter_eq_self]
    intro d isDim
    obtain ⟨i, isIndex, rfl⟩ := List.mem_map.mp isDim
    have small := List.mem_range.mp isIndex
    simp only [Bool.and_eq_true, decide_eq_true_eq]
    omega
  rw [front, back]
  simp

theorem fillWithConjugateSymmetry_ok (lib : Library) (iterator : Iterator) {input : Tensor}
    (ordered : input.Ordered) (some : dim ≠ []) :
    fillWithConjugateSymmetry lib iterator input dim = .ok () := by
  simp only [fillWithConjugateSymmetry, torchCheck, List.isEmpty_eq_false_iff.mpr some,
    Bool.not_false, if_true, Bool.or_eq_true, decide_eq_true_eq]
  simp only [bind, Except.bind]
  split
  · rfl
  · rename_i large
    simp only [not_or, Nat.not_le] at large
    have last : dim.getLastD 0 ∈ dim.filter fun d => !decide (input.sizes.getD d 0 ≤ 2) := by
      refine List.mem_filter.mpr ⟨last_mem some, ?_⟩
      simpa using large.2
    have kept := List.length_pos_of_mem last
    simp only [ordered.not_overlap large.1, Bool.not_false, if_true, internalAssert]
    rw [mirrorDims_length (lib.sort_perm _ _) kept]
    simp

include transforms some in
/-- The half of a dimension of one or two is the whole. -/
theorem halve_eq_self (same : (halve self.sizes (dim.getLastD 0)).getD (dim.getLastD 0) 0 =
    self.sizes.getD (dim.getLastD 0) 0) : halve self.sizes (dim.getLastD 0) = self.sizes := by
  have valid := transforms.valid _ (last_mem some)
  rw [halve, getD_set valid] at same
  rw [halve, same, List.getD_eq_getElem?_getD, List.getElem?_eq_getElem valid, Option.getD_some,
    List.set_getElem_self]

include transforms some in
theorem completeSymmetry_shaped (lib : Library) (iterator : Iterator) (dtype : ScalarType)
    {output : Tensor} (sizes_eq : output.sizes = self.sizes ∨
      output.sizes = halve self.sizes (dim.getLastD 0)) (ordered : output.Ordered) :
    Shaped self.sizes (completeSymmetry lib iterator self.sizes dtype output dim) := by
  unfold completeSymmetry
  dsimp only
  split
  · have new := lib.ordered_resize (empty self.sizes dtype) self.sizes
    rw [fillWithConjugateSymmetry_ok lib iterator new some]
    exact ⟨_, rfl, lib.resize_sizes _ _, new⟩
  · rename_i same
    rw [fillWithConjugateSymmetry_ok lib iterator ordered some]
    refine ⟨_, rfl, ?_, ordered⟩
    rcases sizes_eq with whole | halved
    · exact whole
    · simp only [ne_eq, Decidable.not_not] at same
      rw [halved] at same ⊢
      exact halve_eq_self transforms some same

/-- The path that is not optimized has several dimensions. -/
theorem several_of_not_optimized (slow : useOptimizedCufftPath dim = false) : 1 < dim.length := by
  simp only [useOptimizedCufftPath, Bool.not_eq_false', Bool.or_eq_true, Bool.and_eq_true,
    decide_eq_true_eq] at slow
  have three : maxNdim = 3 := rfl
  omega

include transforms some in
/-- Both paths compute the sizes that are asked for, or the onesided ones. -/
theorem r2cTransform_shaped (lib : Library) (onesided : Bool) (dtype : ScalarType)
    {working : Tensor} (sizes_eq : working.sizes = self.sizes) :
    let half := halve self.sizes (dim.getLastD 0)
    let outSizes := if onesided then half else self.sizes
    ∃ output, r2cTransform lib outSizes half dtype working dim = .ok output ∧
      (output.sizes = outSizes ∨ output.sizes = half) ∧ output.Ordered := by
  intro half outSizes
  cases optimized : useOptimizedCufftPath dim with
  | true =>
    have pass : Pass working outSizes dim := by
      cases onesided with
      | true => exact transforms.halving sizes_eq (List.Sublist.refl dim) (last_mem some)
      | false => exact transforms.pass sizes_eq
    obtain ⟨output, ran, sizes, ordered⟩ := pass.execFft_ok lib (empty outSizes dtype)
    simp only [r2cTransform, optimized, if_true]
    exact ⟨output, ran, .inl sizes, ordered⟩
  | false =>
    obtain ⟨output, ran, sizes, ordered⟩ := r2cTransforms_shaped transforms some lib outSizes dtype
      (empty outSizes dtype) sizes_eq (several_of_not_optimized optimized)
    simp only [r2cTransform, optimized, Bool.false_eq_true, if_false]
    exact ⟨output, ran, .inr sizes, ordered⟩

include transforms some in
theorem fftR2c_shaped (lib : Library) (iterator : Iterator) (complexAligned onesided : Bool)
    {dtype : ScalarType} (isFloatingPoint : isFloatingPoint self.dtype = true)
    (isComplex : toComplexType self.dtype = .ok dtype) :
    Shaped (if onesided then halve self.sizes (dim.getLastD 0) else self.sizes)
      (fftR2c lib iterator complexAligned self dim onesided) := by
  have valid := transforms.valid _ (last_mem some)
  have working : (if complexAligned then self else
      cloneWithLast lib self (dim.getLastD 0)).sizes = self.sizes := by
    cases complexAligned with
    | true => rfl
    | false => exact cloneWithLast_sizes lib valid
  obtain ⟨output, ran, sizes, ordered⟩ :=
    r2cTransform_shaped transforms some lib onesided dtype working
  simp only [fftR2c, torchCheck, isFloatingPoint, if_true, isComplex]
  simp only [bind, Except.bind, ran]
  cases onesided with
  | true => exact ⟨output, rfl, sizes.elim id id, ordered⟩
  | false => exact completeSymmetry_shaped transforms some lib iterator dtype sizes ordered

end Real

/-! ### Dense results -/

/-- A tensor of the sizes that are asked for is returned: its strides are contiguous in some order,
and its indices address distinct elements, which are as many as it has. -/
def Returns (sizes : List Nat) (result : Except Error Tensor) : Prop :=
  ∃ tensor, result = .ok tensor ∧ tensor.sizes = sizes ∧ tensor.Ordered ∧
    Dense tensor.sizes tensor.strides

theorem Shaped.returns {sizes : List Nat} {result : Except Error Tensor}
    (shaped : Shaped sizes result) : Returns sizes result := by
  obtain ⟨tensor, ran, sizes_eq, ordered⟩ := shaped
  exact ⟨tensor, ran, sizes_eq, ordered, ordered.dense⟩

/-- The transforms of complex and of real tensors return dense tensors, over any list of distinct
dimensions and whatever the strides of the argument are. -/
theorem fft_returns (lib : Library) (iterator : Iterator) {self : Tensor} {dim : List Nat}
    (transforms : Transforms self.sizes dim) (some : dim ≠ []) :
    (isComplex self.dtype = true → Returns self.sizes (fftC2c lib self dim)) ∧
      ∀ complexAligned onesided dtype, isFloatingPoint self.dtype = true →
        toComplexType self.dtype = .ok dtype →
          Returns (if onesided then halve self.sizes (dim.getLastD 0) else self.sizes)
            (fftR2c lib iterator complexAligned self dim onesided) :=
  ⟨fun isComplex => (fftC2c_shaped lib isComplex transforms some).returns,
    fun complexAligned onesided _ isFloatingPoint isComplex =>
      (fftR2c_shaped transforms some lib iterator complexAligned onesided isFloatingPoint
        isComplex).returns⟩

/-- The functions as they are documented. -/
def Library.documented : Library where
  sort less values := values.insertionSort fun a b => !less b a
  sort_perm _ _ := List.perm_insertionSort _ _
  partition holds values := (values.filter holds, values.filter (!holds ·))
  partition_fst _ _ := List.Perm.refl _
  resize tensor sizes :=
    let resized := { tensor with sizes, strides := contiguousStrides sizes }
    { resized with storage := max tensor.storage resized.needed }
  resize_sizes _ _ := rfl
  resize_strides _ _ := rfl
  resize_storage _ _ := Nat.le_max_right _ _
  reshapeSizes tensor sizes :=
    if numel sizes ≠ 0 ∧ numel sizes ∣ numel tensor.sizes then
      .ok (numel tensor.sizes / numel sizes :: sizes)
    else .error (.torchCheck "shape is invalid for input")
  reshapeSizes_infers _ sizes batch nonzero product := by
    rw [product, if_pos ⟨nonzero, Nat.dvd_mul_left _ _⟩,
      Nat.mul_div_cancel _ (Nat.pos_of_ne_zero nonzero)]
  asStrided tensor sizes strides storageOffset :=
    let view := { tensor with sizes, strides, storageOffset }
    if sizes.length = strides.length ∧ view.needed ≤ tensor.storage then .ok view
    else .error (.torchCheck "setStorage: out of bounds for storage")
  asStrided_view _ _ _ _ length fits := if_pos ⟨length, fits⟩
  clone tensor := empty tensor.sizes tensor.dtype
  clone_sizes _ := rfl

/-- A tensor of six dimensions, in another order than the one they are stored in. -/
def permuted (dtype : ScalarType) : Tensor where
  sizes := [2, 3, 2, 4, 5, 3]
  strides := [120, 4, 60, 1, 12, 240]
  storageOffset := 7
  storage := 727
  dtype := dtype

/-- Every dimension that is not mirrored, on its own. -/
def uncoalesced : Iterator := fun input dim =>
  ((List.range input.sizes.length).filter (· ∉ dim)).map fun d =>
    (input.strides.getD d 0 * elementSize input.dtype, input.sizes.getD d 0)

/-- Four of the six dimensions are transformed, in two passes. -/
theorem fft_returns_permuted :
    Returns [2, 3, 2, 4, 5, 3] (fftC2c .documented (permuted .complexFloat) [4, 0, 1, 3]) ∧
      Returns [2, 3, 2, 3, 5, 3]
        (fftR2c .documented uncoalesced false (permuted .float) [4, 0, 1, 3] true) ∧
      Returns [2, 3, 2, 4, 5, 3]
        (fftR2c .documented uncoalesced true (permuted .float) [4, 0, 1, 3] false) ∧
      (fftC2c .documented (permuted .complexFloat) [4, 0, 1, 3]).toOption.map Tensor.strides =
        some [1, 8, 120, 2, 24, 240] := by
  have complex : Transforms (permuted .complexFloat).sizes [4, 0, 1, 3] :=
    ⟨by decide, by decide, by decide⟩
  have float : Transforms (permuted .float).sizes [4, 0, 1, 3] := complex
  have real := (fft_returns .documented uncoalesced float (by decide)).2
  refine ⟨(fft_returns .documented uncoalesced complex (by decide)).1 rfl, ?_, ?_, ?_⟩
  · exact real false true .complexFloat rfl rfl
  · exact real true false .complexFloat rfl rfl
  · decide +kernel

end TorchGcu.SpectralOps

import Mathlib.Algebra.BigOperators.Group.List.Lemmas
import Mathlib.Algebra.BigOperators.Ring.List
import Mathlib.Data.List.Forall2
import Mathlib.Data.List.Perm.Basic
import Mathlib.Data.List.Range
import Mathlib.Tactic.Ring

/-! Strided layouts. An index addresses the sum of its coordinates times the strides; a layout is
dense when the addresses of distinct indices are distinct and fill an interval. -/
namespace StridedLayout

/-- The address of an index. -/
def address (strides index : List Nat) : Nat := (List.zipWith (· * ·) strides index).sum

/-- The coordinates are below the sizes. -/
def InBounds (sizes index : List Nat) : Prop := List.Forall₂ (· < ·) index sizes

/-- Distinct indices have distinct addresses, which are the first ones. -/
structure Dense (sizes strides : List Nat) : Prop where
  injective : ∀ index other, InBounds sizes index → InBounds sizes other →
    address strides index = address strides other → index = other
  covers : ∀ place, (∃ index, InBounds sizes index ∧ address strides index = place) ↔
    place < sizes.prod

/-- The strides of the layout with the last coordinate running first. -/
def productStrides : List Nat → List Nat
  | [] => []
  | _ :: sizes => sizes.prod :: productStrides sizes

theorem address_lt {sizes index : List Nat} (bounds : InBounds sizes index) :
    address (productStrides sizes) index < sizes.prod := by
  induction bounds with
  | nil => simp [address, productStrides]
  | @cons i size index sizes below _ ih =>
    have rest : address (productStrides sizes) index < sizes.prod := ih
    have whole : address (productStrides (size :: sizes)) (i :: index) =
        sizes.prod * i + address (productStrides sizes) index := by
      simp [address, productStrides]
    rw [whole, List.prod_cons]
    calc sizes.prod * i + address (productStrides sizes) index
        < sizes.prod * i + sizes.prod := Nat.add_lt_add_left rest _
      _ = sizes.prod * (i + 1) := by ring
      _ ≤ sizes.prod * size := Nat.mul_le_mul_left _ below
      _ = size * sizes.prod := Nat.mul_comm _ _

theorem address_cons (stride i : Nat) (strides index : List Nat) :
    address (stride :: strides) (i :: index) = stride * i + address strides index := by
  simp [address]

/-- Quotient and remainder by the first stride find the coordinates again. -/
theorem dense_productStrides (sizes : List Nat) : Dense sizes (productStrides sizes) := by
  induction sizes with
  | nil =>
    refine ⟨fun index other bounds bounds' _ => ?_, fun place => ?_⟩
    · rw [List.forall₂_nil_right_iff.mp bounds, List.forall₂_nil_right_iff.mp bounds']
    · constructor
      · rintro ⟨index, bounds, rfl⟩
        exact address_lt bounds
      · intro small
        exact ⟨[], List.Forall₂.nil, by simp at small; simp [address, small]⟩
  | cons size sizes ih =>
    refine ⟨fun index other bounds bounds' same => ?_, fun place => ?_⟩
    · obtain ⟨i, rest, below, inside, rfl⟩ := List.forall₂_cons_right_iff.mp bounds
      obtain ⟨j, rest', below', inside', rfl⟩ := List.forall₂_cons_right_iff.mp bounds'
      have small := address_lt inside
      have small' := address_lt inside'
      simp only [productStrides, address_cons] at same
      have positive : 0 < sizes.prod := Nat.zero_lt_of_lt small
      have first : i = j := by
        have quotients := congrArg (· / sizes.prod) same
        simpa [Nat.mul_add_div positive, Nat.div_eq_of_lt small, Nat.div_eq_of_lt small']
          using quotients
      subst first
      rw [ih.injective _ _ inside inside' (Nat.add_left_cancel same)]
    · constructor
      · rintro ⟨index, bounds, rfl⟩
        exact address_lt bounds
      · intro small
        rw [List.prod_cons] at small
        have positive : 0 < sizes.prod := Nat.pos_of_ne_zero fun zero => by simp [zero] at small
        obtain ⟨index, bounds, place_eq⟩ :=
          (ih.covers (place % sizes.prod)).mpr (Nat.mod_lt _ positive)
        refine ⟨place / sizes.prod :: index,
          List.Forall₂.cons ((Nat.div_lt_iff_lt_mul positive).mpr small) bounds, ?_⟩
        simp only [productStrides, address_cons, place_eq, Nat.div_add_mod]

/-! ### Layouts in another order of the dimensions -/

/-- A list, read in an order of its positions. -/
def arrange (order values : List Nat) : List Nat := order.map (values.getD · 0)

theorem arrange_append (front back values : List Nat) :
    arrange (front ++ back) values = arrange front values ++ arrange back values :=
  List.map_append

theorem arrange_range (values : List Nat) :
    arrange (List.range values.length) values = values := by
  refine List.ext_getElem (by simp [arrange]) fun d small small' => ?_
  simp [arrange, small']

theorem inBounds_iff {sizes index : List Nat} : InBounds sizes index ↔
    index.length = sizes.length ∧ ∀ d < sizes.length, index.getD d 0 < sizes.getD d 0 := by
  rw [InBounds, List.forall₂_iff_get]
  refine and_congr_right fun length => ?_
  constructor
  · intro below d small
    simpa [small, length] using below d (length ▸ small) small
  · intro below d small small'
    simpa [small, small'] using below d small'

variable {order sizes strides : List Nat}

theorem address_arrange (order strides index : List Nat) :
    address (arrange order strides) (arrange order index) =
      (order.map fun d => strides.getD d 0 * index.getD d 0).sum := by
  induction order with
  | nil => rfl
  | cons d order ih =>
    have ih : address (order.map (strides.getD · 0)) (order.map (index.getD · 0)) = _ := ih
    simp only [arrange, List.map_cons, address_cons, ih, List.sum_cons]

/-- The order in which the terms are summed does not matter. -/
theorem address_arrange_perm (perm : order.Perm (List.range sizes.length))
    (strideLength : strides.length = sizes.length) {index : List Nat}
    (indexLength : index.length = sizes.length) :
    address (arrange order strides) (arrange order index) = address strides index := by
  rw [address_arrange, (perm.map _).sum_eq, ← address_arrange]
  rw [← strideLength, arrange_range, strideLength, ← indexLength, arrange_range]

theorem inBounds_arrange (perm : order.Perm (List.range sizes.length)) {index : List Nat}
    (length : index.length = sizes.length) :
    InBounds (arrange order sizes) (arrange order index) ↔ InBounds sizes index := by
  rw [@inBounds_iff sizes index, and_iff_right length]
  simp only [InBounds, arrange, List.forall₂_map_left_iff, List.forall₂_map_right_iff,
    List.forall₂_same, perm.mem_iff, List.mem_range]

/-- Every list is read from another one. -/
theorem exists_arrange (perm : order.Perm (List.range sizes.length)) {values : List Nat}
    (length : values.length = order.length) :
    ∃ index, index.length = sizes.length ∧ arrange order index = values := by
  refine ⟨(List.range sizes.length).map fun d => values.getD (order.idxOf d) 0, by simp, ?_⟩
  have distinct : order.Nodup := perm.nodup_iff.mpr List.nodup_range
  refine List.ext_getElem (by simp [arrange, length]) fun k small small' => ?_
  simp only [arrange, List.length_map] at small
  have isDim : order[k] < sizes.length := List.mem_range.mp (perm.subset (List.getElem_mem small))
  simp [arrange, isDim, distinct.idxOf_getElem k small, small']

theorem arrange_injective (perm : order.Perm (List.range sizes.length)) {index other : List Nat}
    (length : index.length = sizes.length) (length' : other.length = sizes.length)
    (same : arrange order index = arrange order other) : index = other := by
  refine List.ext_getElem (length.trans length'.symm) fun d small small' => ?_
  have isDim : d ∈ order := perm.mem_iff.mpr (List.mem_range.mpr (length ▸ small))
  have equal := List.map_inj_left.mp same d isDim
  simpa [small, small'] using equal

/-- A layout is dense when it is so in some order of its dimensions. -/
theorem Dense.of_arrange (perm : order.Perm (List.range sizes.length))
    (length : strides.length = sizes.length)
    (dense : Dense (arrange order sizes) (arrange order strides)) : Dense sizes strides := by
  have sameProd : (arrange order sizes).prod = sizes.prod := by
    rw [arrange, (perm.map _).prod_eq, ← arrange, arrange_range]
  refine ⟨fun index other bounds bounds' same => ?_, fun place => ?_⟩
  · have indexLength := (inBounds_iff.mp bounds).1
    have otherLength := (inBounds_iff.mp bounds').1
    refine arrange_injective perm indexLength otherLength (dense.injective _ _
      ((inBounds_arrange perm indexLength).mpr bounds)
      ((inBounds_arrange perm otherLength).mpr bounds') ?_)
    rw [address_arrange_perm perm length indexLength, address_arrange_perm perm length otherLength,
      same]
  · rw [← sameProd, ← dense.covers place]
    constructor
    · rintro ⟨index, bounds, rfl⟩
      have indexLength := (inBounds_iff.mp bounds).1
      exact ⟨_, (inBounds_arrange perm indexLength).mpr bounds,
        address_arrange_perm perm length indexLength⟩
    · rintro ⟨values, bounds, rfl⟩
      have valuesLength : values.length = order.length := by
        simpa [arrange] using (inBounds_iff.mp bounds).1
      obtain ⟨index, indexLength, rfl⟩ := exists_arrange perm valuesLength
      exact ⟨index, (inBounds_arrange perm indexLength).mp bounds,
        (address_arrange_perm perm length indexLength).symm⟩

/-! ### Layouts without and with elements -/

/-- An index has coordinates below sizes that are positive. -/
theorem InBounds.prod_pos {index : List Nat} (bounds : InBounds sizes index) : 0 < sizes.prod :=
  Nat.zero_lt_of_lt (address_lt bounds)

/-- Nothing is addressed when a size is zero. -/
theorem Dense.of_prod_eq_zero (empty : sizes.prod = 0) : Dense sizes strides where
  injective _ _ bounds := absurd bounds.prod_pos (by omega)
  covers place := ⟨fun ⟨_, bounds, _⟩ => absurd bounds.prod_pos (by omega), by omega⟩

/-- The last index. -/
theorem inBounds_last (nonempty : sizes.prod ≠ 0) : InBounds sizes (sizes.map (· - 1)) := by
  rw [InBounds, List.forall₂_map_left_iff, List.forall₂_same]
  intro size isSize
  have positive : size ≠ 0 := fun zero => nonempty (List.prod_eq_zero_iff.mpr (zero ▸ isSize))
  omega

/-- The last index of a dense layout addresses one of its elements. -/
theorem Dense.last_lt (dense : Dense sizes strides) (nonempty : sizes.prod ≠ 0) :
    address strides (sizes.map (· - 1)) < sizes.prod :=
  (dense.covers _).mp ⟨_, inBounds_last nonempty, rfl⟩

end StridedLayout

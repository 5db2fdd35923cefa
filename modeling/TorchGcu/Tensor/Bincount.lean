import Mathlib.Algebra.Order.Ring.Int
import Mathlib.Data.Int.Basic
import Mathlib.Data.List.MinMax
import Mathlib.Tactic.Common
import TorchGcu.Tensor.ScalarType

/-! The counts of `bincount`, whose number is found by a reduction over 32-bit values while the
kernel counts at the values themselves. -/
namespace TorchGcu.Bincount

def InInt32 (v : Int) : Prop := -2 ^ 31 ≤ v ∧ v < 2 ^ 31

instance (v : Int) : Decidable (InInt32 v) := inferInstanceAs (Decidable (_ ∧ _))

/-- The values of an integral type. -/
def bounds : ScalarType → Option (Int × Int)
  | .byte => some (0, 2 ^ 8 - 1)
  | .char => some (-2 ^ 7, 2 ^ 7 - 1)
  | .short => some (-2 ^ 15, 2 ^ 15 - 1)
  | .int => some (-2 ^ 31, 2 ^ 31 - 1)
  | .long => some (-2 ^ 63, 2 ^ 63 - 1)
  | .uint16 => some (0, 2 ^ 16 - 1)
  | .uint32 => some (0, 2 ^ 32 - 1)
  | .uint64 => some (0, 2 ^ 64 - 1)
  | _ => none

/-- A tensor of one dimension, by the values it was made from. -/
structure IntTensor where
  dtype : ScalarType
  values : List Int
  inRange : ∀ v ∈ values, ∃ b ∈ bounds dtype, b.1 ≤ v ∧ v ≤ b.2
  isIntegral : (bounds dtype).isSome

/-- The device, the types that `topsatenMax` takes on it, and how it converts a value to `Int`, which
keeps those that fit. -/
structure Device where
  hardware : Hardware
  reduces : ScalarType → Bool
  toInt : Int → Int
  fits : ∀ v, InInt32 (toInt v)
  exact : ∀ v, InInt32 v → toInt v = v

inductive Failure where
  /-- "value cannot be converted to type int32_t without overflow" -/
  | overflow
  /-- "Trying to create tensor with negative dimension" -/
  | negativeSize
  /-- `CHECK_TOPSATEN_CALL`. -/
  | topsatenMax
  | topsatenBincount
deriving DecidableEq

/-- A conversion on the host, which wraps around. -/
def hostTo : ScalarType → Int → Int
  | .int, v => v.bmod (2 ^ 32)
  | .uint32, v => v % 2 ^ 32
  | _, v => v

/-- The value in device memory, of the narrow type where a type is narrowed. -/
def stored (hardware : Hardware) (dtype : ScalarType) (v : Int) : Int :=
  if isNarrowType hardware dtype then hostTo (getNarrowType dtype) v else v

/-- The type of `self_i32`. -/
def reducedType (dtype : ScalarType) : ScalarType := if dtype = .long then .int else dtype

/-- The value of `self_i32`. -/
def reduced (device : Device) (dtype : ScalarType) (v : Int) : Int :=
  if dtype = .long then device.toInt (stored device.hardware dtype v)
  else stored device.hardware dtype v

/-- `item<int32_t>()`. -/
def itemInt32 (v : Int) : Except Failure Int :=
  if InInt32 v then .ok v else .error .overflow

def maxVal (device : Device) (self : IntTensor) : Except Failure Int :=
  match (self.values.map (reduced device self.dtype)).max? with
  | some m => if device.reduces (reducedType self.dtype) then itemInt32 m else .error .topsatenMax
  | none => .ok 0

def outputSize (device : Device) (self : IntTensor) (minlength : Int) : Except Failure Int := do
  let maxVal ← maxVal device self
  return if self.values.length = 0 then minlength else max (maxVal + 1) minlength

structure Output where
  dtype : ScalarType
  size : Int
  /-- The indices at which the kernel adds, one for each value. -/
  added : List Int
deriving DecidableEq

/-- `bincount_out` for an undefined output. Weights are given by their type, and `accepted` is what
`topsatenBincount` says to its arguments; it is not called when there is no bin. -/
def bincount (device : Device) (self : IntTensor) (weights : Option ScalarType)
    (minlength : Int) (accepted : Bool) : Except Failure Output := do
  let nbins ← outputSize device self minlength
  let outDtype := weights.getD .long
  if nbins < 0 then throw .negativeSize
  else if nbins > 0 then
    if accepted then return ⟨outDtype, nbins, self.values.map (stored device.hardware self.dtype)⟩
    else throw .topsatenBincount
  else return ⟨outDtype, nbins, []⟩

/-- There is one bin for each number up to the largest value, and at least `minlength`; every value
has its bin, and the kernel adds to bins only. -/
structure Inside (counted : IntTensor) (minlength : Int) (out : Output) : Prop where
  size : out.size = match counted.values.max? with
    | some m => max minlength (1 + m)
    | none => minlength
  values : ∀ v ∈ counted.values, 0 ≤ v ∧ v < out.size
  added : ∀ index ∈ out.added, 0 ≤ index ∧ index < out.size

/-- No value is negative, and what does not fit in 32 bits is below `minlength` and is not stored as
a negative value. -/
def Fits (device : Device) (self : IntTensor) (minlength : Int) : Prop :=
  ∀ v ∈ self.values, 0 ≤ v ∧
    (v < 2 ^ 31 ∨ v < minlength ∧ 0 ≤ stored device.hardware self.dtype v)

/-- What is refused: a type that is not reduced, a value too large for the reduction, a negative
number of bins, or what the kernel does not accept. -/
def Refused (device : Device) (self : IntTensor) (minlength : Int) (accepted : Bool) : Prop :=
  (self.values ≠ [] ∧ device.reduces (reducedType self.dtype) = false) ∨
  (∃ v ∈ self.values, 2 ^ 31 ≤ reduced device self.dtype v) ∨
  (minlength < 0 ∧ ∀ v ∈ self.values, reduced device self.dtype v < -1) ∨
  (accepted = false ∧ (0 < minlength ∨ ∃ v ∈ self.values, 0 ≤ reduced device self.dtype v))

section
variable {device : Device} {self : IntTensor} {minlength v : Int} {accepted : Bool}
variable {weights : Option ScalarType} {out : Output}

theorem bmod_of_fits (fits : InInt32 v) : v.bmod (2 ^ 32) = v := by
  obtain ⟨low, high⟩ := fits
  exact Int.bmod_eq_of_le (by omega) (by omega)

theorem stored_of_small (least : 0 ≤ v) (small : v < 2 ^ 31) (dtype : ScalarType) :
    stored device.hardware dtype v = v := by
  unfold stored
  split
  · have fits : InInt32 v := ⟨by omega, small⟩
    have below : v < 2 ^ 32 := by omega
    cases dtype <;>
      simp only [getNarrowType, hostTo, bmod_of_fits fits, Int.emod_eq_of_lt least below]
  · rfl

theorem stored_le (least : 0 ≤ v) (dtype : ScalarType) :
    stored device.hardware dtype v ≤ v := by
  have wraps : v.bmod (2 ^ 32) ≤ v := by
    rw [Int.bmod_def]
    split <;> omega
  have rest : v % 2 ^ 32 ≤ v := by omega
  unfold stored
  split
  · cases dtype <;> simp only [getNarrowType, hostTo, wraps, rest, Int.le_refl]
  · exact Int.le_refl v

theorem reduced_of_small (least : 0 ≤ v) (small : v < 2 ^ 31) (dtype : ScalarType) :
    reduced device dtype v = v := by
  unfold reduced
  rw [stored_of_small least small]
  split
  · exact device.exact v ⟨by omega, small⟩
  · rfl

/-- What is reduced is a 32-bit value or an unsigned one. -/
theorem reduced_lower (member : v ∈ self.values) : -2 ^ 31 ≤ reduced device self.dtype v := by
  obtain ⟨b, isBounds, low, -⟩ := self.inRange v member
  unfold reduced
  split
  · exact (device.fits _).1
  · next notLong =>
    unfold stored
    split
    · have wraps : -2147483648 ≤ v.bmod 4294967296 := by
        rw [Int.bmod_def]
        split <;> omega
      have rest : -2 ^ 31 ≤ v % 2 ^ 32 := by omega
      revert isBounds notLong
      cases self.dtype <;> simp [bounds, getNarrowType, hostTo] <;> rintro rfl <;> omega
    · revert isBounds notLong
      cases self.dtype <;> simp [bounds] <;> rintro rfl <;> omega

/-- How many bins there are for values of which `m` is the largest that is reduced. -/
theorem outputSize_some {m : Int} (some : self.values ≠ [])
    (takes : device.reduces (reducedType self.dtype) = true)
    (largest : (self.values.map (reduced device self.dtype)).max? = .some m) :
    outputSize device self minlength =
      if m < 2 ^ 31 then .ok (max (m + 1) minlength) else .error .overflow := by
  obtain ⟨member, -⟩ := List.max?_eq_some_iff.mp largest
  obtain ⟨v, inside, rfl⟩ := List.mem_map.mp member
  have least : -2 ^ 31 ≤ reduced device self.dtype v := reduced_lower inside
  have length : self.values.length ≠ 0 := fun zero => some (List.eq_nil_of_length_eq_zero zero)
  simp only [outputSize, maxVal, largest, if_pos takes, itemInt32, InInt32, least, true_and,
    if_neg length]
  split <;> rfl

theorem outputSize_nil (none : self.values = []) :
    outputSize device self minlength = .ok minlength := by
  simp [outputSize, maxVal, none, bind, Except.bind, pure, Except.pure]

theorem bincount_of_size {nbins : Int} (size : outputSize device self minlength = .ok nbins) :
    bincount device self weights minlength accepted =
      if nbins < 0 then .error .negativeSize
      else if nbins > 0 ∧ accepted = false then .error .topsatenBincount
      else .ok ⟨weights.getD .long, nbins,
        if nbins > 0 then self.values.map (stored device.hardware self.dtype) else []⟩ := by
  unfold bincount
  rw [size]
  cases accepted <;> by_cases negative : nbins < 0 <;> by_cases positive : nbins > 0 <;>
    simp [bind, Except.bind, pure, Except.pure, throw, throwThe, MonadExceptOf.throw, negative,
      positive]

/-- What is refused, by the largest of the reduced values. -/
theorem refused_iff {m : Int} (takes : device.reduces (reducedType self.dtype) = true)
    (largest : (self.values.map (reduced device self.dtype)).max? = some m) :
    Refused device self minlength accepted ↔ 2 ^ 31 ≤ m ∨ (minlength < 0 ∧ m < -1) ∨
      (accepted = false ∧ (0 < minlength ∨ 0 ≤ m)) := by
  obtain ⟨member, above⟩ := List.max?_eq_some_iff.mp largest
  obtain ⟨v, inside, rfl⟩ := List.mem_map.mp member
  have bound (u : Int) (also : u ∈ self.values) :
      reduced device self.dtype u ≤ reduced device self.dtype v :=
    above _ (List.mem_map_of_mem also)
  have some (least : Int) : (∃ u ∈ self.values, least ≤ reduced device self.dtype u) ↔
      least ≤ reduced device self.dtype v :=
    ⟨fun found => found.elim fun u of => of.2.trans (bound u of.1),
      fun reaches => ⟨v, inside, reaches⟩⟩
  have all (limit : Int) : (∀ u ∈ self.values, reduced device self.dtype u < limit) ↔
      reduced device self.dtype v < limit :=
    ⟨fun below => below v inside, fun below u also => (bound u also).trans_lt below⟩
  rw [Refused, takes, some, all, some]
  simp

/-- Values stay inside as many bins as are made for them exactly when they fit. -/
theorem inside_iff_fits {m : Int} {dtype : ScalarType} (some : self.values ≠ [])
    (largest : (self.values.map (reduced device self.dtype)).max? = .some m) (small : m < 2 ^ 31) :
    Inside self minlength ⟨dtype, max (m + 1) minlength,
      if max (m + 1) minlength > 0 then self.values.map (stored device.hardware self.dtype)
      else []⟩ ↔ Fits device self minlength := by
  obtain ⟨member, above⟩ := List.max?_eq_some_iff.mp largest
  obtain ⟨top, isTop⟩ := Option.isSome_iff_exists.mp (List.isSome_max?_of_ne_nil some)
  obtain ⟨topMember, topAbove⟩ := List.max?_eq_some_iff.mp isTop
  have bound (u : Int) (also : u ∈ self.values) : reduced device self.dtype u ≤ m :=
    above _ (List.mem_map_of_mem also)
  constructor
  · intro inside v also
    obtain ⟨least, below⟩ := inside.values v also
    refine ⟨least, ?_⟩
    by_cases fits : v < 2 ^ 31
    · exact .inl fits
    · have positive : max (m + 1) minlength > 0 := lt_of_le_of_lt least below
      have added := inside.added (stored device.hardware self.dtype v) (by
        simp only [if_pos positive]
        exact List.mem_map_of_mem also)
      exact .inr ⟨by simp only at below; omega, added.1⟩
  · intro fits
    have within (v : Int) (also : v ∈ self.values) : v < max (m + 1) minlength := by
      obtain ⟨least, below | ⟨below, -⟩⟩ := fits v also
      · have := bound v also
        rw [reduced_of_small least below] at this
        omega
      · omega
    constructor
    · simp only [isTop]
      obtain ⟨least, wide⟩ := fits top topMember
      by_cases below : top < 2 ^ 31
      · obtain ⟨v, inside, isMax⟩ := List.mem_map.mp member
        have lower := topAbove v inside
        have upper := bound top topMember
        rw [reduced_of_small least below] at upper
        rw [reduced_of_small (fits v inside).1 (by omega)] at isMax
        omega
      · have reaches := (wide.resolve_left below).1
        omega
    · exact fun v also => ⟨(fits v also).1, within v also⟩
    · intro index also
      simp only at also
      split at also
      · obtain ⟨v, member, rfl⟩ := List.mem_map.mp also
        obtain ⟨least, below⟩ := fits v member
        refine ⟨?_, (stored_le least self.dtype).trans_lt (within v member)⟩
        rcases below with below | ⟨-, nonneg⟩
        · rw [stored_of_small least below]
          exact least
        · exact nonneg
      · cases also

/-- The call raises, or stays inside its output, exactly when something is refused or every value
fits. -/
theorem bincount_inside_iff (device : Device) (self : IntTensor) (weights : Option ScalarType)
    (minlength : Int) (accepted : Bool) :
    (∀ out, bincount device self weights minlength accepted = .ok out →
      Inside self minlength out) ↔
      Refused device self minlength accepted ∨ Fits device self minlength := by
  by_cases none : self.values = []
  · have fits : Fits device self minlength := by simp [Fits, none]
    refine iff_of_true (fun out returned => ?_) (.inr fits)
    rw [bincount_of_size (outputSize_nil none)] at returned
    split at returned
    · cases returned
    · split at returned
      · cases returned
      · cases returned
        constructor <;> simp [none]
  · obtain ⟨m, largest⟩ := Option.isSome_iff_exists.mp
      (List.isSome_max?_of_ne_nil (l := self.values.map (reduced device self.dtype))
        (by simpa using none))
    by_cases takes : device.reduces (reducedType self.dtype) = true
    swap
    · refine iff_of_true (fun out returned => ?_) (.inl (.inl ⟨none, Bool.eq_false_iff.mpr takes⟩))
      simp [bincount, outputSize, maxVal, largest, takes, bind, Except.bind] at returned
    rw [refused_iff takes largest]
    have size : outputSize device self minlength =
        if m < 2 ^ 31 then .ok (max (m + 1) minlength) else .error .overflow :=
      outputSize_some none takes largest
    by_cases small : m < 2 ^ 31
    · rw [if_pos small] at size
      rw [bincount_of_size size]
      by_cases negative : max (m + 1) minlength < 0
      · rw [if_pos negative]
        exact iff_of_true (fun _ never => by cases never) (.inl (.inr (.inl (by omega))))
      by_cases refused : max (m + 1) minlength > 0 ∧ accepted = false
      · rw [if_neg negative, if_pos refused]
        refine iff_of_true (fun _ never => by cases never) (.inl (.inr (.inr ⟨refused.2, ?_⟩)))
        omega
      · rw [if_neg negative, if_neg refused]
        simp only [Except.ok.injEq, forall_eq']
        rw [inside_iff_fits none largest small]
        refine ⟨.inr, fun either => either.resolve_left ?_⟩
        rintro (large | few | ⟨rejects, some⟩)
        · omega
        · omega
        · exact refused ⟨by omega, rejects⟩
    · rw [if_neg small] at size
      refine iff_of_true (fun out returned => ?_) (.inl (.inl (by omega)))
      simp [bincount, size, bind, Except.bind] at returned

end

/-- A device of 64-bit integers whose conversions wrap around. -/
def wrapping : Device where
  hardware := { enableInt64AndUint64 := true }
  reduces _ := true
  toInt v := v.bmod (2 ^ 32)
  fits v := by
    have bmod : v.bmod 4294967296 < 2147483648 ∧ -2147483648 ≤ v.bmod 4294967296 := by
      rw [Int.bmod_def]
      split <;> omega
    exact ⟨bmod.2, bmod.1⟩
  exact v fits := bmod_of_fits fits

def signed : IntTensor where
  dtype := .long
  values := [-1, 3]
  inRange := by decide
  isIntegral := rfl

/-- The kernel adds at -1. -/
theorem adds_before_output :
    ¬ ∀ device self weights minlength accepted out,
      bincount device self weights minlength accepted = .ok out → Inside self minlength out := by
  intro inside
  have stays := inside wrapping signed none 0 true ⟨.long, 4, [-1, 3]⟩ (by decide)
  have added := (stays.added (-1) (by simp)).1
  omega

end TorchGcu.Bincount

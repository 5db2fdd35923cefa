import TorchGcu.Logic.DoublePrecision

/-! The sizes of `arange` and `range` for integral results: the arithmetic is that of `int64_t`, and
that of `double` for the quotient of the narrower types and for the size. -/
namespace TorchGcu.RangeFactories
open DoublePrecision

inductive IntegralType where
  | bool | byte | char | short | int | long | uint16 | uint32 | uint64
deriving DecidableEq

namespace IntegralType

/-- The least and the greatest value. -/
def bounds : IntegralType → ℤ × ℤ
  | .bool => (0, 1)
  | .byte => (0, 2 ^ 8 - 1)
  | .char => (-2 ^ 7, 2 ^ 7 - 1)
  | .short => (-2 ^ 15, 2 ^ 15 - 1)
  | .int => (-2 ^ 31, 2 ^ 31 - 1)
  | .long => (-2 ^ 63, 2 ^ 63 - 1)
  | .uint16 => (0, 2 ^ 16 - 1)
  | .uint32 => (0, 2 ^ 32 - 1)
  | .uint64 => (0, 2 ^ 64 - 1)

/-- The integral types of `AT_DISPATCH_ALL_TYPES`, whose `acc_type` is `int64_t`. -/
def dispatched : IntegralType → Bool
  | .byte | .char | .short | .int | .long => true
  | .bool | .uint16 | .uint32 | .uint64 => false

def Represents (dtype : IntegralType) (v : ℤ) : Prop := dtype.bounds.1 ≤ v ∧ v ≤ dtype.bounds.2

instance (dtype : IntegralType) (v : ℤ) : Decidable (dtype.Represents v) :=
  inferInstanceAs (Decidable (_ ∧ _))

end IntegralType

inductive Message where
  /-- not implemented for the type -/
  | notImplemented
  /-- step must be nonzero -/
  | stepZero
  /-- upper bound and larger bound inconsistent with step sign -/
  | inconsistent
  /-- invalid size, possible overflow? -/
  | invalidSize
deriving DecidableEq

inductive Failure where
  /-- `TORCH_CHECK` -/
  | raised (message : Message)
  /-- The result of a signed operation is not in `int64_t`. -/
  | signedOverflow
  /-- A `double` is converted to `int64_t` that is out of its range. -/
  | conversion
deriving DecidableEq

def InInt64 (v : ℤ) : Prop := -2 ^ 63 ≤ v ∧ v < 2 ^ 63

instance (v : ℤ) : Decidable (InInt64 v) := inferInstanceAs (Decidable (_ ∧ _))

/-- The result of a signed operation. -/
def int64 (v : ℤ) : Except Failure ℤ := if InInt64 v then .ok v else .error .signedOverflow

def torchCheck (holds : Prop) [Decidable holds] (message : Message) : Except Failure Unit :=
  if holds then .ok () else .error (.raised message)

/-- The step leads from the start to the end. -/
def Consistent (xstart xend xstep : ℤ) : Prop :=
  (xstep > 0 ∧ xend ≥ xstart) ∨ (xstep < 0 ∧ xend ≤ xstart)

instance (xstart xend xstep : ℤ) : Decidable (Consistent xstart xend xstep) :=
  inferInstanceAs (Decidable (_ ∨ _))

/-- The checks of both functions, apart from the one that the bounds are finite, which converted
integers are. -/
def checkRange (xstart xend xstep : ℤ) : Except Failure Unit := do
  torchCheck (xstep > 0 ∨ xstep < 0) .stepZero
  torchCheck (Consistent xstart xend xstep) .inconsistent

/-- `std::ceil` of a value of `int64_t`, which is converted to `double`. -/
def ceilLong (v : ℤ) : ℚ := ⌈rounded v⌉

/-- `size_d` for `int64_t`. -/
def sizeLong (xstart xend xstep : ℤ) : Except Failure ℚ := do
  let sgn : ℤ := (if xstep > 0 then 1 else 0) - (if xstep < 0 then 1 else 0)
  let distance ← int64 (xend - xstart)
  let distance ← int64 (distance + xstep)
  let distance ← int64 (distance - sgn)
  let size ← int64 (distance.tdiv xstep)
  return ceilLong size

/-- `size_d` for the other types. -/
def sizeOther (xstart xend xstep : ℤ) : ℚ :=
  ⌈rounded (rounded (rounded xend - rounded xstart) / rounded xstep)⌉

def sizeD (dtype : IntegralType) (xstart xend xstep : ℤ) : Except Failure ℚ :=
  if dtype = .long then sizeLong xstart xend xstep else .ok (sizeOther xstart xend xstep)

/-- `static_cast<int64_t>` of a `double`. -/
def toInt64 (x : ℚ) : Except Failure ℤ :=
  let truncated := if 0 ≤ x then ⌊x⌋ else ⌈x⌉
  if InInt64 truncated then .ok truncated else .error .conversion

/-- The number of elements of the result, which had `numel` of them. -/
def resized (numel size : ℤ) : ℤ := if numel ≠ size then size else numel

def arangeOutShapeInfer (dtype : IntegralType) (xstart xend xstep numel : ℤ) :
    Except Failure ℤ := do
  torchCheck (dtype.dispatched = true) .notImplemented
  checkRange xstart xend xstep
  let size_d ← sizeD dtype xstart xend xstep
  torchCheck (0 ≤ size_d ∧ size_d ≤ rounded (2 ^ 63 - 1)) .invalidSize
  let size ← toInt64 size_d
  return resized numel size

def rangeOutShapeInfer (dtype : IntegralType) (xstart xend xstep numel : ℤ) :
    Except Failure ℤ := do
  torchCheck (dtype.dispatched = true) .notImplemented
  checkRange xstart xend xstep
  let distance ← int64 (xend - xstart)
  let quotient ← int64 (distance.tdiv xstep)
  let size ← int64 (quotient + 1)
  return resized numel size

/-! ### Exact sizes -/

def arangeCount (xstart xend xstep : ℤ) : ℤ := ⌈((xend - xstart : ℤ) / xstep : ℚ)⌉

def rangeCount (xstart xend xstep : ℤ) : ℤ := ⌊((xend - xstart : ℤ) / xstep : ℚ)⌋ + 1

/-- The call raises, or returns the count with no undefined conversion or overflow on the way. -/
def Exact (outcome : Except Failure ℤ) (count : ℤ) : Prop :=
  outcome = .ok count ∨ ∃ message, outcome = .error (.raised message)

/-- When the checks do not hold, or the operations stay in `int64_t` and the size is a `double`. -/
def ArangeFits (dtype : IntegralType) (xstart xend xstep : ℤ) : Prop :=
  dtype = .long → Consistent xstart xend xstep →
    InInt64 (xend - xstart) ∧ InInt64 (xend - xstart + xstep) ∧
      Representable (arangeCount xstart xend xstep)

def RangeFits (dtype : IntegralType) (xstart xend xstep : ℤ) : Prop :=
  dtype = .long → Consistent xstart xend xstep →
    InInt64 (xend - xstart) ∧ InInt64 (rangeCount xstart xend xstep)

variable {dtype : IntegralType} {xstart xend xstep numel d v : ℤ}

@[simp] theorem resized_eq (numel size : ℤ) : resized numel size = size := by
  unfold resized
  split
  · rfl
  · next same => exact not_not.mp same

theorem int64_of_in (inside : InInt64 v) : int64 v = .ok v := if_pos inside

theorem int64_of_out (outside : ¬ InInt64 v) : int64 v = .error .signedOverflow := if_neg outside

/-- The distance and the step of a range, without their common sign. -/
theorem exists_sizes (consistent : Consistent xstart xend xstep) :
    ∃ n s : ℕ, 0 < s ∧ (xend - xstart = n ∧ xstep = s ∨ xend - xstart = -n ∧ xstep = -s) := by
  rcases consistent with ⟨positive, after⟩ | ⟨negative, before⟩
  · refine ⟨(xend - xstart).toNat, xstep.toNat, by omega, Or.inl ⟨by omega, by omega⟩⟩
  · refine ⟨(xstart - xend).toNat, (-xstep).toNat, by omega, Or.inr ⟨by omega, by omega⟩⟩

theorem quotient_eq {n s : ℕ} (sizes : d = n ∧ v = s ∨ d = -n ∧ v = -s) :
    (d / v : ℚ) = n / s := by
  rcases sizes with ⟨rfl, rfl⟩ | ⟨rfl, rfl⟩
  · simp
  · push_cast
    exact neg_div_neg_eq _ _

theorem tdiv_eq {n s : ℕ} (sizes : d = n ∧ v = s ∨ d = -n ∧ v = -s) :
    d.tdiv v = (n / s : ℕ) := by
  rcases sizes with ⟨rfl, rfl⟩ | ⟨rfl, rfl⟩
  · rfl
  · rw [Int.neg_tdiv_neg]
    rfl

theorem ceil_natCast_div {n s : ℕ} (positive : 0 < s) :
    ⌈(n / s : ℚ)⌉ = ((n + s - 1) / s : ℕ) := by
  obtain ⟨k, quotient⟩ : ∃ k, k = (n + s - 1) / s := ⟨_, rfl⟩
  have low : k * s ≤ n + s - 1 := quotient ▸ Nat.div_mul_le_self _ _
  have high : n + s - 1 < (k + 1) * s := quotient ▸ Nat.lt_mul_of_div_lt (Nat.lt_succ_self _) positive
  rw [add_mul, one_mul] at high
  have below : ((k : ℚ) - 1) * s < n := by
    have whole : (k * s : ℤ) < n + s := by omega
    have cast : (k * s : ℚ) < n + s := by exact_mod_cast whole
    linarith
  have above : (n : ℚ) ≤ k * s := by
    have whole : n ≤ k * s := by omega
    exact_mod_cast whole
  have size : (0 : ℚ) < s := by exact_mod_cast positive
  rw [← quotient, Int.ceil_eq_iff, lt_div_iff₀ size, div_le_iff₀ size]
  exact ⟨by exact_mod_cast below, by exact_mod_cast above⟩

theorem rangeCount_eq (consistent : Consistent xstart xend xstep) :
    rangeCount xstart xend xstep = (xend - xstart).tdiv xstep + 1 := by
  obtain ⟨n, s, _, sizes⟩ := exists_sizes consistent
  rw [rangeCount, quotient_eq sizes, tdiv_eq sizes, Rat.floor_natCast_div_natCast]
  rfl

/-- The quotient of `arange` for `int64_t`. -/
theorem arangeCount_eq (consistent : Consistent xstart xend xstep) :
    arangeCount xstart xend xstep = (xend - xstart + xstep -
      ((if xstep > 0 then 1 else 0) - (if xstep < 0 then 1 else 0))).tdiv xstep := by
  obtain ⟨n, s, positive, sizes⟩ := exists_sizes consistent
  rw [arangeCount, quotient_eq sizes, ceil_natCast_div positive]
  refine (tdiv_eq ?_).symm
  rcases sizes with ⟨distance, step⟩ | ⟨distance, step⟩
  · refine Or.inl ⟨?_, step⟩
    rw [distance, step]
    split <;> split <;> omega
  · refine Or.inr ⟨?_, step⟩
    rw [distance, step]
    split <;> split <;> omega

theorem arangeCount_nonneg (consistent : Consistent xstart xend xstep) :
    0 ≤ arangeCount xstart xend xstep := by
  obtain ⟨n, s, positive, sizes⟩ := exists_sizes consistent
  rw [arangeCount, quotient_eq sizes, ceil_natCast_div positive]
  exact Int.natCast_nonneg _

theorem arangeCount_le (consistent : Consistent xstart xend xstep) :
    arangeCount xstart xend xstep ≤ |xend - xstart| := by
  obtain ⟨n, s, positive, sizes⟩ := exists_sizes consistent
  rw [arangeCount, quotient_eq sizes, ceil_natCast_div positive]
  have bound : (n + s - 1) / s ≤ n := by
    rw [Nat.div_le_iff_le_mul positive]
    have larger : n * 1 ≤ n * s := Nat.mul_le_mul_left n positive
    omega
  rcases sizes with ⟨distance, _⟩ | ⟨distance, _⟩
  · rw [distance, abs_of_nonneg (Int.natCast_nonneg n)]
    exact_mod_cast bound
  · rw [distance, abs_neg, abs_of_nonneg (Int.natCast_nonneg n)]
    exact_mod_cast bound

/-! ### The checks -/

theorem checkRange_ok (consistent : Consistent xstart xend xstep) :
    checkRange xstart xend xstep = .ok () := by
  have nonzero : xstep > 0 ∨ xstep < 0 := by
    rcases consistent with ⟨positive, _⟩ | ⟨negative, _⟩
    · exact Or.inl positive
    · exact Or.inr negative
  simp only [checkRange, torchCheck, if_pos nonzero, if_pos consistent]
  rfl

theorem checkRange_raised (inconsistent : ¬ Consistent xstart xend xstep) :
    ∃ message, checkRange xstart xend xstep = .error (.raised message) := by
  simp only [checkRange, torchCheck, if_neg inconsistent]
  split
  · exact ⟨_, rfl⟩
  · exact ⟨_, rfl⟩

theorem exact_ok {size count : ℤ} : Exact (.ok size) count ↔ size = count := by
  simp [Exact]

theorem exact_raised {message : Message} {count : ℤ} : Exact (.error (.raised message)) count :=
  Or.inr ⟨message, rfl⟩

theorem not_exact_overflow {count : ℤ} : ¬ Exact (.error .signedOverflow) count := by
  simp [Exact]

theorem not_exact_conversion {count : ℤ} : ¬ Exact (.error .conversion) count := by
  simp [Exact]

theorem range_exact_iff_of_ok (dispatched : dtype.dispatched = true)
    (consistent : Consistent xstart xend xstep) :
    Exact (rangeOutShapeInfer dtype xstart xend xstep numel) (rangeCount xstart xend xstep) ↔
      InInt64 (xend - xstart) ∧ InInt64 (rangeCount xstart xend xstep) := by
  have count := rangeCount_eq consistent
  simp only [rangeOutShapeInfer, torchCheck, if_pos dispatched, checkRange_ok consistent, bind,
    Except.bind, resized_eq]
  by_cases inside : InInt64 (xend - xstart)
  · rw [int64_of_in inside]
    simp only
    by_cases fits : InInt64 (rangeCount xstart xend xstep)
    · have quotient : InInt64 ((xend - xstart).tdiv xstep) := by
        obtain ⟨n, s, _, sizes⟩ := exists_sizes consistent
        obtain ⟨q, same⟩ : ∃ q : ℕ, (xend - xstart).tdiv xstep = q := ⟨_, tdiv_eq sizes⟩
        rw [count, same] at fits
        rw [same]
        unfold InInt64 at fits ⊢
        omega
      rw [int64_of_in quotient]
      simp only
      rw [int64_of_in (count ▸ fits)]
      exact ⟨fun _ => ⟨inside, fits⟩, fun _ => exact_ok.mpr count.symm⟩
    · refine ⟨fun exact => absurd exact ?_, fun both => absurd both.2 fits⟩
      by_cases quotient : InInt64 ((xend - xstart).tdiv xstep)
      · rw [int64_of_in quotient]
        simp only
        rw [int64_of_out (count ▸ fits)]
        exact not_exact_overflow
      · rw [int64_of_out quotient]
        exact not_exact_overflow
  · rw [int64_of_out inside]
    exact ⟨fun exact => absurd exact not_exact_overflow, fun both => absurd both.1 inside⟩

/-- `static_cast<double>(std::numeric_limits<int64_t>::max())` -/
theorem rounded_int64_max : rounded (2 ^ 63 - 1) = 2 ^ 63 := by
  have log : Int.log 2 |(2 ^ 63 - 1 : ℚ)| = 62 := by
    have natural : |(2 ^ 63 - 1 : ℚ)| = (2 ^ 63 - 1 : ℕ) := by norm_num
    rw [natural, Int.log_natCast, Nat.log_eq_of_pow_le_of_lt_pow (m := 62)]
    · rfl
    · norm_num
    · norm_num
  have size : unit (2 ^ 63 - 1) = 2 ^ 10 := by
    rw [unit, log]
    norm_num
  have floor : ⌊(2 ^ 63 - 1 : ℚ) / 2 ^ 10⌋ = 2 ^ 53 - 1 := by
    rw [Int.floor_eq_iff]
    norm_num
  rw [rounded, size, nearestEven, floor, if_neg (by norm_num), if_pos (by norm_num)]
  norm_num

/-- The size of a count of elements that is rounded. -/
theorem size_check {count : ℤ} (least : 0 ≤ count) (inside : InInt64 count) :
    0 ≤ ceilLong count ∧ ceilLong count ≤ rounded (2 ^ 63 - 1) := by
  rw [rounded_int64_max, ceilLong]
  obtain ⟨m, same⟩ := rounded_intCast_isInt count
  rw [same, Int.ceil_intCast, ← same]
  refine ⟨rounded_nonneg (by exact_mod_cast least), ?_⟩
  rcases least.lt_or_eq with positive | zero
  · have bound : (count : ℚ) ≤ 2 ^ (63 : ℤ) := by exact_mod_cast inside.2.le
    exact_mod_cast rounded_le_zpow (by exact_mod_cast positive) bound
  · rw [← zero, rounded_intCast (by norm_num)]
    norm_num

theorem toInt64_intCast {n : ℤ} : toInt64 n = if InInt64 n then .ok n else .error .conversion := by
  simp [toInt64]

/-- The size of a count that `int64_t` holds. -/
theorem toInt64_ceilLong {count : ℤ} (inside : InInt64 count) :
    Exact (toInt64 (ceilLong count)) count ↔ Representable count := by
  obtain ⟨m, same⟩ := rounded_intCast_isInt count
  rw [← rounded_eq_iff, same, ceilLong, same, Int.ceil_intCast, toInt64_intCast, Int.cast_inj]
  split
  · exact exact_ok
  · next outside =>
    refine ⟨fun exact => absurd exact not_exact_conversion, fun equal => ?_⟩
    exact absurd (equal ▸ inside) outside

theorem arange_exact_iff_of_long (consistent : Consistent xstart xend xstep) :
    Exact (arangeOutShapeInfer .long xstart xend xstep numel) (arangeCount xstart xend xstep) ↔
      InInt64 (xend - xstart) ∧ InInt64 (xend - xstart + xstep) ∧
        Representable (arangeCount xstart xend xstep) := by
  have count := arangeCount_eq consistent
  have least := arangeCount_nonneg consistent
  have greatest := arangeCount_le consistent
  simp only [arangeOutShapeInfer, torchCheck, checkRange_ok consistent, bind, Except.bind,
    resized_eq, sizeD, if_true, sizeLong, IntegralType.dispatched]
  by_cases inside : InInt64 (xend - xstart)
  · rw [int64_of_in inside]
    simp only
    by_cases stepped : InInt64 (xend - xstart + xstep)
    · rw [int64_of_in stepped]
      simp only
      -- the last two operations stay in the range that the first two are in
      have signed : InInt64 (xend - xstart + xstep -
          ((if xstep > 0 then 1 else 0) - (if xstep < 0 then 1 else 0))) := by
        unfold InInt64 at stepped ⊢
        rcases consistent with ⟨positive, after⟩ | ⟨negative, before⟩
        · rw [if_pos positive, if_neg (by omega)]
          omega
        · rw [if_neg (by omega), if_pos negative]
          omega
      have fits : InInt64 (arangeCount xstart xend xstep) := by
        unfold InInt64 at inside stepped ⊢
        rcases consistent with ⟨positive, after⟩ | ⟨negative, before⟩
        · rw [abs_of_nonneg (by omega)] at greatest
          omega
        · rw [abs_of_nonpos (by omega)] at greatest
          omega
      rw [int64_of_in signed]
      simp only
      rw [← count, int64_of_in fits]
      simp only [pure, Except.pure]
      rw [if_pos (size_check least fits)]
      simp only
      rw [← toInt64_ceilLong fits]
      cases toInt64 (ceilLong (arangeCount xstart xend xstep)) with
      | ok size => exact ⟨fun exact => ⟨inside, stepped, exact⟩, fun all => all.2.2⟩
      | error failure => exact ⟨fun exact => ⟨inside, stepped, exact⟩, fun all => all.2.2⟩
    · rw [int64_of_out stepped]
      exact ⟨fun exact => absurd exact not_exact_overflow, fun all => absurd all.2.1 stepped⟩
  · rw [int64_of_out inside]
    exact ⟨fun exact => absurd exact not_exact_overflow, fun all => absurd all.1 inside⟩

/-- Values of the other types are converted to `double` as they are. -/
theorem sizeOther_eq (start : |xstart| < 2 ^ 32) (stop : |xend| < 2 ^ 32) (step : |xstep| < 2 ^ 32)
    (nonzero : xstep ≠ 0) : sizeOther xstart xend xstep = arangeCount xstart xend xstep := by
  rw [abs_lt] at start stop
  have distance : |xend - xstart| < 2 ^ 53 := abs_lt.mpr ⟨by omega, by omega⟩
  rw [sizeOther, rounded_intCast (abs_lt.mpr ⟨by omega, by omega⟩),
    rounded_intCast (abs_lt.mpr ⟨by omega, by omega⟩), rounded_intCast (step.trans (by norm_num)),
    ← Int.cast_sub, rounded_intCast distance, ceil_rounded_div distance nonzero, arangeCount]

theorem narrow_of_represents (dispatched : dtype.dispatched = true) (narrow : dtype ≠ .long)
    (represents : dtype.Represents v) : |v| < 2 ^ 32 := by
  rw [abs_lt]
  unfold IntegralType.Represents at represents
  cases dtype <;> simp_all [IntegralType.bounds, IntegralType.dispatched] <;> omega

theorem arange_exact_of_narrow (dispatched : dtype.dispatched = true) (narrow : dtype ≠ .long)
    (start : dtype.Represents xstart) (stop : dtype.Represents xend)
    (step : dtype.Represents xstep) (consistent : Consistent xstart xend xstep) :
    Exact (arangeOutShapeInfer dtype xstart xend xstep numel) (arangeCount xstart xend xstep) := by
  have start := narrow_of_represents dispatched narrow start
  have stop := narrow_of_represents dispatched narrow stop
  have step := narrow_of_represents dispatched narrow step
  have nonzero : xstep ≠ 0 := by
    rcases consistent with ⟨positive, _⟩ | ⟨negative, _⟩
    · exact positive.ne'
    · exact negative.ne
  have least := arangeCount_nonneg consistent
  have fits : InInt64 (arangeCount xstart xend xstep) := by
    have greatest := arangeCount_le consistent
    rw [abs_lt] at start stop
    have distance : |xend - xstart| < 2 ^ 63 := abs_lt.mpr ⟨by omega, by omega⟩
    exact ⟨by omega, by omega⟩
  have bounds : (0 : ℚ) ≤ arangeCount xstart xend xstep ∧
      (arangeCount xstart xend xstep : ℚ) ≤ rounded (2 ^ 63 - 1) := by
    rw [rounded_int64_max]
    exact ⟨by exact_mod_cast least, by exact_mod_cast fits.2.le⟩
  simp only [arangeOutShapeInfer, torchCheck, if_pos dispatched, checkRange_ok consistent, bind,
    Except.bind, resized_eq, sizeD, if_neg narrow, sizeOther_eq start stop step nonzero,
    if_pos bounds, toInt64_intCast, if_pos fits]
  exact exact_ok.mpr rfl

theorem range_exact_of_narrow (dispatched : dtype.dispatched = true) (narrow : dtype ≠ .long)
    (start : dtype.Represents xstart) (stop : dtype.Represents xend)
    (consistent : Consistent xstart xend xstep) :
    Exact (rangeOutShapeInfer dtype xstart xend xstep numel) (rangeCount xstart xend xstep) := by
  have start := abs_lt.mp (narrow_of_represents dispatched narrow start)
  have stop := abs_lt.mp (narrow_of_represents dispatched narrow stop)
  refine (range_exact_iff_of_ok dispatched consistent).mpr ⟨⟨by omega, by omega⟩, ?_⟩
  obtain ⟨n, s, positive, sizes⟩ := exists_sizes consistent
  obtain ⟨q, quotient⟩ : ∃ q, q = n / s := ⟨_, rfl⟩
  have below : q ≤ n := quotient ▸ Nat.div_le_self n s
  rw [rangeCount_eq consistent, tdiv_eq sizes, ← quotient]
  exact ⟨by omega, by omega⟩

theorem exact_of_inconsistent {count : ℤ} (inconsistent : ¬ Consistent xstart xend xstep) :
    Exact (arangeOutShapeInfer dtype xstart xend xstep numel) count ∧
      Exact (rangeOutShapeInfer dtype xstart xend xstep numel) count := by
  obtain ⟨message, raised⟩ := checkRange_raised inconsistent
  by_cases dispatched : dtype.dispatched = true
  · simp only [arangeOutShapeInfer, rangeOutShapeInfer, torchCheck, raised, bind, Except.bind,
      if_pos dispatched]
    exact ⟨exact_raised, exact_raised⟩
  · simp only [arangeOutShapeInfer, rangeOutShapeInfer, torchCheck, bind, Except.bind,
      if_neg dispatched]
    exact ⟨exact_raised, exact_raised⟩

theorem exact_of_not_dispatched {count : ℤ} (other : ¬ dtype.dispatched = true) :
    Exact (arangeOutShapeInfer dtype xstart xend xstep numel) count ∧
      Exact (rangeOutShapeInfer dtype xstart xend xstep numel) count := by
  simp only [arangeOutShapeInfer, rangeOutShapeInfer, torchCheck, bind, Except.bind, if_neg other]
  exact ⟨exact_raised, exact_raised⟩

/-- The sizes are exact, or the call raises, when the checks fail or the numbers fit. -/
theorem sizes_exact_iff (start : dtype.Represents xstart) (stop : dtype.Represents xend)
    (step : dtype.Represents xstep) :
    (Exact (arangeOutShapeInfer dtype xstart xend xstep numel)
        (arangeCount xstart xend xstep) ↔ ArangeFits dtype xstart xend xstep) ∧
      (Exact (rangeOutShapeInfer dtype xstart xend xstep numel)
        (rangeCount xstart xend xstep) ↔ RangeFits dtype xstart xend xstep) := by
  by_cases consistent : Consistent xstart xend xstep
  · by_cases long : dtype = .long
    · subst long
      refine ⟨(arange_exact_iff_of_long consistent).trans ?_,
        (range_exact_iff_of_ok rfl consistent).trans ?_⟩
      · exact ⟨fun fits _ _ => fits, fun fits => fits rfl consistent⟩
      · exact ⟨fun fits _ _ => fits, fun fits => fits rfl consistent⟩
    · by_cases dispatched : dtype.dispatched = true
      · exact ⟨⟨fun _ other => absurd other long,
            fun _ => arange_exact_of_narrow dispatched long start stop step consistent⟩,
          ⟨fun _ other => absurd other long,
            fun _ => range_exact_of_narrow dispatched long start stop consistent⟩⟩
      · exact ⟨⟨fun _ other => absurd other long, fun _ => (exact_of_not_dispatched dispatched).1⟩,
          ⟨fun _ other => absurd other long, fun _ => (exact_of_not_dispatched dispatched).2⟩⟩
  · exact ⟨⟨fun _ _ agree => absurd agree consistent, fun _ => (exact_of_inconsistent consistent).1⟩,
      ⟨fun _ _ agree => absurd agree consistent, fun _ => (exact_of_inconsistent consistent).2⟩⟩

theorem sizes_exact_iff_long :
    (Exact (arangeOutShapeInfer .long (-2 ^ 61) (2 ^ 62) 7 0) (arangeCount (-2 ^ 61) (2 ^ 62) 7) ↔
        ArangeFits .long (-2 ^ 61) (2 ^ 62) 7) ∧
      (Exact (rangeOutShapeInfer .long (-2 ^ 61) (2 ^ 62) 7 0) (rangeCount (-2 ^ 61) (2 ^ 62) 7) ↔
        RangeFits .long (-2 ^ 61) (2 ^ 62) 7) :=
  sizes_exact_iff (by decide) (by decide) (by decide)

/-- The distance between the greatest and the least value of `int64_t` is not one of its values. -/
theorem sizes_overflow : ¬ ∀ (dtype : IntegralType) (xstart xend xstep numel : ℤ),
    dtype.Represents xstart → dtype.Represents xend → dtype.Represents xstep →
      Exact (arangeOutShapeInfer dtype xstart xend xstep numel) (arangeCount xstart xend xstep) ∧
        Exact (rangeOutShapeInfer dtype xstart xend xstep numel)
          (rangeCount xstart xend xstep) := by
  intro exact
  have overflow := (exact .long (-2 ^ 63) (2 ^ 63 - 1) (2 ^ 62) 0 (by decide) (by decide)
    (by decide)).1
  exact not_exact_overflow overflow

end TorchGcu.RangeFactories

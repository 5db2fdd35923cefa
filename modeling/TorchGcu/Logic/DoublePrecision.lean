import Mathlib.Data.Int.Log
import Mathlib.Data.Rat.Floor
import Mathlib.Tactic.FieldSimp
import Mathlib.Tactic.Linarith
import Mathlib.Tactic.Positivity
import Mathlib.Tactic.Ring

/-! Rounding of rational numbers to double precision, to the nearest value with 53 significant bits and
to the even one of two. Exponents are not bounded here: nothing overflows or becomes subnormal. -/
namespace DoublePrecision

def nearestEven (q : ℚ) : ℤ :=
  if q - ⌊q⌋ < 1 / 2 then ⌊q⌋
  else if 1 / 2 < q - ⌊q⌋ then ⌊q⌋ + 1
  else if ⌊q⌋ % 2 = 0 then ⌊q⌋ else ⌊q⌋ + 1

/-- The distance between the values of double precision next to a number. -/
def unit (q : ℚ) : ℚ := 2 ^ (Int.log 2 |q| - 52)

def rounded (q : ℚ) : ℚ := nearestEven (q / unit q) * unit q

/-- The values of double precision. -/
def Representable (q : ℚ) : Prop := ∃ m e : ℤ, |m| < 2 ^ 53 ∧ q = m * 2 ^ e

variable {q : ℚ}

@[simp] theorem nearestEven_intCast (n : ℤ) : nearestEven n = n := by
  simp [nearestEven]

theorem abs_nearestEven_sub_le (q : ℚ) : |nearestEven q - q| ≤ 1 / 2 := by
  have low := Int.floor_le q
  have high := Int.lt_floor_add_one q
  rw [abs_le]
  unfold nearestEven
  split
  · constructor <;> linarith
  · split
    · push_cast
      constructor <;> linarith
    · split <;> push_cast <;> constructor <;> linarith

theorem nearestEven_le {n : ℤ} (upper : q ≤ n) : nearestEven q ≤ n := by
  have close := (abs_le.mp (abs_nearestEven_sub_le q)).2
  have below : (nearestEven q : ℚ) < n + 1 := by linarith
  exact Int.lt_add_one_iff.mp (by exact_mod_cast below)

theorem le_nearestEven {n : ℤ} (lower : n ≤ q) : n ≤ nearestEven q := by
  have close := (abs_le.mp (abs_nearestEven_sub_le q)).1
  have above : (n : ℚ) < nearestEven q + 1 := by linarith
  exact Int.lt_add_one_iff.mp (by exact_mod_cast above)

theorem unit_pos (q : ℚ) : 0 < unit q := zpow_pos (by norm_num) _

theorem unit_mul_le (nonzero : q ≠ 0) : unit q * 2 ^ 52 ≤ |q| := by
  have least := Int.zpow_log_le_self (b := 2) (by norm_num) (abs_pos.mpr nonzero)
  have same : unit q * 2 ^ 52 = 2 ^ Int.log 2 |q| := by
    rw [unit, ← zpow_natCast, ← zpow_add₀ (by norm_num)]
    norm_num
  rw [same]
  exact_mod_cast least

theorem lt_unit_mul (q : ℚ) : |q| < unit q * 2 ^ 53 := by
  have greatest := Int.lt_zpow_succ_log_self (b := 2) (by norm_num) |q|
  have same : unit q * 2 ^ 53 = 2 ^ (Int.log 2 |q| + 1) := by
    rw [unit, ← zpow_natCast, ← zpow_add₀ (by norm_num)]
    congr 1
    push_cast
    ring
  rw [same]
  exact_mod_cast greatest

/-- The relative error of the rounding. -/
theorem abs_rounded_sub_le (q : ℚ) : |rounded q - q| * 2 ^ 53 ≤ |q| := by
  by_cases zero : q = 0
  · subst zero
    have none : nearestEven 0 = 0 := by exact_mod_cast nearestEven_intCast 0
    simp [rounded, none]
  · have positive := unit_pos q
    have split : rounded q - q = (nearestEven (q / unit q) - q / unit q) * unit q := by
      rw [sub_mul, div_mul_cancel₀ _ positive.ne', rounded]
    have close : |rounded q - q| ≤ 1 / 2 * unit q := by
      rw [split, abs_mul, abs_of_pos positive]
      exact mul_le_mul_of_nonneg_right (abs_nearestEven_sub_le _) positive.le
    have least := unit_mul_le zero
    calc |rounded q - q| * 2 ^ 53 ≤ 1 / 2 * unit q * 2 ^ 53 :=
          mul_le_mul_of_nonneg_right close (by positivity)
      _ = unit q * 2 ^ 52 := by ring
      _ ≤ |q| := least

theorem unit_dvd (represents : Representable q) : ∃ n : ℤ, q / unit q = n := by
  obtain ⟨m, e, small, same⟩ := represents
  by_cases zero : q = 0
  · exact ⟨0, by simp [zero]⟩
  · have bound : unit q < 2 ^ (e + 1) := by
      have least := unit_mul_le zero
      have below : |q| < 2 ^ 53 * 2 ^ e := by
        rw [same, abs_mul, abs_of_pos (zpow_pos (by norm_num : (0 : ℚ) < 2) e)]
        exact mul_lt_mul_of_pos_right (by exact_mod_cast small) (zpow_pos (by norm_num) e)
      rw [zpow_add₀ (by norm_num), zpow_one]
      linarith
    have exponent : Int.log 2 |q| - 52 < e + 1 :=
      (zpow_lt_zpow_iff_right₀ (by norm_num : (1 : ℚ) < 2)).mp bound
    obtain ⟨k, gap⟩ := Int.le.dest (Int.lt_add_one_iff.mp exponent)
    refine ⟨m * 2 ^ k, ?_⟩
    rw [div_eq_iff (unit_pos q).ne']
    conv_lhs => rw [same]
    rw [← gap, unit, zpow_add₀ (by norm_num), zpow_natCast]
    push_cast
    ring

theorem rounded_of_representable (represents : Representable q) : rounded q = q := by
  obtain ⟨n, same⟩ := unit_dvd represents
  rw [rounded, same, nearestEven_intCast, ← same, div_mul_cancel₀ _ (unit_pos q).ne']

theorem representable_of_round (same : rounded q = q) : Representable q := by
  refine ⟨nearestEven (q / unit q), Int.log 2 |q| - 52, ?_, same.symm⟩
  have size : |q| = |(nearestEven (q / unit q) : ℚ)| * unit q := by
    conv_lhs => rw [← same, rounded, abs_mul, abs_of_pos (unit_pos q)]
  have greatest := lt_unit_mul q
  rw [size, mul_comm] at greatest
  have small := lt_of_mul_lt_mul_left greatest (unit_pos q).le
  exact_mod_cast small

theorem rounded_eq_iff : rounded q = q ↔ Representable q :=
  ⟨representable_of_round, rounded_of_representable⟩

theorem rounded_intCast {n : ℤ} (small : |n| < 2 ^ 53) : rounded n = n :=
  rounded_of_representable ⟨n, 0, small, by simp⟩

theorem rounded_nonneg (least : 0 ≤ q) : 0 ≤ rounded q := by
  have positive := unit_pos q
  have whole : 0 ≤ nearestEven (q / unit q) :=
    le_nearestEven (by push_cast; exact div_nonneg least positive.le)
  exact mul_nonneg (by exact_mod_cast whole) positive.le

/-- A number is not rounded over a power of two. -/
theorem rounded_le_zpow {e : ℤ} (positive : 0 < q) (bound : q ≤ 2 ^ e) : rounded q ≤ 2 ^ e := by
  have size := unit_pos q
  have exponent : Int.log 2 |q| ≤ e := by
    have least := Int.zpow_log_le_self (b := 2) (by norm_num) (abs_pos.mpr positive.ne')
    rw [abs_of_pos positive] at least ⊢
    push_cast at least
    exact (zpow_le_zpow_iff_right₀ (by norm_num : (1 : ℚ) < 2)).mp (least.trans bound)
  obtain ⟨k, gap⟩ := Int.le.dest (show Int.log 2 |q| - 52 ≤ e by omega)
  have whole : (2 : ℚ) ^ e = ((2 ^ k : ℤ) : ℚ) * unit q := by
    rw [← gap, unit, zpow_add₀ (by norm_num), zpow_natCast, mul_comm]
    push_cast
    rfl
  rw [whole] at bound ⊢
  refine mul_le_mul_of_nonneg_right ?_ size.le
  exact_mod_cast nearestEven_le ((div_le_iff₀ size).mpr bound)

theorem rounded_intCast_isInt (n : ℤ) : ∃ m : ℤ, rounded n = m := by
  by_cases small : |n| < 2 ^ 53
  · exact ⟨n, rounded_intCast small⟩
  · have large : (2 : ℚ) ^ (53 : ℤ) ≤ |(n : ℚ)| := by exact_mod_cast not_lt.mp small
    have exponent : 52 ≤ Int.log 2 |(n : ℚ)| := by
      have greatest := Int.lt_zpow_succ_log_self (b := 2) (by norm_num) |(n : ℚ)|
      push_cast at greatest
      have less := (zpow_lt_zpow_iff_right₀ (by norm_num : (1 : ℚ) < 2)).mp
        (large.trans_lt greatest)
      omega
    obtain ⟨k, gap⟩ := Int.le.dest exponent
    refine ⟨nearestEven (n / unit n) * 2 ^ k, ?_⟩
    have size : unit (n : ℚ) = 2 ^ k := by
      rw [unit, ← gap, add_sub_cancel_left, zpow_natCast]
    rw [rounded, size]
    push_cast
    rfl

/-- A positive multiple of `1 / d` is not below it. -/
theorem one_div_le_of_multiple {r d : ℚ} {n : ℤ} (size : 0 < d) (scaled : r * d = n)
    (positive : 0 < r) : 1 / d ≤ r := by
  have whole : (0 : ℚ) < n := scaled ▸ mul_pos positive size
  have integer : 0 < n := by exact_mod_cast whole
  have least : (1 : ℚ) ≤ n := by exact_mod_cast integer
  rw [div_le_iff₀ size, scaled]
  exact least

/-- A quotient of small integers is not rounded to an integer or over one. -/
theorem ceil_rounded_div {a b : ℤ} (small : |a| < 2 ^ 53) (nonzero : b ≠ 0) :
    ⌈rounded (a / b : ℚ)⌉ = ⌈(a / b : ℚ)⌉ := by
  obtain ⟨k, ceil⟩ : ∃ k, k = ⌈(a / b : ℚ)⌉ := ⟨_, rfl⟩
  obtain ⟨above, upper⟩ := Int.ceil_eq_iff.mp ceil.symm
  have size : (0 : ℚ) < |(b : ℚ)| := abs_pos.mpr (by exact_mod_cast nonzero)
  have scaled : (a / b : ℚ) * |(b : ℚ)| = (a * b.sign : ℤ) := by
    have sign : |(b : ℚ)| = b * b.sign := by exact_mod_cast (Int.mul_sign_self b ▸ Int.abs_eq_natAbs b)
    rw [sign, ← mul_assoc, div_mul_cancel₀ _ (by exact_mod_cast nonzero)]
    push_cast
    ring
  have error : |rounded (a / b : ℚ) - a / b| * |(b : ℚ)| < 1 := by
    have relative := abs_rounded_sub_le (a / b : ℚ)
    rw [abs_div, le_div_iff₀ size] at relative
    have small : |(a : ℚ)| < 2 ^ 53 := by exact_mod_cast small
    nlinarith
  rw [← ceil]
  obtain ⟨error_below, error_above⟩ := abs_lt.mp (lt_of_mul_lt_mul_right
    (error.trans_eq (div_mul_cancel₀ 1 size.ne').symm) size.le)
  rcases upper.lt_or_eq with less | same
  · have gap_above : 1 / |(b : ℚ)| ≤ k - a / b := by
      refine one_div_le_of_multiple (n := k * |b| - a * b.sign) size ?_ (by linarith)
      rw [sub_mul, scaled]
      push_cast
      ring
    have gap_below : 1 / |(b : ℚ)| ≤ a / b - (k - 1) := by
      refine one_div_le_of_multiple (n := a * b.sign - (k - 1) * |b|) size ?_ (by linarith)
      rw [sub_mul, scaled]
      push_cast
      ring
    exact Int.ceil_eq_iff.mpr ⟨by linarith, by linarith⟩
  · have bound : |k| < 2 ^ 53 := by
      have quotient : |(k : ℚ)| * |(b : ℚ)| = |(a : ℚ)| := by
        rw [← same, abs_div, div_mul_cancel₀ _ size.ne']
      have larger : 1 ≤ |(b : ℚ)| := by exact_mod_cast Int.one_le_abs nonzero
      have small : |(a : ℚ)| < 2 ^ 53 := by exact_mod_cast small
      have least := abs_nonneg (k : ℚ)
      have bound : |(k : ℚ)| < 2 ^ 53 := by nlinarith
      exact_mod_cast bound
    rw [same, rounded_intCast bound, Int.ceil_intCast]

end DoublePrecision

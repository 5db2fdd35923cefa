import TorchGcu.CachingAllocator.Config

/-! What `roundSize` does to the largest sizes. Sizes are rounded up to a multiple of a
step that divides 2^64; the result is the next multiple, or zero where that multiple is
2^64 itself. -/
namespace TorchGcu.GCUCachingAllocator

/-- The step of which the rounded size is a multiple, if the size is not kept as it is. -/
def roundStep (cfg : GCUAllocatorConfig) (size : Nat) : Nat :=
  let divisions := cfg.roundupPower2DivisionsOf size
  if 0 < divisions ∧ kMinBlockSize * divisions < size then
    if divisions = 1 then 1 else 2 ^ Nat.log2 size >>> Nat.log2 divisions
  else kMinBlockSize

/-- Clearing the low bits of a word leaves the multiple of a power of two below it. -/
theorem and_mask {size k : Nat} (word : size < 2 ^ 64) (le : k ≤ 64) :
    size &&& (sizeMax - (2 ^ k - 1)) = 2 ^ k * (size / 2 ^ k) := by
  have ones : sizeMax - (2 ^ k - 1) = 2 ^ k * (2 ^ (64 - k) - 1) := by
    have whole : 2 ^ k * 2 ^ (64 - k) = 2 ^ 64 := by
      rw [← Nat.pow_add]
      congr 1
      omega
    have positive : 0 < 2 ^ k := Nat.two_pow_pos k
    rw [Nat.mul_sub, whole, Nat.mul_one]
    unfold sizeMax
    omega
  rw [ones]
  refine Nat.eq_of_testBit_eq fun i => ?_
  rw [Nat.testBit_and, Nat.testBit_two_pow_mul, Nat.testBit_two_pow_mul,
    Nat.testBit_two_pow_sub_one, Nat.testBit_div_two_pow]
  by_cases low : i < k
  · simp [Nat.not_le.mpr low]
  by_cases high : i < 64
  · have inside : i - k < 64 - k := by omega
    have shifted : i - k + k = i := by omega
    simp [inside, shifted, Nat.not_lt.mp low]
  · have clear : size.testBit i = false :=
      Nat.testBit_lt_two_pow (word.trans_le (Nat.pow_le_pow_right (by decide) (by omega)))
    have shifted : i - k + k = i := by omega
    simp [clear, shifted]

/-- The multiple after the one below `size` is 2^64 for a size above the last one. -/
theorem nextMultiple {size k : Nat} (word : size < 2 ^ 64) (le : k ≤ 64)
    (between : 2 ^ k * (size / 2 ^ k) ≠ size) :
    size ≤ 2 ^ 64 - 2 ^ k ∧ 2 ^ k * (size / 2 ^ k) + 2 ^ k < 2 ^ 64 ∨
      2 ^ 64 - 2 ^ k < size ∧ 2 ^ k * (size / 2 ^ k) + 2 ^ k = 2 ^ 64 := by
  have whole : 2 ^ 64 = 2 ^ k * 2 ^ (64 - k) := by
    rw [← Nat.pow_add]
    congr 1
    omega
  have positive : 0 < 2 ^ k := Nat.two_pow_pos k
  have below : 2 ^ k * (size / 2 ^ k) < size := lt_of_le_of_ne (Nat.mul_div_le _ _) between
  have above : size < 2 ^ k * (size / 2 ^ k + 1) := Nat.lt_mul_div_succ size positive
  have quotient : size / 2 ^ k < 2 ^ (64 - k) := by
    rw [Nat.div_lt_iff_lt_mul positive, Nat.mul_comm, ← whole]
    exact word
  have whole' : 2 ^ 64 - 2 ^ k = 2 ^ k * (2 ^ (64 - k) - 1) := by
    rw [Nat.mul_sub, ← whole, Nat.mul_one]
  rw [whole', whole, ← Nat.mul_succ]
  generalize size / 2 ^ k = q at *
  generalize 2 ^ (64 - k) = m at *
  rcases Nat.lt_or_ge q (m - 1) with fits | last
  · have room : q + 1 < m := by omega
    exact .inl ⟨above.le.trans (Nat.mul_le_mul_left _ fits),
      Nat.mul_lt_mul_of_pos_left room positive⟩
  · have last : q = m - 1 := by omega
    have next : q + 1 = m := by omega
    exact .inr ⟨last ▸ below, by rw [Nat.succ_eq_add_one, next]⟩

theorem roundupPower2NextDivision_cases {size divisions : Nat} (word : size < 2 ^ 64)
    (several : 2 ≤ divisions) (fewer : kMinBlockSize * divisions < size) :
    size ≤ 2 ^ 64 - 2 ^ Nat.log2 size >>> Nat.log2 divisions ∧
        size ≤ roundupPower2NextDivision size divisions ∨
      2 ^ 64 - 2 ^ Nat.log2 size >>> Nat.log2 divisions < size ∧
        roundupPower2NextDivision size divisions = 0 := by
  have large : 1024 ≤ size := by
    unfold kMinBlockSize at fewer
    omega
  have logLe : Nat.log2 divisions ≤ Nat.log2 size :=
    (Nat.le_log2 (by omega)).mpr ((Nat.log2_self_le (by omega)).trans (by
      unfold kMinBlockSize at fewer
      omega))
  have logLt : Nat.log2 size < 64 := (Nat.log2_lt (by omega)).mpr word
  have stepEq : 2 ^ Nat.log2 size >>> Nat.log2 divisions
      = 2 ^ (Nat.log2 size - Nat.log2 divisions) := by
    rw [Nat.shiftRight_eq_div_pow, Nat.pow_div logLe (by decide)]
  have stepPos : 2 ^ (Nat.log2 size - Nat.log2 divisions) ≠ 0 := (Nat.two_pow_pos _).ne'
  have bits : Nat.log2 size - Nat.log2 divisions ≤ 63 := by omega
  simp only [roundupPower2NextDivision, stepEq]
  rw [if_neg (by omega), if_neg stepPos, and_mask word (bits.trans (by decide))]
  generalize Nat.log2 size - Nat.log2 divisions = k at *
  have stepLe : 2 ^ k ≤ 2 ^ 63 := Nat.pow_le_pow_right (by decide) bits
  by_cases power : isPowerOf2 size = true
  · rw [if_pos power]
    obtain ⟨j, rfl⟩ := (Nat.and_sub_one_eq_zero_iff_isPowerOfTwo (by omega)).mp
      (show size &&& (size - 1) = 0 by simpa [isPowerOf2, show 0 < size by omega] using power)
    have exponent : j < 64 := (Nat.pow_lt_pow_iff_right (by decide)).mp word
    have half : 2 ^ j ≤ 2 ^ 63 := Nat.pow_le_pow_right (by decide) (by omega)
    exact .inl ⟨by omega, le_refl _⟩
  rw [if_neg power]
  split
  · rename_i multiple
    refine .inl ⟨?_, le_refl _⟩
    have divides : 2 ^ k ∣ 2 ^ 64 - size :=
      (Nat.dvd_sub (Nat.pow_dvd_pow 2 (bits.trans (by decide))) ⟨_, multiple.symm⟩)
    have atLeast : 2 ^ k ≤ 2 ^ 64 - size := Nat.le_of_dvd (by omega) divides
    omega
  · rename_i between
    rcases nextMultiple word (bits.trans (by decide)) between with ⟨below, fits⟩ | ⟨above, wraps⟩
    · have after : size < 2 ^ k * (size / 2 ^ k + 1) :=
        Nat.lt_mul_div_succ size (Nat.two_pow_pos k)
      rw [Nat.mul_succ] at after
      rw [sizeAdd_of_lt fits]
      exact .inl ⟨below, after.le⟩
    · refine .inr ⟨above, ?_⟩
      rw [sizeAdd, wraps, Nat.mod_self]

/-- A size is rounded up, or, within the last step below 2^64, to nothing. -/
theorem roundSize_cases (cfg : GCUAllocatorConfig) {size : Nat} (word : size < 2 ^ 64) :
    size ≤ 2 ^ 64 - roundStep cfg size ∧ size ≤ roundSize cfg size ∨
      2 ^ 64 - roundStep cfg size < size ∧ roundSize cfg size = 0 := by
  by_cases finer : 0 < cfg.roundupPower2DivisionsOf size ∧
      kMinBlockSize * cfg.roundupPower2DivisionsOf size < size
  · obtain ⟨positive, fewer⟩ := finer
    have large : ¬ size < kMinBlockSize := by
      unfold kMinBlockSize at *
      omega
    simp only [roundStep, roundSize, if_neg large, if_pos (And.intro positive fewer)]
    by_cases one : cfg.roundupPower2DivisionsOf size = 1
    · rw [if_pos one, one]
      exact .inl ⟨by omega, by simp [roundupPower2NextDivision]⟩
    · rw [if_neg one]
      exact roundupPower2NextDivision_cases word (by omega) fewer
  simp only [roundStep, roundSize, if_neg finer]
  split
  · rename_i tiny
    unfold kMinBlockSize at *
    exact .inl ⟨by omega, tiny.le⟩
  by_cases fits : size + (kMinBlockSize - 1) < 2 ^ 64
  · rw [sizeAdd_of_lt fits]
    unfold kMinBlockSize at *
    exact .inl ⟨by omega, by omega⟩
  · have wrapped : sizeAdd size (kMinBlockSize - 1) < kMinBlockSize := by
      unfold sizeAdd kMinBlockSize at *
      omega
    rw [Nat.div_eq_of_lt wrapped]
    unfold kMinBlockSize at *
    exact .inr ⟨by omega, rfl⟩

/-- Below 2^60 nothing wraps. -/
theorem le_roundSize (cfg : GCUAllocatorConfig) {size : Nat} (small : size < 2 ^ 60) :
    size ≤ roundSize cfg size := by
  rcases roundSize_cases cfg (small.trans (by decide)) with ⟨_, le⟩ | ⟨_, zero⟩
  · exact le
  · exact absurd zero (roundSize_pos cfg small).ne'

end TorchGcu.GCUCachingAllocator

import TorchGcu.CachingAllocator.ConfigParser
import TorchGcu.CachingAllocator.Operations
import TorchGcu.CachingAllocator.Segments
import TorchGcu.CachingAllocator.Rounding
import TorchGcu.Logic.RoundUp

/-! Size rounding as a closure operator. A size is rounded up to a multiple of its step, and the
step depends on the interval between two powers of two in which the size lies. -/
namespace TorchGcu.GCUCachingAllocator
open ProgramLogic

variable {cfg : GCUAllocatorConfig} {size other : Nat}

/-! ### The step -/

/-- The divisions are those of the interval. -/
theorem divisions_of_log2 (same : Nat.log2 size = Nat.log2 other) :
    cfg.roundupPower2DivisionsOf size = cfg.roundupPower2DivisionsOf other := by
  simp only [GCUAllocatorConfig.roundupPower2DivisionsOf, same]

theorem log2_two_pow_le {m : Nat} (fewer : kMinBlockSize * 2 ^ m < size) : 9 + m ≤ Nat.log2 size := by
  refine (Nat.le_log2 (by omega)).mpr ?_
  rw [Nat.pow_add]
  exact fewer.le

/-- The step is a power of two, and a multiple of 512 unless the divisions are 1. -/
theorem roundStep_eq (valid : ValidTable cfg.roundupPower2Divisions) (large : 512 ≤ size) :
    ∃ e ≤ Nat.log2 size, roundStep cfg size = 2 ^ e ∧
      (e = 0 ∧ cfg.roundupPower2DivisionsOf size = 1 ∧ kMinBlockSize < size ∨
        9 ≤ e ∧ ¬ (cfg.roundupPower2DivisionsOf size = 1 ∧ kMinBlockSize < size)) := by
  have atLeast : 9 ≤ Nat.log2 size := (Nat.le_log2 (by omega)).mpr large
  unfold roundStep
  rcases valid.divisions size with zero | ⟨m, -, power⟩
  · refine ⟨9, atLeast, ?_, .inr ⟨le_rfl, ?_⟩⟩
    · simp [zero, kMinBlockSize]
    · simp [zero]
  · rw [power]
    by_cases fewer : kMinBlockSize * 2 ^ m < size
    · have log := log2_two_pow_le fewer
      have several : 0 < 2 ^ m ∧ kMinBlockSize * 2 ^ m < size := ⟨Nat.two_pow_pos m, fewer⟩
      simp only [if_pos several]
      by_cases one : 2 ^ m = 1
      · refine ⟨0, Nat.zero_le _, by rw [if_pos one, pow_zero], .inl ⟨rfl, one, ?_⟩⟩
        rwa [one, Nat.mul_one] at fewer
      · refine ⟨Nat.log2 size - m, Nat.sub_le _ _, ?_, .inr ⟨by omega, fun both => one both.1⟩⟩
        rw [if_neg one, Nat.log2_two_pow, Nat.shiftRight_eq_div_pow, Nat.pow_div (by omega) (by decide)]
    · refine ⟨9, atLeast, ?_, .inr ⟨le_rfl, fun both => fewer ?_⟩⟩
      · rw [if_neg fun both => fewer both.2]
        rfl
      · rw [both.1, Nat.mul_one]
        exact both.2

theorem roundStep_pos (valid : ValidTable cfg.roundupPower2Divisions) (large : 512 ≤ size) :
    0 < roundStep cfg size := by
  obtain ⟨e, -, eq, -⟩ := roundStep_eq valid large
  exact eq ▸ Nat.two_pow_pos e

theorem roundupPower2NextDivision_eq {divisions e : Nat} (small : size ≤ 2 ^ 60) (large : 4 < size)
    (several : 1 < divisions) (le : e ≤ Nat.log2 size)
    (step : 2 ^ Nat.log2 size >>> Nat.log2 divisions = 2 ^ e) :
    roundupPower2NextDivision size divisions = roundUp (2 ^ e) size := by
  have positive : 0 < 2 ^ e := Nat.two_pow_pos e
  have stepLe : 2 ^ e ≤ size := (Nat.pow_le_pow_right (by decide) le).trans (Nat.log2_self_le (by omega))
  have bits : e ≤ 60 := (Nat.pow_le_pow_iff_right (by decide)).mp (stepLe.trans small)
  simp only [roundupPower2NextDivision, step]
  rw [if_neg (by omega), if_neg positive.ne', and_mask (by omega) (by omega)]
  by_cases power : isPowerOf2 size = true
  · obtain ⟨j, rfl⟩ := eq_two_pow_of_isPowerOf2 power
    rw [if_pos power, roundUp_of_dvd positive]
    rw [Nat.log2_two_pow] at le
    exact Nat.pow_dvd_pow 2 le
  rw [if_neg power]
  split
  · next multiple => exact (roundUp_of_dvd positive ⟨_, multiple.symm⟩).symm
  · next between =>
    have floor : 2 ^ e * (size / 2 ^ e) ≤ size := Nat.mul_div_le _ _
    rw [roundUp_between positive between, sizeAdd_of_lt (by omega)]

/-- Every size is rounded up to a multiple of its step. -/
theorem roundSize_eq_roundUp (valid : ValidTable cfg.roundupPower2Divisions)
    (large : 512 ≤ size) (small : size ≤ 2 ^ 60) :
    roundSize cfg size = roundUp (roundStep cfg size) size := by
  have notTiny : ¬ size < kMinBlockSize := Nat.not_lt.mpr large
  by_cases several : 0 < cfg.roundupPower2DivisionsOf size ∧
      kMinBlockSize * cfg.roundupPower2DivisionsOf size < size
  · simp only [roundSize, if_neg notTiny, if_pos several]
    obtain ⟨e, le, eq, -⟩ := roundStep_eq valid large
    have step := eq
    simp only [roundStep, if_pos several] at step
    by_cases one : cfg.roundupPower2DivisionsOf size = 1
    · rw [if_pos one] at step
      rw [eq, ← step, roundUp_of_dvd Nat.one_pos (Nat.one_dvd _), one]
      simp [roundupPower2NextDivision]
    rw [if_neg one] at step
    rw [eq]
    exact roundupPower2NextDivision_eq small (by omega) (by omega) le step
  · have step : roundStep cfg size = kMinBlockSize := by simp only [roundStep, if_neg several]
    simp only [roundSize, if_neg notTiny, if_neg several, step]
    unfold kMinBlockSize
    rw [sizeAdd_of_lt (by omega), roundUp_eq_div, Nat.add_sub_assoc (by decide)]

/-! ### Intervals -/

/-- Rounding up does not leave the interval, but for the power of two at its end. -/
theorem roundSize_le_next (valid : ValidTable cfg.roundupPower2Divisions)
    (large : 512 ≤ size) (small : size ≤ 2 ^ 60) :
    roundSize cfg size ≤ 2 ^ (Nat.log2 size + 1) := by
  obtain ⟨e, le, eq, -⟩ := roundStep_eq valid large
  rw [roundSize_eq_roundUp valid large small, eq]
  exact roundUp_le (Nat.two_pow_pos e) Nat.lt_log2_self.le (Nat.pow_dvd_pow 2 (by omega))

theorem le_roundSize_of_valid (valid : ValidTable cfg.roundupPower2Divisions)
    (large : 512 ≤ size) (small : size ≤ 2 ^ 60) : size ≤ roundSize cfg size := by
  rw [roundSize_eq_roundUp valid large small]
  exact le_roundUp (roundStep_pos valid large) size

theorem roundSize_two_pow (valid : ValidTable cfg.roundupPower2Divisions) {k : Nat} (large : 9 ≤ k)
    (small : k ≤ 60) : roundSize cfg (2 ^ k) = 2 ^ k := by
  have large' : 512 ≤ 2 ^ k := Nat.pow_le_pow_right Nat.two_pos large
  obtain ⟨e, le, eq, -⟩ := roundStep_eq valid large'
  rw [Nat.log2_two_pow] at le
  rw [roundSize_eq_roundUp valid large' (Nat.pow_le_pow_right Nat.two_pos small), eq]
  exact roundUp_of_dvd (Nat.two_pow_pos e) (Nat.pow_dvd_pow 2 le)

/-- In one interval the step changes once, behind 512 times the divisions. -/
theorem roundStep_interval (same : Nat.log2 size = Nat.log2 other) :
    roundStep cfg size = roundStep cfg other ∨
      ∃ count, (size ≤ kMinBlockSize * count ∧ kMinBlockSize * count < other ∧
        roundStep cfg size = kMinBlockSize) ∨
      (other ≤ kMinBlockSize * count ∧ kMinBlockSize * count < size ∧
        roundStep cfg other = kMinBlockSize) := by
  have divisions := @divisions_of_log2 cfg _ _ same
  unfold roundStep
  rw [divisions, same]
  generalize cfg.roundupPower2DivisionsOf other = count
  by_cases none : 0 < count
  · by_cases fewer : kMinBlockSize * count < size <;> by_cases fewer' : kMinBlockSize * count < other
    · simp [none, fewer, fewer']
    · exact .inr ⟨count, .inr ⟨Nat.not_lt.mp fewer', fewer, by simp [fewer']⟩⟩
    · exact .inr ⟨count, .inl ⟨Nat.not_lt.mp fewer, fewer', by simp [fewer]⟩⟩
    · simp [fewer, fewer']
  · simp [none]

/-! ### The laws -/

theorem roundSize_idempotent_of_large (valid : ValidTable cfg.roundupPower2Divisions)
    (large : 512 ≤ size) (small : size < 2 ^ 60) :
    roundSize cfg (roundSize cfg size) = roundSize cfg size := by
  have le := le_roundSize_of_valid valid large small.le
  have next := roundSize_le_next valid large small.le
  have log : Nat.log2 size < 60 := (Nat.log2_lt (by omega)).mpr small
  have atLeast : 9 ≤ Nat.log2 size := (Nat.le_log2 (by omega)).mpr large
  have bound : 2 ^ (Nat.log2 size + 1) ≤ 2 ^ 60 := Nat.pow_le_pow_right (by decide) log
  rcases Nat.lt_or_eq_of_le next with inside | at_end
  · have same : Nat.log2 size = Nat.log2 (roundSize cfg size) := by
      refine Nat.le_antisymm ?_ ?_
      · exact (Nat.le_log2 (by omega)).mpr
          ((Nat.log2_self_le (by omega)).trans le)
      · exact Nat.lt_succ_iff.mp ((Nat.log2_lt (by omega)).mpr inside)
    have step : roundStep cfg size = roundStep cfg (roundSize cfg size) := by
      rcases @roundStep_interval cfg _ _ same with equal | ⟨count, ⟨le', more, eq⟩ | ⟨le', more, -⟩⟩
      · exact equal
      · have below : roundSize cfg size ≤ kMinBlockSize * count := by
          rw [roundSize_eq_roundUp valid large small.le, eq]
          exact roundUp_le (by decide) le' (Nat.dvd_mul_right _ _)
        omega
      · omega
    have divides : roundStep cfg (roundSize cfg size) ∣ roundSize cfg size := by
      rw [← step, roundSize_eq_roundUp valid large small.le]
      exact dvd_roundUp _ _
    rw [roundSize_eq_roundUp valid (by omega) (by omega)]
    exact roundUp_of_dvd (roundStep_pos valid (by omega)) divides
  · rw [at_end]
    exact roundSize_two_pow valid (by omega) log

theorem roundSize_tiny (tiny : size < 512) : roundSize cfg size = 512 := if_pos tiny

theorem roundSize_512 (valid : ValidTable cfg.roundupPower2Divisions) : roundSize cfg 512 = 512 :=
  @roundSize_two_pow cfg valid 9 le_rfl (by decide)

theorem roundSize_mono_of_large (valid : ValidTable cfg.roundupPower2Divisions) (large : 512 ≤ size)
    (le : size ≤ other) (small : other < 2 ^ 60) : roundSize cfg size ≤ roundSize cfg other := by
  have leOther := le_roundSize_of_valid valid (large.trans le) small.le
  have logLe : Nat.log2 size ≤ Nat.log2 other :=
    (Nat.le_log2 (by omega)).mpr ((Nat.log2_self_le (by omega)).trans le)
  rcases Nat.lt_or_eq_of_le logLe with earlier | same
  · -- The sizes are in different intervals.
    have next := roundSize_le_next valid large (by omega)
    have start : 2 ^ (Nat.log2 size + 1) ≤ 2 ^ Nat.log2 other :=
      Nat.pow_le_pow_right Nat.two_pos earlier
    have floor : 2 ^ Nat.log2 other ≤ other := Nat.log2_self_le (by omega)
    omega
  · rcases @roundStep_interval cfg _ _ same with equal | ⟨count, ⟨le', more, eq⟩ | ⟨le', more, -⟩⟩
    · rw [roundSize_eq_roundUp valid large (by omega), roundSize_eq_roundUp valid (by omega) small.le,
        equal]
      exact roundUp_mono (roundStep_pos valid (by omega)) le
    · have below : roundSize cfg size ≤ kMinBlockSize * count := by
        rw [roundSize_eq_roundUp valid large (by omega), eq]
        exact roundUp_le (by decide) le' (Nat.dvd_mul_right _ _)
      omega
    · omega

theorem roundSize_mono (valid : ValidTable cfg.roundupPower2Divisions) (le : size ≤ other)
    (small : other < 2 ^ 60) : roundSize cfg size ≤ roundSize cfg other := by
  by_cases tiny : size < 512
  · rw [roundSize_tiny tiny, ← roundSize_512 valid]
    by_cases tinyOther : other < 512
    · rw [roundSize_tiny tinyOther, roundSize_512 valid]
    · exact roundSize_mono_of_large valid le_rfl (by omega) small
  · exact roundSize_mono_of_large valid (by omega) le small

theorem roundSize_idempotent (valid : ValidTable cfg.roundupPower2Divisions) (small : size < 2 ^ 60) :
    roundSize cfg (roundSize cfg size) = roundSize cfg size := by
  by_cases tiny : size < 512
  · rw [roundSize_tiny tiny, roundSize_512 valid]
  · exact roundSize_idempotent_of_large valid (by omega) small

theorem roundSize_le_two_pow (valid : ValidTable cfg.roundupPower2Divisions) (small : size < 2 ^ 60) :
    roundSize cfg size ≤ 2 ^ 60 := by
  by_cases tiny : size < 512
  · rw [roundSize_tiny tiny]
    decide
  · have log : Nat.log2 size < 60 := (Nat.log2_lt (by omega)).mpr small
    exact (roundSize_le_next valid (by omega) small.le).trans (Nat.pow_le_pow_right Nat.two_pos log)

/-- The step is at most the distance of the divisions, or 512. -/
theorem roundSize_close (valid : ValidTable cfg.roundupPower2Divisions) (large : 512 ≤ size)
    (small : size < 2 ^ 60) : roundSize cfg size - size <
      max 512 (2 ^ Nat.log2 size / cfg.roundupPower2DivisionsOf size) := by
  have below := roundUp_lt (roundStep_pos valid large) size
  have step : roundStep cfg size ≤ max 512 (2 ^ Nat.log2 size / cfg.roundupPower2DivisionsOf size) := by
    unfold roundStep
    rcases valid.divisions size with zero | ⟨m, -, power⟩
    · simp [zero, kMinBlockSize]
    · rw [power]
      dsimp only
      split
      · split
        · omega
        · rw [Nat.log2_two_pow, Nat.shiftRight_eq_div_pow]
          exact le_max_right _ _
      · exact le_max_left _ _
  rw [roundSize_eq_roundUp valid large small.le]
  omega

/-! ### Segments and pools -/

theorem le_getAllocationSize_of_le (small : size ≤ 2 ^ 60) : size ≤ getAllocationSize size := by
  unfold getAllocationSize kSmallSize kSmallBuffer kMinLargeAlloc kLargeBuffer kRoundLarge
  split
  · omega
  split
  · omega
  · rw [sizeAdd_of_lt (by omega)]
    omega

/-- A segment of 2 MiB is for a small size. -/
theorem getAllocationSize_small (small : size ≤ 2 ^ 60) :
    getAllocationSize size ≤ kSmallBuffer ↔ size ≤ kSmallSize := by
  unfold getAllocationSize kSmallSize kSmallBuffer kMinLargeAlloc kLargeBuffer kRoundLarge
  split
  · omega
  split
  · omega
  · rw [sizeAdd_of_lt (by omega)]
    omega

/-- Rounding does not move a request to the other pool: the limit is a power of two. -/
theorem roundSize_small (valid : ValidTable cfg.roundupPower2Divisions) (small : size < 2 ^ 60) :
    roundSize cfg size ≤ kSmallSize ↔ size ≤ kSmallSize := by
  constructor
  · exact fun rounded => (le_roundSize cfg small).trans rounded
  · intro le
    have limit : roundSize cfg kSmallSize = kSmallSize :=
      @roundSize_two_pow cfg valid 20 (by decide) (by decide)
    rw [← limit]
    exact roundSize_mono valid le (by decide)

variable {st : State} {params : AllocParams} {rt : Runtime}

theorem getPool_isSmall (stream : StreamId) :
    wp (getPool size stream) (fun pool _ => pool.isSmall = decide (size ≤ kSmallSize))
      (fun _ _ => True) st := by
  simp only [getPool, wp_bind, wp_get]
  split
  · rfl
  · split
    · trivial
    · rfl

/-- The block that a search has ended with is large enough to be split. -/
def Splittable (size : Nat) (result : Bool × AllocParams) (st : State) : Prop :=
  result.1 = true → ∃ b, result.2.block = some b ∧ size ≤ (st.block b).size

theorem getFreeBlock_splittable :
    wp (getFreeBlock cfg params) (Splittable params.size) (fun _ _ => True) st := by
  have missed : Splittable params.size (false, params) (st.countSearch cfg params.pool) :=
    fun found => by cases found
  simp only [getFreeBlock, wp_bind, wp_modify, wp_get]
  split
  · exact missed
  · rename_i found lower
    simp only [wp_ite, wp_pure, wp_bind, wp_set]
    refine ⟨fun _ => missed, fun stream => ⟨fun _ => missed, fun _ => ⟨fun _ => missed, fun _ _ => ?_⟩⟩⟩
    exact ⟨found, rfl, (lowerBound_some lower).2 (not_not.mp stream)⟩

theorem allocBlock_splittable (small : params.size ≤ 2 ^ 60)
    (asks : params.allocSize = getAllocationSize params.size) (call : Nat) (isRetry : Bool) :
    wp (allocBlock cfg rt call params isRetry) (Splittable params.size) (fun _ _ => True) st := by
  rw [allocBlock, wp_bind]
  refine wp_intro (fun may st' => ?_) fun _ _ => trivial
  rw [wp_ite]
  refine ⟨fun _ => ?_, fun _ found => by cases found⟩
  rw [wp_bind, wp_get]
  unfold allocBlockEnd
  split
  · exact fun found => by cases found
  · trivial
  · rename_i ptr answer
    simp only [wp_bind, wp_get, wp_modify, wp_pure]
    refine fun _ => ⟨st'.nextBlock, rfl, ?_⟩
    have whole : ((st'.newSegment cfg params ptr).block st'.nextBlock).size = params.allocSize := by
      simp [State.block, newSegment_blocks]
    rw [whole, asks]
    exact le_getAllocationSize_of_le small

/-! ### The closure operator -/

/-- What is expected of a size and of what it is rounded to. -/
structure RoundsWell (cfg : GCUAllocatorConfig) (size : Nat) : Prop where
  le : size ≤ roundSize cfg size
  multiple : kMinBlockSize ∣ roundSize cfg size
  idempotent : roundSize cfg (roundSize cfg size) = roundSize cfg size
  monotone : ∀ other < 2 ^ 60, size ≤ other → roundSize cfg size ≤ roundSize cfg other
  close : 0 < cfg.roundupPower2DivisionsOf size → 512 ≤ size → roundSize cfg size - size <
    max 512 (2 ^ Nat.log2 size / cfg.roundupPower2DivisionsOf size)
  allocation : roundSize cfg size ≤ getAllocationSize (roundSize cfg size)
  segment : getAllocationSize (roundSize cfg size) ≤ kSmallBuffer ↔ roundSize cfg size ≤ kSmallSize
  pool : ∀ (st : State) (stream : StreamId), wp (getPool (roundSize cfg size) stream)
    (fun pool _ => (pool.isSmall = true ↔ size ≤ kSmallSize) ∧
      (pool.isSmall = true ↔ getAllocationSize (roundSize cfg size) ≤ kSmallBuffer))
    (fun _ _ => True) st
  found : ∀ (st : State) (params : AllocParams), params.size = roundSize cfg size →
    wp (getFreeBlock cfg params) (Splittable (roundSize cfg size)) (fun _ _ => True) st
  allocated : ∀ (st : State) (rt : Runtime) (params : AllocParams) (call : Nat) (isRetry : Bool),
    params.size = roundSize cfg size → params.allocSize = getAllocationSize (roundSize cfg size) →
    wp (allocBlock cfg rt call params isRetry) (Splittable (roundSize cfg size)) (fun _ _ => True) st

/-- The sizes that are not rounded at all. -/
def Unrounded (cfg : GCUAllocatorConfig) (size : Nat) : Prop :=
  cfg.roundupPower2DivisionsOf size = 1 ∧ kMinBlockSize < size ∧ ¬ kMinBlockSize ∣ size

theorem roundSize_multiple (valid : ValidTable cfg.roundupPower2Divisions) (small : size < 2 ^ 60) :
    kMinBlockSize ∣ roundSize cfg size ↔ ¬ Unrounded cfg size := by
  by_cases tiny : size < 512
  · rw [roundSize_tiny tiny]
    exact ⟨fun _ unrounded => absurd unrounded.2.1 (by unfold kMinBlockSize; omega), fun _ => by decide⟩
  · rw [roundSize_eq_roundUp valid (by omega) small.le]
    obtain ⟨e, -, eq, ⟨rfl, one, above⟩ | ⟨nine, several⟩⟩ := roundStep_eq valid (Nat.not_lt.mp tiny)
    · rw [eq, pow_zero, roundUp_of_dvd Nat.one_pos (Nat.one_dvd _)]
      exact ⟨fun divides unrounded => unrounded.2.2 divides,
        fun rounded => by_contra fun odd => rounded ⟨one, above, odd⟩⟩
    · have whole : kMinBlockSize ∣ roundUp (roundStep cfg size) size := by
        rw [eq]
        exact (Nat.pow_dvd_pow 2 nine).trans (dvd_roundUp _ _)
      exact ⟨fun _ unrounded => several ⟨unrounded.1, unrounded.2.1⟩, fun _ => whole⟩

/-- Rounding is a closure operator on the multiples of 512, for all sizes but those above 512 that
have one division and are no multiple of 512 themselves. -/
theorem roundSize_closure (accepted : Accepted cfg.roundupPower2Divisions) (small : size < 2 ^ 60) :
    RoundsWell cfg size ↔ ¬ Unrounded cfg size := by
  have valid := accepted.valid
  have bound := roundSize_le_two_pow valid small
  refine ⟨fun well => (roundSize_multiple valid small).mp well.multiple, fun rounded => ?_⟩
  refine ⟨le_roundSize cfg small, (roundSize_multiple valid small).mpr rounded,
    roundSize_idempotent valid small, fun other smallOther le => roundSize_mono valid le smallOther,
    fun _ large => roundSize_close valid large small, le_getAllocationSize_of_le bound,
    getAllocationSize_small bound, fun st stream => ?_, fun st params asks => ?_,
    fun st rt params call isRetry asks segment => ?_⟩
  · refine wp_mono (getPool_isSmall stream) (fun pool _ chosen => ?_) fun _ _ _ => trivial
    rw [chosen, decide_eq_true_iff, getAllocationSize_small bound]
    exact ⟨roundSize_small valid small, Iff.rfl⟩
  · exact asks ▸ getFreeBlock_splittable
  · have served := @allocBlock_splittable cfg st params rt (asks ▸ bound) (asks ▸ segment) call isRetry
    rwa [asks] at served

/-- A table with one division everywhere, as `roundup_power2_divisions:1` leaves it. -/
def oneDivision : GCUAllocatorConfig :=
  { roundupPower2Divisions := List.replicate kRoundUpPowerOfTwoIntervals 1 }

theorem oneDivision_accepted : Accepted oneDivision.roundupPower2Divisions :=
  @Accepted.parsed _ _ ["roundup_power2_divisions", ":", "1"] 0 2 .default rfl

theorem roundSize_closure_oneDivision : RoundsWell oneDivision 1024 ↔ ¬ Unrounded oneDivision 1024 :=
  roundSize_closure oneDivision_accepted (by decide)

/-- A size that is no multiple of 512 is kept as it is. -/
theorem oneDivision_unrounded : ¬ RoundsWell oneDivision 1000 := by
  intro well
  have rounded : roundSize oneDivision 1000 = 1000 := by decide
  have multiple := well.multiple
  rw [rounded] at multiple
  revert multiple
  decide

end TorchGcu.GCUCachingAllocator

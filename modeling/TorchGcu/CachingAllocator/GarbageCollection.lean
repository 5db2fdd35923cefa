import TorchGcu.CachingAllocator.BestFit
import TorchGcu.CachingAllocator.Runs
import Mathlib.Algebra.Order.BigOperators.Group.List

/-! Garbage collection of the cached large blocks. Each pass releases the whole blocks of at
least average age, and there is always one. -/
namespace TorchGcu.GCUCachingAllocator
open ProgramLogic

variable {st st' : State} {cfg : GCUAllocatorConfig} {rt : Runtime} {b c : BlockId}

/-- The cached large blocks that garbage collection may give back. -/
def State.freeable (st : State) : List BlockId :=
  (st.pools largeBlocks).blocks.filter fun b => !(st.block b).isSplit

def State.totalAge (st : State) (blocks : List BlockId) : ℚ :=
  (blocks.map fun b => (st.gcCount b : ℚ)).sum

def State.averageAge (st : State) : ℚ := st.totalAge st.freeable / st.freeable.length

/-- The blocks that a pass beginning in this state has to release. -/
def State.overage (st : State) : List BlockId :=
  st.freeable.filter fun b => decide (st.averageAge ≤ st.gcCount b)

def State.totalSize (st : State) (blocks : List BlockId) : Nat :=
  (blocks.map fun b => (st.block b).size).sum

/-- What is to be reclaimed, zero below the threshold. -/
def State.gcTarget (st : State) (cfg : GCUAllocatorConfig) : Nat :=
  st.totalAllocatedMemory - ⌊cfg.garbageCollectionThreshold * st.allowedMemoryMaximum⌋.toNat

/-- The counters before the first pass. -/
def State.gcStart (st : State) : GcProgress where
  reclaimed := 0
  totalAge := st.totalAge st.freeable
  freeableBlockCount := st.freeable.length
  blockFreed := true

/-- The state after the release of these blocks, in this order. -/
def State.releasedAll (st : State) (cfg : GCUAllocatorConfig) (blocks : List BlockId) : State :=
  blocks.foldl (fun st b => st.released cfg b) st

/-- Whole passes: each releases its overage blocks and no others. -/
inductive Passes (cfg : GCUAllocatorConfig) : State → List (List BlockId) → State → Prop where
  | done (st : State) : Passes cfg st [] st
  | pass {st st' : State} {passes : List (List BlockId)} (some : st.overage ≠ [])
      (rest : Passes cfg (st.releasedAll cfg st.overage) passes st') :
      Passes cfg st (st.overage :: passes) st'

/-- A release that raises, in the middle of a pass. -/
def Interrupted (cfg : GCUAllocatorConfig) (st st' : State) : Prop :=
  ∃ passes middle before b after, Passes cfg st passes middle ∧
    middle.overage = before ++ b :: after ∧
    st' = (middle.releasedAll cfg before).releaseCalled b

/-- The set of large blocks: in order, and of blocks that name it as their pool. -/
structure State.LargeBlocks (st : State) : Prop where
  ordered : (st.pools largeBlocks).blocks.Pairwise st.Before
  pool : ∀ b ∈ (st.pools largeBlocks).blocks, (st.block b).pool = largeBlocks

/-- In a sound state the set needs only be in order. -/
theorem Sound.large_of_ordered {exact : Prop} {h : Hand} (sound : Sound exact h st)
    (ordered : (st.pools largeBlocks).blocks.Pairwise st.Before) : st.LargeBlocks where
  ordered := ordered
  pool b member := by
    obtain ⟨k, found, pool, -⟩ := sound.pooled largeBlocks b member
    rw [block_of_some found]
    exact pool

/-! ### One release -/

theorem blockComparatorSize_irrefl (k : Block) : blockComparatorSize k k = false := by
  simp [blockComparatorSize]

theorem equivalentKeys_of_before {x y : Block} (before : blockComparatorSize x y = true) :
    equivalentKeys x y = false ∧ equivalentKeys y x = false := by
  simp [equivalentKeys, before]

namespace State.LargeBlocks

theorem nodup (large : st.LargeBlocks) : (st.pools GCUCachingAllocator.largeBlocks).blocks.Nodup := by
  refine large.ordered.imp fun {x y} before => ?_
  rintro rfl
  simp [State.Before, blockComparatorSize_irrefl] at before

/-- No other block of the set has the key of this one. -/
theorem key_eq (large : st.LargeBlocks)
    (memberC : c ∈ (st.pools GCUCachingAllocator.largeBlocks).blocks)
    (memberB : b ∈ (st.pools GCUCachingAllocator.largeBlocks).blocks) :
    equivalentKeys (st.block c) (st.block b) = decide (c = b) := by
  refine List.Pairwise.forall_of_forall_of_flip
    (R := fun x y => equivalentKeys (st.block x) (st.block y) = decide (x = y))
    (fun x _ => ?_) ?_ ?_ memberC memberB
  · simp [equivalentKeys_self]
  · refine (large.ordered.and large.nodup).imp fun both => ?_
    rw [(equivalentKeys_of_before both.1).1, decide_eq_false both.2]
  · refine (large.ordered.and large.nodup).imp fun both => ?_
    change equivalentKeys _ _ = _
    rw [(equivalentKeys_of_before both.1).2, decide_eq_false both.2.symm]

end State.LargeBlocks

theorem released_block (differ : c ≠ b) : (st.released cfg b).block c = st.block c := by
  simp [State.block, differ]

theorem released_callCount (pool : PoolRef) :
    ((st.released cfg b).pools pool).getFreeBlocksCallCount =
      (st.pools pool).getFreeBlocksCallCount := by
  rw [released_pools]
  by_cases same : pool = (st.block b).pool
  · subst same
    simp [State.eraseFromBlocks, State.modifyPool]
  · simp [same, State.eraseFromBlocks, State.modifyPool]

theorem released_gcCount (differ : c ≠ b) : (st.released cfg b).gcCount c = st.gcCount c := by
  simp only [State.gcCount, released_block differ, released_callCount]

namespace State.LargeBlocks

theorem released_set (large : st.LargeBlocks)
    (member : b ∈ (st.pools GCUCachingAllocator.largeBlocks).blocks) :
    ((st.released cfg b).pools GCUCachingAllocator.largeBlocks).blocks =
      (st.pools GCUCachingAllocator.largeBlocks).blocks.filter (· ≠ b) := by
  rw [released_pools, State.eraseFromBlocks, large.pool b member]
  simp only [State.modifyPool, Function.update_self]
  refine List.filter_congr fun x inside => ?_
  rw [large.key_eq inside member]
  simp

theorem released (large : st.LargeBlocks)
    (member : b ∈ (st.pools GCUCachingAllocator.largeBlocks).blocks) :
    (st.released cfg b).LargeBlocks where
  ordered := by
    rw [large.released_set member]
    refine ((large.ordered.filter _).imp_of_mem fun {x y} inX inY before => ?_)
    have otherX := List.mem_filter.mp inX
    have otherY := List.mem_filter.mp inY
    rw [State.Before, released_block (by simpa using otherX.2), released_block (by simpa using otherY.2)]
    exact before
  pool c inside := by
    rw [large.released_set member] at inside
    have other := List.mem_filter.mp inside
    rw [released_block (by simpa using other.2)]
    exact large.pool c other.1

theorem released_freeable (large : st.LargeBlocks)
    (member : b ∈ (st.pools GCUCachingAllocator.largeBlocks).blocks) :
    (st.released cfg b).freeable = st.freeable.filter (· ≠ b) := by
  simp only [State.freeable, large.released_set member, List.filter_filter]
  refine List.filter_congr fun x _ => ?_
  by_cases same : x = b
  · simp [same]
  · simp [same, released_block same]

end State.LargeBlocks

/-- A large block belongs to no private pool, so only the device can refuse. -/
theorem releaseBlock_runs (pool : (st.block b).pool = largeBlocks) :
    wp (releaseBlock cfg rt b) (fun _ st' => st' = st.released cfg b)
      (fun _ st' => st' = st.releaseCalled b) st := by
  have owned : (st.block b).pool.ownerPrivatePool = none := by rw [pool]; rfl
  simp only [releaseBlock, State.released, owned, wp_bind, wp_get, wp_modify, wp_gcuCheck]
  exact ⟨fun _ => rfl, fun _ _ => rfl⟩

/-! ### One pass -/

/-- The running total and the count are those of the blocks still in the set. -/
structure GcProgress.InStep (gc : GcProgress) (st : State) : Prop where
  totalAge : gc.totalAge = st.totalAge st.freeable
  count : gc.freeableBlockCount = st.freeable.length

theorem State.gcStart_inStep (st : State) : st.gcStart.InStep st := ⟨rfl, rfl⟩

/-- What a pass releases of the blocks it still has before it. -/
def State.due (st : State) (threshold : ℚ) (blocks : List BlockId) : List BlockId :=
  blocks.filter fun b => !(st.block b).isSplit && decide (threshold ≤ st.gcCount b)

theorem due_released (threshold : ℚ) {blocks : List BlockId} (absent : b ∉ blocks) :
    (st.released cfg b).due threshold blocks = st.due threshold blocks := by
  refine List.filter_congr fun x inside => ?_
  have differ : x ≠ b := fun same => absent (same ▸ inside)
  rw [released_block differ, released_gcCount differ]

theorem totalSize_released {blocks : List BlockId} (absent : b ∉ blocks) :
    (st.released cfg b).totalSize blocks = st.totalSize blocks := by
  refine congrArg List.sum (List.map_congr_left fun x inside => ?_)
  have differ : x ≠ b := fun same => absent (same ▸ inside)
  rw [released_block differ]

theorem totalAge_released {blocks : List BlockId} (absent : b ∉ blocks) :
    (st.released cfg b).totalAge blocks = st.totalAge blocks := by
  refine congrArg List.sum (List.map_congr_left fun x inside => ?_)
  have differ : x ≠ b := fun same => absent (same ▸ inside)
  rw [released_gcCount differ]

theorem State.LargeBlocks.freeable_nodup (large : st.LargeBlocks) : st.freeable.Nodup :=
  large.nodup.filter _

/-- The counters follow a release. -/
theorem GcProgress.InStep.released {gc : GcProgress} (inStep : gc.InStep st)
    (large : st.LargeBlocks) (member : b ∈ st.freeable) (reclaimed : Nat) (freed : Bool) :
    GcProgress.InStep
      { reclaimed := reclaimed, totalAge := gc.totalAge - st.gcCount b
        freeableBlockCount := gc.freeableBlockCount - 1, blockFreed := freed }
      (st.released cfg b) := by
  have nodup := large.freeable_nodup
  have left : (st.released cfg b).freeable = st.freeable.erase b := by
    rw [large.released_freeable (List.mem_filter.mp member).1, nodup.erase_eq_filter]
    exact List.filter_congr fun x _ => by by_cases same : x = b <;> simp [same]
  have apart : b ∉ st.freeable.erase b := nodup.not_mem_erase
  constructor
  · have order := List.perm_cons_erase member
    have sum : st.totalAge st.freeable = st.gcCount b + st.totalAge (st.freeable.erase b) := by
      rw [State.totalAge, (order.map _).sum_eq]
      simp [State.totalAge]
    rw [left, totalAge_released apart, inStep.totalAge, sum, add_sub_cancel_left]
  · rw [left, List.length_erase_of_mem member, inStep.count]

/-- A pass over blocks of the set releases exactly the due ones, unless the device refuses. -/
theorem gcPass_runs (threshold : ℚ) {blocks : List BlockId} {gc : GcProgress}
    (large : st.LargeBlocks) (inStep : gc.InStep st) (nodup : blocks.Nodup)
    (inside : ∀ b ∈ blocks, b ∈ (st.pools largeBlocks).blocks) :
    wp (gcPass cfg rt threshold blocks gc)
      (fun gc' st' => st' = st.releasedAll cfg (st.due threshold blocks) ∧ gc'.InStep st' ∧
        gc'.reclaimed ≤ gc.reclaimed + st.totalSize (st.due threshold blocks) ∧
        (gc.blockFreed = true ∨ st.due threshold blocks ≠ [] → gc'.blockFreed = true))
      (fun _ st' => ∃ before b after, st.due threshold blocks = before ++ b :: after ∧
        st' = (st.releasedAll cfg before).releaseCalled b) st := by
  induction blocks generalizing st gc with
  | nil => exact ⟨rfl, inStep, Nat.le_add_right _ _, fun freed => by simpa [State.due] using freed⟩
  | cons block rest ih =>
      obtain ⟨absent, nodup⟩ := List.nodup_cons.mp nodup
      have member := inside block List.mem_cons_self
      have later : ∀ b ∈ rest, b ∈ (st.pools largeBlocks).blocks :=
        fun b within => inside b (List.mem_cons_of_mem _ within)
      simp only [gcPass, wp_bind, wp_get]
      by_cases old : (st.block block).isSplit = false ∧ threshold ≤ st.gcCount block
      · have due : st.due threshold (block :: rest) = block :: st.due threshold rest := by
          rw [State.due, List.filter_cons_of_pos (by simp [old])]
          rfl
        have free : block ∈ st.freeable := List.mem_filter.mpr ⟨member, by simp [old]⟩
        have missing : block ∉ st.due threshold rest :=
          fun within => absent (List.mem_filter.mp within).1
        rw [if_pos ⟨member, old⟩, wp_bind]
        refine wp_mono (releaseBlock_runs (large.pool block member)) (fun _ next same => ?_)
          fun _ next same => ⟨[], block, st.due threshold rest, due, same⟩
        subst same
        have left : ∀ b ∈ rest, b ∈ ((st.released cfg block).pools largeBlocks).blocks := by
          intro b within
          have differ : b ≠ block := fun same => absent (same ▸ within)
          rw [large.released_set member]
          exact List.mem_filter.mpr ⟨later b within, by simpa using differ⟩
        have tail := ih (large.released member)
          (inStep.released large free (sizeAdd gc.reclaimed (st.block block).size) true) nodup left
        rw [due_released threshold absent] at tail
        refine wp_mono tail (fun gc' st' after => ?_) fun _ st' raised => ?_
        · obtain ⟨ends, inStep, reclaimed, freed⟩ := after
          rw [totalSize_released missing] at reclaimed
          refine ⟨by rw [due]; exact ends, inStep, ?_, fun _ => freed (.inl rfl)⟩
          have wrapped : sizeAdd gc.reclaimed (st.block block).size ≤
              gc.reclaimed + (st.block block).size := Nat.mod_le _ _
          rw [due]
          simp only [State.totalSize, List.map_cons, List.sum_cons] at reclaimed ⊢
          omega
        · obtain ⟨before, b, after, split, ends⟩ := raised
          exact ⟨block :: before, b, after, by rw [due, split]; rfl, ends⟩
      · have due : st.due threshold (block :: rest) = st.due threshold rest := by
          rw [State.due, List.filter_cons_of_neg (by simpa using old)]
          rfl
        rw [if_neg fun all => old all.2, due]
        exact ih large inStep nodup later

/-! ### The releases together -/

/-- What releasing these blocks leaves: their set without them, and all other blocks. -/
structure Collected (st : State) (blocks : List BlockId) (st' : State) : Prop where
  whole : ∀ b ∈ blocks, b ∈ st.freeable
  nodup : blocks.Nodup
  set : (st'.pools largeBlocks).blocks = (st.pools largeBlocks).blocks.filter (· ∉ blocks)
  kept : ∀ c, c ∉ blocks → st'.block c = st.block c

namespace Collected

theorem refl (st : State) : Collected st [] st :=
  ⟨fun _ never => (List.not_mem_nil never).elim, List.nodup_nil, by simp, fun _ _ => rfl⟩

theorem freeable {blocks : List BlockId} (collected : Collected st blocks st') :
    st'.freeable = st.freeable.filter (· ∉ blocks) := by
  simp only [State.freeable, collected.set, List.filter_filter]
  refine List.filter_congr fun x _ => ?_
  by_cases gone : x ∈ blocks
  · simp [gone]
  · simp [gone, collected.kept x gone]

theorem trans {st'' : State} {blocks more : List BlockId} (first : Collected st blocks st')
    (second : Collected st' more st'') : Collected st (blocks ++ more) st'' where
  whole b member := by
    rcases List.mem_append.mp member with early | late
    · exact first.whole b early
    · have left := second.whole b late
      rw [first.freeable] at left
      exact (List.mem_filter.mp left).1
  nodup := by
    refine List.nodup_append.mpr ⟨first.nodup, second.nodup, fun b early c late same => ?_⟩
    have left := second.whole c late
    rw [first.freeable] at left
    have absent := (List.mem_filter.mp left).2
    simp only [decide_not, Bool.not_eq_true', decide_eq_false_iff_not] at absent
    exact absent (same ▸ early)
  set := by
    rw [second.set, first.set, List.filter_filter]
    exact List.filter_congr fun x _ => by simp [not_or, Bool.and_comm]
  kept c absent := by
    rw [List.mem_append, not_or] at absent
    rw [second.kept c absent.2, first.kept c absent.1]

theorem one (large : st.LargeBlocks) (member : b ∈ st.freeable) :
    Collected st [b] (st.released cfg b) where
  whole c same := by
    rw [List.mem_singleton.mp same]
    exact member
  nodup := List.nodup_singleton b
  set := by
    rw [large.released_set (List.mem_filter.mp member).1]
    simp
  kept c absent := released_block (by simpa using absent)

end Collected

theorem releasedAll_collected {blocks : List BlockId} (large : st.LargeBlocks)
    (nodup : blocks.Nodup) (whole : ∀ b ∈ blocks, b ∈ st.freeable) :
    Collected st blocks (st.releasedAll cfg blocks) ∧ (st.releasedAll cfg blocks).LargeBlocks := by
  induction blocks generalizing st with
  | nil => exact ⟨.refl st, large⟩
  | cons block rest ih =>
      obtain ⟨absent, nodup⟩ := List.nodup_cons.mp nodup
      have free := whole block List.mem_cons_self
      have member := (List.mem_filter.mp free).1
      have left : ∀ b ∈ rest, b ∈ (st.released cfg block).freeable := by
        intro b within
        have differ : b ≠ block := fun same => absent (same ▸ within)
        rw [large.released_freeable member]
        exact List.mem_filter.mpr ⟨whole b (List.mem_cons_of_mem _ within), by simpa using differ⟩
      obtain ⟨collected, ordered⟩ := ih (large.released member) nodup left
      exact ⟨(Collected.one large free).trans collected, ordered⟩

/-! ### The loop -/

/-- Not every age is below the average. -/
theorem overage_ne_nil (some : st.freeable ≠ []) : st.overage ≠ [] := by
  have count : (0 : ℚ) < st.freeable.length := by
    exact_mod_cast List.length_pos_of_ne_nil some
  have sums : (st.freeable.map fun _ => st.averageAge).sum ≤
      (st.freeable.map fun b => (st.gcCount b : ℚ)).sum := by
    rw [List.map_const', List.sum_replicate, nsmul_eq_mul, State.averageAge,
      mul_div_cancel₀ _ count.ne']
    rfl
  obtain ⟨b, member, old⟩ := List.exists_le_of_sum_le some _ _ sums
  exact List.ne_nil_of_mem (List.mem_filter.mpr ⟨member, by simpa using old⟩)

theorem due_set (st : State) :
    st.due st.averageAge (st.pools largeBlocks).blocks = st.overage := by
  simp only [State.due, State.overage, State.freeable, List.filter_filter]
  exact List.filter_congr fun x _ => Bool.and_comm _ _

/-- A pass over the whole set. -/
theorem gcPass_overage {gc : GcProgress} (large : st.LargeBlocks) (inStep : gc.InStep st)
    (some : st.freeable ≠ []) :
    wp (gcPass cfg rt (gc.totalAge / gc.freeableBlockCount) (st.pools largeBlocks).blocks
        { gc with blockFreed := false })
      (fun gc' st' => st' = st.releasedAll cfg st.overage ∧ gc'.InStep st' ∧
        gc'.reclaimed ≤ gc.reclaimed + st.totalSize st.overage ∧ gc'.blockFreed = true)
      (fun _ st' => ∃ before b after, st.overage = before ++ b :: after ∧
        st' = (st.releasedAll cfg before).releaseCalled b) st := by
  have average : gc.totalAge / gc.freeableBlockCount = st.averageAge := by
    rw [inStep.totalAge, inStep.count]
    rfl
  have pass := @gcPass_runs st cfg rt st.averageAge _ { gc with blockFreed := false } large
    ⟨inStep.totalAge, inStep.count⟩ large.nodup fun _ member => member
  rw [due_set] at pass
  rw [average]
  exact wp_mono pass
    (fun _ _ after => ⟨after.1, after.2.1, after.2.2.1, after.2.2.2 (.inr (overage_ne_nil some))⟩)
    fun _ _ raised => raised

theorem overage_collected (cfg : GCUAllocatorConfig) (large : st.LargeBlocks) :
    Collected st st.overage (st.releasedAll cfg st.overage) ∧
      (st.releasedAll cfg st.overage).LargeBlocks :=
  releasedAll_collected large (large.freeable_nodup.filter _)
    fun _ member => (List.mem_filter.mp member).1

/-- A pass leaves fewer blocks to free. -/
theorem releasedAll_fewer (cfg : GCUAllocatorConfig) (large : st.LargeBlocks)
    (some : st.freeable ≠ []) :
    (st.releasedAll cfg st.overage).freeable.length < st.freeable.length := by
  have collected := (overage_collected cfg large).1
  rw [collected.freeable]
  obtain ⟨b, member⟩ := List.exists_mem_of_ne_nil _ (overage_ne_nil some)
  exact List.length_filter_lt_length_iff_exists.mpr
    ⟨b, collected.whole b member, by simpa using member⟩

/-- When the loop makes another pass there is a block to free. -/
theorem GcProgress.InStep.freeable {gc : GcProgress} (inStep : gc.InStep st)
    (left : 0 < gc.freeableBlockCount) : st.freeable ≠ [] :=
  List.length_pos_iff.mp (inStep.count ▸ left)

theorem Collected.totalSize {blocks more : List BlockId} (collected : Collected st blocks st')
    (whole : ∀ b ∈ more, b ∈ st'.freeable) : st'.totalSize more = st.totalSize more := by
  refine congrArg List.sum (List.map_congr_left fun b member => ?_)
  have left := whole b member
  rw [collected.freeable] at left
  have absent := (List.mem_filter.mp left).2
  rw [collected.kept b (by simpa using absent)]

/-- Enough passes reclaim the target or leave no whole block. -/
theorem gcLoop_reclaims {passes : Nat} {gc : GcProgress} {target : Nat} (large : st.LargeBlocks)
    (inStep : gc.InStep st) (freed : gc.blockFreed = true) (enough : st.freeable.length < passes) :
    wp (gcLoop cfg rt target passes gc)
      (fun _ st' => ∃ sweeps, Passes cfg st sweeps st' ∧ Collected st sweeps.flatten st' ∧
        (target ≤ gc.reclaimed + st.totalSize sweeps.flatten ∨ st'.freeable = []))
      (fun _ st' => Interrupted cfg st st') st := by
  induction passes generalizing st gc with
  | zero => exact absurd enough (Nat.not_lt_zero _)
  | succ passes ih =>
      rw [gcLoop, wp_ite]
      refine ⟨fun more => ?_, fun enough => ?_⟩
      · have some := inStep.freeable more.2.2
        rw [wp_bind, wp_get, wp_bind]
        refine wp_mono (gcPass_overage large inStep some) (fun gc' next after => ?_)
          fun _ next raised => ?_
        · obtain ⟨rfl, inStep, reclaimed, freed⟩ := after
          obtain ⟨collected, large'⟩ := overage_collected cfg large
          have fewer := releasedAll_fewer cfg large some
          refine wp_mono (ih large' inStep freed (by omega)) (fun _ last after => ?_)
            fun _ last raised => ?_
          · obtain ⟨sweeps, runs, rest, ends⟩ := after
            refine ⟨st.overage :: sweeps, .pass (overage_ne_nil some) runs,
              collected.trans rest, ends.imp_left fun reached => ?_⟩
            rw [collected.totalSize rest.whole] at reached
            simp only [State.totalSize, List.flatten_cons, List.map_append,
              List.sum_append] at reached reclaimed ⊢
            omega
          · obtain ⟨sweeps, middle, before, b, after, runs, split, ends⟩ := raised
            exact ⟨_, middle, before, b, after, .pass (overage_ne_nil some) runs, split, ends⟩
        · obtain ⟨before, b, after, split, ends⟩ := raised
          exact ⟨[], st, before, b, after, .done st, split, ends⟩
      · refine ⟨[], .done st, .refl st, ?_⟩
        rcases Nat.lt_or_ge gc.reclaimed target with short | reached
        · right
          have none : ¬ 0 < gc.freeableBlockCount := fun left => enough ⟨short, freed, left⟩
          rw [inStep.count] at none
          exact List.length_eq_zero_iff.mp (Nat.eq_zero_of_not_pos none)
        · exact .inl (Nat.le_add_right_of_le reached)

/-- The bound on the number of passes decides nothing: the loop ends before it is used up. -/
theorem gcLoop_ends {passes others : Nat} {gc : GcProgress} {target : Nat}
    (large : st.LargeBlocks) (inStep : gc.InStep st) (enough : st.freeable.length < passes)
    (too : st.freeable.length < others) :
    (gcLoop cfg rt target passes gc).run st = (gcLoop cfg rt target others gc).run st := by
  induction passes generalizing st gc others with
  | zero => exact absurd enough (Nat.not_lt_zero _)
  | succ passes ih =>
      obtain ⟨others, rfl⟩ := Nat.exists_eq_succ_of_ne_zero (Nat.ne_zero_of_lt too)
      rw [gcLoop, gcLoop]
      by_cases more : gc.reclaimed < target ∧ gc.blockFreed = true ∧ 0 < gc.freeableBlockCount
      · rw [if_pos more, if_pos more]
        have some := inStep.freeable more.2.2
        have pass := @gcPass_overage st cfg rt gc large inStep some
        simp only [EStateM.run, bind, EStateM.bind, get_apply]
        cases ran : gcPass cfg rt (gc.totalAge / gc.freeableBlockCount) (st.pools largeBlocks).blocks
          { gc with blockFreed := false } st with
        | error e next => rfl
        | ok gc' next =>
            obtain ⟨rfl, inStep, -⟩ := (wp_run ran).mp pass
            have fewer := releasedAll_fewer cfg large some
            exact ih (overage_collected cfg large).2 inStep (by omega) (by omega)
      · rw [if_neg more, if_neg more]

/-- Garbage collection makes a bounded number of passes. Each one releases the whole blocks of
at least average age and nothing else, and together they reclaim the target or leave no whole
block. -/
theorem garbage_collection_reclaims (cfg : GCUAllocatorConfig) (rt : Runtime) (st : State)
    (large : st.LargeBlocks) :
    (∀ passes, st.freeable.length < passes →
      (gcLoop cfg rt (st.gcTarget cfg) passes st.gcStart).run st =
        (gcLoop cfg rt (st.gcTarget cfg) (st.freeable.length + 1) st.gcStart).run st) ∧
    wp (garbageCollectCachedBlocks cfg rt)
      (fun _ st' => ∃ sweeps, Passes cfg st sweeps st' ∧ Collected st sweeps.flatten st' ∧
        (st.gcTarget cfg ≤ st.totalSize sweeps.flatten ∨ st'.freeable = []))
      (fun _ st' => Interrupted cfg st st') st := by
  refine ⟨fun passes enough => gcLoop_ends large st.gcStart_inStep enough (Nat.lt_succ_self _), ?_⟩
  simp only [garbageCollectCachedBlocks, wp_bind, wp_get]
  rw [wp_ite]
  refine ⟨fun below => ⟨[], .done st, .refl st, .inl ?_⟩, fun _ => ?_⟩
  · rw [State.gcTarget, Nat.sub_eq_zero_of_le below]
    exact Nat.zero_le _
  · rw [wp_ite]
    refine ⟨fun none => ⟨[], .done st, .refl st, .inr (List.isEmpty_iff.mp none)⟩, fun _ => ?_⟩
    have reclaims := @gcLoop_reclaims st cfg rt (st.freeable.length + 1) st.gcStart
      (st.gcTarget cfg) large st.gcStart_inStep rfl (Nat.lt_succ_self _)
    simp only [State.gcStart, Nat.zero_add] at reclaims
    exact reclaims

/-- Two cached blocks, the first of which is three times as old as the second. -/
def twoCached : State where
  blocks b := if b < 2 then some { size := 2 ^ 21, ptr := (b + 1) * 2 ^ 21, gcCountBase := 2 * b }
    else none
  pools pool := if pool = largeBlocks then { blocks := [0, 1], getFreeBlocksCallCount := 3 } else {}
  totalAllocatedMemory := 2 ^ 22
  allowedMemoryMaximum := 2 ^ 22

def collectHalf : GCUAllocatorConfig := { garbageCollectionThreshold := 1 / 2 }

theorem garbage_collection_reclaims_twoCached :
    wp (garbageCollectCachedBlocks collectHalf .full)
      (fun _ st' => ∃ sweeps, Passes collectHalf twoCached sweeps st' ∧
        Collected twoCached sweeps.flatten st' ∧
        (twoCached.gcTarget collectHalf ≤ twoCached.totalSize sweeps.flatten ∨ st'.freeable = []))
      (fun _ st' => Interrupted collectHalf twoCached st') twoCached :=
  (garbage_collection_reclaims collectHalf .full twoCached
    { ordered := List.pairwise_pair.mpr (by unfold State.Before; decide)
      pool := by decide }).2

end TorchGcu.GCUCachingAllocator

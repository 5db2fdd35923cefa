import TorchGcu.CachingAllocator.Operations

/-! The search in a pool. It looks at one block only, the first one that is large enough, and
this block decides for all larger ones of the stream. -/
namespace TorchGcu.GCUCachingAllocator
open ProgramLogic

variable {st : State} {cfg : GCUAllocatorConfig} {params : AllocParams}

/-- The order of the set, on the blocks of a state. -/
def State.Before (st : State) (x y : BlockId) : Prop :=
  blockComparatorSize (st.block x) (st.block y) = true

/-- The heap invariant of a pool: its set is in order, and holds live idle blocks of this pool,
each of them inside the addresses. -/
structure State.PoolOrdered (st : State) (pool : PoolRef) : Prop where
  ordered : (st.pools pool).blocks.Pairwise st.Before
  pooled : ∀ b ∈ (st.pools pool).blocks, ∃ k, st.blocks b = some k ∧ k.pool = pool ∧
    k.busy = false ∧ 0 < k.ptr ∧ k.ptr + k.size < 2 ^ 64

/-- The oversize rules: an oversized block is not for a small request, and for a large one it is
not to be much larger than the request. The limit is a 64-bit word. -/
def fits (cfg : GCUAllocatorConfig) (size blockSize : Nat) : Prop :=
  size ≤ blockSize ∧ (size < cfg.maxSplitSize → blockSize < cfg.maxSplitSize) ∧
    (cfg.maxSplitSize ≤ size → blockSize < sizeAdd size kLargeBuffer)

instance (cfg : GCUAllocatorConfig) (size blockSize : Nat) : Decidable (fits cfg size blockSize) :=
  inferInstanceAs (Decidable (_ ∧ _ ∧ _))

/-- A block of the pool and the stream that a request may be given. -/
def State.Eligible (st : State) (cfg : GCUAllocatorConfig) (params : AllocParams) (b : BlockId) :
    Prop :=
  b ∈ (st.pools params.pool).blocks ∧ (st.block b).stream = params.stream ∧
    fits cfg params.size (st.block b).size

/-- Of the blocks that a request may be given, the smallest, and of those with this size the one
with the lowest address. -/
structure State.BestFit (st : State) (cfg : GCUAllocatorConfig) (params : AllocParams)
    (b : BlockId) : Prop where
  eligible : st.Eligible cfg params b
  least : ∀ other, st.Eligible cfg params other → other ≠ b →
    (st.block b).size < (st.block other).size ∨
      (st.block b).size = (st.block other).size ∧ (st.block b).ptr < (st.block other).ptr

/-- The state without the block in its pool. -/
def State.takeBlock (st : State) (pool : PoolRef) (b : BlockId) : State :=
  st.modifyPool pool fun p => { p with blocks := p.blocks.filter (· ≠ b) }

/-! ### The first block that is not before the key -/

/-- In an ordered list the first element that passes a test is before the others that do. -/
theorem find?_ordered {α : Type} {order : α → α → Prop} {test : α → Bool} {l : List α} {x : α}
    (ordered : l.Pairwise order) (found : l.find? test = some x) (y : α) (member : y ∈ l)
    (passes : test y = true) : y = x ∨ order x y := by
  obtain ⟨-, front, rest, rfl, failed⟩ := List.find?_eq_some_iff_append.mp found
  rcases List.mem_append.mp member with inFront | inRest
  · have fails := failed y inFront
    simp [passes] at fails
  · rcases List.mem_cons.mp inRest with same | inRest
    · exact .inl same
    · have after := (List.pairwise_append.mp ordered).2.1
      exact .inr (List.rel_of_pairwise_cons after inRest)

theorem blockComparatorSize_same {a b : Block} (stream : a.stream = b.stream) :
    blockComparatorSize a b = true ↔ a.size < b.size ∨ a.size = b.size ∧ a.ptr < b.ptr := by
  by_cases size : a.size = b.size <;> simp [blockComparatorSize, stream, size]

/-- A block is before the key if it belongs to an earlier stream, or to this one and is too small. -/
theorem notBefore_key (b : Block) : (!blockComparatorSize b params.searchKey) = true ↔
    params.stream < b.stream ∨ b.stream = params.stream ∧ params.size ≤ b.size := by
  unfold blockComparatorSize AllocParams.searchKey
  by_cases stream : b.stream = params.stream
  · by_cases size : b.size = params.size
    · simp [stream, size]
    · simp [stream, size]
  · simp only [ne_eq, stream, not_false_eq_true, if_true, Bool.not_eq_true', decide_eq_false_iff_not,
      Nat.not_lt, false_and, or_false]
    exact ⟨fun le => Nat.lt_of_le_of_ne le (Ne.symm stream), Nat.le_of_lt⟩

/-! ### The search -/

theorem countSearch_blocks (pool pool' : PoolRef) :
    ((st.countSearch cfg pool).pools pool').blocks = (st.pools pool').blocks := by
  unfold State.countSearch
  split
  · by_cases same : pool' = pool <;> simp [State.modifyPool, same]
  · rfl

theorem countSearch_block (pool : PoolRef) (b : BlockId) :
    (st.countSearch cfg pool).block b = st.block b := by
  unfold State.countSearch
  split <;> rfl

theorem lowerBound_countSearch (pool pool' : PoolRef) (key : Block) :
    (st.countSearch cfg pool).lowerBound pool' key = st.lowerBound pool' key := by
  simp only [State.lowerBound, countSearch_blocks, countSearch_block]

/-- The blocks that a request may be given are not before its key. -/
theorem State.Eligible.notBefore {b : BlockId} (eligible : st.Eligible cfg params b) :
    (!blockComparatorSize (st.block b) params.searchKey) = true :=
  (notBefore_key _).mpr (.inr ⟨eligible.2.1, eligible.2.2.1⟩)

/-- All blocks that the request may be given are at least as large as the first one of the stream
that is large enough. -/
theorem State.Eligible.afterFound {found b : BlockId} (ordered : st.PoolOrdered params.pool)
    (lower : st.lowerBound params.pool params.searchKey = some found)
    (eligible : st.Eligible cfg params b) :
    (st.block found).stream = params.stream ∧ (b = found ∨ (st.block found).size < (st.block b).size ∨
      (st.block found).size = (st.block b).size ∧ (st.block found).ptr < (st.block b).ptr) := by
  have notBefore := List.find?_some lower
  have atLeast := (notBefore_key _).mp notBefore
  rcases find?_ordered ordered.ordered lower b eligible.1 eligible.notBefore with rfl | before
  · exact ⟨eligible.2.1, .inl rfl⟩
  · have stream : (st.block found).stream = params.stream := by
      rcases atLeast with later | ⟨same, -⟩
      · have differs : (st.block found).stream ≠ (st.block b).stream := by
          rw [eligible.2.1]
          exact Nat.ne_of_gt later
        have earlier : (st.block found).stream < (st.block b).stream := by
          simpa [State.Before, blockComparatorSize, differs] using before
        rw [eligible.2.1] at earlier
        exact absurd earlier (Nat.lt_asymm later)
      · exact same
    exact ⟨stream, .inr ((blockComparatorSize_same (stream.trans eligible.2.1.symm)).mp before)⟩

/-- The oversize rules allow a smaller block that is large enough. -/
theorem fits.smaller {size small large : Nat} (fit : fits cfg size large) (enough : size ≤ small)
    (le : small ≤ large) : fits cfg size small :=
  ⟨enough, fun limited => lt_of_le_of_lt le (fit.2.1 limited),
    fun oversize => lt_of_le_of_lt le (fit.2.2 oversize)⟩

theorem getFreeBlock_none (lower : st.lowerBound params.pool params.searchKey = none) :
    (getFreeBlock cfg params).run st = .ok (false, params) (st.countSearch cfg params.pool) := by
  simp only [getFreeBlock, EStateM.run, bind, EStateM.bind, modify_apply, get_apply,
    lowerBound_countSearch, lower]
  rfl

theorem getFreeBlock_some {found : BlockId}
    (lower : st.lowerBound params.pool params.searchKey = some found) :
    (getFreeBlock cfg params).run st =
      if (st.block found).stream = params.stream ∧ fits cfg params.size (st.block found).size then
        .ok (true, { params with block := some found })
          ((st.countSearch cfg params.pool).takeBlock params.pool found)
      else .ok (false, params) (st.countSearch cfg params.pool) := by
  have enough := (lowerBound_some lower).2
  simp only [getFreeBlock, EStateM.run, bind, EStateM.bind, modify_apply, get_apply,
    lowerBound_countSearch, lower, countSearch_block]
  by_cases stream : (st.block found).stream = params.stream
  · have large := enough stream
    by_cases small : params.size < cfg.maxSplitSize ∧ cfg.maxSplitSize ≤ (st.block found).size
    · have unfit : ¬ fits cfg params.size (st.block found).size := fun fit =>
        absurd (fit.2.1 small.1) (Nat.not_lt.mpr small.2)
      simp only [stream, ne_eq, not_true_eq_false, if_false, small, and_self, if_true, unfit, and_false]
      rfl
    by_cases oversize : cfg.maxSplitSize ≤ params.size ∧
        sizeAdd params.size kLargeBuffer ≤ (st.block found).size
    · have unfit : ¬ fits cfg params.size (st.block found).size := fun fit =>
        absurd (fit.2.2 oversize.1) (Nat.not_lt.mpr oversize.2)
      simp only [stream, ne_eq, not_true_eq_false, if_false, small, oversize, and_self, if_true, unfit,
        and_false]
      rfl
    have fit : fits cfg params.size (st.block found).size :=
      ⟨large, fun limited => Nat.not_le.mp fun le => small ⟨limited, le⟩,
        fun above => Nat.not_le.mp fun le => oversize ⟨above, le⟩⟩
    simp only [stream, ne_eq, not_true_eq_false, if_false, small, oversize, fit, and_self, if_true]
    rfl
  · simp only [stream, ne_eq, not_false_eq_true, if_true, false_and, if_false]
    rfl

/-- The search gives the best fit, if there is a block that fits, and takes it out of the pool.
Besides, it is only counted. -/
theorem getFreeBlock_bestFit (cfg : GCUAllocatorConfig) (st : State) (params : AllocParams)
    (ordered : st.PoolOrdered params.pool) :
    ((∀ b, ¬ st.Eligible cfg params b) ∧
      (getFreeBlock cfg params).run st = .ok (false, params) (st.countSearch cfg params.pool)) ∨
    ∃ b, st.BestFit cfg params b ∧ (getFreeBlock cfg params).run st =
      .ok (true, { params with block := some b })
        ((st.countSearch cfg params.pool).takeBlock params.pool b) := by
  cases lower : st.lowerBound params.pool params.searchKey with
  | none =>
    refine .inl ⟨fun b eligible => ?_, getFreeBlock_none lower⟩
    have passes := List.find?_eq_none.mp lower b eligible.1
    exact passes (State.Eligible.notBefore eligible)
  | some found =>
    have ran := @getFreeBlock_some st cfg params found lower
    by_cases chosen : (st.block found).stream = params.stream ∧
        fits cfg params.size (st.block found).size
    · rw [if_pos chosen] at ran
      refine .inr ⟨found, ⟨⟨List.mem_of_find?_eq_some lower, chosen⟩, fun other eligible differs => ?_⟩,
        ran⟩
      exact (State.Eligible.afterFound ordered lower eligible).2.resolve_left differs
    · rw [if_neg chosen] at ran
      refine .inl ⟨fun b eligible => chosen ?_, ran⟩
      obtain ⟨stream, after⟩ := State.Eligible.afterFound ordered lower eligible
      have le : (st.block found).size ≤ (st.block b).size := by
        rcases after with rfl | less | ⟨same, -⟩ <;> omega
      have enough : params.size ≤ (st.block found).size := (lowerBound_some lower).2 stream
      exact ⟨stream, eligible.2.2.smaller enough le⟩

/-- A pool with blocks of two streams, while the memory is limited and garbage is collected. -/
def severalCached : State where
  blocks b := [{ ptr := 512, size := 1048576, pool := largeBlocks },
    { ptr := 8388608, size := 4194304, pool := largeBlocks },
    { ptr := 16777216, size := 4194304, pool := largeBlocks },
    { ptr := 33554432, size := 6291456, pool := largeBlocks },
    { ptr := 67108864, size := 2097152, stream := 1, pool := largeBlocks }][b]?
  pools := Function.update (fun _ => {}) largeBlocks { blocks := [0, 1, 2, 3, 4] }
  nextBlock := 5
  setFraction := true

def collecting : GCUAllocatorConfig := { garbageCollectionThreshold := 1 / 2 }

def largeRequest : AllocParams where
  device := 0
  size := 2097152
  stream := 0
  pool := largeBlocks
  allocSize := 20971520

theorem severalCached_blocks :
    (severalCached.pools largeRequest.pool).blocks = [0, 1, 2, 3, 4] := rfl

theorem severalCached_ordered : severalCached.PoolOrdered largeRequest.pool := by
  constructor
  · rw [severalCached_blocks]
    show List.Pairwise (fun x y => blockComparatorSize (severalCached.block x)
      (severalCached.block y) = true) [0, 1, 2, 3, 4]
    decide
  · intro b member
    rw [severalCached_blocks] at member
    simp only [List.mem_cons, List.not_mem_nil, or_false] at member
    rcases member with rfl | rfl | rfl | rfl | rfl <;>
      exact ⟨_, rfl, rfl, rfl, by decide, by decide⟩

/-- Of the two blocks of the least size that is enough, the one with the lower address. -/
theorem getFreeBlock_bestFit_severalCached :
    severalCached.BestFit collecting largeRequest 1 ∧
      (getFreeBlock collecting largeRequest).run severalCached =
        .ok (true, { largeRequest with block := some 1 })
          ((severalCached.countSearch collecting largeBlocks).takeBlock largeBlocks 1) := by
  have second : severalCached.Eligible collecting largeRequest 1 :=
    ⟨by rw [severalCached_blocks]; decide, rfl, by decide⟩
  rcases getFreeBlock_bestFit collecting severalCached largeRequest severalCached_ordered with
    ⟨none, _⟩ | ⟨b, best, ran⟩
  · exact absurd second (none 1)
  obtain rfl : b = 1 := by
    obtain ⟨member, stream, fit⟩ := best.eligible
    by_contra differs
    have less := best.least 1 second (Ne.symm differs)
    rw [severalCached_blocks] at member
    simp only [List.mem_cons, List.not_mem_nil, or_false] at member
    rcases member with rfl | rfl | rfl | rfl | rfl
    · exact absurd fit (by decide)
    · exact differs rfl
    all_goals first | exact absurd less (by decide) | exact absurd stream (by decide)
  exact ⟨best, ran⟩

/-- A successful search does change more in the pool than its set. -/
theorem getFreeBlock_counted : ∃ result st',
    (getFreeBlock collecting largeRequest).run severalCached = .ok result st' ∧ result.1 = true ∧
      (severalCached.pools largeBlocks).getFreeBlocksCallCount = 0 ∧
      (st'.pools largeBlocks).getFreeBlocksCallCount = 1 := by
  have lower : severalCached.lowerBound largeRequest.pool largeRequest.searchKey = some 1 := by decide
  have chosen : (severalCached.block 1).stream = largeRequest.stream ∧
      fits collecting largeRequest.size (severalCached.block 1).size := by decide
  have ran := @getFreeBlock_some severalCached collecting largeRequest 1 lower
  rw [if_pos chosen] at ran
  refine ⟨_, _, ran, rfl, rfl, ?_⟩
  have enabled : (severalCached.setFraction &&
      decide (0 < collecting.garbageCollectionThreshold)) = true := by
    norm_num [severalCached, collecting]
  rw [State.countSearch, if_pos enabled]
  rfl

end TorchGcu.GCUCachingAllocator

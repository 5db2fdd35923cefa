import TorchGcu.CachingAllocator.Restore

/-! What a checkpoint records: the block lists of the segments of one private pool. -/
namespace TorchGcu.GCUCachingAllocator
open ProgramLogic LinkedList

variable {exact : Prop} {rt : Runtime} {st : State} {h : Hand}

/-- The record of one block. -/
def Block.recorded (block : Block) : BlockState :=
  { stream := block.stream, streamUses := block.streamUses, size := block.size, ptr := block.ptr,
    allocated := block.allocated, gcCount := block.gcCountBase }

/-- The record of the segment that begins with `head`. -/
def State.recordedSegment (st : State) (head : BlockId) : SegmentState :=
  { blocks := (st.following st.nextBlock (some head)).map fun b => (st.block b).recorded
    isSmall := (st.block head).pool.isSmall }

theorem blockState_result (block : Block) (st : State) :
    wp (blockState block) (fun state st' => st' = st ∧ state = block.recorded ∧ block.eventCount = 0)
      (fun _ st' => st' = st) st := by
  simp [blockState, Block.recorded]

theorem blockStates_result (blocks : List Block) (st : State) :
    wp (blockStates blocks)
      (fun states st' => st' = st ∧ states = blocks.map Block.recorded ∧
        ∀ block ∈ blocks, block.eventCount = 0)
      (fun _ st' => st' = st) st := by
  induction blocks with
  | nil => simp [blockStates]
  | cons block rest ih =>
    simp only [blockStates, wp_bind, wp_pure]
    refine wp_mono (blockState_result block st) (fun state st' first => ?_) (fun _ _ => id)
    obtain ⟨rfl, rfl, none_⟩ := first
    refine wp_mono ih (fun states st' others => ?_) (fun _ _ => id)
    obtain ⟨rfl, rfl, nones⟩ := others
    exact ⟨rfl, rfl, by simpa [none_] using nones⟩

theorem segmentStates_result (heads : List BlockId) (st : State) :
    wp (segmentStates heads)
      (fun segments st' => st' = st ∧ segments = heads.map st.recordedSegment ∧
        ∀ head ∈ heads, ∀ b ∈ st.following st.nextBlock (some head), (st.block b).eventCount = 0)
      (fun _ st' => st' = st) st := by
  induction heads with
  | nil => simp [segmentStates]
  | cons head rest ih =>
    simp only [segmentStates, segmentState, wp_bind, wp_pure, wp_get, wp_internalAssert]
    refine ⟨fun _ => ?_, fun _ => trivial⟩
    refine wp_mono (blockStates_result _ st) (fun states st' first => ?_) (fun _ _ => id)
    obtain ⟨rfl, rfl, none_⟩ := first
    refine wp_mono ih (fun segments st'' others => ?_) (fun _ _ => id)
    obtain ⟨rfl, rfl, nones⟩ := others
    refine ⟨rfl, ?_, ?_⟩
    · simp [State.recordedSegment, Function.comp_def]
    · intro head' member b inside
      rcases List.mem_cons.mp member with rfl | member
      · exact none_ _ (List.mem_map_of_mem inside)
      · exact nones head' member b inside

/-- What `getCheckpointState` returns when it returns. -/
theorem getCheckpointState_result (id : MempoolId) (st : State) :
    wp (getCheckpointState rt id)
      (fun pps st' => st' = st ∧ ∃ pool, State.findPool st.graphPools id = some pool ∧
        pps = { ownerId := id
                segments := (st.privatePoolHeadBlocks rt pool).map st.recordedSegment } ∧
        ∀ head ∈ st.privatePoolHeadBlocks rt pool,
          ∀ b ∈ st.following st.nextBlock (some head), (st.block b).eventCount = 0)
      (fun _ st' => st' = st) st := by
  simp only [getCheckpointState, wp_bind, wp_get]
  split
  · rename_i pool present
    simp only [wp_bind, wp_pure]
    refine wp_mono (segmentStates_result _ st) (fun segments st' done => ?_) (fun _ _ same => same)
    obtain ⟨rfl, rfl, nones⟩ := done
    exact ⟨rfl, pool, present, rfl, nones⟩
  · split <;> rfl

/-! ### The first blocks of the segments -/

theorem Shape.head_seg {exact : Prop} {blocks : BlockId → Option Block} {nextBlock : BlockId}
    {allocations : List Range} {segs : List Segment}
    (shape : Shape exact blocks nextBlock allocations segs) {b : BlockId}
    (live : (blocks b).isSome = true) (first : (blockOf blocks b).prev = none) :
    ∃ seg ∈ segs, seg.blocks.head? = some b ∧ (blockOf blocks b).ptr = seg.range.base := by
  obtain ⟨seg, member, inside⟩ := (shape.live b).mp live
  have formed := shape.formed seg member
  have head := links_head formed.linked inside first
  exact ⟨seg, member, head, formed.base b head⟩

/-- The first blocks of two segments begin at different addresses. -/
theorem Shape.head_ptr {exact : Prop} {blocks : BlockId → Option Block} {nextBlock : BlockId}
    {allocations : List Range} {segs : List Segment}
    (shape : Shape exact blocks nextBlock allocations segs) {b c : BlockId}
    (liveB : (blocks b).isSome = true) (liveC : (blocks c).isSome = true)
    (firstB : (blockOf blocks b).prev = none) (firstC : (blockOf blocks c).prev = none)
    (same : (blockOf blocks b).ptr = (blockOf blocks c).ptr) : b = c := by
  obtain ⟨seg, rest, _, inside, shape⟩ := shape.focus liveB
  have formed := shape.formed seg List.mem_cons_self
  have headB := links_head formed.linked inside firstB
  obtain ⟨other, member, headC, baseC⟩ := shape.head_seg liveC firstC
  rcases List.mem_cons.mp member with rfl | later
  · exact Option.some.inj (headB.symm.trans headC)
  · have differ := shape.base_ne (List.mem_map_of_mem later)
    have base := formed.base b headB
    exact absurd (baseC.symm.trans (same.symm.trans base)) differ

/-- The heads that `get_private_pool_head_blocks` finds are live first blocks, each found once. -/
theorem Sound.heads (sound : Sound exact h st) (rt : Runtime) (pool : PrivatePoolId) :
    (st.privatePoolHeadBlocks rt pool).Nodup ∧
      ∀ b ∈ st.privatePoolHeadBlocks rt pool, st.Live b ∧ (st.block b).prev = none ∧
        (st.block b).pool.ownerPrivatePool = some pool := by
  have ofPool : ∀ isSmall, ∀ b ∈ (st.pools ⟨some pool, isSmall⟩).blocks,
      st.Live b ∧ (st.block b).pool = ⟨some pool, isSmall⟩ := fun isSmall b member =>
    ⟨(sound.pooled.block member).1, (sound.pooled.block member).2.1⟩
  have small := sound.listed.poolSets ⟨some pool, true⟩
  have large := sound.listed.poolSets ⟨some pool, false⟩
  have active : (rt.blockOrder st.activeBlocks).Nodup :=
    (rt.blockOrder_perm _).nodup_iff.mpr sound.listed.activeBlocks
  constructor
  · simp only [State.privatePoolHeadBlocks]
    refine List.nodup_append'.mpr ⟨List.nodup_append'.mpr ⟨active.filter _, small.filter _, ?_⟩,
      large.filter _, ?_⟩
    · intro b left right
      have isActive := (rt.blockOrder_perm _).mem_iff.mp (List.mem_filter.mp left).1
      exact sound.listed.apart _ b (List.mem_filter.mp right).1 isActive
    · intro b left right
      have inLarge := (List.mem_filter.mp right).1
      rcases List.mem_append.mp left with left | left
      · have isActive := (rt.blockOrder_perm _).mem_iff.mp (List.mem_filter.mp left).1
        exact sound.listed.apart _ b inLarge isActive
      · have poolS := (ofPool true b (List.mem_filter.mp left).1).2
        have poolL := (ofPool false b inLarge).2
        simp [poolS] at poolL
  · intro b member
    simp only [State.privatePoolHeadBlocks, List.mem_append, List.mem_filter, decide_eq_true_eq]
      at member
    rcases member with (⟨_, ofThis, first⟩ | ⟨pooled, first⟩) | ⟨pooled, first⟩
    · have live : st.Live b := by
        by_contra dead
        simp [block_dead dead] at ofThis
      refine ⟨live, first, ?_⟩
      rcases ofThis with ofThis | ofThis <;> rw [ofThis]
    · exact ⟨(ofPool true b pooled).1, first, by rw [(ofPool true b pooled).2]⟩
    · exact ⟨(ofPool false b pooled).1, first, by rw [(ofPool false b pooled).2]⟩

theorem Sound.recordedSegment_start (sound : Sound exact h st) {head : BlockId}
    (live : st.Live head) : (st.recordedSegment head).start = some (st.block head).ptr := by
  obtain ⟨segs, shape, _⟩ := sound.heap
  have bound := shape.bound head live
  obtain ⟨fuel, some_⟩ := Nat.exists_eq_succ_of_ne_zero (Nat.ne_of_gt (Nat.zero_lt_of_lt bound))
  simp [SegmentState.start, State.recordedSegment, some_, State.following, Block.recorded]

/-- A checkpoint records no two segments that begin at one address. -/
theorem Sound.recorded_starts (sound : Sound exact h st) (rt : Runtime) (pool : PrivatePoolId) :
    (((st.privatePoolHeadBlocks rt pool).map st.recordedSegment).map (·.start)).Nodup := by
  obtain ⟨nodup, heads⟩ := sound.heads rt pool
  obtain ⟨segs, shape, _⟩ := sound.heap
  rw [List.map_map]
  refine nodup.map_on fun b memberB c memberC same => ?_
  simp only [Function.comp_apply] at same
  rw [sound.recordedSegment_start (heads b memberB).1,
    sound.recordedSegment_start (heads c memberC).1] at same
  exact shape.head_ptr (heads b memberB).1 (heads c memberC).1 (heads b memberB).2.1
    (heads c memberC).2.1 (Option.some.inj same)

theorem Sound.size_word (sound : Sound exact h st) (b : BlockId) : (st.block b).size < 2 ^ 64 := by
  by_cases live : st.Live b
  · obtain ⟨segs, shape, _⟩ := sound.heap
    obtain ⟨seg, member, inside⟩ := (shape.live b).mp live
    exact (shape.formed seg member).words b inside
  · simp [block_dead live]

theorem Sound.recorded_proper (sound : Sound exact h st) (rt : Runtime) (id : MempoolId)
    (pool : PrivatePoolId) :
    PrivatePoolState.Proper
      ⟨id, (st.privatePoolHeadBlocks rt pool).map st.recordedSegment⟩ where
  starts := sound.recorded_starts rt pool
  words segment member state inside := by
    obtain ⟨head, _, rfl⟩ := List.mem_map.mp member
    obtain ⟨b, _, rfl⟩ := List.mem_map.mp inside
    exact sound.size_word b

end TorchGcu.GCUCachingAllocator

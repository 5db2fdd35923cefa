import TorchGcu.CachingAllocator.State

/-! Splitting, merging, freeing and releasing blocks: the part of
`DeviceCachingAllocator` that relinks `prev` and `next`. -/
namespace TorchGcu.GCUCachingAllocator

structure AllocParams where
  device : DeviceIndex
  size : Nat
  stream : StreamId
  pool : PoolRef
  allocSize : Nat
  block : Option BlockId := none
  err : Option TopsError := none
deriving DecidableEq, Repr

/-- The two ways `AllocParams` is built both select the stat types of its pool. -/
def AllocParams.statTypes (params : AllocParams) : StatTypes := getStatTypesForPool params.pool

/-- `search_key`. -/
def AllocParams.searchKey (params : AllocParams) : Block :=
  { device := params.device, stream := params.stream, size := params.size }

namespace State

/-- The relinking of `alloc_found_block` with `split_remainder`: a new block takes the
first `size` bytes of `remaining`, which goes back to its pool. -/
def splitBlock (st : State) (params : AllocParams) (remaining : BlockId) : State × BlockId :=
  let block := st.nextBlock
  let prev := (st.block remaining).prev
  let st := st.newBlock
    { device := params.device, stream := params.stream, size := params.size,
      pool := params.pool, ptr := (st.block remaining).ptr, prev := prev,
      next := some remaining }
  let st := st.setNext prev (some block)
  let st := st.modifyBlock remaining fun r =>
    { r with
      prev := some block
      ptr := sizeAdd r.ptr params.size
      size := sizeSub r.size params.size }
  ((st.insertIntoBlocks params.pool remaining).1, block)

/-- The relinking of `try_merge_blocks`: `src` is swallowed by its neighbour `dst`. -/
def mergeBlocks (st : State) (dst src : BlockId) (pool : PoolRef) : State :=
  let srcBlock := st.block src
  let st :=
    if (st.block dst).prev = some src then
      (st.modifyBlock dst fun d => { d with ptr := srcBlock.ptr, prev := srcBlock.prev }).setNext
        srcBlock.prev (some dst)
    else
      (st.modifyBlock dst fun d => { d with next := srcBlock.next }).setPrev
        srcBlock.next (some dst)
  let st := st.modifyBlock dst fun d => { d with size := sizeAdd d.size srcBlock.size }
  (st.eraseFromBlocks pool src).deleteBlock src

end State

/-- Changes to the statistics when an allocation takes `block` out of a pool. -/
def allocatedStats (cfg : GCUAllocatorConfig) (types : StatTypes) (block : Block)
    (stats : DeviceStats) : DeviceStats :=
  { stats with
    allocation := increaseStatArray stats.allocation 1 types
    allocatedBytes := increaseStatArray stats.allocatedBytes block.size types
    active := increaseStatArray stats.active 1 types
    activeBytes := increaseStatArray stats.activeBytes block.size types
    requestedBytes := increaseStatArray stats.requestedBytes block.requestedSize types
    oversizeAllocations :=
      if cfg.maxSplitSize ≤ block.size then increaseStat stats.oversizeAllocations 1
      else stats.oversizeAllocations }

def allocFoundBlock (cfg : GCUAllocatorConfig) (params : AllocParams) (origSize : Nat)
    (splitRemainder : Bool) : M BlockId := do
  let some found := params.block | throw (.internalAssert "params.block != nullptr")
  internalAssert (params.err.isNone && decide (((← get).block found).ptr ≠ 0))
    "params.err == topsSuccess && params.block->ptr != nullptr"
  let alreadySplit := ((← get).block found).isSplit
  let block ←
    if splitRemainder then do
      let (st, block) := (← get).splitBlock params found
      set st
      if alreadySplit then
        -- An already-split inactive block is being shrunk by size bytes.
        modify (·.modifyStats fun stats =>
          { stats with
            inactiveSplitBytes :=
              decreaseStatArray stats.inactiveSplitBytes (st.block block).size params.statTypes })
      else
        -- A new split inactive block is being created from a previously unsplit block.
        modify (·.modifyStats fun stats =>
          { stats with
            inactiveSplitBytes :=
              increaseStatArray stats.inactiveSplitBytes (st.block found).size params.statTypes
            inactiveSplit := increaseStatArray stats.inactiveSplit 1 params.statTypes })
      pure block
    else do
      if alreadySplit then
        -- An already-split block is becoming active.
        let size := ((← get).block found).size
        modify (·.modifyStats fun stats =>
          { stats with
            inactiveSplitBytes := decreaseStatArray stats.inactiveSplitBytes size params.statTypes
            inactiveSplit := decreaseStatArray stats.inactiveSplit 1 params.statTypes })
      pure found
  modify (·.modifyBlock block fun b => { b with allocated := true, requestedSize := origSize })
  modify (·.insertActive block)
  let allocated := (← get).block block
  modify (·.modifyStats (allocatedStats cfg params.statTypes allocated))
  return block

/-- Returns the size of the subsumed block, or 0 on failure. -/
def tryMergeBlocks (dst : BlockId) (src : Option BlockId) (pool : PoolRef) : M Nat := do
  let some src := src | return 0
  if ((← get).block src).busy then return 0
  internalAssert (((← get).block dst).isSplit && ((← get).block src).isSplit)
    "dst->is_split() && src->is_split()"
  let subsumedSize := ((← get).block src).size
  modify (·.mergeBlocks dst src pool)
  return subsumedSize

/-- Changes to the statistics when a block has come to rest in its pool. -/
def freedStats (types : StatTypes) (netChangeBlocks netChangeSize : Int)
    (originalBlockSize requestedSize : Nat) (stats : DeviceStats) : DeviceStats :=
  { stats with
    inactiveSplit :=
      if 0 < netChangeBlocks then increaseStatArray stats.inactiveSplit netChangeBlocks types
      else if netChangeBlocks < 0 then
        decreaseStatArray stats.inactiveSplit (-netChangeBlocks) types
      else stats.inactiveSplit
    inactiveSplitBytes :=
      if 0 < netChangeSize then increaseStatArray stats.inactiveSplitBytes netChangeSize types
      else if netChangeSize < 0 then
        decreaseStatArray stats.inactiveSplitBytes (-netChangeSize) types
      else stats.inactiveSplitBytes
    active := decreaseStatArray stats.active 1 types
    activeBytes := decreaseStatArray stats.activeBytes originalBlockSize types
    requestedBytes := decreaseStatArray stats.requestedBytes requestedSize types }

/-- Moves a block into a pool of cached free blocks. -/
def freeBlock (block : BlockId) : M Unit := do
  let b := (← get).block block
  internalAssert (!b.allocated && b.eventCount == 0 && b.streamUses.isEmpty)
    "!block->allocated && block->event_count == 0 && block->stream_uses.empty()"
  let pool := b.pool
  -- Both candidates are read before the first merge.
  let subsumedPrev ← tryMergeBlocks block b.prev pool
  let subsumedNext ← tryMergeBlocks block b.next pool
  modify (·.eraseActive block)
  let (st, inserted) := (← get).insertIntoBlocks pool block
  set st
  internalAssert inserted "inserted"
  let merged := (← get).block block
  let netChangeBlocks : Int :=
    (if 0 < subsumedPrev then -1 else 0) + (if 0 < subsumedNext then -1 else 0) +
      (if merged.isSplit then 1 else 0)
  let netChangeSize : Int :=
    -(subsumedPrev : Int) - subsumedNext + (if merged.isSplit then (merged.size : Int) else 0)
  modify (·.modifyStats
    (freedStats (getStatTypesForPool pool) netChangeBlocks netChangeSize b.size b.requestedSize))

/-- Returns a block's memory to the device. -/
def releaseBlock (cfg : GCUAllocatorConfig) (rt : Runtime) (block : BlockId) : M Unit := do
  let st ← get
  let b := st.block block
  modify (·.modifyCounters fun c => { c with numDeviceFree := c.numDeviceFree + 1 })
  modify (·.log (.releaseBlock
    { block := b
      pooled := decide (block ∈ (st.pools b.pool).blocks)
      whole := st.allocations.any (·.base = b.ptr)
      useCount := st.useCount b.pool }))
  gcuCheck (rt.topsFree b.ptr)
  modify fun st => { st with
    allocations := st.allocations.filter (·.base ≠ b.ptr)
    totalAllocatedMemory := sizeSub st.totalAllocatedMemory b.size }
  match b.pool.ownerPrivatePool with
  | none => pure ()
  | some owner => do
    -- The freed block belonged to a graph's private pool.
    internalAssert (decide (0 < (((← get).privatePools owner).getD {}).topsMallocCount))
      "pool->owner_PrivatePool->topsMalloc_count > 0"
    modify (·.modifyPrivatePool owner fun p => { p with topsMallocCount := p.topsMallocCount - 1 })
  modify (·.modifyStats fun stats =>
    { stats with
      segment := decreaseStatArray stats.segment 1 (getStatTypesForPool b.pool)
      reservedBytes := decreaseStatArray stats.reservedBytes b.size (getStatTypesForPool b.pool)
      oversizeSegments :=
        if cfg.maxSplitSize ≤ b.size then decreaseStat stats.oversizeSegments 1
        else stats.oversizeSegments })
  modify (·.eraseFromBlocks b.pool block)
  modify (·.deleteBlock block)

end TorchGcu.GCUCachingAllocator

import TorchGcu.CachingAllocator.Events

/-! Allocation and release: `malloc` with its search, garbage collection, retries and
error path, `free`, and the cache releases. -/
namespace TorchGcu.GCUCachingAllocator

/-- The small or the large pool of an owner, by the size of the request. -/
def poolFor (owner : Option PrivatePoolId) (size : Nat) : PoolRef :=
  { ownerPrivatePool := owner, isSmall := decide (size ≤ kSmallSize) }

def getPool (size : Nat) (stream : StreamId) : M PoolRef := do
  let st ← get
  match st.capturesUnderway.find? fun entry => entry.2 stream with
  | none => return poolFor none size
  | some entry =>
    match State.findPool st.graphPools entry.1 with
    | none => throw (.internalAssert "it1 != graph_pools.end()")
    | some owner => return poolFor (some owner) size

def shouldSplit (cfg : GCUAllocatorConfig) (block : Block) (size : Nat) : Bool :=
  let remaining := sizeSub block.size size
  if block.pool.isSmall then decide (kMinBlockSize ≤ remaining)
  else decide (size < cfg.maxSplitSize) && decide (kSmallSize < remaining)

/-- `lower_bound(&key)`: the first element the comparator does not put before `key`. -/
def State.lowerBound (st : State) (pool : PoolRef) (key : Block) : Option BlockId :=
  (st.pools pool).blocks.find? fun x => !blockComparatorSize (st.block x) key

/-- The block reuse interval is tracked only when garbage collection is enabled. -/
def State.countSearch (st : State) (cfg : GCUAllocatorConfig) (pool : PoolRef) : State :=
  if st.setFraction && decide (0 < cfg.garbageCollectionThreshold) then
    st.modifyPool pool fun p => { p with getFreeBlocksCallCount := p.getFreeBlocksCallCount + 1 }
  else st

/-- On success the block has left its pool and is `params.block`. -/
def getFreeBlock (cfg : GCUAllocatorConfig) (params : AllocParams) : M (Bool × AllocParams) := do
  modify (·.countSearch cfg params.pool)
  let st ← get
  match st.lowerBound params.pool params.searchKey with
  | none => return (false, params)
  | some found =>
    let b := st.block found
    if b.stream ≠ params.stream then return (false, params)
    -- Do not return an oversized block for a large request
    if params.size < cfg.maxSplitSize ∧ cfg.maxSplitSize ≤ b.size then return (false, params)
    -- Allow oversized block size to be rounded up but within a limit
    if cfg.maxSplitSize ≤ params.size ∧ sizeAdd params.size kLargeBuffer ≤ b.size then
      return (false, params)
    set (st.modifyPool params.pool fun p => { p with blocks := p.blocks.filter (· ≠ found) })
    return (true, { params with block := some found })

/-- `topsMalloc` succeeded: the rest of `alloc_block`. -/
def State.newSegment (st : State) (cfg : GCUAllocatorConfig) (params : AllocParams) (ptr : Nat) :
    State :=
  let st :=
    match params.pool.ownerPrivatePool with
    | none => st
    | some owner =>
      st.modifyPrivatePool owner fun p => { p with topsMallocCount := p.topsMallocCount + 1 }
  let size := params.allocSize
  let total := sizeAdd st.totalAllocatedMemory size
  let st := st.newBlock
    { device := params.device, stream := params.stream, size := size, pool := params.pool,
      ptr := ptr }
  let st := { st with
    totalAllocatedMemory := total
    allocations := ⟨ptr, size⟩ :: st.allocations }
  let st := st.modifyStats fun stats =>
    { stats with
      segment := increaseStatArray stats.segment 1 params.statTypes
      reservedBytes := increaseStatArray stats.reservedBytes size params.statTypes
      oversizeSegments :=
        if cfg.maxSplitSize ≤ size then increaseStat stats.oversizeSegments 1
        else stats.oversizeSegments }
  (st.modifyCounters fun c => { c with numDeviceAlloc := c.numDeviceAlloc + 1 }).log
    (.allocBlock ⟨ptr, size⟩ total (if st.setFraction then some st.allowedMemoryMaximum else none))

/-- `alloc_block` up to the call of `topsMalloc`: false when the memory limit forbids it. -/
def allocBlockBegin (rt : Runtime) (call : Nat) (params : AllocParams) (isRetry : Bool) :
    M Bool := do
  -- Defensively checks for a preexisting error state.
  gcuCheck (rt.topsGetLastError call)
  if isRetry then
    modify (·.modifyCounters fun c => { c with numAllocRetries := c.numAllocRetries + 1 })
  let st ← get
  return !(st.setFraction &&
    decide (st.allowedMemoryMaximum < sizeAdd st.totalAllocatedMemory params.allocSize))

/-- `alloc_block` from the answer of `topsMalloc` on. -/
def allocBlockEnd (cfg : GCUAllocatorConfig) (params : AllocParams)
    (answer : Except TopsError Nat) : M (Bool × AllocParams) := do
  match answer with
  | .error .memoryAllocation => return (false, { params with err := some .memoryAllocation })
  | .error error => throw (.gcuError error)
  | .ok ptr => do
    let block := (← get).nextBlock
    modify (·.newSegment cfg params ptr)
    return (true, { params with block := some block, err := none })

def allocBlock (cfg : GCUAllocatorConfig) (rt : Runtime) (call : Nat) (params : AllocParams)
    (isRetry : Bool) : M (Bool × AllocParams) := do
  if ← allocBlockBegin rt call params isRetry then
    allocBlockEnd cfg params (rt.topsMalloc call (← get).allocations params.allocSize)
  else return (false, { params with err := some .memoryAllocation })

/-! ### Giving memory back -/

/-- Releases, in set order, the blocks of a pool that pass a test; the iterator only
meets blocks that are still in the set. -/
def releaseWhere (cfg : GCUAllocatorConfig) (rt : Runtime) (pool : PoolRef)
    (test : Block → Bool) : List BlockId → M Unit
  | [] => pure ()
  | block :: rest => do
    if block ∈ ((← get).pools pool).blocks ∧ test ((← get).block block) = true then
      releaseBlock cfg rt block
    releaseWhere cfg rt pool test rest

/-- Frees all non-split blocks. -/
def releaseBlocks (cfg : GCUAllocatorConfig) (rt : Runtime) (pool : PoolRef) : M Unit := do
  releaseWhere cfg rt pool (fun b => !b.isSplit) ((← get).pools pool).blocks

def largeBlocks : PoolRef := { isSmall := false }
def smallBlocks : PoolRef := { isSmall := true }

/-- `(size_t) static_cast<int>(pool->get_free_blocks_call_count - gc_count_base)`. -/
def State.gcCount (st : State) (block : BlockId) : Nat :=
  let b := st.block block
  (Int.bmod ((st.pools b.pool).getFreeBlocksCallCount - b.gcCountBase) (2 ^ 32) % 2 ^ 64).toNat

structure GcProgress where
  reclaimed : Nat
  totalAge : ℚ
  freeableBlockCount : Nat
  blockFreed : Bool

/-- One pass over `large_blocks`: free the blocks of at least average age. -/
def gcPass (cfg : GCUAllocatorConfig) (rt : Runtime) (ageThreshold : ℚ) :
    List BlockId → GcProgress → M GcProgress
  | [], gc => return gc
  | block :: rest, gc => do
    let st ← get
    if block ∈ (st.pools largeBlocks).blocks ∧ (st.block block).isSplit = false ∧
        ageThreshold ≤ st.gcCount block then
      releaseBlock cfg rt block
      gcPass cfg rt ageThreshold rest
        { reclaimed := sizeAdd gc.reclaimed (st.block block).size
          totalAge := gc.totalAge - st.gcCount block
          freeableBlockCount := gc.freeableBlockCount - 1
          blockFreed := true }
    else gcPass cfg rt ageThreshold rest gc

/-- Repeat until enough is reclaimed; a pass that frees nothing is the last one. -/
def gcLoop (cfg : GCUAllocatorConfig) (rt : Runtime) (targetSize : Nat) :
    Nat → GcProgress → M Unit
  | 0, _ => pure ()
  | passes + 1, gc => do
    if gc.reclaimed < targetSize ∧ gc.blockFreed = true ∧ 0 < gc.freeableBlockCount then
      let gc ← gcPass cfg rt (gc.totalAge / gc.freeableBlockCount)
        ((← get).pools largeBlocks).blocks { gc with blockFreed := false }
      gcLoop cfg rt targetSize passes gc

def garbageCollectCachedBlocks (cfg : GCUAllocatorConfig) (rt : Runtime) : M Unit := do
  let st ← get
  let gcThreshold := ⌊cfg.garbageCollectionThreshold * st.allowedMemoryMaximum⌋.toNat
  -- No need to trigger GC yet
  if st.totalAllocatedMemory ≤ gcThreshold then return
  let freeable := (st.pools largeBlocks).blocks.filter fun b => !(st.block b).isSplit
  if freeable.isEmpty then return
  gcLoop cfg rt (st.totalAllocatedMemory - gcThreshold) (freeable.length + 1)
    { reclaimed := 0
      totalAge := (freeable.map fun b => (st.gcCount b : ℚ)).sum
      freeableBlockCount := freeable.length
      blockFreed := true }

/-- The backwards loop over the elements before the lower bound, largest first. -/
def releaseOversize (cfg : GCUAllocatorConfig) (rt : Runtime) (params : AllocParams)
    (keySize : Nat) : List BlockId → Nat → M Nat
  | [], totalReleased => return totalReleased
  | block :: rest, totalReleased => do
    let st ← get
    let b := st.block block
    if block ∉ (st.pools params.pool).blocks then
      releaseOversize cfg rt params keySize rest totalReleased
    else if totalReleased < keySize ∧ cfg.maxSplitSize ≤ b.size ∧ b.stream = params.stream then
      releaseBlock cfg rt block
      releaseOversize cfg rt params keySize rest (sizeAdd totalReleased b.size)
    else return totalReleased

/-- Frees one or more oversize blocks, but only enough to satisfy the target size. -/
def releaseAvailableCachedBlocks (cfg : GCUAllocatorConfig) (rt : Runtime)
    (params : AllocParams) : M Bool := do
  if cfg.maxSplitSize = sizeMax then return false
  let keySize := if params.size < cfg.maxSplitSize then cfg.maxSplitSize else params.size
  let key := { params.searchKey with size := keySize }
  let st ← get
  match (st.lowerBound params.pool key).filter fun b => (st.block b).stream = params.stream with
  | some block => do
    releaseBlock cfg rt block
    return true
  | none => do
    -- No single block is large enough; free multiple oversize blocks, starting with the largest
    let smaller := (st.pools params.pool).blocks.takeWhile fun x =>
      blockComparatorSize (st.block x) key
    if smaller.isEmpty then return false
    let totalReleased ← releaseOversize cfg rt params keySize smaller.reverse 0
    return decide (keySize ≤ totalReleased)

/-- The part of `release_cached_blocks` for the pools no graph refers to any more. -/
def releaseFreeablePools (cfg : GCUAllocatorConfig) (rt : Runtime) :
    List (MempoolId × PrivatePoolId) → M Unit
  | [] => pure ()
  | (id, owner) :: rest => do
    internalAssert (((← get).privatePools owner).map (·.useCount) == some 0)
      "it->second->use_count == 0"
    releaseBlocks cfg rt { ownerPrivatePool := some owner, isSmall := true }
    releaseBlocks cfg rt { ownerPrivatePool := some owner, isSmall := false }
    if (((← get).privatePools owner).getD {}).topsMallocCount = 0 then
      let erased := State.findPool (← get).graphPools id
      modify fun st => { st with
        graphPools := st.graphPools.filter (·.1 ≠ id)
        privatePools :=
          match erased with
          | none => st.privatePools
          | some pool => Function.update st.privatePools pool none }
      internalAssert erased.isSome "erase_count == 1"
      modify fun st => { st with
        graphPoolsFreeable := st.graphPoolsFreeable.filter (·.1 ≠ id) }
    releaseFreeablePools cfg rt rest

def releaseCachedBlocks (cfg : GCUAllocatorConfig) (rt : Runtime) : M Unit := do
  -- First return to the pools the blocks that are held back by outstanding events.
  synchronizeAndFreeEvents rt
  releaseBlocks cfg rt largeBlocks
  releaseBlocks cfg rt smallBlocks
  releaseFreeablePools cfg rt (rt.poolOrder (← get).graphPoolsFreeable)

def emptyCache (cfg : GCUAllocatorConfig) (rt : Runtime) : M Unit := releaseCachedBlocks cfg rt

/-! ### `free` and `recordStream` -/

/-- Changes to the statistics when the client gives a block up. -/
def freeRequestedStats (cfg : GCUAllocatorConfig) (block : Block) (stats : DeviceStats) :
    DeviceStats :=
  { stats with
    allocation := decreaseStatArray stats.allocation 1 (getStatTypesForPool block.pool)
    allocatedBytes :=
      decreaseStatArray stats.allocatedBytes block.size (getStatTypesForPool block.pool)
    oversizeAllocations :=
      if cfg.maxSplitSize ≤ block.size then decreaseStat stats.oversizeAllocations 1
      else stats.oversizeAllocations }

def free (cfg : GCUAllocatorConfig) (rt : Runtime) (block : BlockId) : M Unit := do
  let b := (← get).block block
  modify (·.modifyBlock block fun b => { b with allocated := false })
  modify (·.modifyStats (freeRequestedStats cfg b))
  modify (·.log (.freeRequested ⟨b.ptr, b.size⟩ b.streamUses))
  if b.streamUses.isEmpty then freeBlock block
  else if (← get).capturesUnderway.isEmpty then insertEvents rt block
  else
    -- End-of-life events are recorded when no capture is underway any more.
    modify fun st => { st with
      needsEventsDeferredUntilNoCapture := st.needsEventsDeferredUntilNoCapture ++ [block] }

def recordStream (block : BlockId) (stream : GCUStream) : M Unit := do
  let b := (← get).block block
  -- Uses on the allocation stream need no synchronization.
  if stream.stream = b.stream then return
  modify (·.modifyBlock block fun b =>
    { b with streamUses := if stream ∈ b.streamUses then b.streamUses else b.streamUses ++ [stream] })

/-! ### `malloc` -/

/-- A callback gives up blocks it still holds. -/
def executeCallback (cfg : GCUAllocatorConfig) (rt : Runtime) : List BlockId → M Unit
  | [] => pure ()
  | block :: rest => do
    if ((← get).block block).allocated then free cfg rt block
    executeCallback cfg rt rest

def triggerFreeMemoryCallbacks (cfg : GCUAllocatorConfig) (rt : Runtime) :
    List (List BlockId × Bool) → Bool → M Bool
  | [], freedMemory => return freedMemory
  | (blocks, freed) :: rest, freedMemory => do
    executeCallback cfg rt blocks
    triggerFreeMemoryCallbacks cfg rt rest (freedMemory || freed)

/-- `malloc` up to its first search: the parameters of the request. -/
def allocParams (cfg : GCUAllocatorConfig) (rt : Runtime) (device : DeviceIndex)
    (origSize : Nat) (stream : StreamId) : M AllocParams := do
  -- Event queries are illegal while a capture is underway.
  if (← get).capturesUnderway.isEmpty then processEvents rt
  let size := roundSize cfg origSize
  let pool ← getPool size stream
  return { device, size, stream, pool, allocSize := getAllocationSize size }

/-- The search in the pool, with its retry after the free-memory callbacks. -/
def searchPool (cfg : GCUAllocatorConfig) (rt : Runtime) (params : AllocParams) :
    M (Bool × AllocParams) := do
  let (found, params) ← getFreeBlock cfg params
  if found then return (true, params)
  if ← triggerFreeMemoryCallbacks cfg rt rt.freeMemoryCallbacks false then getFreeBlock cfg params
  else return (false, params)

/-- `malloc` up to and with its first `alloc_block`. -/
def mallocFirst (cfg : GCUAllocatorConfig) (rt : Runtime) (device : DeviceIndex)
    (origSize : Nat) (stream : StreamId) : M (Bool × AllocParams) := do
  let params ← allocParams cfg rt device origSize stream
  let (found, params) ← searchPool cfg rt params
  if found then return (true, params)
  if (← get).setFraction && decide (0 < cfg.garbageCollectionThreshold) then
    garbageCollectCachedBlocks cfg rt
  allocBlock cfg rt 0 params false

/-- The retry after freeing enough oversize blocks. -/
def mallocSecond (cfg : GCUAllocatorConfig) (rt : Runtime) (params : AllocParams) :
    M (Bool × AllocParams) := do
  if ← releaseAvailableCachedBlocks cfg rt params then allocBlock cfg rt 1 params false
  else return (false, params)

/-- The two retries; the last one is made after freeing all non-split cached blocks. -/
def mallocRetry (cfg : GCUAllocatorConfig) (rt : Runtime) (params : AllocParams) :
    M (Bool × AllocParams) := do
  let (found, params) ← mallocSecond cfg rt params
  if found then return (true, params)
  if (← get).capturesUnderway.isEmpty then
    releaseCachedBlocks cfg rt
    allocBlock cfg rt 2 params true
  else return (false, params)

def mallocSearch (cfg : GCUAllocatorConfig) (rt : Runtime) (device : DeviceIndex)
    (origSize : Nat) (stream : StreamId) : M (Bool × AllocParams) := do
  let (found, params) ← mallocFirst cfg rt device origSize stream
  if found then return (true, params)
  mallocRetry cfg rt params

def reportOutOfMemory {α : Type} (rt : Runtime) (params : AllocParams) : M α := do
  internalAssert (params.err == some .memoryAllocation) "params.err == topsErrorMemoryAllocation"
  match rt.topsMemGetInfo with
  | .error error => throw (.gcuError error)
  | .ok (deviceFree, deviceTotal) => do
    modify (·.modifyCounters fun c => { c with numOoms := c.numOoms + 1 })
    throw (.outOfMemory params.allocSize deviceTotal deviceFree)

def malloc (cfg : GCUAllocatorConfig) (rt : Runtime) (device : DeviceIndex) (origSize : Nat)
    (stream : StreamId) : M BlockId := do
  let (found, params) ← mallocSearch cfg rt device origSize stream
  if !found then reportOutOfMemory rt params
  else
    let splitRemainder :=
      shouldSplit cfg ((← get).block (params.block.getD 0)) params.size
    allocFoundBlock cfg params origSize splitRemainder

/-- Limits the memory to a fraction of the device's; the product is the runtime's. -/
def setMemoryFraction (allowed : Nat) : M Unit :=
  modify fun st => { st with allowedMemoryMaximum := allowed, setFraction := true }

end TorchGcu.GCUCachingAllocator

import TorchGcu.CachingAllocator.Malloc

/-! Private pools for graphs: who uses them, and checkpointing one of them. -/
namespace TorchGcu.GCUCachingAllocator

def beginAllocateToPool (id : MempoolId) (filter : StreamId → Bool) : M Unit := do
  let st ← get
  let pool ←
    match State.findPool st.graphPools id with
    | none => do
      -- Make a new pool for this capture.
      let pool := st.nextPrivatePool
      set { st with
        graphPools := st.graphPools ++ [(id, pool)]
        privatePools := Function.update st.privatePools pool (some {})
        nextPrivatePool := pool + 1 }
      pure pool
    | some pool => do
      -- Share an existing pool, which must be live.
      internalAssert (decide (0 < ((st.privatePools pool).getD {}).useCount))
        "it->second->use_count > 0"
      set (st.modifyPrivatePool pool fun p => { p with useCount := p.useCount + 1 })
      pure pool
  torchCheck ((← get).capturesUnderway.all fun entry => decide (entry.1 ≠ id))
    "beginAllocateToPool: already recording to mempool_id"
  modify fun st => { st.log (.poolBegun pool) with
    capturesUnderway := st.capturesUnderway ++ [(id, filter)] }

def endAllocateToPool (id : MempoolId) : M Unit := do
  let st ← get
  if st.capturesUnderway.any fun entry => decide (entry.1 = id) then
    set { st with
      capturesUnderway := st.capturesUnderway.eraseP fun entry => decide (entry.1 = id) }
  else throw (.torchCheck "endAllocatePool: not currently recording to mempool_id")

def releasePool (id : MempoolId) : M Unit := do
  let st ← get
  match State.findPool st.graphPools id with
  | none => throw (.internalAssert "it != graph_pools.end()")
  | some pool => do
    modify (·.modifyPrivatePool pool fun p => { p with useCount := p.useCount - 1 })
    let uc := (((← get).privatePools pool).getD {}).useCount
    internalAssert (decide (0 ≤ uc)) "uc >= 0"
    if uc = 0 then
      -- Makes sure this pool wasn't somehow made freeable already.
      let inserted := (State.findPool st.graphPoolsFreeable id).isNone
      if inserted then
        modify fun st => { st with graphPoolsFreeable := st.graphPoolsFreeable ++ [(id, pool)] }
      internalAssert inserted "inserted"
    modify (·.log (.poolReleased pool))

/-! ### Checkpoints -/

/-- The device is never copied from the block, so it keeps its initial value. -/
structure BlockState where
  device : DeviceIndex := 0
  stream : StreamId
  streamUses : List GCUStream
  size : Nat
  ptr : Nat
  allocated : Bool
  gcCount : Int
deriving DecidableEq, Repr

structure SegmentState where
  blocks : List BlockState
  isSmall : Bool
deriving DecidableEq, Repr

structure PrivatePoolState where
  ownerId : MempoolId
  segments : List SegmentState
deriving DecidableEq, Repr

structure RestoreResult where
  allocationsFreed : List Nat := []
  allocationsCreated : List BlockId := []
deriving DecidableEq, Repr

/-- `BlockState::BlockState`. -/
def blockState (block : Block) : M BlockState := do
  torchCheck (block.eventCount == 0) "Events should have synchronized when checkpointing block"
  return { stream := block.stream, streamUses := block.streamUses, size := block.size,
           ptr := block.ptr, allocated := block.allocated, gcCount := block.gcCountBase }

/-- Following `next` from a block; no list of blocks is longer than `fuel`. -/
def State.following (st : State) : Nat → Option BlockId → List BlockId
  | 0, _ => []
  | _, none => []
  | fuel + 1, some b => b :: st.following fuel (st.block b).next

def blockStates : List Block → M (List BlockState)
  | [] => return []
  | block :: rest => do
    let state ← blockState block
    return state :: (← blockStates rest)

/-- `SegmentState::SegmentState`. -/
def segmentState (head : BlockId) : M SegmentState := do
  let st ← get
  internalAssert (st.block head).prev.isNone "head->prev == nullptr && head->pool != nullptr"
  return { blocks := ← blockStates ((st.following st.nextBlock (some head)).map st.block)
           isSmall := (st.block head).pool.isSmall }

def segmentStates : List BlockId → M (List SegmentState)
  | [] => return []
  | head :: rest => do
    let state ← segmentState head
    return state :: (← segmentStates rest)

def State.privatePoolHeadBlocks (st : State) (rt : Runtime) (pool : PrivatePoolId) :
    List BlockId :=
  let small : PoolRef := { ownerPrivatePool := some pool, isSmall := true }
  let large : PoolRef := { ownerPrivatePool := some pool, isSmall := false }
  ((rt.blockOrder st.activeBlocks).filter fun b =>
      ((st.block b).pool = small ∨ (st.block b).pool = large) ∧ (st.block b).prev = none) ++
    (st.pools small).blocks.filter (fun b => (st.block b).prev = none) ++
    (st.pools large).blocks.filter (fun b => (st.block b).prev = none)

def getCheckpointState (rt : Runtime) (id : MempoolId) : M PrivatePoolState := do
  let st ← get
  match State.findPool st.graphPools id with
  | some pool => return { ownerId := id, segments := ← segmentStates (st.privatePoolHeadBlocks rt pool) }
  | none =>
    if (State.findPool st.graphPoolsFreeable id).isSome then
      throw (.torchCheck "Not expected to checkpoint freeable graph")
    else throw (.torchCheck "Could not find pool of id")

/-- The walk along one segment in `freeBlocksAllocatedToPool`; a block's own pointer
does not change when it is freed, only its neighbours do. -/
def freeFollowing (cfg : GCUAllocatorConfig) (rt : Runtime) :
    Nat → Option BlockId → RestoreResult → M RestoreResult
  | 0, _, rr => return rr
  | _, none, rr => return rr
  | fuel + 1, some curr, rr => do
    let b := (← get).block curr
    let rr ←
      if b.allocated then do
        torchCheck (b.eventCount == 0)
          "Events should have synchronized when setting checkpointed block"
        let rr := { rr with allocationsFreed := rr.allocationsFreed ++ [b.ptr] }
        free cfg rt curr
        torchCheck (!((← get).block curr).allocated) "!curr->allocated"
        pure rr
      else pure rr
    freeFollowing cfg rt fuel ((← get).block curr).next rr

def freeSegments (cfg : GCUAllocatorConfig) (rt : Runtime) :
    List BlockId → RestoreResult → M RestoreResult
  | [], rr => return rr
  | head :: rest, rr => do
    let rr ← freeFollowing cfg rt (← get).nextBlock (some head) rr
    freeSegments cfg rt rest rr

def freeBlocksAllocatedToPool (cfg : GCUAllocatorConfig) (rt : Runtime) (pool : PrivatePoolId) :
    M RestoreResult := do
  let rr ← freeSegments cfg rt ((← get).privatePoolHeadBlocks rt pool) {}
  let st ← get
  torchCheck ((st.privatePoolHeadBlocks rt pool).all fun head =>
      (st.following st.nextBlock (some head)).all fun b => !(st.block b).allocated)
    "!curr->allocated"
  return rr

/-- Allocate all the blocks of a segment, splitting as the checkpoint was split.
Returns the last block. -/
def allocateRecorded (cfg : GCUAllocatorConfig) (pool : PoolRef) :
    List BlockState → Option BlockId → BlockId → M BlockId
  | [], _, last => return last
  | state :: rest, curr, _ => do
    let some curr := curr | throw (.internalAssert "params.block != nullptr")
    modify (·.eraseFromBlocks pool curr)
    let params : AllocParams :=
      { device := state.device, size := state.size, stream := state.stream, pool,
        allocSize := state.size, block := some curr }
    let block ← allocFoundBlock cfg params state.size (!rest.isEmpty)
    torchCheck (((← get).block block).ptr == state.ptr) "curr_block->ptr == block_state.ptr"
    torchCheck (((← get).block block).size == state.size) "curr_block->size == block_state.size"
    let next := ((← get).block block).next
    torchCheck (next.isSome == !rest.isEmpty) "(curr_block != nullptr) == ((i + 1) < (segment_len))"
    allocateRecorded cfg pool rest next block

/-- `while (last_block->prev) last_block = last_block->prev`. -/
def State.headOf (st : State) : Nat → BlockId → BlockId
  | 0, b => b
  | fuel + 1, b =>
    match (st.block b).prev with
    | none => b
    | some prev => st.headOf fuel prev

/-- Free the blocks that are not allocated in the checkpoint. -/
def freeRecorded (cfg : GCUAllocatorConfig) (rt : Runtime) :
    List BlockState → Option BlockId → RestoreResult → M RestoreResult
  | [], _, rr => return rr
  | state :: rest, curr, rr => do
    let some curr := curr | throw (.internalAssert "curr_block != nullptr")
    if state.allocated then
      freeRecorded cfg rt rest ((← get).block curr).next
        { rr with allocationsCreated := rr.allocationsCreated ++ [curr] }
    else
      free cfg rt curr
      let b := (← get).block curr
      torchCheck (b.ptr == state.ptr) "curr_block->ptr == block_state.ptr"
      torchCheck (b.allocated == state.allocated) "curr_block->allocated == block_state.allocated"
      torchCheck (b.size == state.size) "curr_block->size == block_state.size"
      freeRecorded cfg rt rest b.next rr

def setSegmentStateToCheckpoint (cfg : GCUAllocatorConfig) (rt : Runtime) (block : BlockId)
    (segment : SegmentState) (rr : RestoreResult) : M RestoreResult := do
  let last ← allocateRecorded cfg ((← get).block block).pool segment.blocks (some block) block
  let st ← get
  freeRecorded cfg rt segment.blocks (some (st.headOf st.nextBlock last)) rr

/-- `ptrs_to_blocks[ptr]`: a later entry for the same address replaces an earlier one. -/
def blockAt (ptrsToBlocks : List (Nat × BlockId)) (ptr : Nat) : Option BlockId :=
  (ptrsToBlocks.reverse.find? (·.1 = ptr)).map (·.2)

def restoreSegments (cfg : GCUAllocatorConfig) (rt : Runtime)
    (ptrsToBlocks : List (Nat × BlockId)) :
    List SegmentState → RestoreResult → M RestoreResult
  | [], rr => return rr
  | segment :: rest, rr => do
    let some first := segment.blocks.head? | throw .outOfRange
    let some block := blockAt ptrsToBlocks first.ptr | throw (.torchCheck " could not find ")
    let rr ← setSegmentStateToCheckpoint cfg rt block segment rr
    restoreSegments cfg rt ptrsToBlocks rest rr

/-- See Note [Checkpointing PrivatePoolState] in the source. -/
def setCheckpointPoolState (cfg : GCUAllocatorConfig) (rt : Runtime) (pps : PrivatePoolState) :
    M RestoreResult := do
  let st ← get
  torchCheck (State.findPool st.graphPoolsFreeable pps.ownerId).isNone
    "Not expected to checkpoint freeable graph"
  let some pool := State.findPool st.graphPools pps.ownerId
    | throw (.torchCheck "Could not find private pool id")
  let rr ← freeBlocksAllocatedToPool cfg rt pool
  -- At this point all of the blocks should be free, so they will all be in the block set.
  let st ← get
  let free := (st.pools { ownerPrivatePool := some pool, isSmall := true }).blocks ++
    (st.pools { ownerPrivatePool := some pool, isSmall := false }).blocks
  restoreSegments cfg rt (free.map fun b => ((st.block b).ptr, b)) pps.segments rr

end TorchGcu.GCUCachingAllocator

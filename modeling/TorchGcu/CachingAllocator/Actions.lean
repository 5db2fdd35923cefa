import TorchGcu.CachingAllocator.Step
import TorchGcu.Logic.Wp

/-! The operations of the allocator as sequences of small actions. An action is one
indivisible change of the state together with the guard under which the code makes it.
Between two actions of an operation a block can be out of every pool: the hand says
which block that is and what is still to be done with it. -/
namespace TorchGcu.GCUCachingAllocator
open ProgramLogic

/-- One side of a block on its way into its pool: the neighbour `free_block` has read
there, or what `try_merge_blocks` has answered for it. -/
inductive Side where
  | pending (neighbour : Option BlockId)
  | merged (subsumed : Nat)

inductive Hand where
  | empty
  | taken (params : AllocParams) (block : BlockId)
  | ready (params : AllocParams) (block : BlockId)
  | givenUp (block : BlockId)
  | freeing (block : BlockId)
  | merging (block : BlockId) (origin : Block) (left right : Side)
  | recording (block : BlockId) (streams : List GCUStream)

/-- The runtime calls that record an event succeed. -/
structure Runtime.Steady (rt : Runtime) : Prop where
  setDevice : ∀ device, rt.setDevice device = none
  createEvent : ∀ device, rt.createEvent device = none
  topsEventRecord : ∀ event, rt.topsEventRecord event = none

/-- What is asked of the actions besides their guards. -/
structure Mode where
  /-- A restore only ever cuts a block as it was cut before. -/
  exact : Prop := False
  /-- Only unsplit blocks are released. -/
  whole : Prop := False
  /-- No block of a private pool in use is released. -/
  quiet : Prop := False
  /-- The runtime calls that record events succeed. -/
  steady : Prop := False
  /-- Neither the table of private pools nor the captures change. -/
  still : Prop := False
  /-- No graph begins or ends an allocation, or lets its pool go. -/
  serving : Prop := False
  /-- No memory is obtained from the device, and its limit stays. -/
  frugal : Prop := False
  /-- What holds of a block and a size when a restore cuts the block. -/
  cut : Block → Nat → Prop := fun _ _ => True
  /-- The blocks that nobody takes out of their pool. -/
  spares : BlockId → Prop := fun _ => False

/-- The parameters `malloc` computes from a request. -/
structure AllocParams.OfRequest (params : AllocParams) : Prop where
  word : params.size < 2 ^ 64
  allocSize : params.allocSize = getAllocationSize params.size
  pool : params.pool.isSmall = decide (params.size ≤ kSmallSize)

namespace State

/-- `params.block` has been split off the block that was found. -/
def carved (st : State) (params : AllocParams) (found : BlockId) : State :=
  let st' := (st.splitBlock params found).1
  if (st.block found).isSplit then
    st'.modifyStats fun stats =>
      { stats with
        inactiveSplitBytes :=
          decreaseStatArray stats.inactiveSplitBytes (st'.block st.nextBlock).size
            params.statTypes }
  else
    st'.modifyStats fun stats =>
      { stats with
        inactiveSplitBytes :=
          increaseStatArray stats.inactiveSplitBytes (st'.block found).size params.statTypes
        inactiveSplit := increaseStatArray stats.inactiveSplit 1 params.statTypes }

/-- The block that was found is used as it is. -/
def kept (st : State) (params : AllocParams) (found : BlockId) : State :=
  if (st.block found).isSplit then
    st.modifyStats fun stats =>
      { stats with
        inactiveSplitBytes :=
          decreaseStatArray stats.inactiveSplitBytes (st.block found).size params.statTypes
        inactiveSplit := decreaseStatArray stats.inactiveSplit 1 params.statTypes }
  else st

/-- The block is given to the client. -/
def handedOut (st : State) (cfg : GCUAllocatorConfig) (params : AllocParams) (origSize : Nat)
    (block : BlockId) : State :=
  let st := (st.modifyBlock block fun b =>
    { b with allocated := true, requestedSize := origSize }).insertActive block
  st.modifyStats (allocatedStats cfg params.statTypes (st.block block))

/-- The client has given the block up. -/
def givenUp (st : State) (cfg : GCUAllocatorConfig) (block : BlockId) : State :=
  ((st.modifyBlock block fun b => { b with allocated := false }).modifyStats
    (freeRequestedStats cfg (st.block block))).log
      (.freeRequested ⟨(st.block block).ptr, (st.block block).size⟩ (st.block block).streamUses)

def deferred (st : State) (block : BlockId) : State :=
  { st with
    needsEventsDeferredUntilNoCapture := st.needsEventsDeferredUntilNoCapture ++ [block] }

def usesTaken (st : State) (block : BlockId) : State :=
  st.modifyBlock block fun b => { b with streamUses := [] }

/-- The end of `free_block`: into the pool, and whether the set took it. -/
def settled (st : State) (block : BlockId) (origin : Block) (subsumedPrev subsumedNext : Nat) :
    State :=
  let st := ((st.eraseActive block).insertIntoBlocks origin.pool block).1
  let merged := st.block block
  let netChangeBlocks : Int :=
    (if 0 < subsumedPrev then -1 else 0) + (if 0 < subsumedNext then -1 else 0) +
      (if merged.isSplit then 1 else 0)
  let netChangeSize : Int :=
    -(subsumedPrev : Int) - subsumedNext + (if merged.isSplit then (merged.size : Int) else 0)
  st.modifyStats (freedStats (getStatTypesForPool origin.pool) netChangeBlocks netChangeSize
    origin.size origin.requestedSize)

/-- An event has completed, seen by a query or a synchronization. -/
def eventCompleted (st : State) (e : PendingEvent) (event : EventId) : State :=
  ((st.takeEvent event).log (.completed event)).modifyBlock e.block fun b =>
    { b with eventCount := b.eventCount - 1 }

/-- What is logged of a call of `release_block`. -/
def releaseCall (st : State) (block : BlockId) : ReleaseCall :=
  { block := st.block block
    pooled := decide (block ∈ (st.pools (st.block block).pool).blocks)
    whole := st.allocations.any (·.base = (st.block block).ptr)
    useCount := st.useCount (st.block block).pool }

/-- `release_block` up to its call of `topsFree`. -/
def releaseCalled (st : State) (block : BlockId) : State :=
  (st.modifyCounters fun c => { c with numDeviceFree := c.numDeviceFree + 1 }).log
    (.releaseBlock (st.releaseCall block))

/-- The device has taken the memory back. -/
def memoryReturned (st : State) (block : BlockId) : State :=
  { st.releaseCalled block with
    allocations := st.allocations.filter (·.base ≠ (st.block block).ptr)
    totalAllocatedMemory := sizeSub st.totalAllocatedMemory (st.block block).size }

/-- `release_block` as a whole. -/
def released (st : State) (cfg : GCUAllocatorConfig) (block : BlockId) : State :=
  let b := st.block block
  let st := st.memoryReturned block
  let st :=
    match b.pool.ownerPrivatePool with
    | none => st
    | some owner =>
      st.modifyPrivatePool owner fun p => { p with topsMallocCount := p.topsMallocCount - 1 }
  ((st.modifyStats fun stats =>
    { stats with
      segment := decreaseStatArray stats.segment 1 (getStatTypesForPool b.pool)
      reservedBytes := decreaseStatArray stats.reservedBytes b.size (getStatTypesForPool b.pool)
      oversizeSegments :=
        if cfg.maxSplitSize ≤ b.size then decreaseStat stats.oversizeSegments 1
        else stats.oversizeSegments }).eraseFromBlocks b.pool block).deleteBlock block

/-- The use count of the owner, for a pool that has one, is not positive. -/
def Unused (st : State) (owner : Option PrivatePoolId) : Prop :=
  ∀ p, owner = some p → ((st.privatePools p).map (·.useCount)).getD 0 ≤ 0

def topsMallocCount (st : State) (owner : PrivatePoolId) : Int :=
  ((st.privatePools owner).getD {}).topsMallocCount

/-- A private pool without segments leaves `graph_pools`; `erased` is the one found there. -/
def poolErased (st : State) (id : MempoolId) (erased : Option PrivatePoolId) : State :=
  { st with
    graphPools := st.graphPools.filter (·.1 ≠ id)
    privatePools :=
      match erased with
      | none => st.privatePools
      | some pool => Function.update st.privatePools pool none }

def poolForgotten (st : State) (id : MempoolId) : State :=
  { st with graphPoolsFreeable := st.graphPoolsFreeable.filter (·.1 ≠ id) }

def poolOpened (st : State) (id : MempoolId) : State :=
  { st with
    graphPools := st.graphPools ++ [(id, st.nextPrivatePool)]
    privatePools := Function.update st.privatePools st.nextPrivatePool (some {})
    nextPrivatePool := st.nextPrivatePool + 1 }

def poolShared (st : State) (pool : PrivatePoolId) : State :=
  st.modifyPrivatePool pool fun p => { p with useCount := p.useCount + 1 }

def captureBegun (st : State) (id : MempoolId) (pool : PrivatePoolId)
    (filter : StreamId → Bool) : State :=
  { st.log (.poolBegun pool) with capturesUnderway := st.capturesUnderway ++ [(id, filter)] }

def captureEnded (st : State) (id : MempoolId) : State :=
  { st with capturesUnderway := st.capturesUnderway.eraseP fun entry => decide (entry.1 = id) }

def useDropped (st : State) (pool : PrivatePoolId) : State :=
  st.modifyPrivatePool pool fun p => { p with useCount := p.useCount - 1 }

def poolFreeable (st : State) (id : MempoolId) (pool : PrivatePoolId) : State :=
  { st with graphPoolsFreeable := st.graphPoolsFreeable ++ [(id, pool)] }

end State

/-- Only the blocks, the pool sets, the active blocks and the statistics differ. -/
structure Local (st st' : State) : Prop where
  graphPools : st'.graphPools = st.graphPools
  graphPoolsFreeable : st'.graphPoolsFreeable = st.graphPoolsFreeable
  privatePools : st'.privatePools = st.privatePools
  nextPrivatePool : st'.nextPrivatePool = st.nextPrivatePool
  capturesUnderway : st'.capturesUnderway = st.capturesUnderway
  deferred : st'.needsEventsDeferredUntilNoCapture = st.needsEventsDeferredUntilNoCapture
  gcuEvents : st'.gcuEvents = st.gcuEvents
  nextEvent : st'.nextEvent = st.nextEvent
  allocations : st'.allocations = st.allocations
  totalAllocatedMemory : st'.totalAllocatedMemory = st.totalAllocatedMemory
  allowedMemoryMaximum : st'.allowedMemoryMaximum = st.allowedMemoryMaximum
  setFraction : st'.setFraction = st.setFraction
  history : st'.history = st.history

section Local
variable (st : State)

theorem insertIntoBlocks_local (pool : PoolRef) (b : BlockId) :
    Local st (st.insertIntoBlocks pool b).1 := by
  simp only [State.insertIntoBlocks]
  split <;> constructor <;> rfl

theorem mergeBlocks_local (dst src : BlockId) (pool : PoolRef) :
    Local st (st.mergeBlocks dst src pool) := by
  simp only [State.mergeBlocks]
  split <;> cases (st.block src).prev <;> cases (st.block src).next <;> constructor <;> rfl

theorem splitBlock_local (params : AllocParams) (found : BlockId) :
    Local st (st.splitBlock params found).1 := by
  simp only [State.splitBlock, State.insertIntoBlocks]
  split <;> cases (st.block found).prev <;> constructor <;> rfl

theorem carved_local (params : AllocParams) (found : BlockId) :
    Local st (st.carved params found) := by
  have split := splitBlock_local st params found
  simp only [State.carved]
  split <;> exact ⟨split.1, split.2, split.3, split.4, split.5, split.6, split.7, split.8, split.9,
    split.10, split.11, split.12, split.13⟩

theorem kept_local (params : AllocParams) (found : BlockId) : Local st (st.kept params found) := by
  simp only [State.kept]
  split <;> constructor <;> rfl

theorem settled_local (block : BlockId) (origin : Block) (left right : Nat) :
    Local st (st.settled block origin left right) := by
  have inserted := insertIntoBlocks_local (st.eraseActive block) origin.pool block
  exact ⟨inserted.1, inserted.2, inserted.3, inserted.4, inserted.5, inserted.6, inserted.7,
    inserted.8, inserted.9, inserted.10, inserted.11, inserted.12, inserted.13⟩

end Local

section NewSegment
variable (st : State) (cfg : GCUAllocatorConfig) (params : AllocParams) (ptr : Nat)

@[simp] theorem newSegment_graphPools :
    (st.newSegment cfg params ptr).graphPools = st.graphPools := by
  simp only [State.newSegment]
  cases params.pool.ownerPrivatePool <;> rfl

@[simp] theorem newSegment_graphPoolsFreeable :
    (st.newSegment cfg params ptr).graphPoolsFreeable = st.graphPoolsFreeable := by
  simp only [State.newSegment]
  cases params.pool.ownerPrivatePool <;> rfl

@[simp] theorem newSegment_capturesUnderway :
    (st.newSegment cfg params ptr).capturesUnderway = st.capturesUnderway := by
  simp only [State.newSegment]
  cases params.pool.ownerPrivatePool <;> rfl

@[simp] theorem newSegment_privatePools :
    (st.newSegment cfg params ptr).privatePools =
      match params.pool.ownerPrivatePool with
      | none => st.privatePools
      | some owner => (st.modifyPrivatePool owner fun p =>
          { p with topsMallocCount := p.topsMallocCount + 1 }).privatePools := by
  simp only [State.newSegment]
  cases params.pool.ownerPrivatePool <;> rfl

@[simp] theorem newSegment_nextPrivatePool :
    (st.newSegment cfg params ptr).nextPrivatePool = st.nextPrivatePool := by
  simp only [State.newSegment]
  cases params.pool.ownerPrivatePool <;> rfl

@[simp] theorem newSegment_pools : (st.newSegment cfg params ptr).pools = st.pools := by
  simp only [State.newSegment]
  cases params.pool.ownerPrivatePool <;> rfl

@[simp] theorem newSegment_activeBlocks :
    (st.newSegment cfg params ptr).activeBlocks = st.activeBlocks := by
  simp only [State.newSegment]
  cases params.pool.ownerPrivatePool <;> rfl

@[simp] theorem newSegment_gcuEvents :
    (st.newSegment cfg params ptr).gcuEvents = st.gcuEvents := by
  simp only [State.newSegment]
  cases params.pool.ownerPrivatePool <;> rfl

@[simp] theorem newSegment_nextEvent :
    (st.newSegment cfg params ptr).nextEvent = st.nextEvent := by
  simp only [State.newSegment]
  cases params.pool.ownerPrivatePool <;> rfl

@[simp] theorem newSegment_history :
    (st.newSegment cfg params ptr).history =
      .allocBlock ⟨ptr, params.allocSize⟩ (sizeAdd st.totalAllocatedMemory params.allocSize)
        (if st.setFraction then some st.allowedMemoryMaximum else none) :: st.history := by
  simp only [State.newSegment]
  cases params.pool.ownerPrivatePool <;> rfl

end NewSegment

section Released
variable (st : State) (cfg : GCUAllocatorConfig) (block : BlockId)

@[simp] theorem released_blocks :
    (st.released cfg block).blocks = Function.update st.blocks block none := by
  simp only [State.released]
  split <;> rfl

@[simp] theorem released_nextBlock : (st.released cfg block).nextBlock = st.nextBlock := by
  simp only [State.released]
  split <;> rfl

@[simp] theorem released_pools :
    (st.released cfg block).pools = (st.eraseFromBlocks (st.block block).pool block).pools := by
  simp only [State.released]
  split <;> rfl

@[simp] theorem released_privatePools :
    (st.released cfg block).privatePools =
      match (st.block block).pool.ownerPrivatePool with
      | none => st.privatePools
      | some owner => (st.modifyPrivatePool owner fun p =>
          { p with topsMallocCount := p.topsMallocCount - 1 }).privatePools := by
  simp only [State.released]
  split <;> rfl

@[simp] theorem released_nextPrivatePool :
    (st.released cfg block).nextPrivatePool = st.nextPrivatePool := by
  simp only [State.released]
  split <;> rfl

@[simp] theorem released_allocations : (st.released cfg block).allocations =
    st.allocations.filter (·.base ≠ (st.block block).ptr) := by
  simp only [State.released]
  split <;> rfl

@[simp] theorem released_activeBlocks :
    (st.released cfg block).activeBlocks = st.activeBlocks := by
  simp only [State.released]
  split <;> rfl

@[simp] theorem released_gcuEvents : (st.released cfg block).gcuEvents = st.gcuEvents := by
  simp only [State.released]
  split <;> rfl

@[simp] theorem released_nextEvent : (st.released cfg block).nextEvent = st.nextEvent := by
  simp only [State.released]
  split <;> rfl

@[simp] theorem released_graphPools : (st.released cfg block).graphPools = st.graphPools := by
  simp only [State.released]
  split <;> rfl

@[simp] theorem released_graphPoolsFreeable :
    (st.released cfg block).graphPoolsFreeable = st.graphPoolsFreeable := by
  simp only [State.released]
  split <;> rfl

@[simp] theorem released_capturesUnderway :
    (st.released cfg block).capturesUnderway = st.capturesUnderway := by
  simp only [State.released]
  split <;> rfl

@[simp] theorem released_deferred :
    (st.released cfg block).needsEventsDeferredUntilNoCapture =
      st.needsEventsDeferredUntilNoCapture := by
  simp only [State.released]
  split <;> rfl

@[simp] theorem released_history :
    (st.released cfg block).history = (st.releaseCalled block).history := by
  simp only [State.released]
  split <;> rfl

end Released

/-- What `free_block` asserts of the block it is given. -/
def Block.quiescent (block : Block) : Bool :=
  !block.allocated && block.eventCount == 0 && block.streamUses.isEmpty

/-- A neighbour that `try_merge_blocks` leaves alone. -/
def State.Apart (st : State) (neighbour : Option BlockId) : Prop :=
  ∀ src, neighbour = some src → (st.block src).busy = true

/-- What every release of a block has to respect. -/
structure Releasable (mode : Mode) (st : State) (pool : PoolRef) (block : BlockId) : Prop where
  pooled : block ∈ (st.pools pool).blocks
  unsplit : mode.whole → (st.block block).isSplit = false
  unused : mode.quiet → st.Unused pool.ownerPrivatePool

inductive Act (mode : Mode) (cfg : GCUAllocatorConfig) (rt : Runtime) :
    Hand → State → Hand → State → Prop where
  | counted (st : State) (f : DeviceCounters → DeviceCounters) :
      Act mode cfg rt .empty st .empty (st.modifyCounters f)
  | searched (st : State) (pool : PoolRef) :
      Act mode cfg rt .empty st .empty (st.modifyPool pool fun p =>
        { p with getFreeBlocksCallCount := p.getFreeBlocksCallCount + 1 })
  -- Allocation.
  | take (st : State) (params : AllocParams) (found : BlockId) (request : params.OfRequest)
      (clear : params.err = none)
      (pooled : found ∈ (st.pools params.pool).blocks)
      (stream : (st.block found).stream = params.stream)
      (fits : params.size ≤ (st.block found).size) (open_ : ¬ mode.spares found)
      (oversize : ¬ (params.size < cfg.maxSplitSize ∧ cfg.maxSplitSize ≤ (st.block found).size)) :
      Act mode cfg rt .empty st (.taken { params with block := some found } found)
        (st.modifyPool params.pool fun p => { p with blocks := p.blocks.filter (· ≠ found) })
  | obtain (st : State) (params : AllocParams) (ptr : Nat) (request : params.OfRequest)
      (fresh : Fresh st.allocations ptr params.allocSize)
      (owned : ∀ owner, params.pool.ownerPrivatePool = some owner →
        owner ∈ st.graphPools.map (·.2)) (spends : ¬ mode.frugal) :
      Act mode cfg rt .empty st
        (.taken { params with block := some st.nextBlock, err := none } st.nextBlock)
        (st.newSegment cfg params ptr)
  | pick (st : State) (params : AllocParams) (curr : BlockId)
      (chosen : params.block = some curr) (clear : params.err = none)
      (live : st.Live curr) (idle : (st.block curr).busy = false)
      (inactive : curr ∉ st.activeBlocks) (pool : (st.block curr).pool = params.pool)
      (open_ : ¬ mode.spares curr) (word : params.size < 2 ^ 64)
      (exact : mode.exact → curr ∈ (st.pools params.pool).blocks ∧
        (st.block curr).stream = params.stream ∧ params.size ≤ (st.block curr).size) :
      Act mode cfg rt .empty st (.taken params curr) (st.eraseFromBlocks params.pool curr)
  | unpool (st : State) (pool : PoolRef) (curr : BlockId) (dead : ¬ st.Live curr) :
      Act mode cfg rt .empty st .empty (st.eraseFromBlocks pool curr)
  | carve (st : State) (params : AllocParams) (found : BlockId)
      (cut : shouldSplit cfg (st.block found) params.size = true ∨
        mode.cut (st.block found) params.size) :
      Act mode cfg rt (.taken params found) st (.ready params st.nextBlock)
        (st.carved params found)
  | keep (st : State) (params : AllocParams) (found : BlockId) :
      Act mode cfg rt (.taken params found) st (.ready params found) (st.kept params found)
  | handOut (st : State) (params : AllocParams) (origSize : Nat) (block : BlockId) :
      Act mode cfg rt (.ready params block) st .empty (st.handedOut cfg params origSize block)
  | dropTaken (st : State) (params : AllocParams) (found : BlockId)
      (null : params.err ≠ none ∨ (st.block found).ptr = 0) :
      Act mode cfg rt (.taken params found) st .empty st
  -- Freeing.
  | giveUp (st : State) (block : BlockId) (live : st.Live block)
      (exact : mode.exact → (st.block block).allocated = true) :
      Act mode cfg rt .empty st (.givenUp block) (st.givenUp cfg block)
  | free (st : State) (block : BlockId) (unused : (st.block block).streamUses = []) :
      Act mode cfg rt (.givenUp block) st (.freeing block) st
  | defer (st : State) (block : BlockId) (used : (st.block block).streamUses ≠ []) :
      Act mode cfg rt (.givenUp block) st .empty (st.deferred block)
  | dropGivenUp (st : State) (block : BlockId) (used : (st.block block).streamUses ≠ []) :
      Act mode cfg rt (.givenUp block) st .empty st
  | record (st : State) (block : BlockId) (used : (st.block block).streamUses ≠ []) :
      Act mode cfg rt (.givenUp block) st (.recording block (st.block block).streamUses)
        (st.usesTaken block)
  | recordDeferred (st : State) (block : BlockId)
      (waiting : block ∈ st.needsEventsDeferredUntilNoCapture)
      (used : (st.block block).streamUses ≠ []) :
      Act mode cfg rt .empty st (.recording block (st.block block).streamUses)
        (st.usesTaken block)
  | push (st : State) (block : BlockId) (stream : GCUStream) (streams : List GCUStream) :
      Act mode cfg rt (.recording block (stream :: streams)) st (.recording block streams)
        (st.pushEvent stream block)
  | recorded (st : State) (block : BlockId) :
      Act mode cfg rt (.recording block []) st .empty st
  | dropRecording (st : State) (block : BlockId) (streams : List GCUStream)
      (failed : ¬ mode.steady) :
      Act mode cfg rt (.recording block streams) st .empty st
  | forgetDeferred (st : State) :
      Act mode cfg rt .empty st .empty { st with needsEventsDeferredUntilNoCapture := [] }
  | startMerging (st : State) (block : BlockId) (idle : (st.block block).quiescent = true) :
      Act mode cfg rt (.freeing block) st
        (.merging block (st.block block) (.pending (st.block block).prev)
          (.pending (st.block block).next)) st
  | dropFreeing (st : State) (block : BlockId) (active : (st.block block).quiescent = false) :
      Act mode cfg rt (.freeing block) st .empty st
  | passLeft (st : State) (block : BlockId) (origin : Block) (src : Option BlockId) (right : Side)
      (apart : st.Apart src) :
      Act mode cfg rt (.merging block origin (.pending src) right) st
        (.merging block origin (.merged 0) right) st
  | mergeLeft (st : State) (block : BlockId) (origin : Block) (src : BlockId) (right : Side)
      (idle : (st.block src).busy = false) (split : (st.block src).isSplit = true) :
      Act mode cfg rt (.merging block origin (.pending (some src)) right) st
        (.merging block origin (.merged (st.block src).size) right)
        (st.mergeBlocks block src origin.pool)
  | passRight (st : State) (block : BlockId) (origin : Block) (src : Option BlockId) (left : Nat)
      (apart : st.Apart src) :
      Act mode cfg rt (.merging block origin (.merged left) (.pending src)) st
        (.merging block origin (.merged left) (.merged 0)) st
  | mergeRight (st : State) (block : BlockId) (origin : Block) (src : BlockId) (left : Nat)
      (idle : (st.block src).busy = false) (split : (st.block src).isSplit = true) :
      Act mode cfg rt (.merging block origin (.merged left) (.pending (some src))) st
        (.merging block origin (.merged left) (.merged (st.block src).size))
        (st.mergeBlocks block src origin.pool)
  | dropMerging (st : State) (block : BlockId) (origin : Block) (left right : Side)
      (src : BlockId) (side : left = .pending (some src) ∨ right = .pending (some src))
      (unsplit : (st.block block).isSplit = false ∨ (st.block src).isSplit = false) :
      Act mode cfg rt (.merging block origin left right) st .empty st
  | settle (st : State) (block : BlockId) (origin : Block) (left right : Nat)
      (inserted : ((st.eraseActive block).insertIntoBlocks origin.pool block).2 = true) :
      Act mode cfg rt (.merging block origin (.merged left) (.merged right)) st .empty
        (st.settled block origin left right)
  | dropSettling (st : State) (block : BlockId) (origin : Block) (left right : Nat)
      (refused : ((st.eraseActive block).insertIntoBlocks origin.pool block).2 = false) :
      Act mode cfg rt (.merging block origin (.merged left) (.merged right)) st .empty
        ((st.eraseActive block).insertIntoBlocks origin.pool block).1
  -- Events.
  | complete (st : State) (e : PendingEvent) (event : EventId) (queued : e ∈ st.gcuEvents)
      (pending : e.event = some event)
      (last : ((st.eventCompleted e event).block e.block).eventCount = 0) :
      Act mode cfg rt .empty st (.freeing e.block) (st.eventCompleted e event)
  | completeMore (st : State) (e : PendingEvent) (event : EventId) (queued : e ∈ st.gcuEvents)
      (pending : e.event = some event)
      (more : ((st.eventCompleted e event).block e.block).eventCount ≠ 0) :
      Act mode cfg rt .empty st .empty (st.eventCompleted e event)
  | lose (st : State) (event : EventId) :
      Act mode cfg rt .empty st .empty (st.takeEvent event)
  | popFront (st : State) (stream : GCUStream) :
      Act mode cfg rt .empty st .empty (st.popFront stream)
  | clearEvents (st : State) :
      Act mode cfg rt .empty st .empty { st with gcuEvents := [] }
  -- Giving memory back.
  | release (st : State) (pool : PoolRef) (block : BlockId)
      (may : Releasable mode st pool block) (freed : rt.topsFree (st.block block).ptr = none)
      (counted : ∀ owner, (st.block block).pool.ownerPrivatePool = some owner →
        0 < st.topsMallocCount owner) :
      Act mode cfg rt .empty st .empty (st.released cfg block)
  | releaseFailed (st : State) (pool : PoolRef) (block : BlockId)
      (may : Releasable mode st pool block) (failed : rt.topsFree (st.block block).ptr ≠ none) :
      Act mode cfg rt .empty st .empty (st.releaseCalled block)
  | releaseStuck (st : State) (pool : PoolRef) (block : BlockId)
      (may : Releasable mode st pool block) (owner : PrivatePoolId)
      (owned : (st.block block).pool.ownerPrivatePool = some owner)
      (uncounted : st.topsMallocCount owner ≤ 0) :
      Act mode cfg rt .empty st .empty (st.memoryReturned block)
  -- Private pools.
  | erasePool (st : State) (id : MempoolId) (owner pool : PrivatePoolId)
      (freeable : (id, owner) ∈ st.graphPoolsFreeable) (vacant : st.topsMallocCount owner = 0)
      (present : State.findPool st.graphPools id = some pool) (moves : ¬ mode.still) :
      Act mode cfg rt .empty st .empty ((st.poolErased id (some pool)).poolForgotten id)
  | eraseMissing (st : State) (id : MempoolId) (absent : State.findPool st.graphPools id = none)
      (moves : ¬ mode.still) :
      Act mode cfg rt .empty st .empty (st.poolErased id none)
  | openPool (st : State) (id : MempoolId) (absent : State.findPool st.graphPools id = none)
      (moves : ¬ mode.still) (calls : ¬ mode.serving) :
      Act mode cfg rt .empty st .empty (st.poolOpened id)
  | sharePool (st : State) (id : MempoolId) (pool : PrivatePoolId)
      (present : State.findPool st.graphPools id = some pool)
      (used : 0 < ((st.privatePools pool).getD {}).useCount) (moves : ¬ mode.still) (calls : ¬ mode.serving) :
      Act mode cfg rt .empty st .empty (st.poolShared pool)
  | beginCapture (st : State) (id : MempoolId) (pool : PrivatePoolId) (filter : StreamId → Bool)
      (present : State.findPool st.graphPools id = some pool) (moves : ¬ mode.still) (calls : ¬ mode.serving) :
      Act mode cfg rt .empty st .empty (st.captureBegun id pool filter)
  | endCapture (st : State) (id : MempoolId) (moves : ¬ mode.still) (calls : ¬ mode.serving) :
      Act mode cfg rt .empty st .empty (st.captureEnded id)
  | dropUse (st : State) (id : MempoolId) (pool : PrivatePoolId)
      (present : State.findPool st.graphPools id = some pool) (moves : ¬ mode.still) (calls : ¬ mode.serving) :
      Act mode cfg rt .empty st .empty (st.useDropped pool)
  | markFreeable (st : State) (id : MempoolId) (pool : PrivatePoolId)
      (present : State.findPool st.graphPools id = some pool)
      (absent : State.findPool st.graphPoolsFreeable id = none)
      (unused : ((st.privatePools pool).getD {}).useCount = 0) (moves : ¬ mode.still) (calls : ¬ mode.serving) :
      Act mode cfg rt .empty st .empty (st.poolFreeable id pool)
  | logReleased (st : State) (pool : PrivatePoolId) (calls : ¬ mode.serving) :
      Act mode cfg rt .empty st .empty (st.log (.poolReleased pool))
  -- The client.
  | use (st : State) (block : BlockId) (stream : GCUStream)
      (allocated : (st.block block).allocated = true)
      (other : stream.stream ≠ (st.block block).stream) :
      Act mode cfg rt .empty st .empty (st.modifyBlock block fun b =>
        { b with
          streamUses := if stream ∈ b.streamUses then b.streamUses else b.streamUses ++ [stream] })
  | limit (st : State) (allowed : Nat) (spends : ¬ mode.frugal) :
      Act mode cfg rt .empty st .empty
        { st with allowedMemoryMaximum := allowed, setFraction := true }

/-- What an action may add to the history. -/
inductive Logs (mode : Mode) (h : Hand) (st : State) : Event → Prop where
  | allocBlock (params : AllocParams) (ptr : Nat) (spends : ¬ mode.frugal) :
      Logs mode h st (.allocBlock ⟨ptr, params.allocSize⟩
        (sizeAdd st.totalAllocatedMemory params.allocSize)
        (if st.setFraction then some st.allowedMemoryMaximum else none))
  | releaseBlock (pool : PoolRef) (block : BlockId) (may : Releasable mode st pool block) :
      Logs mode h st (.releaseBlock (st.releaseCall block))
  | freeRequested (block : BlockId) (live : st.Live block) :
      Logs mode h st (.freeRequested ⟨(st.block block).ptr, (st.block block).size⟩
        (st.block block).streamUses)
  | recorded (block : BlockId) (stream : GCUStream) (streams : List GCUStream)
      (recording : h = .recording block (stream :: streams)) :
      Logs mode h st (.recorded st.nextEvent stream)
  | completed (e : PendingEvent) (event : EventId) (queued : e ∈ st.gcuEvents)
      (pending : e.event = some event) : Logs mode h st (.completed event)
  | poolBegun (pool : PrivatePoolId) (calls : ¬ mode.serving) : Logs mode h st (.poolBegun pool)
  | poolReleased (pool : PrivatePoolId) (calls : ¬ mode.serving) :
      Logs mode h st (.poolReleased pool)

/-- An action adds at most one event to the history. -/
theorem Act.history {mode : Mode} {cfg : GCUAllocatorConfig} {rt : Runtime} {h h' : Hand}
    {st st' : State} (act : Act mode cfg rt h st h' st') :
    st'.history = st.history ∨ ∃ event, Logs mode h st event ∧ st'.history = event :: st.history := by
  cases act with
  | obtain _ params ptr request fresh owned spends =>
    exact .inr ⟨_, .allocBlock params ptr spends, newSegment_history st cfg params ptr⟩
  | carve _ params found cut => exact .inl (carved_local st params found).history
  | keep _ params found => exact .inl (kept_local st params found).history
  | giveUp _ block live exact => exact .inr ⟨_, .freeRequested block live, rfl⟩
  | push _ block stream streams => exact .inr ⟨_, .recorded block stream streams rfl, rfl⟩
  | mergeLeft _ block origin src right idle split =>
    exact .inl (mergeBlocks_local st block src origin.pool).history
  | mergeRight _ block origin src left idle split =>
    exact .inl (mergeBlocks_local st block src origin.pool).history
  | settle _ block origin left right inserted =>
    exact .inl (settled_local st block origin left right).history
  | dropSettling _ block origin left right refused =>
    exact .inl (insertIntoBlocks_local (st.eraseActive block) origin.pool block).history
  | complete _ e event queued pending last => exact .inr ⟨_, .completed e event queued pending, rfl⟩
  | completeMore _ e event queued pending more =>
    exact .inr ⟨_, .completed e event queued pending, rfl⟩
  | release _ pool block may freed counted =>
    exact .inr ⟨_, .releaseBlock pool block may, released_history st cfg block⟩
  | releaseFailed _ pool block may failed => exact .inr ⟨_, .releaseBlock pool block may, rfl⟩
  | releaseStuck _ pool block may owner owned uncounted =>
    exact .inr ⟨_, .releaseBlock pool block may, rfl⟩
  | beginCapture _ id pool filter present moves calls => exact .inr ⟨_, .poolBegun pool calls, rfl⟩
  | logReleased _ pool calls => exact .inr ⟨_, .poolReleased pool calls, rfl⟩
  | _ => exact .inl rfl

/-- An assertion about the hand and the state that no action breaks. -/
def Closed (mode : Mode) (cfg : GCUAllocatorConfig) (rt : Runtime) (P : Hand → State → Prop) :
    Prop :=
  ∀ ⦃h st h' st'⦄, P h st → Act mode cfg rt h st h' st' → P h' st'

/-- A computation that begins and ends, also by raising, with an empty hand. -/
def Keeps {α : Type} (P : Hand → State → Prop) (m : M α) : Prop :=
  ∀ st, P .empty st → wp m (fun _ st' => P .empty st') (fun _ st' => P .empty st') st

end TorchGcu.GCUCachingAllocator

import TorchGcu.CachingAllocator.Config
import Mathlib.Logic.Function.Basic
import Mathlib.Data.List.Sort

/-! Data of one `DeviceCachingAllocator`. Blocks, private pools and events are named
by numbers that are never reused; a `Block*` is a `BlockId`, and `blocks b = none`
says that no object lives at `b` (not yet created, or deleted). A `BlockPool*` is a
`PoolRef`: the owning private pool, if any, and which of its two pools is meant. -/
namespace TorchGcu.GCUCachingAllocator

abbrev StreamId := Nat
abbrev DeviceIndex := Nat
abbrev BlockId := Nat
abbrev EventId := Nat
abbrev PrivatePoolId := Nat
abbrev MempoolId := Nat × Nat

structure GCUStream where
  deviceIndex : DeviceIndex
  stream : StreamId
deriving DecidableEq, Repr

structure PoolRef where
  ownerPrivatePool : Option PrivatePoolId := none
  isSmall : Bool
deriving DecidableEq, Repr

/-- Error codes of the tops runtime; success is the absence of a code. -/
inductive TopsError where
  | memoryAllocation
  | notReady
  | other (code : Nat)
deriving DecidableEq, Repr

/-- What a call raises. The last two are no exceptions of the source: they mark a
dereferenced null event and a block handed to an allocator that does not own it. -/
inductive Err where
  | torchCheck (message : String)
  | internalAssert (message : String)
  | gcuError (error : TopsError)
  | outOfRange
  | outOfMemory (allocSize deviceTotal deviceFree : Nat)
  | nullEvent
  | foreignBlock
deriving DecidableEq, Repr

/-! ### Statistics -/

inductive StatType where
  | aggregate
  | smallPool
  | largePool
deriving DecidableEq, Repr

/-- `debugAssert` is the outcome so far of the debug-only assertion in
`decrease_stat` that `current` has not become negative. -/
structure Stat where
  current : Int := 0
  peak : Int := 0
  allocated : Int := 0
  freed : Int := 0
  debugAssert : Bool := true
deriving DecidableEq, Repr

def increaseStat (stat : Stat) (amount : Int) : Stat :=
  { stat with
    current := stat.current + amount
    peak := max (stat.current + amount) stat.peak
    allocated := stat.allocated + amount }

def decreaseStat (stat : Stat) (amount : Int) : Stat :=
  { stat with
    current := stat.current - amount
    debugAssert := stat.debugAssert && decide (0 ≤ stat.current - amount)
    freed := stat.freed + amount }

abbrev StatArray := StatType → Stat
abbrev StatTypes := StatType → Bool

def increaseStatArray (stats : StatArray) (amount : Int) (types : StatTypes) : StatArray :=
  fun t => if types t then increaseStat (stats t) amount else stats t

def decreaseStatArray (stats : StatArray) (amount : Int) (types : StatTypes) : StatArray :=
  fun t => if types t then decreaseStat (stats t) amount else stats t

/-- The call counters of `DeviceStats`. -/
structure DeviceCounters where
  numAllocRetries : Int := 0
  numOoms : Int := 0
  numSyncAllStreams : Int := 0
  numDeviceAlloc : Int := 0
  numDeviceFree : Int := 0

structure DeviceStats extends DeviceCounters where
  allocation : StatArray := fun _ => {}
  segment : StatArray := fun _ => {}
  active : StatArray := fun _ => {}
  inactiveSplit : StatArray := fun _ => {}
  allocatedBytes : StatArray := fun _ => {}
  reservedBytes : StatArray := fun _ => {}
  activeBytes : StatArray := fun _ => {}
  inactiveSplitBytes : StatArray := fun _ => {}
  requestedBytes : StatArray := fun _ => {}
  oversizeAllocations : Stat := {}
  oversizeSegments : Stat := {}

def getStatTypesForPool (pool : PoolRef) : StatTypes
  | .aggregate => true
  | .smallPool => pool.isSmall
  | .largePool => !pool.isSmall

/-! ### Blocks and pools -/

structure Block where
  device : DeviceIndex := 0
  stream : StreamId := 0
  streamUses : List GCUStream := []
  size : Nat := 0
  requestedSize : Nat := 0
  pool : PoolRef := { isSmall := false }
  ptr : Nat := 0
  allocated : Bool := false
  prev : Option BlockId := none
  next : Option BlockId := none
  eventCount : Int := 0
  gcCountBase : Int := 0
deriving DecidableEq, Repr

instance : Inhabited Block := ⟨{}⟩

def Block.isSplit (block : Block) : Bool := block.prev.isSome || block.next.isSome

/-- The test of `try_merge_blocks` and of `snapshot`: not yet ready to be cached. -/
def Block.busy (block : Block) : Bool :=
  block.allocated || decide (0 < block.eventCount) || !block.streamUses.isEmpty

/-- `BlockComparatorSize`: by stream, then size, then address. -/
def blockComparatorSize (a b : Block) : Bool :=
  if a.stream ≠ b.stream then decide (a.stream < b.stream)
  else if a.size ≠ b.size then decide (a.size < b.size)
  else decide (a.ptr < b.ptr)

/-- Two keys a `std::set` cannot tell apart. -/
def equivalentKeys (a b : Block) : Bool := !blockComparatorSize a b && !blockComparatorSize b a

structure BlockPool where
  blocks : List BlockId := []
  getFreeBlocksCallCount : Int := 0

structure PrivatePool where
  useCount : Int := 1
  topsMallocCount : Int := 0
deriving DecidableEq, Repr

/-- One pair of `gcu_events`: the queue it is in, its event (`none` once moved out),
and the block that waits for it. -/
structure PendingEvent where
  stream : GCUStream
  event : Option EventId
  block : BlockId
deriving DecidableEq, Repr

/-! ### The device below -/

structure Range where
  base : Nat
  size : Nat
deriving DecidableEq, Repr

/-- Where a fresh allocation may lie: not at null, with its end an address too, and
outside every range that is still allocated. -/
def Fresh (live : List Range) (ptr : Nat) (size : Nat) : Prop :=
  0 < ptr ∧ 0 < size ∧ ptr + size < 2 ^ 64 ∧
    ∀ range ∈ live, ptr + size ≤ range.base ∨ range.base + range.size ≤ ptr

instance (live : List Range) (ptr : Nat) (size : Nat) : Decidable (Fresh live ptr size) :=
  inferInstanceAs (Decidable (_ ∧ _ ∧ _ ∧ _))

/-- The answers of the tops runtime, and of the registered callbacks, during one
operation. A successful `topsMalloc` is of more than zero bytes and answers with a fresh
address; the iteration orders of the hash containers are permutations. Everything else is arbitrary. -/
structure Runtime where
  topsGetLastError : Nat → Option TopsError := fun _ => none
  topsMalloc : Nat → List Range → Nat → Except TopsError Nat
  topsMalloc_fresh : ∀ call live size ptr,
    topsMalloc call live size = .ok ptr → Fresh live ptr size
  topsFree : Nat → Option TopsError := fun _ => none
  topsMemGetInfo : Except TopsError (Nat × Nat) := .ok (0, 0)
  topsEventQuery : EventId → Option TopsError := fun _ => none
  topsEventSynchronize : EventId → Option TopsError := fun _ => none
  getDevice : Option TopsError := none
  setDevice : DeviceIndex → Option TopsError := fun _ => none
  createEvent : DeviceIndex → Option TopsError := fun _ => none
  topsEventRecord : EventId → Option TopsError := fun _ => none
  maybeSetDevice : Option TopsError := none
  freeMemoryCallbacks : List (List BlockId × Bool) := []
  streamOrder : List GCUStream → List GCUStream := id
  streamOrder_perm : ∀ l, (streamOrder l).Perm l := by exact fun l => .refl l
  blockOrder : List BlockId → List BlockId := id
  blockOrder_perm : ∀ l, (blockOrder l).Perm l := by exact fun l => .refl l
  poolOrder : List (MempoolId × PrivatePoolId) → List (MempoolId × PrivatePoolId) := id
  poolOrder_perm : ∀ l, (poolOrder l).Perm l := by exact fun l => .refl l

/-- A call of `release_block`: the block as it was then, whether its pool held it,
whether its address was the start of a live allocation, and the use count of the
private pool it came from. -/
structure ReleaseCall where
  block : Block
  pooled : Bool
  whole : Bool
  useCount : Option Int
deriving DecidableEq, Repr

/-- The history the temporal statements speak about, newest first. -/
inductive Event where
  | allocBlock (range : Range) (total : Nat) (limit : Option Nat)
  | releaseBlock (call : ReleaseCall)
  | freeRequested (range : Range) (streams : List GCUStream)
  | recorded (event : EventId) (stream : GCUStream)
  | completed (event : EventId)
  | poolBegun (pool : PrivatePoolId)
  | poolReleased (pool : PrivatePoolId)
deriving DecidableEq, Repr

/-- The members of `DeviceCachingAllocator`, the device's live allocations and the
history. -/
structure State where
  stats : DeviceStats := {}
  blocks : BlockId → Option Block := fun _ => none
  nextBlock : BlockId := 0
  pools : PoolRef → BlockPool := fun _ => {}
  activeBlocks : List BlockId := []
  capturesUnderway : List (MempoolId × (StreamId → Bool)) := []
  needsEventsDeferredUntilNoCapture : List BlockId := []
  gcuEvents : List PendingEvent := []
  nextEvent : EventId := 0
  totalAllocatedMemory : Nat := 0
  allowedMemoryMaximum : Nat := 0
  setFraction : Bool := false
  privatePools : PrivatePoolId → Option PrivatePool := fun _ => none
  nextPrivatePool : PrivatePoolId := 0
  graphPools : List (MempoolId × PrivatePoolId) := []
  graphPoolsFreeable : List (MempoolId × PrivatePoolId) := []
  allocations : List Range := []
  history : List Event := []

/-- An operation ends normally or raises; the state it has reached stays either way. -/
abbrev M := EStateM Err State

def torchCheck (condition : Bool) (message : String) : M Unit :=
  if condition then pure () else throw (.torchCheck message)

def internalAssert (condition : Bool) (message : String) : M Unit :=
  if condition then pure () else throw (.internalAssert message)

/-- `C10_GCU_CHECK`. -/
def gcuCheck (answer : Option TopsError) : M Unit :=
  match answer with
  | none => pure ()
  | some error => throw (.gcuError error)

namespace State

/-- Reading through a `Block*`; a dangling pointer reads a default block. -/
def block (st : State) (b : BlockId) : Block := (st.blocks b).getD {}

def Live (st : State) (b : BlockId) : Prop := (st.blocks b).isSome = true

instance (st : State) (b : BlockId) : Decidable (st.Live b) :=
  inferInstanceAs (Decidable (_ = true))

def modifyBlock (st : State) (b : BlockId) (f : Block → Block) : State :=
  { st with blocks := Function.update st.blocks b ((st.blocks b).map f) }

def newBlock (st : State) (block : Block) : State :=
  { st with
    blocks := Function.update st.blocks st.nextBlock (some block)
    nextBlock := st.nextBlock + 1 }

def deleteBlock (st : State) (b : BlockId) : State :=
  { st with blocks := Function.update st.blocks b none }

/-- `if (b) b->next = link`. -/
def setNext (st : State) (b : Option BlockId) (link : Option BlockId) : State :=
  match b with
  | none => st
  | some b => st.modifyBlock b fun block => { block with next := link }

/-- `if (b) b->prev = link`. -/
def setPrev (st : State) (b : Option BlockId) (link : Option BlockId) : State :=
  match b with
  | none => st
  | some b => st.modifyBlock b fun block => { block with prev := link }

def modifyPool (st : State) (pool : PoolRef) (f : BlockPool → BlockPool) : State :=
  { st with pools := Function.update st.pools pool (f (st.pools pool)) }

/-- `pool.blocks.erase(b)`: the element whose key is that of `b`. -/
def eraseFromBlocks (st : State) (pool : PoolRef) (b : BlockId) : State :=
  st.modifyPool pool fun p =>
    { p with blocks := p.blocks.filter fun x => !equivalentKeys (st.block x) (st.block b) }

/-- `BlockPool::insert_into_blocks`. The set is ordered by the comparator, and an
insertion next to an equivalent element does nothing. -/
def insertIntoBlocks (st : State) (pool : PoolRef) (b : BlockId) : State × Bool :=
  let st := st.modifyBlock b fun block =>
    { block with gcCountBase := (st.pools pool).getFreeBlocksCallCount }
  if (st.pools pool).blocks.any fun x => equivalentKeys (st.block x) (st.block b) then (st, false)
  else
    (st.modifyPool pool fun p =>
      { p with
        blocks := p.blocks.orderedInsert
          (fun x y => blockComparatorSize (st.block x) (st.block y) = true) b }, true)

def insertActive (st : State) (b : BlockId) : State :=
  { st with activeBlocks := if b ∈ st.activeBlocks then st.activeBlocks else b :: st.activeBlocks }

def eraseActive (st : State) (b : BlockId) : State :=
  { st with activeBlocks := st.activeBlocks.filter (· ≠ b) }

def modifyStats (st : State) (f : DeviceStats → DeviceStats) : State :=
  { st with stats := f st.stats }

def modifyCounters (st : State) (f : DeviceCounters → DeviceCounters) : State :=
  { st with stats := { st.stats with toDeviceCounters := f st.stats.toDeviceCounters } }

def log (st : State) (event : Event) : State := { st with history := event :: st.history }

def modifyPrivatePool (st : State) (pool : PrivatePoolId) (f : PrivatePool → PrivatePool) :
    State :=
  { st with
    privatePools := Function.update st.privatePools pool ((st.privatePools pool).map f) }

/-- `pool.owner_PrivatePool->use_count`, for a pool that has an owner. -/
def useCount (st : State) (pool : PoolRef) : Option Int :=
  pool.ownerPrivatePool.bind fun owner => (st.privatePools owner).map (·.useCount)

def findPool (pools : List (MempoolId × PrivatePoolId)) (id : MempoolId) : Option PrivatePoolId :=
  (pools.find? (·.1 = id)).map (·.2)

end State

end TorchGcu.GCUCachingAllocator

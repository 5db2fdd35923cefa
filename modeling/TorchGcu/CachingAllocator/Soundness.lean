import TorchGcu.CachingAllocator.PrivatePools
import TorchGcu.CachingAllocator.Segments
import TorchGcu.CachingAllocator.Requests

/-! The representation invariant that survives every action: the segments, the pool sets,
the events that are still awaited and the tables of private pools. -/
namespace TorchGcu.GCUCachingAllocator

/-- A pool set holds live idle blocks of that pool. -/
def Pooled (blocks : BlockId → Option Block) (pools : PoolRef → BlockPool) : Prop :=
  ∀ pool, ∀ b ∈ (pools pool).blocks,
    ∃ k, blocks b = some k ∧ k.pool = pool ∧ k.busy = false

def pendingCount (events : List PendingEvent) (b : BlockId) : Nat :=
  events.countP fun e => e.event.isSome && decide (e.block = b)

/-- No event is queued twice, and none is newer than the last that was recorded. -/
structure Queued (events : List PendingEvent) (nextEvent : EventId) : Prop where
  distinct : (events.filterMap (·.event)).Nodup
  bound : ∀ event ∈ events.filterMap (·.event), event < nextEvent

/-- A block waits for at least the events that are queued for it. -/
structure Waiting (blocks : BlockId → Option Block) (events : List PendingEvent)
    (nextEvent : EventId) : Prop extends Queued events nextEvent where
  counts : ∀ b, (pendingCount events b : Int) ≤ (blockOf blocks b).eventCount

/-- A live idle block outside every pool set. -/
structure Loose (blocks : BlockId → Option Block) (pools : PoolRef → BlockPool)
    (active : List BlockId) (pool : PoolRef) (b : BlockId) : Prop where
  live : (blocks b).isSome = true
  idle : (blockOf blocks b).busy = false
  pool : (blockOf blocks b).pool = pool
  unpooled : ∀ pool, b ∉ (pools pool).blocks
  inactive : b ∉ active

/-- No block is listed twice, in one pool set or in the active blocks and a pool set. -/
structure Listed (pools : PoolRef → BlockPool) (active : List BlockId) (nextBlock : BlockId) :
    Prop where
  poolSets : ∀ pool, (pools pool).blocks.Nodup
  activeBlocks : active.Nodup
  bound : ∀ b ∈ active, b < nextBlock
  apart : ∀ pool, ∀ b ∈ (pools pool).blocks, b ∉ active

def Side.Reads (side : Side) (link : Option BlockId) : Prop :=
  ∀ neighbour, side = .pending neighbour → link = neighbour

/-- What is known of the block in the hand. -/
def HandSound (exact : Prop) (blocks : BlockId → Option Block) (pools : PoolRef → BlockPool)
    (active : List BlockId) : Hand → Prop
  | .empty => True
  | .taken params b => Loose blocks pools active params.pool b ∧ params.size < 2 ^ 64 ∧
      (exact → (blockOf blocks b).stream = params.stream ∧ params.size ≤ (blockOf blocks b).size)
  | .ready params b => Loose blocks pools active params.pool b ∧
      (exact → (blockOf blocks b).stream = params.stream ∧ params.size ≤ (blockOf blocks b).size)
  | .givenUp b => (blocks b).isSome = true
  | .freeing b => (blocks b).isSome = true
  | .merging b origin left right =>
      (blocks b).isSome = true ∧ (blockOf blocks b).quiescent = true ∧
        (blockOf blocks b).pool = origin.pool ∧ left.Reads (blockOf blocks b).prev ∧
        right.Reads (blockOf blocks b).next
  | .recording b _ => (blocks b).isSome = true ∧ ∀ pool, b ∉ (pools pool).blocks

structure Sound (exact : Prop) (h : Hand) (st : State) : Prop where
  heap : ∃ segs, Shape exact st.blocks st.nextBlock st.allocations segs ∧
    Counted st.privatePools (segs.map (·.pool))
  tables : Tables st.graphPools st.graphPoolsFreeable st.privatePools st.nextPrivatePool
  pooled : Pooled st.blocks st.pools
  listed : Listed st.pools st.activeBlocks st.nextBlock
  waiting : Waiting st.blocks st.gcuEvents st.nextEvent
  hand : HandSound exact st.blocks st.pools st.activeBlocks h

/-! ### Writing fields of one block -/

section Fields
variable {blocks : BlockId → Option Block} {b c : BlockId} {f : Block → Block}

/-- The blocks after a write through the pointer `b`. -/
def written (blocks : BlockId → Option Block) (b : BlockId) (f : Block → Block) :
    BlockId → Option Block :=
  Function.update blocks b ((blocks b).map f)

@[simp] theorem written_isSome :
    (written blocks b f c).isSome = (blocks c).isSome := by
  by_cases same : c = b
  · subst same
    simp [written]
  · simp [written, same]

theorem written_self (live : (blocks b).isSome = true) :
    blockOf (written blocks b f) b = f (blockOf blocks b) := by
  obtain ⟨k, found⟩ := Option.isSome_iff_exists.mp live
  simp [blockOf, written, found]

theorem written_of_ne (differ : c ≠ b) : written blocks b f c = blocks c := by
  simp [written, differ]

theorem blockOf_written_of_ne (differ : c ≠ b) :
    blockOf (written blocks b f) c = blockOf blocks c := by
  simp [blockOf, written, differ]

theorem written_dead (dead : blocks b = none) : written blocks b f = blocks := by
  funext c
  by_cases same : c = b
  · subst same
    simp [written, dead]
  · simp [written, same]

theorem written_cell (cells : ∀ k, (f k).cell = k.cell) (c : BlockId) :
    (written blocks b f c).map Block.cell = (blocks c).map Block.cell := by
  by_cases same : c = b
  · subst same
    simp [written, Function.comp_def, cells]
  · simp [written, same]

theorem modifyBlock_isSome (st : State) :
    ((st.modifyBlock b f).blocks c).isSome = (st.blocks c).isSome := written_isSome

theorem Pooled.modify {pools : PoolRef → BlockPool} (pooled : Pooled blocks pools)
    (cells : ∀ k, (f k).cell = k.cell)
    (idle : ∀ pool, b ∈ (pools pool).blocks → (f (blockOf blocks b)).busy = false) :
    Pooled (written blocks b f) pools := by
  intro pool c member
  obtain ⟨k, found, poolEq, kIdle⟩ := pooled pool c member
  by_cases same : c = b
  · subst same
    refine ⟨f k, by simp [written, found], ?_, ?_⟩
    · rw [(sameCell (cells k)).pool, poolEq]
    · simpa [blockOf, found] using idle pool member
  · exact ⟨k, by rw [written_of_ne same, found], poolEq, kIdle⟩

theorem Waiting.modify {events : List PendingEvent} {nextEvent : EventId}
    (waiting : Waiting blocks events nextEvent) (counts : ∀ k, (f k).eventCount = k.eventCount) :
    Waiting (written blocks b f) events nextEvent where
  toQueued := waiting.toQueued
  counts c := by
    have count := waiting.counts c
    by_cases same : c = b
    · subst same
      cases found : blocks c with
      | none => rwa [written_dead found]
      | some k => rwa [written_self (by simp [found]), counts]
    · rwa [blockOf_written_of_ne same]

end Fields

/-! ### What the links leave alone -/

/-- All of a block but its links, its address, its size and its age. -/
def Block.use (b : Block) : Block :=
  { b with prev := none, next := none, size := 0, ptr := 0, gcCountBase := 0 }

/-- Blocks with one use agree in each of its parts. -/
structure SameUse (a b : Block) : Prop where
  device : a.device = b.device
  stream : a.stream = b.stream
  streamUses : a.streamUses = b.streamUses
  requestedSize : a.requestedSize = b.requestedSize
  pool : a.pool = b.pool
  allocated : a.allocated = b.allocated
  eventCount : a.eventCount = b.eventCount

theorem sameUse {a b : Block} (same : a.use = b.use) : SameUse a b where
  device := (congrArg Block.device same :)
  stream := (congrArg Block.stream same :)
  streamUses := (congrArg Block.streamUses same :)
  requestedSize := (congrArg Block.requestedSize same :)
  pool := (congrArg Block.pool same :)
  allocated := (congrArg Block.allocated same :)
  eventCount := (congrArg Block.eventCount same :)

theorem SameUse.busy {a b : Block} (same : SameUse a b) : a.busy = b.busy := by
  rw [Block.busy, Block.busy, same.allocated, same.eventCount, same.streamUses]

theorem SameUse.quiescent {a b : Block} (same : SameUse a b) : a.quiescent = b.quiescent := by
  rw [Block.quiescent, Block.quiescent, same.allocated, same.eventCount, same.streamUses]

theorem use_of_map {blocks blocks' : BlockId → Option Block} {b : BlockId}
    (same : (blocks' b).map Block.use = (blocks b).map Block.use) :
    (blocks' b).isSome = (blocks b).isSome ∧ SameUse (blockOf blocks' b) (blockOf blocks b) := by
  unfold blockOf
  cases was : blocks b <;> cases is : blocks' b <;> simp_all [sameUse]

section Uses
variable (st : State) {b : BlockId}

theorem modifyBlock_use {f : Block → Block} (c : BlockId) (same : ∀ k, (f k).use = k.use) :
    ((st.modifyBlock c f).blocks b).map Block.use = (st.blocks b).map Block.use := by
  by_cases here : b = c
  · subst here
    simp [State.modifyBlock, Function.comp_def, same]
  · simp [State.modifyBlock, here]

theorem setNext_use (link link' : Option BlockId) :
    ((st.setNext link link').blocks b).map Block.use = (st.blocks b).map Block.use := by
  cases link with
  | none => rfl
  | some c => exact modifyBlock_use st c fun _ => rfl

theorem setPrev_use (link link' : Option BlockId) :
    ((st.setPrev link link').blocks b).map Block.use = (st.blocks b).map Block.use := by
  cases link with
  | none => rfl
  | some c => exact modifyBlock_use st c fun _ => rfl

theorem insertIntoBlocks_use (pool : PoolRef) (c : BlockId) :
    ((st.insertIntoBlocks pool c).1.blocks b).map Block.use = (st.blocks b).map Block.use := by
  simp only [State.insertIntoBlocks]
  split <;> exact modifyBlock_use st c fun _ => rfl

/-- The block that `splitBlock` creates. -/
def AllocParams.newBlock (params : AllocParams) (st : State) (found : BlockId) : Block :=
  { device := params.device, stream := params.stream, size := params.size, pool := params.pool,
    ptr := (st.block found).ptr, prev := (st.block found).prev, next := some found }

theorem splitBlock_use_newBlock (params : AllocParams) (found : BlockId) :
    ((st.splitBlock params found).1.blocks b).map Block.use =
      ((st.newBlock (params.newBlock st found)).blocks b).map Block.use := by
  simp only [State.splitBlock]
  refine (insertIntoBlocks_use _ params.pool found).trans ?_
  refine (modifyBlock_use _ found ?_).trans ?_
  · exact fun _ => rfl
  exact setNext_use _ (st.block found).prev (some st.nextBlock)

theorem splitBlock_use (params : AllocParams) (found : BlockId) (old : b ≠ st.nextBlock) :
    ((st.splitBlock params found).1.blocks b).map Block.use = (st.blocks b).map Block.use := by
  rw [splitBlock_use_newBlock]
  simp [State.newBlock, old]

/-- The new block, but for its links. -/
theorem splitBlock_born (params : AllocParams) (found : BlockId) :
    ((st.splitBlock params found).1.blocks st.nextBlock).map Block.use =
      some (params.newBlock st found).use := by
  rw [splitBlock_use_newBlock]
  simp [State.newBlock]

theorem mergeBlocks_use (dst src : BlockId) (pool : PoolRef) (other : b ≠ src) :
    ((st.mergeBlocks dst src pool).blocks b).map Block.use = (st.blocks b).map Block.use := by
  simp only [State.mergeBlocks, State.deleteBlock, Function.update_of_ne other,
    State.eraseFromBlocks, State.modifyPool]
  refine (modifyBlock_use _ dst ?_).trans ?_
  · exact fun _ => rfl
  split
  · refine (setNext_use _ _ _).trans (modifyBlock_use st dst ?_)
    exact fun _ => rfl
  · refine (setPrev_use _ _ _).trans (modifyBlock_use st dst ?_)
    exact fun _ => rfl

theorem mergeBlocks_gone (dst src : BlockId) (pool : PoolRef) :
    (st.mergeBlocks dst src pool).blocks src = none := by
  simp [State.mergeBlocks, State.deleteBlock]

end Uses

/-! ### Pool sets -/

section PoolSets
variable {st : State} {pool p : PoolRef} {b x : BlockId}

theorem equivalentKeys_self (k : Block) : equivalentKeys k k = true := by
  simp [equivalentKeys, blockComparatorSize]

theorem mem_insertIntoBlocks (member : x ∈ ((st.insertIntoBlocks pool b).1.pools p).blocks) :
    x ∈ (st.pools p).blocks ∨ (x = b ∧ p = pool) := by
  simp only [State.insertIntoBlocks] at member
  split at member
  · exact .inl member
  · by_cases same : p = pool
    · subst same
      simp only [State.modifyPool, Function.update_self, List.mem_orderedInsert] at member
      rcases member with rfl | old
      · exact .inr ⟨rfl, rfl⟩
      · exact .inl old
    · simp only [State.modifyPool, Function.update_of_ne same] at member
      exact .inl member

theorem mem_eraseFromBlocks (member : x ∈ ((st.eraseFromBlocks pool b).pools p).blocks) :
    x ∈ (st.pools p).blocks ∧ (p = pool → x ≠ b) := by
  by_cases same : p = pool
  · subst same
    simp only [State.eraseFromBlocks, State.modifyPool, Function.update_self,
      List.mem_filter] at member
    refine ⟨member.1, fun _ => ?_⟩
    rintro rfl
    simp [equivalentKeys_self] at member
  · simp only [State.eraseFromBlocks, State.modifyPool, Function.update_of_ne same] at member
    exact ⟨member, fun impossible => absurd impossible same⟩

theorem setNext_pools (link link' : Option BlockId) : (st.setNext link link').pools = st.pools := by
  cases link <;> rfl

theorem setPrev_pools (link link' : Option BlockId) : (st.setPrev link link').pools = st.pools := by
  cases link <;> rfl

theorem mem_mergeBlocks {dst src : BlockId}
    (member : x ∈ ((st.mergeBlocks dst src pool).pools p).blocks) :
    x ∈ (st.pools p).blocks ∧ (p = pool → x ≠ src) := by
  simp only [State.mergeBlocks] at member
  have erased := mem_eraseFromBlocks member
  refine ⟨?_, erased.2⟩
  have old := erased.1
  split at old
  · simpa [State.modifyBlock, setNext_pools] using old
  · simpa [State.modifyBlock, setPrev_pools] using old

theorem mem_splitBlock {params : AllocParams}
    (member : x ∈ ((st.splitBlock params b).1.pools p).blocks) :
    x ∈ (st.pools p).blocks ∨ (x = b ∧ p = params.pool) := by
  simp only [State.splitBlock] at member
  have inserted := mem_insertIntoBlocks member
  refine inserted.imp (fun old => ?_) id
  simpa [State.modifyBlock, setNext_pools, State.newBlock] using old

theorem Pooled.block {blocks : BlockId → Option Block} {pools : PoolRef → BlockPool}
    (pooled : Pooled blocks pools) (member : b ∈ (pools pool).blocks) :
    (blocks b).isSome = true ∧ (blockOf blocks b).pool = pool ∧
      (blockOf blocks b).busy = false := by
  obtain ⟨k, found, poolEq, idle⟩ := pooled pool b member
  simp [blockOf, found, poolEq, idle]

theorem Pooled.of_block {blocks : BlockId → Option Block} {pools : PoolRef → BlockPool}
    (holds : ∀ pool, ∀ b ∈ (pools pool).blocks, (blocks b).isSome = true ∧
      (blockOf blocks b).pool = pool ∧ (blockOf blocks b).busy = false) : Pooled blocks pools := by
  intro pool b member
  obtain ⟨live, poolEq, idle⟩ := holds pool b member
  obtain ⟨k, found⟩ := Option.isSome_iff_exists.mp live
  simp only [blockOf, found, Option.getD_some] at poolEq idle
  exact ⟨k, found, poolEq, idle⟩

theorem Pooled.unpooled {blocks : BlockId → Option Block} {pools : PoolRef → BlockPool}
    (pooled : Pooled blocks pools) (busy : (blockOf blocks b).busy = true) (pool : PoolRef) :
    b ∉ (pools pool).blocks := by
  intro member
  simp [(pooled.block member).2.2] at busy

theorem Pooled.subset {blocks : BlockId → Option Block} {pools pools' : PoolRef → BlockPool}
    (pooled : Pooled blocks pools) (subset : ∀ pool, (pools' pool).blocks ⊆ (pools pool).blocks) :
    Pooled blocks pools' :=
  fun pool b member => pooled pool b (subset pool member)

theorem eraseFromBlocks_sublist (st : State) (pool : PoolRef) (b : BlockId) (p : PoolRef) :
    (((st.eraseFromBlocks pool b).pools p).blocks).Sublist (st.pools p).blocks := by
  by_cases same : p = pool
  · subst same
    simp only [State.eraseFromBlocks, State.modifyPool, Function.update_self]
    exact List.filter_sublist
  · simp only [State.eraseFromBlocks, State.modifyPool, Function.update_of_ne same]
    exact .refl _

theorem mergeBlocks_sublist (st : State) (dst src : BlockId) (pool p : PoolRef) :
    (((st.mergeBlocks dst src pool).pools p).blocks).Sublist (st.pools p).blocks := by
  simp only [State.mergeBlocks]
  refine (eraseFromBlocks_sublist _ pool src p).trans ?_
  split
  · simp [State.modifyBlock, setNext_pools]
  · simp [State.modifyBlock, setPrev_pools]

section Listed
variable {pools pools' : PoolRef → BlockPool} {active : List BlockId} {nextBlock nextBlock' : BlockId}

theorem Listed.sublist (listed : Listed pools active nextBlock)
    (sublist : ∀ pool, (pools' pool).blocks.Sublist (pools pool).blocks)
    (grows : nextBlock ≤ nextBlock') : Listed pools' active nextBlock' where
  poolSets pool := (listed.poolSets pool).sublist (sublist pool)
  activeBlocks := listed.activeBlocks
  bound b member := (listed.bound b member).trans_le grows
  apart pool b member := listed.apart pool b ((sublist pool).subset member)

theorem Listed.insert {st : State} (listed : Listed st.pools active nextBlock)
    (inactive : b ∉ active) (pool : PoolRef) :
    Listed (st.insertIntoBlocks pool b).1.pools active nextBlock where
  poolSets p := by
    have nodup := listed.poolSets p
    simp only [State.insertIntoBlocks]
    split
    · exact nodup
    · rename_i alone
      by_cases same : p = pool
      · subst same
        simp only [State.modifyPool, Function.update_self]
        refine (List.perm_orderedInsert _ b _).nodup_iff.mpr (List.nodup_cons.mpr ⟨?_, nodup⟩)
        intro member
        exact alone (List.any_eq_true.mpr ⟨b, member, equivalentKeys_self _⟩)
      · simp only [State.modifyPool, Function.update_of_ne same]
        exact nodup
  activeBlocks := listed.activeBlocks
  bound := listed.bound
  apart p x member := by
    rcases mem_insertIntoBlocks member with old | ⟨rfl, rfl⟩
    · exact listed.apart p x old
    · exact inactive

theorem Listed.activate {st : State} (listed : Listed st.pools st.activeBlocks nextBlock)
    (unpooled : ∀ pool, b ∉ (st.pools pool).blocks) (old : b < nextBlock) :
    Listed st.pools (st.insertActive b).activeBlocks nextBlock := by
  simp only [State.insertActive]
  split
  · exact listed
  · rename_i new
    refine ⟨listed.poolSets, List.nodup_cons.mpr ⟨new, listed.activeBlocks⟩, fun x member => ?_,
      fun p x member active => ?_⟩
    · rcases List.mem_cons.mp member with rfl | member
      · exact old
      · exact listed.bound x member
    · rcases List.mem_cons.mp active with rfl | active
      · exact unpooled p member
      · exact listed.apart p x member active

theorem Listed.deactivate {st : State} (listed : Listed st.pools st.activeBlocks nextBlock) :
    Listed st.pools (st.eraseActive b).activeBlocks nextBlock where
  poolSets := listed.poolSets
  activeBlocks := listed.activeBlocks.filter _
  bound x member := listed.bound x (List.mem_filter.mp member).1
  apart p x member active := listed.apart p x member (List.mem_filter.mp active).1

end Listed

end PoolSets

/-! ### Awaited events -/

section Events
variable {blocks : BlockId → Option Block} {events events' : List PendingEvent}
  {nextEvent event : EventId} {b : BlockId}

theorem Waiting.live (waiting : Waiting blocks events nextEvent) {e : PendingEvent}
    (queued : e ∈ events) (pending : e.event = some event) :
    (blocks e.block).isSome = true ∧ 0 < (blockOf blocks e.block).eventCount := by
  have positive : 0 < pendingCount events e.block :=
    List.countP_pos_iff.mpr ⟨e, queued, by simp [pending]⟩
  have count := waiting.counts e.block
  have some_ : 0 < (blockOf blocks e.block).eventCount := by omega
  refine ⟨?_, some_⟩
  by_contra dead
  simp [blockOf, Option.not_isSome_iff_eq_none.mp dead] at some_

theorem Waiting.congr (waiting : Waiting blocks events nextEvent)
    {blocks' : BlockId → Option Block}
    (same : ∀ b, (blockOf blocks' b).eventCount = (blockOf blocks b).eventCount) :
    Waiting blocks' events nextEvent where
  toQueued := waiting.toQueued
  counts b := by
    rw [same b]
    exact waiting.counts b

theorem Queued.sublist (queued : Queued events nextEvent) (sublist : events'.Sublist events) :
    Queued events' nextEvent where
  distinct := queued.distinct.sublist (sublist.filterMap _)
  bound event member := queued.bound event ((sublist.filterMap _).subset member)

theorem Waiting.sublist (waiting : Waiting blocks events nextEvent)
    (sublist : events'.Sublist events) : Waiting blocks events' nextEvent where
  toQueued := waiting.toQueued.sublist sublist
  counts b := by
    have fewer : pendingCount events' b ≤ pendingCount events b := sublist.countP_le
    have count := waiting.counts b
    omega

/-- The queue entries once an event has been moved out of them. -/
def withoutEvent (events : List PendingEvent) (event : EventId) : List PendingEvent :=
  events.map fun e => if e.event = some event then { e with event := none } else e

theorem withoutEvent_events :
    (withoutEvent events event).filterMap (·.event) =
      (events.filterMap (·.event)).filter (· ≠ event) := by
  induction events with
  | nil => rfl
  | cons e events ih =>
    rw [withoutEvent, List.map_cons, ← withoutEvent]
    by_cases taken : e.event = some event
    · rw [if_pos taken, List.filterMap_cons_none rfl, ih, List.filterMap_cons_some taken,
        List.filter_cons_of_neg (by simp)]
    · rw [if_neg taken]
      cases other : e.event with
      | none => rw [List.filterMap_cons_none other, List.filterMap_cons_none other, ih]
      | some event' =>
        have differ : event' ≠ event := fun same => taken (by rw [other, same])
        rw [List.filterMap_cons_some other, List.filterMap_cons_some other, ih,
          List.filter_cons_of_pos (by simpa using differ)]

theorem withoutEvent_count_le (events : List PendingEvent) (event : EventId) (b : BlockId) :
    pendingCount (withoutEvent events event) b ≤ pendingCount events b := by
  rw [pendingCount, withoutEvent, List.countP_map]
  refine List.countP_mono_left fun e _ counted => ?_
  simp only [Function.comp_apply] at counted
  split at counted
  · simp at counted
  · exact counted

theorem withoutEvent_count_lt {e : PendingEvent} (queued : e ∈ events)
    (pending : e.event = some event) :
    pendingCount (withoutEvent events event) e.block + 1 ≤ pendingCount events e.block := by
  obtain ⟨left, right, rfl⟩ := List.append_of_mem queued
  have fewerLeft := withoutEvent_count_le left event e.block
  have fewerRight := withoutEvent_count_le right event e.block
  simp only [pendingCount, withoutEvent, List.map_append, List.map_cons, List.countP_append]
    at fewerLeft fewerRight ⊢
  rw [if_pos pending, List.countP_cons_of_neg (by simp), List.countP_cons_of_pos (by simp [pending])]
  omega

theorem Queued.lose (queued : Queued events nextEvent) (event : EventId) :
    Queued (withoutEvent events event) nextEvent where
  distinct := by
    rw [withoutEvent_events]
    exact queued.distinct.sublist List.filter_sublist
  bound event' member := by
    rw [withoutEvent_events] at member
    exact queued.bound event' (List.mem_filter.mp member).1

theorem Waiting.lose (waiting : Waiting blocks events nextEvent) (event : EventId) :
    Waiting blocks (withoutEvent events event) nextEvent where
  toQueued := waiting.toQueued.lose event
  counts b := by
    have fewer := withoutEvent_count_le events event b
    have count := waiting.counts b
    omega

theorem Waiting.complete (waiting : Waiting blocks events nextEvent) {e : PendingEvent}
    (queued : e ∈ events) (pending : e.event = some event) :
    Waiting (written blocks e.block fun b => { b with eventCount := b.eventCount - 1 })
      (withoutEvent events event) nextEvent where
  toQueued := waiting.toQueued.lose event
  counts c := by
    by_cases same : c = e.block
    · subst same
      rw [written_self (waiting.live queued pending).1]
      have fewer := withoutEvent_count_lt queued pending
      have count := waiting.counts e.block
      simp only
      omega
    · rw [blockOf_written_of_ne same]
      exact (waiting.lose event).counts c

theorem Queued.push (queued : Queued events nextEvent) (stream : GCUStream) (b : BlockId) :
    Queued (events ++ [⟨stream, some nextEvent, b⟩]) (nextEvent + 1) where
  distinct := by
    rw [List.filterMap_append]
    refine List.nodup_append'.mpr ⟨queued.distinct, by simp, ?_⟩
    intro event old new
    obtain rfl : event = nextEvent := by simpa using new
    exact (queued.bound event old).ne rfl
  bound event member := by
    rw [List.filterMap_append] at member
    rcases List.mem_append.mp member with old | new
    · exact (queued.bound event old).trans (Nat.lt_succ_self _)
    · obtain rfl : event = nextEvent := by simpa using new
      exact Nat.lt_succ_self _

theorem Waiting.push (waiting : Waiting blocks events nextEvent) (live : (blocks b).isSome = true)
    (stream : GCUStream) :
    Waiting (written blocks b fun b => { b with eventCount := b.eventCount + 1 })
      (events ++ [⟨stream, some nextEvent, b⟩]) (nextEvent + 1) where
  toQueued := waiting.toQueued.push stream b
  counts c := by
    rw [pendingCount, List.countP_append, ← pendingCount]
    have count := waiting.counts c
    by_cases same : c = b
    · subst same
      rw [written_self live]
      simp
      omega
    · rw [blockOf_written_of_ne same]
      simpa [Ne.symm same] using count

/-- A dead block waits for nothing. -/
theorem Waiting.delete (waiting : Waiting blocks events nextEvent)
    (idle : (blockOf blocks b).busy = false) {blocks' : BlockId → Option Block}
    (gone : blocks' b = none)
    (same : ∀ c, c ≠ b → (blockOf blocks' c).eventCount = (blockOf blocks c).eventCount) :
    Waiting blocks' events nextEvent where
  toQueued := waiting.toQueued
  counts c := by
    by_cases here : c = b
    · subst here
      have count := waiting.counts c
      have none_ : (blockOf blocks c).eventCount ≤ 0 := by
        simp only [Block.busy, Bool.or_eq_false_iff, decide_eq_false_iff_not] at idle
        omega
      simp only [blockOf, gone, Option.getD_none]
      omega
    · rw [same c here]
      exact waiting.counts c

end Events

theorem Shape.next_dead {exact : Prop} {blocks : BlockId → Option Block} {nextBlock : BlockId}
    {allocations : List Range} {segs : List Segment}
    (shape : Shape exact blocks nextBlock allocations segs) : blocks nextBlock = none := by
  by_contra alive
  exact (shape.bound nextBlock (Option.isSome_iff_ne_none.mpr alive)).ne rfl

/-! ### The actions keep the invariant -/

namespace Sound
variable {exact : Prop} {cfg : GCUAllocatorConfig} {h h' : Hand} {st st' : State}

/-- Nothing the invariant speaks about has changed, but for the hand. -/
theorem regrip (sound : Sound exact h st) (hand : HandSound exact st.blocks st.pools st.activeBlocks h') :
    Sound exact h' st :=
  ⟨sound.heap, sound.tables, sound.pooled, sound.listed, sound.waiting, hand⟩

theorem release_hand (sound : Sound exact h st) : Sound exact .empty st := sound.regrip trivial

/-- Fields outside the cell of one block are written. -/
theorem modifyBlock (sound : Sound exact h st) {b : BlockId} {f : Block → Block}
    (cells : ∀ k, (f k).cell = k.cell) (counts : ∀ k, (f k).eventCount = k.eventCount)
    (idle : ∀ pool, b ∈ (st.pools pool).blocks → (f (st.block b)).busy = false)
    (hand : HandSound exact (written st.blocks b f) st.pools st.activeBlocks h') :
    Sound exact h' (st.modifyBlock b f) := by
  obtain ⟨segs, shape, counted⟩ := sound.heap
  exact ⟨⟨segs, shape.congr (written_cell cells), counted⟩, sound.tables,
    sound.pooled.modify cells idle, sound.listed, sound.waiting.modify counts, hand⟩

theorem take {params : AllocParams} {found : BlockId} (sound : Sound exact .empty st)
    (request : params.OfRequest) (pooled : found ∈ (st.pools params.pool).blocks)
    (stream : (st.block found).stream = params.stream)
    (fits : params.size ≤ (st.block found).size) :
    Sound exact (.taken { params with block := some found } found)
      (st.modifyPool params.pool fun p => { p with blocks := p.blocks.filter (· ≠ found) }) := by
  obtain ⟨live, pool, idle⟩ := sound.pooled.block pooled
  have left : ∀ p, (((st.modifyPool params.pool fun p =>
      { p with blocks := p.blocks.filter (· ≠ found) }).pools p).blocks).Sublist
        (st.pools p).blocks := by
    intro p
    by_cases same : p = params.pool
    · subst same
      simp [State.modifyPool]
    · simp [State.modifyPool, same]
  refine ⟨sound.heap, sound.tables, sound.pooled.subset fun p => (left p).subset,
    sound.listed.sublist left le_rfl, sound.waiting,
    ⟨live, idle, pool, fun p member => ?_, sound.listed.apart _ _ pooled⟩,
    request.word, fun _ => ⟨stream, fits⟩⟩
  have poolEq := (sound.pooled.block ((left p).subset member)).2.1
  rw [pool] at poolEq
  subst poolEq
  simp [State.modifyPool] at member

theorem obtain {params : AllocParams} {ptr : Nat} (sound : Sound exact .empty st)
    (request : params.OfRequest) (fresh : Fresh st.allocations ptr params.allocSize)
    (owned : ∀ owner, params.pool.ownerPrivatePool = some owner →
      owner ∈ st.graphPools.map (·.2)) :
    Sound exact (.taken { params with block := some st.nextBlock, err := none } st.nextBlock)
      (st.newSegment cfg params ptr) := by
  obtain ⟨segs, shape, counted⟩ := sound.heap
  have shape' := shape.obtain cfg fresh
  have present : ∀ owner, params.pool.ownerPrivatePool = some owner →
      (st.privatePools owner).isSome = true := by
    intro owner owns
    obtain ⟨entry, member, same⟩ := List.mem_map.mp (owned owner owns)
    exact same ▸ sound.tables.present entry member
  have dead := shape.next_dead
  have blocks := newSegment_blocks st cfg params ptr
  refine ⟨⟨_, by simpa using shape', ?_⟩, ?_, ?_, ?_, ?_, ?_⟩
  · rw [newSegment_privatePools]
    exact counted.grow present
  · rw [newSegment_graphPools, newSegment_graphPoolsFreeable, newSegment_privatePools,
      newSegment_nextPrivatePool]
    cases params.pool.ownerPrivatePool with
    | none => exact sound.tables
    | some owner => exact sound.tables.modify
  · rw [newSegment_pools, blocks]
    intro pool b member
    obtain ⟨k, found, rest⟩ := sound.pooled pool b member
    have other : b ≠ st.nextBlock := by
      rintro rfl
      simp [dead] at found
    exact ⟨k, by rw [Function.update_of_ne other, found], rest⟩
  · rw [newSegment_pools, newSegment_activeBlocks, newSegment_nextBlock]
    exact sound.listed.sublist (fun _ => .refl _) (Nat.le_succ _)
  · rw [blocks, newSegment_gcuEvents, newSegment_nextEvent]
    refine sound.waiting.congr fun b => ?_
    by_cases same : b = st.nextBlock
    · subst same
      simp [blockOf, dead]
    · simp [blockOf, same]
  · have here : blockOf (st.newSegment cfg params ptr).blocks st.nextBlock =
        { device := params.device, stream := params.stream, size := params.allocSize,
          pool := params.pool, ptr := ptr } := by
      simp [blockOf, blocks]
    refine ⟨⟨by simp [blocks], by simp [here, Block.busy], by simp [here], ?_, ?_⟩, request.word,
      fun _ => ?_⟩
    · intro pool member
      rw [newSegment_pools] at member
      have live := (sound.pooled.block member).1
      simp [dead] at live
    · rw [newSegment_activeBlocks]
      exact fun member => (sound.listed.bound _ member).ne rfl
    · rw [here]
      have positive : 0 < getAllocationSize params.size := request.allocSize ▸ fresh.2.1
      exact ⟨rfl, request.allocSize ▸ le_getAllocationSize request.word positive⟩

theorem unpool (sound : Sound exact .empty st) (pool : PoolRef) (curr : BlockId) :
    Sound exact .empty (st.eraseFromBlocks pool curr) :=
  ⟨sound.heap, sound.tables, sound.pooled.subset fun _ _ member => (mem_eraseFromBlocks member).1,
    sound.listed.sublist (eraseFromBlocks_sublist st pool curr) le_rfl, sound.waiting, trivial⟩

theorem pick {params : AllocParams} {curr : BlockId} (sound : Sound exact .empty st)
    (live : st.Live curr) (idle : (st.block curr).busy = false)
    (inactive : curr ∉ st.activeBlocks) (pool : (st.block curr).pool = params.pool)
    (word : params.size < 2 ^ 64) (matches_ : exact → curr ∈ (st.pools params.pool).blocks ∧
      (st.block curr).stream = params.stream ∧ params.size ≤ (st.block curr).size) :
    Sound exact (.taken params curr) (st.eraseFromBlocks params.pool curr) := by
  refine (sound.unpool params.pool curr).regrip ⟨⟨live, idle, pool, fun p member => ?_, inactive⟩,
    word, fun isExact => (matches_ isExact).2⟩
  obtain ⟨old, other⟩ := mem_eraseFromBlocks member
  exact other ((sound.pooled.block old).2.1.symm.trans pool) rfl

theorem carve {params : AllocParams} {found : BlockId} (sound : Sound exact (.taken params found) st) :
    Sound exact (.ready params st.nextBlock) (st.carved params found) := by
  obtain ⟨⟨live, idle, pool, unpooled, inactive⟩, word, sized⟩ := sound.hand
  obtain ⟨segs, shape, counted⟩ := sound.heap
  have isLive : st.Live found := live
  obtain ⟨segs', shape', same⟩ := shape.carve params isLive pool word sized
  have foundOld := (shape.bound found live).ne
  have dead := shape.next_dead
  have uses : ∀ b, b ≠ st.nextBlock → _ := fun b old =>
    use_of_map (splitBlock_use st params found old)
  have created := shape.splitBlock_blocks params isLive st.nextBlock
  rw [if_neg (Ne.symm foundOld), if_pos rfl] at created
  have pools : (st.carved params found).pools = (st.splitBlock params found).1.pools := by
    simp only [State.carved]
    split <;> rfl
  have blocks : (st.carved params found).blocks = (st.splitBlock params found).1.blocks := by
    simp only [State.carved]
    split <;> rfl
  have nextBlock : (st.carved params found).nextBlock = st.nextBlock + 1 := by
    rw [← splitBlock_nextBlock st params found]
    simp only [State.carved]
    split <;> rfl
  have active : (st.carved params found).activeBlocks = st.activeBlocks := by
    simp only [State.carved, State.splitBlock, State.insertIntoBlocks]
    split <;> split <;> cases (st.block found).prev <;> rfl
  have listed : Listed (st.carved params found).pools st.activeBlocks (st.nextBlock + 1) := by
    rw [pools]
    refine Listed.insert ?_ inactive params.pool
    simpa [State.modifyBlock, setNext_pools, State.newBlock] using
      sound.listed.sublist (fun _ => .refl _) (Nat.le_succ _)
  have rest := carved_local st params found
  refine ⟨⟨segs', ?_, ?_⟩, ?_, ?_, ?_, ?_, ?_⟩
  · rw [blocks, nextBlock, rest.allocations]
    exact shape'
  · rw [rest.privatePools]
    exact counted.perm same
  · rw [rest.graphPools, rest.graphPoolsFreeable, rest.privatePools, rest.nextPrivatePool]
    exact sound.tables
  · rw [blocks, pools]
    refine Pooled.of_block fun p b member => ?_
    have was : (st.blocks b).isSome = true ∧ (blockOf st.blocks b).pool = p ∧
        (blockOf st.blocks b).busy = false := by
      rcases mem_splitBlock member with old | ⟨rfl, rfl⟩
      · exact sound.pooled.block old
      · exact ⟨live, pool, idle⟩
    obtain ⟨alive, use⟩ := uses b (shape.bound b was.1).ne
    exact ⟨alive.trans was.1, use.pool.trans was.2.1, use.busy.trans was.2.2⟩
  · rw [active, nextBlock]
    exact listed
  · rw [blocks, rest.gcuEvents, rest.nextEvent]
    refine sound.waiting.congr fun b => ?_
    by_cases new : b = st.nextBlock
    · subst new
      simp [blockOf, created, dead]
    · exact (uses b new).2.eventCount
  · rw [blocks, pools, active]
    refine ⟨⟨by simp [created], by simp [blockOf, created, Block.busy], by simp [blockOf, created],
      fun p member => ?_, fun member => (sound.listed.bound _ member).ne rfl⟩,
      fun _ => by simp [blockOf, created]⟩
    rcases mem_splitBlock member with old | ⟨same, _⟩
    · have alive := (sound.pooled.block old).1
      simp [dead] at alive
    · exact foundOld same.symm

theorem keep {params : AllocParams} {found : BlockId} (sound : Sound exact (.taken params found) st) :
    Sound exact (.ready params found) (st.kept params found) := by
  have hand := sound.hand
  simp only [State.kept]
  split <;> exact ⟨sound.heap, sound.tables, sound.pooled, sound.listed, sound.waiting,
    hand.1, hand.2.2⟩

theorem handOut {params : AllocParams} {block : BlockId} {origSize : Nat}
    (sound : Sound exact (.ready params block) st) :
    Sound exact .empty (st.handedOut cfg params origSize block) := by
  have written : Sound exact .empty (st.modifyBlock block fun b =>
      { b with allocated := true, requestedSize := origSize }) := sound.modifyBlock (fun _ => rfl)
    (fun _ => rfl) (fun pool member => absurd member (sound.hand.1.unpooled pool)) trivial
  obtain ⟨segs, shape, _⟩ := sound.heap
  exact ⟨written.heap, written.tables, written.pooled,
    written.listed.activate sound.hand.1.unpooled (shape.bound block sound.hand.1.live),
    written.waiting, trivial⟩

theorem giveUp {block : BlockId} (sound : Sound exact .empty st) (live : st.Live block) :
    Sound exact (.givenUp block) (st.givenUp cfg block) := by
  have written : Sound exact (.givenUp block) (st.modifyBlock block fun b =>
      { b with allocated := false }) := sound.modifyBlock (fun _ => rfl) (fun _ => rfl)
    (fun pool member => by
      have idle := (sound.pooled.block member).2.2
      simp only [Block.busy, Bool.or_eq_false_iff] at idle ⊢
      exact ⟨⟨trivial, idle.1.2⟩, idle.2⟩)
    ((modifyBlock_isSome st).trans live)
  exact ⟨written.heap, written.tables, written.pooled, written.listed, written.waiting, written.hand⟩

theorem used_live {block : BlockId} (used : (st.block block).streamUses ≠ []) :
    st.Live block := by
  by_contra dead
  simp [State.block, Option.not_isSome_iff_eq_none.mp dead] at used

theorem used_busy {b : Block} (used : b.streamUses ≠ []) : b.busy = true := by
  simp [Block.busy, used]

theorem record {block : BlockId} {streams : List GCUStream} (sound : Sound exact h st)
    (used : (st.block block).streamUses ≠ []) :
    Sound exact (.recording block streams) (st.usesTaken block) := by
  have unpooled := fun pool => sound.pooled.unpooled (used_busy used) pool
  exact sound.modifyBlock (fun _ => rfl) (fun _ => rfl)
    (fun pool member => absurd member (unpooled pool))
    ⟨(modifyBlock_isSome st).trans (used_live used), unpooled⟩

theorem push {block : BlockId} {stream : GCUStream} {streams : List GCUStream}
    (sound : Sound exact (.recording block (stream :: streams)) st) :
    Sound exact (.recording block streams) (st.pushEvent stream block) := by
  obtain ⟨live, unpooled⟩ := sound.hand
  obtain ⟨segs, shape, counted⟩ := sound.heap
  exact ⟨⟨segs, shape.congr (written_cell fun _ => rfl), counted⟩, sound.tables,
    sound.pooled.modify (fun _ => rfl) (fun pool member => absurd member (unpooled pool)),
    sound.listed, sound.waiting.push live stream, (modifyBlock_isSome st).trans live, unpooled⟩

theorem startMerging {block : BlockId} (sound : Sound exact (.freeing block) st)
    (idle : (st.block block).quiescent = true) :
    Sound exact (.merging block (st.block block) (.pending (st.block block).prev)
      (.pending (st.block block).next)) st :=
  sound.regrip ⟨sound.hand, idle, rfl, by simp [Side.Reads, blockOf, State.block],
    by simp [Side.Reads, blockOf, State.block]⟩

theorem mergeBlocks_nextBlock (dst src : BlockId) (pool : PoolRef) :
    (st.mergeBlocks dst src pool).nextBlock = st.nextBlock := by
  simp only [State.mergeBlocks]
  split <;> cases (st.block src).prev <;> cases (st.block src).next <;> rfl

theorem mergeBlocks_activeBlocks (dst src : BlockId) (pool : PoolRef) :
    (st.mergeBlocks dst src pool).activeBlocks = st.activeBlocks := by
  simp only [State.mergeBlocks]
  split <;> cases (st.block src).prev <;> cases (st.block src).next <;> rfl

/-- A neighbour is swallowed. -/
theorem swallow {block src : BlockId} {pool : PoolRef} {segs' : List Segment}
    (sound : Sound exact h st)
    (shape : Shape exact (st.mergeBlocks block src pool).blocks st.nextBlock st.allocations
      segs')
    (counted : Counted st.privatePools (segs'.map (·.pool)))
    (idle : (blockOf st.blocks src).busy = false) (poolEq : (blockOf st.blocks src).pool = pool)
    (hand : HandSound exact (st.mergeBlocks block src pool).blocks
      (st.mergeBlocks block src pool).pools (st.mergeBlocks block src pool).activeBlocks h') :
    Sound exact h' (st.mergeBlocks block src pool) := by
  have rest := mergeBlocks_local st block src pool
  refine ⟨⟨segs', ?_, ?_⟩, ?_, ?_, ?_, ?_, hand⟩
  · rw [mergeBlocks_nextBlock, rest.allocations]
    exact shape
  · rw [rest.privatePools]
    exact counted
  · rw [rest.graphPools, rest.graphPoolsFreeable, rest.privatePools, rest.nextPrivatePool]
    exact sound.tables
  · refine Pooled.of_block fun p b member => ?_
    obtain ⟨old, other⟩ := mem_mergeBlocks member
    have was := sound.pooled.block old
    have differ : b ≠ src := by
      rintro rfl
      exact other (was.2.1.symm.trans poolEq) rfl
    obtain ⟨alive, use⟩ := use_of_map (mergeBlocks_use st block src pool differ)
    exact ⟨alive.trans was.1, use.pool.trans was.2.1, use.busy.trans was.2.2⟩
  · rw [mergeBlocks_nextBlock, mergeBlocks_activeBlocks]
    exact sound.listed.sublist (mergeBlocks_sublist st block src pool) le_rfl
  · rw [rest.gcuEvents, rest.nextEvent]
    exact sound.waiting.delete idle (mergeBlocks_gone st block src pool) fun c differ =>
      (use_of_map (mergeBlocks_use st block src pool differ)).2.eventCount

theorem mergeLeft {block src : BlockId} {origin : Block} {right : Side}
    (sound : Sound exact (.merging block origin (.pending (some src)) right) st)
    (idle : (st.block src).busy = false) :
    Sound exact (.merging block origin (.merged (st.block src).size) right)
      (st.mergeBlocks block src origin.pool) := by
  obtain ⟨live, quiet, pool, left, rightReads⟩ := sound.hand
  obtain ⟨segs, shape, counted⟩ := sound.heap
  have isLive : st.Live block := live
  have before : (st.block block).prev = some src := left _ rfl
  obtain ⟨segs', shape', same⟩ := shape.mergeLeft origin.pool isLive before
  have neighbour := shape.prev_neighbour live before
  have blocks := shape.mergeLeft_blocks origin.pool isLive before
  have here := blocks block
  rw [if_neg neighbour.2.1.symm, if_pos rfl] at here
  obtain ⟨alive, use⟩ := use_of_map (mergeBlocks_use st block src origin.pool neighbour.2.1.symm)
  have next : (blockOf (st.mergeBlocks block src origin.pool).blocks block).next =
      (blockOf st.blocks block).next := by
    simp [blockOf, here, State.block]
  refine sound.swallow shape' (counted.perm same) idle
    (neighbour.2.2.2.trans pool) ⟨alive.trans live, use.quiescent.trans quiet,
      use.pool.trans pool, by simp [Side.Reads], ?_⟩
  intro link pending
  rw [next]
  exact rightReads link pending

theorem mergeRight {block src : BlockId} {origin : Block} {left : Nat}
    (sound : Sound exact (.merging block origin (.merged left) (.pending (some src))) st)
    (idle : (st.block src).busy = false) :
    Sound exact (.merging block origin (.merged left) (.merged (st.block src).size))
      (st.mergeBlocks block src origin.pool) := by
  obtain ⟨live, quiet, pool, _, right⟩ := sound.hand
  obtain ⟨segs, shape, counted⟩ := sound.heap
  have isLive : st.Live block := live
  have after : (st.block block).next = some src := right _ rfl
  obtain ⟨segs', shape', same⟩ := shape.mergeRight origin.pool isLive after
  have neighbour := shape.next_neighbour live after
  obtain ⟨alive, use⟩ := use_of_map (mergeBlocks_use st block src origin.pool neighbour.2.1.symm)
  exact sound.swallow shape' (counted.perm same) idle
    (neighbour.2.2.2.trans pool) ⟨alive.trans live, use.quiescent.trans quiet,
      use.pool.trans pool, by simp [Side.Reads], by simp [Side.Reads]⟩

/-- The insertion at the end of `free_block`, whether or not the set takes the block. -/
theorem insert {block : BlockId} {origin : Block} {left right : Side}
    (sound : Sound exact (.merging block origin left right) st) :
    Sound exact .empty ((st.eraseActive block).insertIntoBlocks origin.pool block).1 := by
  obtain ⟨live, quiet, pool, _⟩ := sound.hand
  have idle : (blockOf st.blocks block).busy = false := by
    simp only [Block.quiescent, Bool.and_eq_true, Bool.not_eq_true', beq_iff_eq] at quiet
    simp [Block.busy, quiet.1.1, quiet.1.2, quiet.2]
  have grown : Sound exact .empty ((st.eraseActive block).modifyBlock block fun b =>
      { b with gcCountBase := (st.pools origin.pool).getFreeBlocksCallCount }) := by
    have written : Sound exact .empty (st.modifyBlock block fun b =>
        { b with gcCountBase := (st.pools origin.pool).getFreeBlocksCallCount }) :=
      sound.modifyBlock (fun _ => rfl) (fun _ => rfl) (fun _ _ => idle) trivial
    exact ⟨written.heap, written.tables, written.pooled, sound.listed.deactivate,
      written.waiting, trivial⟩
  have blocks : ((st.eraseActive block).insertIntoBlocks origin.pool block).1.blocks =
      ((st.eraseActive block).modifyBlock block fun b =>
        { b with gcCountBase := (st.pools origin.pool).getFreeBlocksCallCount }).blocks := by
    simp only [State.insertIntoBlocks]
    split <;> rfl
  have rest := insertIntoBlocks_local (st.eraseActive block) origin.pool block
  have active : ((st.eraseActive block).insertIntoBlocks origin.pool block).1.activeBlocks =
      (st.eraseActive block).activeBlocks := by
    simp only [State.insertIntoBlocks]
    split <;> rfl
  refine ⟨?_, ?_, ?_, ?_, ?_, trivial⟩
  · rw [blocks, rest.allocations, rest.privatePools, insertIntoBlocks_nextBlock]
    exact grown.heap
  · rw [rest.graphPools, rest.graphPoolsFreeable, rest.privatePools, rest.nextPrivatePool]
    exact grown.tables
  · rw [blocks]
    refine Pooled.of_block fun p b member => ?_
    rcases mem_insertIntoBlocks member with old | ⟨rfl, rfl⟩
    · exact grown.pooled.block old
    · have here : blockOf ((st.eraseActive b).modifyBlock b fun k =>
          { k with gcCountBase := (st.pools origin.pool).getFreeBlocksCallCount }).blocks b =
          { blockOf st.blocks b with
            gcCountBase := (st.pools origin.pool).getFreeBlocksCallCount } :=
        written_self live
      refine ⟨(modifyBlock_isSome st).trans live, ?_, ?_⟩
      · rw [here]
        exact pool
      · rw [here]
        exact idle
  · rw [active, insertIntoBlocks_nextBlock]
    have listed : Listed (st.eraseActive block).pools (st.eraseActive block).activeBlocks
        st.nextBlock := sound.listed.deactivate
    exact listed.insert (by simp [State.eraseActive]) origin.pool
  · rw [blocks, rest.gcuEvents, rest.nextEvent]
    exact grown.waiting

theorem settle {block : BlockId} {origin : Block} {left right : Nat}
    (sound : Sound exact (.merging block origin (.merged left) (.merged right)) st) :
    Sound exact .empty (st.settled block origin left right) :=
  have inserted := sound.insert
  ⟨inserted.heap, inserted.tables, inserted.pooled, inserted.listed, inserted.waiting, trivial⟩

theorem complete {e : PendingEvent} {event : EventId} (sound : Sound exact .empty st)
    (queued : e ∈ st.gcuEvents) (pending : e.event = some event) :
    Sound exact (.freeing e.block) (st.eventCompleted e event) := by
  obtain ⟨live, awaits⟩ := sound.waiting.live queued pending
  have busy : (blockOf st.blocks e.block).busy = true := by simp [Block.busy, awaits]
  obtain ⟨segs, shape, counted⟩ := sound.heap
  exact ⟨⟨segs, shape.congr (written_cell fun _ => rfl), counted⟩, sound.tables,
    sound.pooled.modify (fun _ => rfl)
      (fun pool member => absurd member (sound.pooled.unpooled busy pool)),
    sound.listed, sound.waiting.complete queued pending,
    (modifyBlock_isSome st).trans live⟩

theorem lose (sound : Sound exact .empty st) (event : EventId) :
    Sound exact .empty (st.takeEvent event) :=
  ⟨sound.heap, sound.tables, sound.pooled, sound.listed, sound.waiting.lose event, trivial⟩

theorem popFront (sound : Sound exact .empty st) (stream : GCUStream) :
    Sound exact .empty (st.popFront stream) :=
  ⟨sound.heap, sound.tables, sound.pooled, sound.listed, sound.waiting.sublist List.eraseP_sublist, trivial⟩

theorem clearEvents (sound : Sound exact .empty st) :
    Sound exact .empty { st with gcuEvents := [] } :=
  ⟨sound.heap, sound.tables, sound.pooled, sound.listed, sound.waiting.sublist (List.nil_sublist _), trivial⟩

theorem release {block : BlockId} {pool : PoolRef} (sound : Sound exact .empty st)
    (pooled : block ∈ (st.pools pool).blocks) (unsplit : (st.block block).isSplit = false) :
    Sound exact .empty (st.released cfg block) := by
  obtain ⟨live, _, idle⟩ := sound.pooled.block pooled
  obtain ⟨segs, shape, counted⟩ := sound.heap
  obtain ⟨seg, rest, order, poolEq, _, _, _, shape'⟩ := shape.release live unsplit
  have ordered : Counted st.privatePools (seg.pool :: rest.map (·.pool)) :=
    counted.perm (order.symm.map _)
  have shrunk := ordered.shrink
  refine ⟨⟨rest, ?_, ?_⟩, ?_, ?_, ?_, ?_, trivial⟩
  · rw [released_blocks, released_nextBlock, released_allocations]
    exact shape'
  · rw [released_privatePools]
    rw [poolEq] at shrunk
    exact shrunk
  · rw [released_graphPools, released_graphPoolsFreeable, released_privatePools,
      released_nextPrivatePool]
    cases (st.block block).pool.ownerPrivatePool with
    | none => exact sound.tables
    | some owner => exact sound.tables.modify
  · rw [released_blocks, released_pools]
    refine Pooled.of_block fun p b member => ?_
    obtain ⟨old, other⟩ := mem_eraseFromBlocks member
    have was := sound.pooled.block old
    have differ : b ≠ block := by
      rintro rfl
      exact other was.2.1.symm rfl
    simp only [blockOf, Function.update_of_ne differ]
    exact was
  · rw [released_pools, released_activeBlocks, released_nextBlock]
    exact sound.listed.sublist (eraseFromBlocks_sublist st _ block) le_rfl
  · rw [released_blocks, released_gcuEvents, released_nextEvent]
    exact sound.waiting.delete idle (Function.update_self block none st.blocks) fun c differ => by
      rw [blockOf, Function.update_of_ne differ, blockOf]

/-- The assertion of `release_block` on the segments of a private pool never fails. -/
theorem counted_pos {block : BlockId} {pool : PoolRef} {owner : PrivatePoolId}
    (sound : Sound exact h st) (pooled : block ∈ (st.pools pool).blocks)
    (owned : (st.block block).pool.ownerPrivatePool = some owner) :
    0 < st.topsMallocCount owner := by
  obtain ⟨segs, shape, counted⟩ := sound.heap
  obtain ⟨seg, member, inside⟩ := (shape.live block).mp (sound.pooled.block pooled).1
  have poolEq : (st.block block).pool = seg.pool := (shape.formed seg member).pool block inside
  have listed : seg.pool ∈ segs.map (·.pool) := List.mem_map_of_mem member
  obtain ⟨p, found⟩ := Option.isSome_iff_exists.mp
    (counted.present seg.pool listed owner (poolEq ▸ owned))
  have positive : 0 < (segs.map (·.pool)).countP
      fun pool => decide (pool.ownerPrivatePool = some owner) :=
    List.countP_pos_iff.mpr ⟨seg.pool, listed, by simp [← poolEq, owned]⟩
  simp only [State.topsMallocCount, found, Option.getD_some, counted.count owner p found]
  omega

theorem erasePool {id : MempoolId} {owner pool : PrivatePoolId} (sound : Sound exact .empty st)
    (freeable : (id, owner) ∈ st.graphPoolsFreeable) (vacant : st.topsMallocCount owner = 0)
    (present : State.findPool st.graphPools id = some pool) :
    Sound exact .empty ((st.poolErased id (some pool)).poolForgotten id) := by
  have same : (id, owner) = (id, pool) :=
    sound.tables.unique (sound.tables.freeable freeable) (findPool_mem present) rfl
  obtain ⟨segs, shape, counted⟩ := sound.heap
  have vacant' : ((st.privatePools pool).getD {}).topsMallocCount = 0 := by
    obtain rfl : owner = pool := congrArg Prod.snd same
    exact vacant
  exact ⟨⟨segs, shape, counted.erase vacant'⟩, sound.tables.erase present, sound.pooled,
    sound.listed, sound.waiting, trivial⟩

theorem eraseMissing {id : MempoolId} (sound : Sound exact .empty st)
    (absent : State.findPool st.graphPools id = none) :
    Sound exact .empty (st.poolErased id none) := by
  have same : st.graphPools.filter (·.1 ≠ id) = st.graphPools :=
    List.filter_eq_self.mpr fun entry member => by
      simp only [ne_eq, decide_eq_true_eq]
      rintro rfl
      exact findPool_none absent (List.mem_map_of_mem member)
  refine ⟨sound.heap, ?_, sound.pooled, sound.listed, sound.waiting, trivial⟩
  simp only [State.poolErased, same]
  exact sound.tables

theorem openPool {id : MempoolId} (sound : Sound exact .empty st)
    (absent : State.findPool st.graphPools id = none) : Sound exact .empty (st.poolOpened id) := by
  obtain ⟨segs, shape, counted⟩ := sound.heap
  exact ⟨⟨segs, shape, counted.open sound.tables.fresh⟩, sound.tables.open absent {},
    sound.pooled, sound.listed, sound.waiting, trivial⟩

/-- The use count of a private pool changes. -/
theorem modifyUses {pool : PrivatePoolId} {f : PrivatePool → PrivatePool}
    (sound : Sound exact .empty st) (same : ∀ p, (f p).topsMallocCount = p.topsMallocCount) :
    Sound exact .empty (st.modifyPrivatePool pool f) := by
  obtain ⟨segs, shape, counted⟩ := sound.heap
  exact ⟨⟨segs, shape, counted.modify same⟩, sound.tables.modify, sound.pooled, sound.listed,
    sound.waiting, trivial⟩

theorem markFreeable {id : MempoolId} {pool : PrivatePoolId} (sound : Sound exact .empty st)
    (present : State.findPool st.graphPools id = some pool)
    (absent : State.findPool st.graphPoolsFreeable id = none) :
    Sound exact .empty (st.poolFreeable id pool) :=
  ⟨sound.heap, sound.tables.mark present absent, sound.pooled, sound.listed, sound.waiting,
    trivial⟩

theorem use {block : BlockId} {f : Block → Block} (sound : Sound exact .empty st)
    (allocated : (st.block block).allocated = true) (cells : ∀ k, (f k).cell = k.cell)
    (counts : ∀ k, (f k).eventCount = k.eventCount) :
    Sound exact .empty (st.modifyBlock block f) := by
  have busy : (blockOf st.blocks block).busy = true := by
    have allocated' : (blockOf st.blocks block).allocated = true := allocated
    simp [Block.busy, allocated']
  exact sound.modifyBlock cells counts
    (fun pool member => absurd member (sound.pooled.unpooled busy pool)) trivial

end Sound

/-- No action breaks the invariant, as long as only unsplit blocks are released. -/
theorem Sound.closed {mode : Mode} {cfg : GCUAllocatorConfig} {rt : Runtime}
    (whole : mode.whole) : Closed mode cfg rt (Sound mode.exact) := by
  intro h st h' st' sound act
  cases act with
  | counted _ f => exact ⟨sound.heap, sound.tables, sound.pooled, sound.listed, sound.waiting, trivial⟩
  | searched _ pool =>
    have same : ∀ p, ((st.modifyPool pool fun p =>
        { p with getFreeBlocksCallCount := p.getFreeBlocksCallCount + 1 }).pools p).blocks =
          (st.pools p).blocks := by
      intro p
      by_cases here : p = pool
      · subst here
        simp [State.modifyPool]
      · simp [State.modifyPool, here]
    have fewer : ∀ p, ((st.modifyPool pool fun p =>
        { p with getFreeBlocksCallCount := p.getFreeBlocksCallCount + 1 }).pools p).blocks.Sublist
          (st.pools p).blocks := fun p => by rw [same p]
    exact ⟨sound.heap, sound.tables, sound.pooled.subset fun p => (fewer p).subset,
      sound.listed.sublist fewer le_rfl, sound.waiting, trivial⟩
  | take _ params found request clear pooled stream fits open_ oversize =>
    exact sound.take request pooled stream fits
  | obtain _ params ptr request fresh owned spends => exact sound.obtain request fresh owned
  | pick _ params curr chosen clear live idle inactive pool open_ word exact =>
    exact sound.pick live idle inactive pool word exact
  | unpool _ pool curr dead => exact sound.unpool pool curr
  | carve _ params found cut => exact sound.carve
  | keep _ params found => exact sound.keep
  | handOut _ params origSize block => exact sound.handOut
  | dropTaken _ params found null => exact sound.release_hand
  | giveUp _ block live exact => exact sound.giveUp live
  | free _ block unused => exact sound.regrip sound.hand
  | defer _ block used => exact ⟨sound.heap, sound.tables, sound.pooled, sound.listed, sound.waiting, trivial⟩
  | dropGivenUp _ block used => exact sound.release_hand
  | record _ block used => exact sound.record used
  | recordDeferred _ block waiting used => exact sound.record used
  | push _ block stream streams => exact sound.push
  | recorded _ block => exact sound.release_hand
  | dropRecording _ block streams failed => exact sound.release_hand
  | forgetDeferred _ => exact ⟨sound.heap, sound.tables, sound.pooled, sound.listed, sound.waiting, trivial⟩
  | startMerging _ block idle => exact sound.startMerging idle
  | dropFreeing _ block active => exact sound.release_hand
  | passLeft _ block origin src right apart =>
    obtain ⟨live, quiet, pool, _, reads⟩ := sound.hand
    exact sound.regrip ⟨live, quiet, pool, by simp [Side.Reads], reads⟩
  | mergeLeft _ block origin src right idle split => exact sound.mergeLeft idle
  | passRight _ block origin src left apart =>
    obtain ⟨live, quiet, pool, reads, _⟩ := sound.hand
    exact sound.regrip ⟨live, quiet, pool, reads, by simp [Side.Reads]⟩
  | mergeRight _ block origin src left idle split => exact sound.mergeRight idle
  | dropMerging _ block origin left right src side unsplit => exact sound.release_hand
  | settle _ block origin left right inserted => exact sound.settle
  | dropSettling _ block origin left right refused => exact sound.insert
  | complete _ e event queued pending last => exact sound.complete queued pending
  | completeMore _ e event queued pending more =>
    exact (sound.complete queued pending).release_hand
  | lose _ event => exact sound.lose event
  | popFront _ stream => exact sound.popFront stream
  | clearEvents _ => exact sound.clearEvents
  | release _ pool block may freed counted => exact sound.release may.pooled (may.unsplit whole)
  | releaseFailed _ pool block may failed =>
    exact ⟨sound.heap, sound.tables, sound.pooled, sound.listed, sound.waiting, trivial⟩
  | releaseStuck _ pool block may owner owned uncounted =>
    exact absurd (sound.counted_pos may.pooled owned) (by omega)
  | erasePool _ id owner pool freeable vacant present moves =>
    exact sound.erasePool freeable vacant present
  | eraseMissing _ id absent moves => exact sound.eraseMissing absent
  | openPool _ id absent moves calls => exact sound.openPool absent
  | sharePool _ id pool present used moves calls => exact sound.modifyUses fun _ => rfl
  | beginCapture _ id pool filter present moves calls =>
    exact ⟨sound.heap, sound.tables, sound.pooled, sound.listed, sound.waiting, trivial⟩
  | endCapture _ id moves calls => exact ⟨sound.heap, sound.tables, sound.pooled, sound.listed, sound.waiting, trivial⟩
  | dropUse _ id pool present moves calls => exact sound.modifyUses fun _ => rfl
  | markFreeable _ id pool present absent unused moves calls => exact sound.markFreeable present absent
  | logReleased _ pool calls => exact ⟨sound.heap, sound.tables, sound.pooled, sound.listed, sound.waiting, trivial⟩
  | use _ block stream allocated other => exact sound.use allocated (fun _ => rfl) fun _ => rfl
  | limit _ allowed spends => exact ⟨sound.heap, sound.tables, sound.pooled, sound.listed, sound.waiting, trivial⟩

theorem Sound.distinct {exact : Prop} {h : Hand} {st : State} (sound : Sound exact h st) :
    Distinct st :=
  ⟨sound.waiting.distinct, sound.tables.freeableIds⟩

theorem Sound.init (exact : Prop) : Sound exact .empty {} where
  heap := ⟨[], ⟨by simp, by simp, by simp, by simp, by simp, by simp, by simp⟩,
    ⟨by simp, by simp⟩⟩
  tables := ⟨by simp, by simp, by simp, by simp, by simp, by simp, by simp⟩
  pooled := fun pool b member => by simp at member
  listed := ⟨by simp, by simp, by simp, by simp⟩
  waiting := ⟨⟨by simp, by simp⟩, by simp [pendingCount, blockOf]⟩
  hand := trivial

end TorchGcu.GCUCachingAllocator

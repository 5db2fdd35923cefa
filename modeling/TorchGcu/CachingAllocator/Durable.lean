import TorchGcu.CachingAllocator.Step
import TorchGcu.Checks

/-! Properties that no operation breaks, whatever the runtime answers and however it ends:
properties of the blocks and of the record of what was obtained from the device, when they
survive the small changes that all operations are made of. -/
namespace TorchGcu.GCUCachingAllocator
open ProgramLogic

/-- What each successful `alloc_block` has left: the total, and the limit in force. -/
def State.obtained (st : State) : List (Nat × Option Nat) :=
  st.history.filterMap fun event =>
    match event with
    | .allocBlock _ total limit => some (total, limit)
    | _ => none

/-- The memory limit lets `alloc_block` go on. -/
def State.Allows (st : State) (size : Nat) : Prop :=
  st.setFraction = true → sizeAdd st.totalAllocatedMemory size ≤ st.allowedMemoryMaximum

/-- What no operation breaks: memory is only obtained within the limit. -/
structure Durable (I : State → Prop) : Prop where
  frame : ∀ {st : State} (st' : State), I st → st'.blocks = st.blocks →
    st'.nextBlock = st.nextBlock → st'.obtained = st.obtained → I st'
  modifyBlock : ∀ {st : State} (b : BlockId) (f : Block → Block), I st → I (st.modifyBlock b f)
  newBlock : ∀ {st : State} (block : Block), I st → I (st.newBlock block)
  deleteBlock : ∀ {st : State} (b : BlockId), I st → I (st.deleteBlock b)
  newSegment : ∀ {st : State} (cfg : GCUAllocatorConfig) {params : AllocParams} (ptr : Nat),
    st.Allows params.allocSize → I st → I (st.newSegment cfg params ptr)

variable {I : State → Prop}

namespace Durable
variable {st : State}

/-- A property of the blocks alone holds of a new segment as of any new block. -/
theorem of_blocks (frame : ∀ {st : State} (st' : State), I st → st'.blocks = st.blocks →
      st'.nextBlock = st.nextBlock → I st')
    (modifyBlock : ∀ {st : State} (b : BlockId) (f : Block → Block), I st →
      I (st.modifyBlock b f))
    (newBlock : ∀ {st : State} (block : Block), I st → I (st.newBlock block))
    (deleteBlock : ∀ {st : State} (b : BlockId), I st → I (st.deleteBlock b)) : Durable I where
  frame st' holds blocks next _ := frame st' holds blocks next
  modifyBlock := modifyBlock
  newBlock := newBlock
  deleteBlock := deleteBlock
  newSegment {st} cfg {params} ptr _ holds := by
    have created : I (st.newBlock
        { device := params.device, stream := params.stream, size := params.allocSize,
          pool := params.pool, ptr := ptr }) := newBlock _ holds
    simp only [State.newSegment]
    split
    · exact frame _ created rfl rfl
    · exact frame _ created rfl rfl

/-- A change of anything else. -/
theorem elsewhere (inv : Durable I) {f : State → State} (same : ∀ st : State,
    ((f st).blocks, (f st).nextBlock, (f st).obtained) = (st.blocks, st.nextBlock, st.obtained)) :
    Preserves I (modify f : M PUnit) := by
  refine .modify fun st holds => ?_
  have kept := same st
  simp only [Prod.mk.injEq] at kept
  exact inv.frame _ holds kept.1 kept.2.1 kept.2.2

theorem setNext (inv : Durable I) (b link : Option BlockId) (holds : I st) :
    I (st.setNext b link) := by
  cases b with
  | none => exact holds
  | some b => exact inv.modifyBlock b _ holds

theorem setPrev (inv : Durable I) (b link : Option BlockId) (holds : I st) :
    I (st.setPrev b link) := by
  cases b with
  | none => exact holds
  | some b => exact inv.modifyBlock b _ holds

theorem insertIntoBlocks (inv : Durable I) (pool : PoolRef) (b : BlockId)
    (holds : I st) : I (st.insertIntoBlocks pool b).1 := by
  have counted := inv.modifyBlock b (fun block =>
    { block with gcCountBase := (st.pools pool).getFreeBlocksCallCount }) holds
  simp only [State.insertIntoBlocks]
  split
  · exact counted
  · exact inv.frame _ counted rfl rfl rfl

theorem splitBlock (inv : Durable I) (params : AllocParams) (found : BlockId) (holds : I st) :
    I (st.splitBlock params found).1 := by
  have created : I (st.newBlock
      { device := params.device, stream := params.stream, size := params.size,
        pool := params.pool, ptr := (st.block found).ptr, prev := (st.block found).prev,
        next := some found }) := inv.newBlock _ holds
  have linked := inv.setNext (st.block found).prev (some st.nextBlock) created
  exact inv.insertIntoBlocks params.pool found
    (inv.modifyBlock found _ linked)

/-- The end of a merge: the block that is left grows, the other one goes. -/
theorem swallow (inv : Durable I) (dst src : BlockId) (size : Nat) (pool : PoolRef)
    (holds : I st) : I (((st.modifyBlock dst fun d =>
      { d with size := sizeAdd d.size size }).eraseFromBlocks pool src).deleteBlock src) := by
  have grown := inv.modifyBlock dst (fun d => { d with size := sizeAdd d.size size }) holds
  exact inv.deleteBlock src (inv.frame _ grown rfl rfl rfl)

theorem pushEvent (inv : Durable I) (stream : GCUStream) (block : BlockId)
    (holds : I st) : I (st.pushEvent stream block) := by
  have counted := inv.modifyBlock block (fun b => { b with eventCount := b.eventCount + 1 }) holds
  exact inv.frame _ counted rfl rfl rfl

theorem mergeBlocks (inv : Durable I) (dst src : BlockId) (pool : PoolRef)
    (holds : I st) : I (st.mergeBlocks dst src pool) := by
  simp only [State.mergeBlocks]
  split
  · exact inv.swallow dst src _ pool
      (inv.setNext _ _ (inv.modifyBlock dst _ holds))
  · exact inv.swallow dst src _ pool
      (inv.setPrev _ _ (inv.modifyBlock dst _ holds))

theorem countSearch (inv : Durable I) (cfg : GCUAllocatorConfig) (pool : PoolRef)
    (holds : I st) : I (st.countSearch cfg pool) := by
  simp only [State.countSearch]
  split
  · exact inv.frame _ holds rfl rfl rfl
  · exact holds

end Durable

variable (inv : Durable I) (cfg : GCUAllocatorConfig) (rt : Runtime)
include inv

/-! ### Freeing and releasing -/

theorem tryMergeBlocks_durable (dst : BlockId) (src : Option BlockId) (pool : PoolRef) :
    Preserves I (tryMergeBlocks dst src pool) := by
  cases src with
  | none => exact .pure 0
  | some src =>
    refine .bind .get fun st => .ite (.pure 0) (.bind .get fun _ => .bind .get fun _ => ?_)
    refine .bind (internalAssert_preserves _ _) fun _ => .bind .get fun _ => ?_
    exact .bind (.modify fun _ holds => inv.mergeBlocks dst src pool holds) fun _ => .pure _

theorem freeBlock_durable (block : BlockId) : Preserves I (freeBlock block) := by
  refine .bind .get fun st => .bind (internalAssert_preserves _ _) fun _ => ?_
  refine .bind (tryMergeBlocks_durable inv _ _ _) fun _ => ?_
  refine .bind (tryMergeBlocks_durable inv _ _ _) fun _ => ?_
  refine .bind (inv.elsewhere fun _ => rfl) fun _ => ?_
  intro s holds
  simp only [wp_bind, wp_get, wp_set, wp_modify]
  exact wp_mono (internalAssert_preserves _ _ _ (inv.insertIntoBlocks _ block holds))
    (fun _ _ kept => inv.frame _ kept rfl rfl rfl) fun _ _ => id

theorem releaseBlock_durable (block : BlockId) : Preserves I (releaseBlock cfg rt block) := by
  refine .bind .get fun st => .bind (inv.elsewhere fun _ => rfl) fun _ => ?_
  refine .bind (inv.elsewhere fun _ => rfl) fun _ => ?_
  refine .bind (gcuCheck_preserves _) fun _ => ?_
  refine .bind (inv.elsewhere fun _ => rfl) fun _ => ?_
  have rest {f g : State → State} (keeps : Preserves I (modify f : M PUnit))
      (keeps' : Preserves I (modify g : M PUnit)) : Preserves I (do
        modify f
        modify g
        modify (·.deleteBlock block) : M Unit) :=
    .bind keeps fun _ => .bind keeps' fun _ => .modify fun _ holds => inv.deleteBlock block holds
  dsimp only
  split
  · exact rest (inv.elsewhere fun _ => rfl) (inv.elsewhere fun _ => rfl)
  · refine .bind .get fun _ => .bind (internalAssert_preserves _ _) fun _ => ?_
    exact .bind (inv.elsewhere fun _ => rfl) fun _ =>
      rest (inv.elsewhere fun _ => rfl) (inv.elsewhere fun _ => rfl)

theorem releaseWhere_durable (pool : PoolRef) (test : Block → Bool) (blocks : List BlockId) :
    Preserves I (releaseWhere cfg rt pool test blocks) := by
  induction blocks with
  | nil => exact .pure _
  | cons block rest ih =>
    refine .bind .get fun _ => .bind .get fun _ => ?_
    exact .ite (.bind (releaseBlock_durable inv cfg rt block) fun _ => ih) ih

theorem releaseBlocks_durable (pool : PoolRef) : Preserves I (releaseBlocks cfg rt pool) :=
  .bind .get fun _ => releaseWhere_durable inv cfg rt pool _ _

/-! ### Events -/

theorem insertEventsLoop_durable (block : BlockId) (streams : List GCUStream) :
    Preserves I (insertEventsLoop rt block streams) := by
  induction streams with
  | nil => exact .pure _
  | cons stream streams ih =>
    refine .bind (gcuCheck_preserves _) fun _ => .bind (gcuCheck_preserves _) fun _ => ?_
    refine .bind .get fun _ => .bind (gcuCheck_preserves _) fun _ => ?_
    exact .bind (.modify fun _ holds => inv.pushEvent stream block holds) fun _ => ih

theorem insertEvents_durable (block : BlockId) : Preserves I (insertEvents rt block) := by
  refine .bind (gcuCheck_preserves _) fun _ => .bind .get fun _ => ?_
  refine .bind (.modify fun _ holds => inv.modifyBlock block _ holds) fun _ => ?_
  exact .bind (insertEventsLoop_durable inv rt block _) fun _ => gcuCheck_preserves _

theorem insertDeferredLoop_durable (blocks : List BlockId) :
    Preserves I (insertDeferredLoop rt blocks) := by
  induction blocks with
  | nil => exact .pure _
  | cons block rest ih =>
    refine .bind .get fun _ => .bind (internalAssert_preserves _ _) fun _ => ?_
    exact .bind (insertEvents_durable inv rt block) fun _ => ih

theorem insertEventsDeferred_durable : Preserves I (insertEventsDeferredUntilNoCapture rt) :=
  .bind .get fun _ => .bind (insertDeferredLoop_durable inv rt _) fun _ =>
    inv.elsewhere fun _ => rfl

theorem eventDone_durable (block : BlockId) (event : EventId) :
    Preserves I (eventDone block event) := by
  refine .bind (.modify fun st holds => inv.modifyBlock block _ (inv.frame (st.log _) holds rfl rfl
    rfl)) fun _ => ?_
  exact .bind .get fun _ => .ite (freeBlock_durable inv block) (.pure _)

theorem processFront_durable (stream : GCUStream) : Preserves I (processFront rt stream) := by
  refine .bind .get fun st => ?_
  split
  · exact .pure _
  · rename_i e _ _
    split
    · split
      · exact .pure _
      · exact .bind (inv.elsewhere fun _ => rfl) fun _ => .throw _
      · refine .bind (inv.elsewhere fun _ => rfl) fun _ => ?_
        refine .bind (eventDone_durable inv e.block _) fun _ => ?_
        exact .bind (inv.elsewhere fun _ => rfl) fun _ => .pure _
    · exact .throw _

theorem processQueue_durable (stream : GCUStream) (turns : Nat) :
    Preserves I (processQueue rt stream turns) := by
  induction turns with
  | zero => exact .pure _
  | succ turns ih => exact .bind (processFront_durable inv rt stream) fun _ => .ite ih (.pure _)

theorem processStreams_durable (streams : List GCUStream) :
    Preserves I (processStreams rt streams) := by
  induction streams with
  | nil => exact .pure _
  | cons stream streams ih =>
    exact .bind .get fun _ => .bind (processQueue_durable inv rt stream _) fun _ => ih

theorem processEvents_durable : Preserves I (processEvents rt) :=
  .bind (insertEventsDeferred_durable inv rt) fun _ => .bind .get fun _ =>
    processStreams_durable inv rt _

theorem synchronizeEntries_durable (entries : List PendingEvent) :
    Preserves I (synchronizeEntries rt entries) := by
  induction entries with
  | nil => exact .pure _
  | cons e entries ih =>
    unfold synchronizeEntries
    split
    · refine .bind (inv.elsewhere fun _ => rfl) fun _ => ?_
      refine .bind (gcuCheck_preserves _) fun _ => ?_
      exact .bind (eventDone_durable inv e.block _) fun _ => ih
    · exact .throw _

theorem synchronizeStreams_durable (streams : List GCUStream) :
    Preserves I (synchronizeStreams rt streams) := by
  induction streams with
  | nil => exact .pure _
  | cons stream streams ih =>
    exact .bind .get fun _ => .bind (synchronizeEntries_durable inv rt _) fun _ => ih

theorem synchronizeAndFreeEvents_durable : Preserves I (synchronizeAndFreeEvents rt) := by
  refine .bind (inv.elsewhere fun _ => rfl) fun _ => .bind .get fun _ => ?_
  refine .bind (internalAssert_preserves _ _) fun _ => ?_
  refine .bind (insertEventsDeferred_durable inv rt) fun _ => ?_
  refine .bind .get fun _ => .bind (synchronizeStreams_durable inv rt _) fun _ => ?_
  exact inv.elsewhere fun _ => rfl

/-! ### Giving memory back -/

theorem gcPass_durable (ageThreshold : ℚ) (blocks : List BlockId) (gc : GcProgress) :
    Preserves I (gcPass cfg rt ageThreshold blocks gc) := by
  induction blocks generalizing gc with
  | nil => exact .pure _
  | cons block rest ih =>
    exact .bind .get fun _ => .ite (.bind (releaseBlock_durable inv cfg rt block) fun _ => ih _) (ih _)

theorem gcLoop_durable (targetSize passes : Nat)
    (gc : GcProgress) : Preserves I (gcLoop cfg rt targetSize passes gc) := by
  induction passes generalizing gc with
  | zero => exact .pure _
  | succ passes ih =>
    exact .ite (.bind .get fun _ => .bind (gcPass_durable inv cfg rt _ _ _) fun gc => ih gc) (.pure _)

theorem garbageCollectCachedBlocks_durable : Preserves I (garbageCollectCachedBlocks cfg rt) :=
  .bind .get fun _ => .ite (.pure _) (.ite (.pure _) (gcLoop_durable inv cfg rt _ _ _))

theorem releaseOversize_durable (params : AllocParams)
    (keySize : Nat) (blocks : List BlockId) (totalReleased : Nat) :
    Preserves I (releaseOversize cfg rt params keySize blocks totalReleased) := by
  induction blocks generalizing totalReleased with
  | nil => exact .pure _
  | cons block rest ih =>
    exact .bind .get fun _ => .ite (ih _)
      (.ite (.bind (releaseBlock_durable inv cfg rt block) fun _ => ih _) (.pure _))

theorem releaseAvailableCachedBlocks_durable
    (params : AllocParams) : Preserves I (releaseAvailableCachedBlocks cfg rt params) := by
  refine .ite (.pure _) (.bind .get fun _ => ?_)
  split
  · exact .bind (releaseBlock_durable inv cfg rt _) fun _ => .pure _
  · exact .ite (.pure _) (.bind (releaseOversize_durable inv cfg rt params _ _ _) fun _ => .pure _)

theorem releaseFreeablePools_durable (pools : List (MempoolId × PrivatePoolId)) :
    Preserves I (releaseFreeablePools cfg rt pools) := by
  induction pools with
  | nil => exact .pure _
  | cons entry rest ih =>
    refine .bind .get fun _ => .bind (internalAssert_preserves _ _) fun _ => ?_
    refine .bind (releaseBlocks_durable inv cfg rt _) fun _ => ?_
    refine .bind (releaseBlocks_durable inv cfg rt _) fun _ => .bind .get fun _ => .ite ?_ ih
    refine .bind .get fun _ => .bind (inv.elsewhere fun _ => rfl) fun _ => ?_
    refine .bind (internalAssert_preserves _ _) fun _ => ?_
    exact .bind (inv.elsewhere fun _ => rfl) fun _ => ih

theorem releaseCachedBlocks_durable : Preserves I (releaseCachedBlocks cfg rt) := by
  refine .bind (synchronizeAndFreeEvents_durable inv rt) fun _ => ?_
  refine .bind (releaseBlocks_durable inv cfg rt _) fun _ => ?_
  refine .bind (releaseBlocks_durable inv cfg rt _) fun _ => ?_
  exact .bind .get fun _ => releaseFreeablePools_durable inv cfg rt _

theorem free_durable (block : BlockId) : Preserves I (free cfg rt block) := by
  refine .bind .get fun _ => ?_
  refine .bind (.modify fun _ holds => inv.modifyBlock block _ holds) fun _ => ?_
  refine .bind (inv.elsewhere fun _ => rfl) fun _ => ?_
  refine .bind (inv.elsewhere fun _ => rfl) fun _ => ?_
  refine .ite (freeBlock_durable inv block) (.bind .get fun _ => ?_)
  refine .ite (insertEvents_durable inv rt block) ?_
  exact inv.elsewhere fun _ => rfl

theorem recordStream_durable (block : BlockId) (stream : GCUStream) :
    Preserves I (recordStream block stream) :=
  .bind .get fun _ => .ite (.pure _) (.modify fun _ holds =>
    inv.modifyBlock block _ holds)

/-! ### Allocation -/

theorem executeCallback_durable (blocks : List BlockId) :
    Preserves I (executeCallback cfg rt blocks) := by
  induction blocks with
  | nil => exact .pure _
  | cons block rest ih =>
    exact .bind .get fun _ => .ite (.bind (free_durable inv cfg rt block) fun _ => ih) ih

theorem triggerFreeMemoryCallbacks_durable
    (callbacks : List (List BlockId × Bool)) (freedMemory : Bool) :
    Preserves I (triggerFreeMemoryCallbacks cfg rt callbacks freedMemory) := by
  induction callbacks generalizing freedMemory with
  | nil => exact .pure _
  | cons callback rest ih => exact .bind (executeCallback_durable inv cfg rt _) fun _ => ih _

omit inv in
theorem getPool_durable (size : Nat) (stream : StreamId) : Preserves I (getPool size stream) := by
  refine .bind .get fun _ => ?_
  split
  · exact .pure _
  · split
    · exact .throw _
    · exact .pure _

theorem allocParams_durable (device : DeviceIndex) (origSize : Nat) (stream : StreamId) :
    Preserves I (allocParams cfg rt device origSize stream) := by
  refine .bind .get fun _ => .ite (.bind (processEvents_durable inv rt) fun _ => ?_) ?_
  · exact .bind (getPool_durable _ _) fun _ => .pure _
  · exact .bind (getPool_durable _ _) fun _ => .pure _

theorem getFreeBlock_durable (params : AllocParams) : Preserves I (getFreeBlock cfg params) := by
  refine .bind (.modify fun _ holds => inv.countSearch cfg params.pool holds) fun _ => ?_
  intro st holds
  simp only [wp_bind, wp_get]
  split
  · exact holds
  · simp only [wp_ite, wp_pure, wp_bind, wp_set]
    exact ⟨fun _ => holds, fun _ => ⟨fun _ => holds, fun _ => ⟨fun _ => holds,
      fun _ => inv.frame _ holds rfl rfl rfl⟩⟩⟩

theorem searchPool_durable (params : AllocParams) : Preserves I (searchPool cfg rt params) := by
  refine .bind (getFreeBlock_durable inv cfg params) fun _ => .ite (.pure _) ?_
  exact .bind (triggerFreeMemoryCallbacks_durable inv cfg rt _ _) fun _ =>
    .ite (getFreeBlock_durable inv cfg _) (.pure _)

/-- `topsMalloc` is only called for memory that the limit allows. -/
theorem allocBlockBegin_durable (call : Nat) (params : AllocParams)
    (isRetry : Bool) {st : State} (holds : I st) : wp (allocBlockBegin rt call params isRetry)
      (fun passed st' => I st' ∧ (passed = true → st'.Allows params.allocSize))
      (fun _ st' => I st') st := by
  have passes : ∀ st : State, (!(st.setFraction && decide (st.allowedMemoryMaximum <
      sizeAdd st.totalAllocatedMemory params.allocSize))) = true → st.Allows params.allocSize := by
    intro st passed fraction
    simpa [fraction] using passed
  simp only [allocBlockBegin, wp_bind, wp_ite, wp_modify, wp_get, wp_pure]
  refine wp_mono (gcuCheck_preserves _ st holds) (fun _ st' kept => ?_) fun _ _ => id
  exact ⟨fun _ => ⟨inv.frame _ kept rfl rfl rfl, passes _⟩, fun _ => ⟨kept, passes _⟩⟩

theorem allocBlockEnd_durable {params : AllocParams}
    (answer : Except TopsError Nat) {st : State} (allows : st.Allows params.allocSize)
    (holds : I st) :
    wp (allocBlockEnd cfg params answer) (fun _ st' => I st') (fun _ st' => I st') st := by
  unfold allocBlockEnd
  split
  · exact holds
  · exact holds
  · exact inv.newSegment cfg _ allows holds

theorem allocBlock_durable (call : Nat)
    (params : AllocParams) (isRetry : Bool) : Preserves I (allocBlock cfg rt call params isRetry) := by
  intro st holds
  simp only [allocBlock, wp_bind, wp_ite, wp_get, wp_pure]
  refine wp_mono (allocBlockBegin_durable inv rt call params isRetry holds)
    (fun passed st' begun => ⟨fun passed => ?_, fun _ => begun.1⟩) fun _ _ => id
  exact allocBlockEnd_durable inv cfg _ (begun.2 passed) begun.1

theorem mallocFirst_durable (device : DeviceIndex) (origSize : Nat) (stream : StreamId) :
    Preserves I (mallocFirst cfg rt device origSize stream) := by
  refine .bind (allocParams_durable inv cfg rt device origSize stream) fun params => ?_
  refine .bind (searchPool_durable inv cfg rt params) fun result => ?_
  refine .ite (.pure _) (.bind .get fun _ => ?_)
  exact .ite (.bind (garbageCollectCachedBlocks_durable inv cfg rt) fun _ =>
    allocBlock_durable inv cfg rt _ _ _) (allocBlock_durable inv cfg rt _ _ _)

theorem mallocRetry_durable (params : AllocParams) : Preserves I (mallocRetry cfg rt params) := by
  refine .bind ?_ fun _ => .ite (.pure _) (.bind .get fun _ => .ite ?_ (.pure _))
  · exact .bind (releaseAvailableCachedBlocks_durable inv cfg rt params) fun _ =>
      .ite (allocBlock_durable inv cfg rt _ _ _) (.pure _)
  · exact .bind (releaseCachedBlocks_durable inv cfg rt) fun _ =>
      allocBlock_durable inv cfg rt _ _ _

theorem mallocSearch_durable (device : DeviceIndex) (origSize : Nat) (stream : StreamId) :
    Preserves I (mallocSearch cfg rt device origSize stream) :=
  .bind (mallocFirst_durable inv cfg rt device origSize stream) fun _ =>
    .ite (.pure _) (mallocRetry_durable inv cfg rt _)

theorem allocFoundBlock_durable (params : AllocParams) (origSize : Nat)
    (splitRemainder : Bool) : Preserves I (allocFoundBlock cfg params origSize splitRemainder) := by
  have rest (block : BlockId) : Preserves I (do
      modify (·.modifyBlock block fun b => { b with allocated := true, requestedSize := origSize })
      modify (·.insertActive block)
      let allocated := (← get).block block
      modify (·.modifyStats (allocatedStats cfg params.statTypes allocated))
      return block : M BlockId) :=
    .bind (.modify fun _ holds => inv.modifyBlock block _ holds) fun _ =>
      .bind (inv.elsewhere fun _ => rfl) fun _ => .bind .get fun _ =>
        .bind (inv.elsewhere fun _ => rfl) fun _ => .pure _
  unfold allocFoundBlock
  split
  · rename_i found _
    refine .bind .get fun _ => .bind (internalAssert_preserves _ _) fun _ => .bind .get fun _ => ?_
    cases splitRemainder with
    | true =>
      intro st holds
      simp only [if_true, wp_bind, wp_get, wp_set, wp_ite, wp_modify]
      have split := inv.splitBlock params found holds
      exact ⟨fun _ => rest _ _ (inv.frame _ split rfl rfl rfl),
        fun _ => rest _ _ (inv.frame _ split rfl rfl rfl)⟩
    | false =>
      have counted (size : Nat) : Preserves I (modify (·.modifyStats fun stats =>
          { stats with
            inactiveSplitBytes := decreaseStatArray stats.inactiveSplitBytes size params.statTypes
            inactiveSplit := decreaseStatArray stats.inactiveSplit 1 params.statTypes }) : M PUnit) :=
        inv.elsewhere fun _ => rfl
      simp only [Bool.false_eq_true, if_false]
      exact .ite (.bind .get fun _ => .bind (counted _) fun _ => rest found) (rest found)
  · exact .throw _

theorem malloc_durable (device : DeviceIndex)
    (origSize : Nat) (stream : StreamId) : Preserves I (malloc cfg rt device origSize stream) := by
  refine .bind (mallocSearch_durable inv cfg rt device origSize stream) fun result => .ite ?_ ?_
  · unfold reportOutOfMemory
    refine .bind (internalAssert_preserves _ _) fun _ => ?_
    split
    · exact .throw _
    · exact .bind (inv.elsewhere fun _ => rfl) fun _ => .throw _
  · exact .bind .get fun _ => allocFoundBlock_durable inv cfg _ origSize _

/-! ### Private pools and checkpoints -/

theorem beginAllocateToPool_durable (id : MempoolId) (filter : StreamId → Bool) :
    Preserves I (beginAllocateToPool id filter) := by
  intro st holds
  simp only [beginAllocateToPool, wp_bind, wp_get]
  split
  · simp only [wp_bind, wp_set, wp_pure, wp_get]
    exact wp_mono (torchCheck_preserves _ _ _ (inv.frame _ holds rfl rfl rfl))
      (fun _ _ kept => inv.frame _ kept rfl rfl rfl) fun _ _ kept => kept
  · simp only [wp_bind, wp_set, wp_pure, wp_get]
    refine wp_mono (internalAssert_preserves _ _ _ holds) (fun _ _ _ => ?_) fun _ _ kept => kept
    exact wp_mono (torchCheck_preserves _ _ _ (inv.frame _ holds rfl rfl rfl))
      (fun _ _ kept => inv.frame _ kept rfl rfl rfl) fun _ _ kept => kept

theorem endAllocateToPool_durable (id : MempoolId) : Preserves I (endAllocateToPool id) := by
  intro st holds
  simp only [endAllocateToPool, wp_bind, wp_get, wp_ite, wp_set, wp_throw]
  exact ⟨fun _ => inv.frame _ holds rfl rfl rfl, fun _ => holds⟩

theorem releasePool_durable (id : MempoolId) : Preserves I (releasePool id) := by
  refine .bind .get fun _ => ?_
  split
  · exact .throw _
  · rename_i pool _
    refine .bind (inv.elsewhere fun _ => rfl) fun _ => .bind .get fun _ => ?_
    have logged : Preserves I (modify (·.log (.poolReleased pool)) : M PUnit) :=
      inv.elsewhere fun _ => rfl
    refine .bind (internalAssert_preserves _ _) fun _ => .ite ?_ logged
    refine .ite (.bind (inv.elsewhere fun _ => rfl) fun _ => ?_) ?_
    · exact .bind (internalAssert_preserves _ _) fun _ => logged
    · exact .bind (internalAssert_preserves _ _) fun _ => logged

omit inv in
theorem blockStates_durable (blocks : List Block) : Preserves I (blockStates blocks) := by
  induction blocks with
  | nil => exact .pure _
  | cons block rest ih =>
    exact .bind (.bind (torchCheck_preserves _ _) fun _ => .pure _) fun _ => .bind ih fun _ => .pure _

omit inv in
theorem segmentStates_durable (heads : List BlockId) : Preserves I (segmentStates heads) := by
  induction heads with
  | nil => exact .pure _
  | cons head rest ih =>
    refine .bind ?_ fun _ => .bind ih fun _ => .pure _
    exact .bind .get fun _ => .bind (internalAssert_preserves _ _) fun _ =>
      .bind (blockStates_durable _) fun _ => .pure _

omit inv in
theorem getCheckpointState_durable (id : MempoolId) : Preserves I (getCheckpointState rt id) := by
  refine .bind .get fun _ => ?_
  split
  · exact .bind (segmentStates_durable _) fun _ => .pure _
  · exact .ite (.throw _) (.throw _)

theorem freeFollowing_durable (fuel : Nat) (curr : Option BlockId) (rr : RestoreResult) :
    Preserves I (freeFollowing cfg rt fuel curr rr) := by
  induction fuel generalizing curr rr with
  | zero => exact .pure _
  | succ fuel ih =>
    cases curr with
    | none => exact .pure _
    | some curr =>
      refine .bind .get fun _ => .ite ?_ (.bind (.pure _) fun _ => .bind .get fun _ => ih _ _)
      refine .bind (torchCheck_preserves _ _) fun _ => .bind (free_durable inv cfg rt curr) fun _ => ?_
      refine .bind .get fun _ => .bind (torchCheck_preserves _ _) fun _ => .bind (.pure _) fun _ => ?_
      exact .bind .get fun _ => ih _ _

theorem freeSegments_durable (heads : List BlockId)
    (rr : RestoreResult) : Preserves I (freeSegments cfg rt heads rr) := by
  induction heads generalizing rr with
  | nil => exact .pure _
  | cons head rest ih =>
    exact .bind .get fun _ => .bind (freeFollowing_durable inv cfg rt _ _ _) fun _ => ih _

theorem freeBlocksAllocatedToPool_durable
    (pool : PrivatePoolId) : Preserves I (freeBlocksAllocatedToPool cfg rt pool) := by
  refine .bind .get fun _ => .bind (freeSegments_durable inv cfg rt _ _) fun _ => ?_
  refine .bind .get fun _ => ?_
  exact .bind (torchCheck_preserves _ _) fun _ => .pure _

theorem allocateRecorded_durable (pool : PoolRef)
    (states : List BlockState) (curr : Option BlockId) (last : BlockId) :
    Preserves I (allocateRecorded cfg pool states curr last) := by
  induction states generalizing curr last with
  | nil => exact .pure _
  | cons state rest ih =>
    unfold allocateRecorded
    split
    · refine .bind (inv.elsewhere fun _ => rfl) fun _ => ?_
      refine .bind (allocFoundBlock_durable inv cfg _ _ _) fun _ => .bind .get fun _ => ?_
      refine .bind (torchCheck_preserves _ _) fun _ => .bind .get fun _ => ?_
      refine .bind (torchCheck_preserves _ _) fun _ => .bind .get fun _ => ?_
      exact .bind (torchCheck_preserves _ _) fun _ => ih _ _
    · exact .throw _

theorem freeRecorded_durable (states : List BlockState)
    (curr : Option BlockId) (rr : RestoreResult) :
    Preserves I (freeRecorded cfg rt states curr rr) := by
  induction states generalizing curr rr with
  | nil => exact .pure _
  | cons state rest ih =>
    unfold freeRecorded
    split
    · refine .ite (.bind .get fun _ => ih _ _) (.bind (free_durable inv cfg rt _) fun _ => ?_)
      refine .bind .get fun _ => .bind (torchCheck_preserves _ _) fun _ => ?_
      refine .bind (torchCheck_preserves _ _) fun _ => .bind (torchCheck_preserves _ _) fun _ => ?_
      exact ih _ _
    · exact .throw _

theorem restoreSegments_durable
    (ptrsToBlocks : List (Nat × BlockId)) (segments : List SegmentState) (rr : RestoreResult) :
    Preserves I (restoreSegments cfg rt ptrsToBlocks segments rr) := by
  induction segments generalizing rr with
  | nil => exact .pure _
  | cons segment rest ih =>
    unfold restoreSegments
    split
    · split
      · refine .bind (.bind .get fun _ => ?_) fun _ => ih _
        refine .bind (allocateRecorded_durable inv cfg _ _ _ _) fun _ => ?_
        exact .bind .get fun _ => freeRecorded_durable inv cfg rt _ _ _
      · exact .throw _
    · exact .throw _

theorem setCheckpointPoolState_durable
    (pps : PrivatePoolState) : Preserves I (setCheckpointPoolState cfg rt pps) := by
  refine .bind .get fun _ => .bind (torchCheck_preserves _ _) fun _ => ?_
  split
  · refine .bind (freeBlocksAllocatedToPool_durable inv cfg rt _) fun _ => .bind .get fun _ => ?_
    exact restoreSegments_durable inv cfg rt _ _ _
  · exact .throw _

/-! ### Every operation -/

theorem Step.run_durable (step : Step) : Preserves I step.run := by
  obtain ⟨cfg, rt, op⟩ := step
  cases op with
  | malloc device origSize stream =>
    exact .bind (malloc_durable inv cfg rt device origSize stream) fun _ => .pure _
  | free block => exact .bind (free_durable inv cfg rt block) fun _ => .pure _
  | recordStream block stream => exact .bind (recordStream_durable inv block stream) fun _ => .pure _
  | emptyCache => exact .bind (releaseCachedBlocks_durable inv cfg rt) fun _ => .pure _
  | setMemoryFraction allowed =>
    exact .bind (inv.elsewhere fun _ => rfl) fun _ => .pure _
  | beginAllocateToPool id filter =>
    exact .bind (beginAllocateToPool_durable inv id filter) fun _ => .pure _
  | endAllocateToPool id => exact .bind (endAllocateToPool_durable inv id) fun _ => .pure _
  | releasePool id => exact .bind (releasePool_durable inv id) fun _ => .pure _
  | getCheckpointState id => exact .bind (getCheckpointState_durable rt id) fun _ => .pure _
  | setCheckpointPoolState pps =>
    exact .bind (setCheckpointPoolState_durable inv cfg rt pps) fun _ => .pure _

end TorchGcu.GCUCachingAllocator

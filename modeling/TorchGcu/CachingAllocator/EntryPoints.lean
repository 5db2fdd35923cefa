import TorchGcu.CachingAllocator.Issued
import TorchGcu.CachingAllocator.Rounding
import TorchGcu.CachingAllocator.Runs

/-! The entry points through which memory is asked of `NativeCachingAllocator`, and how
much they hand out. -/
namespace TorchGcu.GCUCachingAllocator
open ProgramLogic

/-- One `DeviceCachingAllocator` for each device, the blocks handed out by their
addresses, and the memory obtained from the devices without caching. -/
structure NativeCachingAllocator where
  deviceAllocator : List State := []
  allocatedBlocks : Nat → Option (DeviceIndex × BlockId) := fun _ => none
  uncached : List Range := []

/-- What a call finds in its thread: the runtime, the current device and streams, and
whether the environment forbids caching. -/
structure Caller where
  rt : Runtime
  device : DeviceIndex := 0
  currentStream : DeviceIndex → StreamId := fun _ => 0
  forceUncachedAllocator : Bool := false

/-- The memory behind the pointer that an entry point returns. -/
inductive Memory where
  | null
  | block (device : DeviceIndex) (b : BlockId)
  | uncached (range : Range)
deriving DecidableEq, Repr

abbrev NativeM := EStateM Err NativeCachingAllocator

namespace NativeCachingAllocator

def allocatorOf (native : NativeCachingAllocator) (device : DeviceIndex) : State :=
  native.deviceAllocator.getD device {}

def setAllocator (native : NativeCachingAllocator) (device : DeviceIndex) (st : State) :
    NativeCachingAllocator :=
  { native with deviceAllocator := native.deviceAllocator.set device st }

def addAllocatedBlock (native : NativeCachingAllocator) (device : DeviceIndex) (block : BlockId) :
    NativeCachingAllocator :=
  { native with
    allocatedBlocks := Function.update native.allocatedBlocks
      ((native.allocatorOf device).block block).ptr (some (device, block)) }

/-- How many bytes the memory has. -/
def sizeOf (native : NativeCachingAllocator) : Memory → Nat
  | .null => 0
  | .block device b => ((native.allocatorOf device).block b).size
  | .uncached range => range.size

end NativeCachingAllocator

/-- `NativeCachingAllocator::malloc`: allocates a block safe to use from the stream. -/
def nativeMalloc (cfg : GCUAllocatorConfig) (rt : Runtime) (device : DeviceIndex) (size : Nat)
    (stream : StreamId) : NativeM Memory := do
  torchCheckDevice (← get) device
  let block ← zoom (·.allocatorOf device) (fun st native => native.setAllocator device st)
    (malloc cfg rt device size stream)
  modify (·.addAllocatedBlock device block)
  return .block device block
where
  torchCheckDevice (native : NativeCachingAllocator) (device : DeviceIndex) : NativeM Unit :=
    TorchGcu.internalAssert (decide (device < native.deviceAllocator.length))
      "Allocator not initialized for device : did you call init?"

def oneExaBytes : Nat := 1152921504606846976

def allocate (cfg : GCUAllocatorConfig) (caller : Caller) (size : Nat) : NativeM Memory := do
  -- The exception is an `OutOfMemoryError`.
  TorchGcu.torchCheck (decide (size < oneExaBytes))
    "GCU out of memory. Tried to allocate more than 1EB memory."
  TorchGcu.gcuCheck caller.rt.getDevice
  if caller.forceUncachedAllocator then
    let native ← get
    match caller.rt.topsMalloc 0
        ((native.allocatorOf caller.device).allocations.append native.uncached) size with
    | .error error => throw (.gcuError error)
    | .ok ptr => do
      set { native with uncached := ⟨ptr, size⟩ :: native.uncached }
      return .uncached ⟨ptr, size⟩
  else if size ≠ 0 then
    nativeMalloc cfg caller.rt caller.device size (caller.currentStream caller.device)
  else return .null

def rawAllocWithStream (cfg : GCUAllocatorConfig) (caller : Caller) (nbytes : Nat)
    (stream : StreamId) : NativeM Memory := do
  if nbytes = 0 then return .null
  TorchGcu.gcuCheck caller.rt.getDevice
  nativeMalloc cfg caller.rt caller.device nbytes stream

def rawAlloc (cfg : GCUAllocatorConfig) (caller : Caller) (nbytes : Nat) : NativeM Memory := do
  if nbytes = 0 then return .null
  TorchGcu.gcuCheck caller.rt.getDevice
  nativeMalloc cfg caller.rt caller.device nbytes (caller.currentStream caller.device)

def topsatenMalloc (cfg : GCUAllocatorConfig) (caller : Caller) (nbytes : Nat) : NativeM Memory :=
  rawAlloc cfg caller nbytes

def topsatenMallocAsync (cfg : GCUAllocatorConfig) (caller : Caller) (nbytes : Nat)
    (stream : StreamId) : NativeM Memory :=
  rawAllocWithStream cfg caller nbytes stream

inductive EntryPoint where
  | allocate
  | rawAlloc
  | rawAllocWithStream (stream : StreamId)
  | topsatenMalloc
  | topsatenMallocAsync (stream : StreamId)
deriving DecidableEq, Repr

def EntryPoint.request (entry : EntryPoint) (cfg : GCUAllocatorConfig) (caller : Caller)
    (nbytes : Nat) : NativeM Memory :=
  match entry with
  | .allocate => GCUCachingAllocator.allocate cfg caller nbytes
  | .rawAlloc => GCUCachingAllocator.rawAlloc cfg caller nbytes
  | .rawAllocWithStream stream => GCUCachingAllocator.rawAllocWithStream cfg caller nbytes stream
  | .topsatenMalloc => GCUCachingAllocator.topsatenMalloc cfg caller nbytes
  | .topsatenMallocAsync stream => GCUCachingAllocator.topsatenMallocAsync cfg caller nbytes stream

/-- The runtime never gives memory of zero bytes. -/
def Runtime.GivesBytes (rt : Runtime) : Prop := ∀ call live ptr, rt.topsMalloc call live 0 ≠ .ok ptr

theorem Runtime.roomAt_givesBytes (base : Nat) : (Runtime.roomAt base).GivesBytes :=
  fun call live ptr answer =>
    absurd ((Runtime.roomAt base).topsMalloc_fresh call live 0 ptr answer).2.1 (lt_irrefl 0)

variable {cfg : GCUAllocatorConfig} {rt : Runtime} {st : State} {params : AllocParams}

/-! ### What a request finds -/

/-- What `alloc_found_block` hands out has the size asked for, or that of the block found. -/
theorem allocFoundBlock_size {found : BlockId} (issued : st.Issued) (chosen : params.block = some found) (origSize : Nat)
    (split : Bool) :
    wp (allocFoundBlock cfg params origSize split)
      (fun b st' => (st'.block b).size = if split then params.size else (st.block found).size)
      (fun _ st' => st' = st ∧ (params.err ≠ none ∨ (st.block found).ptr = 0)) st := by
  cases split with
  | true =>
    refine wp_mono (allocFoundBlock_carved origSize chosen st) ?_ fun _ _ => id
    rintro b st' ⟨rfl, nonnull, rfl⟩
    have old : found ≠ st.nextBlock := by
      rintro rfl
      exact nonnull (by simp [State.block, issued.dead])
    have created : ((st.splitBlock params found).1.blocks st.nextBlock).map (·.size)
        = some params.size := by
      simp only [State.splitBlock, insertIntoBlocks_blocks, modifyBlock_blocks]
      cases prevEq : (st.block found).prev with
      | none => simp [State.setNext, State.newBlock, old, old.symm, State.modifyBlock]
      | some p =>
        by_cases isNew : p = st.nextBlock
        · subst isNew
          simp [State.setNext, State.newBlock, old, old.symm, State.modifyBlock]
        · simp [State.setNext, State.newBlock, old.symm, State.modifyBlock, Ne.symm isNew]
    obtain ⟨k, is, size⟩ := Option.map_eq_some_iff.mp created
    rw [← Spared.carved_blocks] at is
    simp [State.handedOut, State.block, State.modifyStats, State.insertActive, State.modifyBlock, is,
      size]
  | false =>
    refine wp_mono (allocFoundBlock_kept origSize chosen st) ?_ fun _ _ => id
    rintro b st' ⟨rfl, nonnull, rfl⟩
    have kept : (st.kept params b).blocks = st.blocks := by
      simp only [State.kept]
      split <;> rfl
    cases is : st.blocks b with
    | none => exact absurd (by simp [State.block, is]) nonnull
    | some k =>
      simp [State.handedOut, State.block, State.modifyStats, State.insertActive, State.modifyBlock,
        kept, is]

/-- Parameters for a request of a rounded size. -/
def AllocParams.Asks (params : AllocParams) (size : Nat) : Prop :=
  params.size = size ∧ params.allocSize = getAllocationSize size

/-- A search for a block of a size has found one, or goes on with what it asks for. -/
structure Serves (size : Nat) (result : Bool × AllocParams) (st : State) : Prop where
  issued : st.Issued
  asks : result.2.Asks size
  large : result.1 = true → ∃ b, result.2.block = some b ∧ size ≤ (st.block b).size

theorem getFreeBlock_serves {size : Nat} (issued : st.Issued) (asks : params.Asks size) :
    wp (getFreeBlock cfg params) (Serves size) (fun _ _ => True) st := by
  have counted := issued.countSearch cfg params.pool
  have missed : Serves size (false, params) (st.countSearch cfg params.pool) :=
    ⟨counted, asks, fun found => by cases found⟩
  simp only [getFreeBlock, wp_bind, wp_modify, wp_get]
  split
  · exact missed
  · rename_i found lower
    simp only [wp_ite, wp_pure, wp_bind, wp_set]
    refine ⟨fun _ => missed, fun stream => ⟨fun _ => missed, fun _ => ⟨fun _ => missed, fun _ => ?_⟩⟩⟩
    refine ⟨counted, asks, fun _ => ⟨found, rfl, ?_⟩⟩
    have large := (lowerBound_some lower).2 (not_not.mp stream)
    exact asks.1 ▸ large

theorem searchPool_serves {size : Nat} (issued : st.Issued) (asks : params.Asks size) :
    wp (searchPool cfg rt params) (Serves size) (fun _ _ => True) st := by
  rw [searchPool, wp_bind]
  refine wp_mono (getFreeBlock_serves issued asks) (fun result st' serves => ?_) fun _ _ => id
  obtain ⟨found, params'⟩ := result
  cases found with
  | true => exact serves
  | false =>
    simp only [Bool.false_eq_true, if_false]
    refine (triggerFreeMemoryCallbacks_issued cfg rt _ _).seq serves.issued (fun _ _ _ => trivial) ?_
    intro freed st'' issued''
    rw [wp_ite]
    exact ⟨fun _ => getFreeBlock_serves issued'' serves.asks,
      fun _ => ⟨issued'', serves.asks, fun found => by cases found⟩⟩

theorem allocBlock_serves (gives : rt.GivesBytes) {size : Nat} (word : size < 2 ^ 64)
    (call : Nat) (isRetry : Bool) (issued : st.Issued) (asks : params.Asks size) :
    wp (allocBlock cfg rt call params isRetry) (Serves size) (fun _ _ => True) st := by
  have begun : Preserves State.Issued (allocBlockBegin rt call params isRetry) := by
    refine .bind (gcuCheck_preserves _) fun _ => ?_
    exact .ite (.bind (.modify fun _ issued => issued) fun _ => .bind .get fun _ => .pure _)
      (.bind .get fun _ => .pure _)
  refine begun.seq issued (fun _ _ _ => trivial) fun may st' issued' => ?_
  rw [wp_ite]
  refine ⟨fun _ => ?_, fun _ => ⟨issued', asks, fun found => by cases found⟩⟩
  rw [wp_bind, wp_get]
  unfold allocBlockEnd
  split
  · exact ⟨issued', asks, fun found => by cases found⟩
  · trivial
  · rename_i ptr answer
    have positive : 0 < params.allocSize := Nat.pos_of_ne_zero fun zero =>
      gives _ _ _ (zero ▸ answer)
    simp only [wp_bind, wp_get, wp_modify, wp_pure]
    refine ⟨issued'.newSegment cfg params ptr, asks, fun _ => ⟨st'.nextBlock, rfl, ?_⟩⟩
    have whole : ((st'.newSegment cfg params ptr).block st'.nextBlock).size = params.allocSize := by
      simp [State.block, newSegment_blocks]
    rw [whole, asks.2]
    exact le_getAllocationSize word (asks.2 ▸ positive)

theorem allocParams_asks (device : DeviceIndex) (origSize : Nat) (stream : StreamId)
    (issued : st.Issued) :
    wp (allocParams cfg rt device origSize stream)
      (fun params st' => params.Asks (roundSize cfg origSize) ∧ st'.Issued) (fun _ _ => True) st := by
  simp only [allocParams, wp_bind, wp_get, wp_ite, wp_pure]
  have pool : ∀ st' : State, st'.Issued → wp (getPool (roundSize cfg origSize) stream)
      (fun pool st'' => AllocParams.Asks
        { device, size := roundSize cfg origSize, stream, pool,
          allocSize := getAllocationSize (roundSize cfg origSize) } (roundSize cfg origSize) ∧
        st''.Issued) (fun _ _ => True) st' := fun st' issued' =>
    wp_mono (getPool_issued _ stream st' issued') (fun _ _ issued'' => ⟨⟨rfl, rfl⟩, issued''⟩)
      fun _ _ _ => trivial
  exact ⟨fun _ => wp_mono (processEvents_issued rt st issued) (fun _ => pool) fun _ _ _ => trivial,
    fun _ => pool st issued⟩

theorem mallocRetry_serves (gives : rt.GivesBytes) {size : Nat} (word : size < 2 ^ 64)
    (issued : st.Issued) (asks : params.Asks size) :
    wp (mallocRetry cfg rt params) (Serves size) (fun _ _ => True) st := by
  have second : wp (mallocSecond cfg rt params) (Serves size) (fun _ _ => True) st := by
    refine (releaseAvailableCachedBlocks_issued cfg rt params).seq issued (fun _ _ _ => trivial) ?_
    intro freed st' issued'
    rw [wp_ite]
    exact ⟨fun _ => allocBlock_serves gives word 1 false issued' asks,
      fun _ => ⟨issued', asks, fun found => by cases found⟩⟩
  rw [mallocRetry, wp_bind]
  refine wp_mono second (fun result st₁ serves => ?_) fun _ _ => id
  obtain ⟨found, params'⟩ := result
  cases found with
  | true => exact serves
  | false =>
    simp only [Bool.false_eq_true, if_false, wp_bind, wp_get, wp_ite, wp_pure]
    refine ⟨fun _ => ?_, fun _ => ⟨serves.issued, serves.asks, fun found => by cases found⟩⟩
    exact wp_mono (releaseCachedBlocks_issued cfg rt st₁ serves.issued)
      (fun _ _ issued₂ => allocBlock_serves gives word 2 true issued₂ serves.asks) fun _ _ _ => trivial

theorem mallocSearch_serves (gives : rt.GivesBytes) (device : DeviceIndex) {origSize : Nat}
    (word : origSize < 2 ^ 64) (stream : StreamId) (issued : st.Issued) :
    wp (mallocSearch cfg rt device origSize stream) (Serves (roundSize cfg origSize))
      (fun _ _ => True) st := by
  have rounded := roundSize_lt cfg word
  rw [mallocSearch, wp_bind, mallocFirst, wp_bind]
  refine wp_mono (allocParams_asks device origSize stream issued) (fun params st₁ ready => ?_)
    fun _ _ => id
  obtain ⟨asks, issued₁⟩ := ready
  rw [wp_bind]
  refine wp_mono (searchPool_serves issued₁ asks) (fun result st₂ serves => ?_) fun _ _ => id
  obtain ⟨found, params'⟩ := result
  cases found with
  | true => exact serves
  | false =>
    have attempted : ∀ st₃ : State, st₃.Issued →
        wp (allocBlock cfg rt 0 params' false)
          (fun result st' =>
            (result.1 = true → Serves (roundSize cfg origSize) (true, result.2) st') ∧
              (¬ result.1 = true → wp (mallocRetry cfg rt result.2)
                (Serves (roundSize cfg origSize)) (fun _ _ => True) st'))
          (fun _ _ => True) st₃ := fun st₃ issued₃ => by
      refine wp_mono (allocBlock_serves gives rounded 0 false issued₃ serves.asks)
        (fun result st₄ serves₄ => ?_) fun _ _ => id
      obtain ⟨found, params''⟩ := result
      cases found with
      | true => exact ⟨fun _ => serves₄, fun missed => absurd rfl missed⟩
      | false =>
        exact ⟨fun taken => (by cases taken),
          fun _ => mallocRetry_serves gives rounded serves₄.issued serves₄.asks⟩
    simp only [Bool.false_eq_true, if_false, wp_bind, wp_get, wp_ite, wp_pure]
    exact ⟨fun _ => wp_mono (garbageCollectCachedBlocks_issued cfg rt st₂ serves.issued)
      (fun _ => attempted) fun _ _ _ => trivial, fun _ => attempted st₂ serves.issued⟩

theorem reportOutOfMemory_raises {α : Type} {normal : α → State → Prop} :
    wp (reportOutOfMemory rt params) normal (fun _ _ => True) st := by
  simp only [reportOutOfMemory, wp_bind, wp_internalAssert]
  refine ⟨fun _ => ?_, fun _ => trivial⟩
  split
  · trivial
  · trivial

/-- Whatever state the allocator is in, the block has at least the rounded size. -/
theorem malloc_size (gives : rt.GivesBytes) (device : DeviceIndex) {origSize : Nat}
    (word : origSize < 2 ^ 64) (stream : StreamId) (issued : st.Issued) :
    wp (malloc cfg rt device origSize stream)
      (fun b st' => roundSize cfg origSize ≤ (st'.block b).size) (fun _ _ => True) st := by
  rw [malloc, wp_bind]
  refine wp_mono (mallocSearch_serves gives device word stream issued) (fun result st' serves => ?_)
    fun _ _ => id
  obtain ⟨found, params⟩ := result
  rw [wp_ite]
  refine ⟨fun _ => reportOutOfMemory_raises, fun taken => ?_⟩
  obtain ⟨b, chosen, large⟩ := serves.large (by simpa using taken)
  rw [wp_bind, wp_get]
  refine wp_mono (allocFoundBlock_size serves.issued chosen origSize _) (fun b' st'' size => ?_)
    fun _ _ _ => trivial
  rw [size]
  split
  · exact serves.asks.1.ge
  · exact large

/-! ### A size that wraps -/

/-- The parameters of a request whose size has wrapped to nothing. -/
def wrappedParams (stream : StreamId) : AllocParams :=
  { device := 0, size := 0, stream, pool := smallBlocks, allocSize := kSmallBuffer }

theorem mallocSearch_wrapped (cfg : GCUAllocatorConfig) {nbytes : Nat}
    (wrapped : roundSize cfg nbytes = 0) (stream : StreamId) :
    wp (mallocSearch cfg (.roomAt 4096) 0 nbytes stream)
      (fun result st' => result = (true, { wrappedParams stream with block := some 0 }) ∧
        st' = State.newSegment {} cfg (wrappedParams stream) 4096)
      (fun _ _ => False) {} := by
  have params : (allocParams cfg (.roomAt 4096) 0 nbytes stream).run {} =
      .ok (wrappedParams stream) {} := by
    simp only [allocParams, wrapped]
    rfl
  have searched : (searchPool cfg (.roomAt 4096) (wrappedParams stream)).run {} =
      .ok (false, wrappedParams stream) {} := rfl
  have begun : (allocBlockBegin (.roomAt 4096) 0 (wrappedParams stream) false).run {} = .ok true {} := rfl
  have fresh : Fresh [] 4096 kSmallBuffer := by decide
  have room : (Runtime.roomAt 4096).topsMalloc 0 [] (wrappedParams stream).allocSize = .ok 4096 := by
    simp only [Runtime.roomAt]
    exact if_pos fresh
  rw [mallocSearch, wp_bind, mallocFirst, wp_bind, wp_run params, wp_bind, wp_run searched]
  simp only [Bool.false_eq_true, if_false, wp_bind, wp_get, Bool.false_and]
  rw [allocBlock, wp_bind, wp_run begun, if_pos rfl, wp_bind, wp_get, room]
  exact ⟨rfl, rfl⟩

/-- A fresh allocator answers such a request with a block without any bytes. -/
theorem malloc_wrapped (cfg : GCUAllocatorConfig) {nbytes : Nat}
    (wrapped : roundSize cfg nbytes = 0) (stream : StreamId) :
    wp (malloc cfg (.roomAt 4096) 0 nbytes stream) (fun b st' => (st'.block b).size = 0)
      (fun _ _ => False) {} := by
  rw [malloc, wp_bind]
  refine wp_mono (mallocSearch_wrapped cfg wrapped stream) ?_ (fun _ _ => id)
  rintro _ _ ⟨rfl, rfl⟩
  rw [wp_ite]
  refine ⟨by simp, fun _ => ?_⟩
  have block : (State.newSegment {} cfg (wrappedParams stream) 4096).blocks 0 = some
      { stream := stream, size := kSmallBuffer, pool := smallBlocks, ptr := 4096 } := by
    rw [newSegment_blocks]
    rfl
  have split : shouldSplit cfg ((State.newSegment {} cfg (wrappedParams stream) 4096).block 0) 0
      = true := by
    simp only [State.block, block, Option.getD_some, shouldSplit, smallBlocks, if_true]
    decide
  rw [wp_bind, wp_get]
  show wp (allocFoundBlock cfg { wrappedParams stream with block := some 0 } nbytes
    (shouldSplit cfg ((State.newSegment {} cfg (wrappedParams stream) 4096).block 0) 0)) _ _ _
  rw [split]
  have issued : (State.newSegment {} cfg (wrappedParams stream) 4096).Issued :=
    State.Issued.newSegment (fun _ live => by simp [State.Live] at live) cfg _ 4096
  refine wp_mono (allocFoundBlock_size issued rfl nbytes true) (fun _ _ => id) ?_
  rintro _ _ ⟨-, failed | null⟩
  · exact failed rfl
  · simp [State.block, block] at null

/-! ### Every entry point -/

theorem Reachable.issued {meets : World → Step → Prop} {w : World} (run : Reachable meets w) :
    w.st.Issued := by
  induction run with
  | start => exact fun _ live => by simp [State.Live] at live
  | next _ legal met ih => exact World.next_state (Step.run_issued _ _ ih)

/-- Every device's allocator is in a state that its operations can reach. -/
def NativeCachingAllocator.Reached (native : NativeCachingAllocator) : Prop :=
  ∀ st ∈ native.deviceAllocator, ∃ w, Reachable (fun _ _ => True) w ∧ w.st = st

namespace NativeCachingAllocator
variable {native : NativeCachingAllocator} {device : DeviceIndex}

theorem Reached.issued (reached : native.Reached) (known : device < native.deviceAllocator.length) :
    (native.allocatorOf device).Issued := by
  have member : native.allocatorOf device ∈ native.deviceAllocator := by
    simp [allocatorOf, known]
  obtain ⟨w, run, is⟩ := reached _ member
  exact is ▸ run.issued

theorem allocatorOf_setAllocator (known : device < native.deviceAllocator.length) (st : State) :
    (native.setAllocator device st).allocatorOf device = st := by
  simp [allocatorOf, setAllocator, known]

end NativeCachingAllocator

/-- The bytes handed out are as many as the size is rounded to. -/
theorem nativeMalloc_size (gives : rt.GivesBytes) {native : NativeCachingAllocator}
    (reached : native.Reached) (device : DeviceIndex) {size : Nat} (word : size < 2 ^ 64) (stream : StreamId) :
    wp (nativeMalloc cfg rt device size stream)
      (fun memory native' => roundSize cfg size ≤ native'.sizeOf memory) (fun _ _ => True)
      native := by
  simp only [nativeMalloc, nativeMalloc.torchCheckDevice, wp_bind, wp_get,
    TorchGcu.wp_internalAssert, wp_zoom, wp_modify, wp_pure, decide_eq_true_eq]
  refine ⟨fun known => ?_, fun _ => trivial⟩
  refine wp_mono (malloc_size gives device word stream (reached.issued known)) (fun b st' large => ?_)
    fun _ _ => id
  show _ ≤ (((native.setAllocator device st').allocatorOf device).block b).size
  rwa [NativeCachingAllocator.allocatorOf_setAllocator known]

theorem allocate_size {native : NativeCachingAllocator} (reached : native.Reached)
    (caller : Caller) (gives : caller.rt.GivesBytes) {size : Nat} (positive : 0 < size) :
    wp (allocate cfg caller size) (fun memory native' => size ≤ native'.sizeOf memory)
      (fun _ _ => True) native := by
  simp only [allocate, wp_bind, TorchGcu.wp_torchCheck, decide_eq_true_eq, TorchGcu.wp_gcuCheck,
    wp_ite]
  refine ⟨fun bounded => ⟨fun _ => ⟨fun _ => ?_, fun _ => ⟨fun _ => ?_, fun zero => ?_⟩⟩,
    fun _ _ => trivial⟩, fun _ => trivial⟩
  · rw [wp_get]
    split
    · trivial
    · exact le_refl size
  · have small : size < 2 ^ 60 := bounded
    exact wp_mono (nativeMalloc_size gives reached _ (small.trans (by decide)) _)
      (fun _ _ enough => (le_roundSize cfg small).trans enough) fun _ _ => id
  · omega

/-- An entry point that does not limit the request hands out the rounded size. -/
theorem request_size {native : NativeCachingAllocator} (reached : native.Reached)
    (caller : Caller) (gives : caller.rt.GivesBytes) {entry : EntryPoint}
    (unlimited : entry ≠ .allocate) {nbytes : Nat} (positive : 0 < nbytes) (word : nbytes < 2 ^ 64) :
    wp (entry.request cfg caller nbytes)
      (fun memory native' => roundSize cfg nbytes ≤ native'.sizeOf memory) (fun _ _ => True)
      native := by
  have raw : ∀ stream, wp (rawAllocWithStream cfg caller nbytes stream)
      (fun memory native' => roundSize cfg nbytes ≤ native'.sizeOf memory) (fun _ _ => True)
      native := fun stream => by
    rw [rawAllocWithStream, if_neg positive.ne', wp_bind, TorchGcu.wp_gcuCheck]
    exact ⟨fun _ => nativeMalloc_size gives reached _ word _, fun _ _ => trivial⟩
  cases entry with
  | allocate => exact absurd rfl unlimited
  | rawAlloc => exact raw _
  | rawAllocWithStream stream => exact raw stream
  | topsatenMalloc => exact raw _
  | topsatenMallocAsync stream => exact raw stream

/-- A fresh allocator for one device that has room. -/
def freshNative : NativeCachingAllocator := { deviceAllocator := [{}] }

theorem freshNative_reached : freshNative.Reached := fun st member => by
  rw [freshNative, List.mem_singleton] at member
  exact ⟨{}, .start, member.symm⟩

theorem request_wrapped {entry : EntryPoint} (unlimited : entry ≠ .allocate) {nbytes : Nat}
    (positive : 0 < nbytes) (wrapped : roundSize cfg nbytes = 0) :
    wp (entry.request cfg { rt := .roomAt 4096 } nbytes)
      (fun memory native' => native'.sizeOf memory = 0) (fun _ _ => False) freshNative := by
  have raw : ∀ stream, wp (rawAllocWithStream cfg { rt := .roomAt 4096 } nbytes stream)
      (fun memory native' => native'.sizeOf memory = 0) (fun _ _ => False) freshNative :=
    fun stream => by
      rw [rawAllocWithStream, if_neg positive.ne', wp_bind, TorchGcu.wp_gcuCheck]
      refine ⟨fun _ => ?_, fun _ failed => by cases failed⟩
      simp only [nativeMalloc, nativeMalloc.torchCheckDevice, wp_bind, wp_get,
        TorchGcu.wp_internalAssert, wp_zoom, wp_modify, wp_pure, decide_eq_true_eq]
      refine ⟨fun _ => ?_, fun unknown => by cases unknown⟩
      exact wp_mono (malloc_wrapped cfg wrapped stream) (fun _ _ zero => zero) fun _ _ => id
  cases entry with
  | allocate => exact absurd rfl unlimited
  | rawAlloc => exact raw _
  | rawAllocWithStream stream => exact raw stream
  | topsatenMalloc => exact raw _
  | topsatenMallocAsync stream => exact raw stream

/-- An entry point hands out at least what is asked of it, in every state and of a runtime that
gives no memory of zero bytes, unless it does not limit the request and the request lies within
the last rounding step below 2^64. -/
theorem requests_are_met (cfg : GCUAllocatorConfig) (entry : EntryPoint) {nbytes : Nat}
    (positive : 0 < nbytes) (word : nbytes < 2 ^ 64) :
    (∀ native : NativeCachingAllocator, native.Reached → ∀ caller, caller.rt.GivesBytes →
      wp (entry.request cfg caller nbytes) (fun memory native' => nbytes ≤ native'.sizeOf memory)
        (fun _ _ => True) native) ↔
      entry = .allocate ∨ nbytes ≤ 2 ^ 64 - roundStep cfg nbytes := by
  constructor
  · intro met
    by_contra neither
    obtain ⟨unlimited, last⟩ := not_or.mp neither
    rcases roundSize_cases cfg word with ⟨below, _⟩ | ⟨_, wrapped⟩
    · exact last below
    have enough := met freshNative freshNative_reached { rt := .roomAt 4096 }
      (Runtime.roomAt_givesBytes _)
    have none := request_wrapped unlimited positive wrapped
    refine wp_false (wp_mono (wp_and enough none) ?_ fun _ _ both => both.2)
    exact fun _ _ both => by omega
  · rintro (rfl | below) native reached caller gives
    · exact allocate_size reached caller gives positive
    by_cases limited : entry = .allocate
    · exact limited ▸ allocate_size reached caller gives positive
    rcases roundSize_cases cfg word with ⟨_, le⟩ | ⟨last, _⟩
    · exact wp_mono (request_size reached caller gives limited positive word)
        (fun _ _ enough => le.trans enough) fun _ _ => id
    · omega

/-- The largest request that rounding does not wrap: what is asked of the device wraps. -/
theorem requests_are_met_largest :
    getAllocationSize (roundSize {} (2 ^ 64 - 512)) = 0 ∧
      wp (EntryPoint.rawAlloc.request {} { rt := .roomAt 4096 } (2 ^ 64 - 512))
        (fun memory native' => 2 ^ 64 - 512 ≤ native'.sizeOf memory) (fun _ _ => True) freshNative :=
  ⟨by decide, (requests_are_met {} .rawAlloc (by decide) (by decide)).mpr (.inr (by decide))
    freshNative freshNative_reached { rt := .roomAt 4096 } (Runtime.roomAt_givesBytes _)⟩

/-- Asked for all bytes but one, `raw_alloc` hands out a block of none. -/
theorem raw_alloc_hands_out_nothing :
    freshNative.Reached ∧
      wp (EntryPoint.rawAlloc.request {} { rt := .roomAt 4096 } (2 ^ 64 - 1))
        (fun memory native' => native'.sizeOf memory < 2 ^ 64 - 1) (fun _ _ => False) freshNative := by
  refine ⟨freshNative_reached, ?_⟩
  have wrapped : roundSize {} (2 ^ 64 - 1) = 0 := by decide
  refine wp_mono (request_wrapped (by decide) (by decide) wrapped) (fun _ _ none => ?_) fun _ _ => id
  rw [none]
  decide

end TorchGcu.GCUCachingAllocator

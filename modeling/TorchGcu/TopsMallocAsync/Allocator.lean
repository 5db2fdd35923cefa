import Mathlib.Data.List.AList
import TorchGcu.Checks
import TorchGcu.Logic.Totals

/-! The stream-ordered allocator: `mallocAsync`, `freeAsync`, `recordStream` and the calls that
begin and end a capture. Each operation is handed the answers that the runtime gives while it
runs. -/
namespace TorchGcu.TopsMallocAsync
open ProgramLogic
open GCUCachingAllocator (Err TopsError StreamId)

abbrev Ptr := Nat
/-- Signed, as in the source: a negative index is refused by a check. -/
abbrev DeviceIndex := Int

structure UsageStream where
  stream : StreamId
  device : DeviceIndex
deriving DecidableEq, Repr

/-- `allocation` tells apart the allocations that were given the same address. -/
structure PtrUsage where
  recordedStreams : List UsageStream := []
  creationStream : UsageStream
  size : UInt64
  captured : Bool
  allocation : Nat
deriving DecidableEq, Repr

/-- An address as it was passed to `topsFreeAsync`. -/
structure Pass where
  ptr : Ptr
  stream : StreamId
  allocation : Nat
  captured : Bool
  captureUnderway : Bool
deriving DecidableEq, Repr

/-- The variables of the source, and after them how many addresses `topsMallocAsync` has given
out and which have been passed to `topsFreeAsync`. -/
structure Allocator where
  deviceCount : Int := 0
  devsInitializedFlags : DeviceIndex → Bool := fun _ => false
  dummyUnifyingFreeStreams : DeviceIndex → UsageStream := fun _ => ⟨0, 0⟩
  ptrInfo : AList fun _ : Ptr => PtrUsage := ∅
  ungraphedPtrsDeferFreeUntilNoCapture : List Ptr := []
  pytorchUsedBytes : DeviceIndex → UInt64 := fun _ => 0
  pytorchMemoryLimits : DeviceIndex → UInt64 := fun _ => 0
  captureFreeStreams : List UsageStream := []
  captureUnderway : Bool := false
  allocations : Nat := 0
  freed : List Pass := []

abbrev M := EStateM Err Allocator

/-! ### Answers of the runtime -/

structure SyncAnswers where
  eventCreate : Option TopsError := none
  eventRecord : Option TopsError := none
  streamWaitEvent : Option TopsError := none
  eventDestroy : Option TopsError := none

structure FreeAnswers where
  guard : Option TopsError := none
  syncCreation : SyncAnswers := {}
  guardUsage : UsageStream → Option TopsError := fun _ => none
  syncUsage : UsageStream → SyncAnswers := fun _ => {}
  topsFreeAsync : Option TopsError := none

structure LazyInitAnswers where
  guard : Option TopsError := none
  getMemPool : Option TopsError := none
  releaseThreshold : Option TopsError := none
  followEventDependencies : Option TopsError := none
  allowOpportunistic : Option TopsError := none
  allowInternalDependencies : Option TopsError := none
  streamFromPool : Except TopsError StreamId := .ok 0

structure MallocAnswers where
  guard : Option TopsError := none
  frees : Ptr → FreeAnswers := fun _ => {}
  lazyInit : LazyInitAnswers := {}
  getLastError : Option TopsError := none
  topsMallocAsync : Except TopsError Ptr
  memGetInfo : Except TopsError (Nat × Nat) := .ok (0, 0)

structure EndAnswers where
  guard : UsageStream → Option TopsError := fun _ => none
  sync : UsageStream → SyncAnswers := fun _ => {}

/-! ### Operations -/

namespace Allocator

def markInitialized (s : Allocator) (device : DeviceIndex) (dummy : StreamId) : Allocator :=
  { s with
    dummyUnifyingFreeStreams :=
      Function.update s.dummyUnifyingFreeStreams device ⟨dummy, device⟩
    pytorchUsedBytes := Function.update s.pytorchUsedBytes device 0
    pytorchMemoryLimits := Function.update s.pytorchMemoryLimits device (.ofNat (2 ^ 64 - 1))
    devsInitializedFlags := Function.update s.devsInitializedFlags device true }

def pass (s : Allocator) (ptr : Ptr) (usage : PtrUsage) (stream : StreamId) : Allocator :=
  { s with
    freed := ⟨ptr, stream, usage.allocation, usage.captured, s.captureUnderway⟩ :: s.freed }

/-- See Note [Avoid dangling free streams during GCU graph capture]. -/
def rememberFreeStream (s : Allocator) (stream : UsageStream) : Allocator :=
  if s.captureUnderway then
    { s with captureFreeStreams := s.captureFreeStreams.insert stream }
  else
    s

def forget (s : Allocator) (ptr : Ptr) (usage : PtrUsage) : Allocator :=
  { s with
    pytorchUsedBytes := Function.update s.pytorchUsedBytes usage.creationStream.device
      (s.pytorchUsedBytes usage.creationStream.device - usage.size)
    ptrInfo := s.ptrInfo.erase ptr }

def emplace (s : Allocator) (ptr : Ptr) (device : DeviceIndex) (size : UInt64)
    (stream : StreamId) : Allocator :=
  { s with
    ptrInfo := s.ptrInfo.insert ptr
      { creationStream := ⟨stream, device⟩, size, captured := s.captureUnderway,
        allocation := s.allocations }
    pytorchUsedBytes :=
      Function.update s.pytorchUsedBytes device (s.pytorchUsedBytes device + size)
    allocations := s.allocations + 1 }

variable (s : Allocator) (stream : UsageStream)

@[simp] theorem rememberFreeStream_ptrInfo :
    (s.rememberFreeStream stream).ptrInfo = s.ptrInfo := by
  unfold rememberFreeStream
  split <;> rfl

@[simp] theorem rememberFreeStream_deferred :
    (s.rememberFreeStream stream).ungraphedPtrsDeferFreeUntilNoCapture
      = s.ungraphedPtrsDeferFreeUntilNoCapture := by
  unfold rememberFreeStream
  split <;> rfl

@[simp] theorem rememberFreeStream_captureUnderway :
    (s.rememberFreeStream stream).captureUnderway = s.captureUnderway := by
  unfold rememberFreeStream
  split <;> rfl

@[simp] theorem rememberFreeStream_freed :
    (s.rememberFreeStream stream).freed = s.freed := by
  unfold rememberFreeStream
  split <;> rfl

end Allocator

def lazyInitDevice (rt : LazyInitAnswers) (device : DeviceIndex) : M Unit := do
  if (← get).devsInitializedFlags device then
    return
  else
    gcuCheck rt.guard
    gcuCheck rt.getMemPool
    gcuCheck rt.releaseThreshold
    gcuCheck rt.followEventDependencies
    gcuCheck rt.allowOpportunistic
    gcuCheck rt.allowInternalDependencies
    match rt.streamFromPool with
    | .error error => throw (.gcuError error)
    | .ok dufs => modify (·.markInitialized device dufs)

/-- The events, and the streams that wait, are the runtime's. -/
def syncRaw (rt : SyncAnswers) : M Unit := do
  gcuCheck rt.eventCreate
  gcuCheck rt.eventRecord
  gcuCheck rt.streamWaitEvent
  gcuCheck rt.eventDestroy

def syncStreams (guard : UsageStream → Option TopsError) (sync : UsageStream → SyncAnswers) :
    List UsageStream → M Unit
  | [] => return
  | stream :: rest => do
    gcuCheck (guard stream)
    syncRaw (sync stream)
    syncStreams guard sync rest

def topsFreeAsync (answer : Option TopsError) (ptr : Ptr) (usage : PtrUsage)
    (stream : UsageStream) : M Unit := do
  modify (·.pass ptr usage stream.stream)
  gcuCheck answer
  modify (·.rememberFreeStream stream)

/-- The two ways of `free_impl` to pass a pointer to the runtime. -/
def freeOnStream (rt : FreeAnswers) (ptr : Ptr) (usage : PtrUsage) : M Unit := do
  if usage.recordedStreams = [] then
    topsFreeAsync rt.topsFreeAsync ptr usage usage.creationStream
  else
    let dummy := (← get).dummyUnifyingFreeStreams usage.creationStream.device
    internalAssert (decide (dummy.device = usage.creationStream.device))
      "dummy_unifying_free_stream.device == creation_stream.device"
    syncRaw rt.syncCreation
    syncStreams rt.guardUsage rt.syncUsage usage.recordedStreams
    topsFreeAsync rt.topsFreeAsync ptr usage dummy

def freeImpl (rt : FreeAnswers) (ptr : Ptr) (usage : PtrUsage) : M Unit := do
  gcuCheck rt.guard
  freeOnStream rt ptr usage
  modify (·.forget ptr usage)

def ptrNotFound : Err := .internalAssert "ptr not found in ptr_info"

def freeAsync (getLastError : Option TopsError) (rt : FreeAnswers) (ptr : Ptr) : M Unit := do
  gcuCheck getLastError
  let s ← get
  match s.ptrInfo.lookup ptr with
  | none => throw ptrNotFound
  | some usage =>
    if s.captureUnderway && !usage.captured then
      -- See Note [Avoid freeing uncaptured ptrs during GCU graph capture]
      set { s with
        ungraphedPtrsDeferFreeUntilNoCapture :=
          s.ungraphedPtrsDeferFreeUntilNoCapture ++ [ptr] }
    else
      freeImpl rt ptr usage

/-- The loop of `mallocAsync` over the pointers whose free was deferred. -/
def freeDeferred (frees : Ptr → FreeAnswers) : List Ptr → M Unit
  | [] => return
  | ptr :: rest => do
    match (← get).ptrInfo.lookup ptr with
    | none => throw ptrNotFound
    | some usage =>
      freeImpl (frees ptr) ptr usage
      freeDeferred frees rest

def flushDeferred (frees : Ptr → FreeAnswers) : M Unit := do
  let s ← get
  if !s.captureUnderway && !s.ungraphedPtrsDeferFreeUntilNoCapture.isEmpty then
    freeDeferred frees s.ungraphedPtrsDeferFreeUntilNoCapture
    modify fun s => { s with ungraphedPtrsDeferFreeUntilNoCapture := [] }
  else
    return

/-- What `topsMallocAsync` answers, or the limit in its place. -/
def mallocAnswer (rt : MallocAnswers) (s : Allocator) (device : DeviceIndex) (size : UInt64) :
    Except TopsError Ptr :=
  if s.pytorchUsedBytes device + size > s.pytorchMemoryLimits device then
    .error .memoryAllocation
  else
    rt.topsMallocAsync

def mallocAsync (rt : MallocAnswers) (device : DeviceIndex) (size : UInt64)
    (stream : StreamId) : M Unit := do
  internalAssert (decide (0 ≤ device ∧ device < (← get).deviceCount)) "Invalid device index"
  gcuCheck rt.guard
  flushDeferred rt.frees
  lazyInitDevice rt.lazyInit device
  gcuCheck rt.getLastError
  let s ← get
  match mallocAnswer rt s device size with
  | .error .memoryAllocation =>
    match rt.memGetInfo with
    | .error error => throw (.gcuError error)
    | .ok (deviceFree, deviceTotal) => throw (.outOfMemory size.toNat deviceTotal deviceFree)
  | .error error => throw (.gcuError error)
  | .ok devPtr =>
    match s.ptrInfo.lookup devPtr with
    | some _ =>
      throw (.internalAssert "address returned by topsMallocAsync already exists in ptr_info")
    | none => set (s.emplace devPtr device size stream)

def recordStream (ptr : Ptr) (toRecord : UsageStream) : M Unit := do
  let s ← get
  if ptr = 0 then
    return
  else
    match s.ptrInfo.lookup ptr with
    | none => throw ptrNotFound
    | some usage =>
      if toRecord = usage.creationStream then
        return
      else
        set { s with
          ptrInfo := s.ptrInfo.insert ptr
            { usage with recordedStreams := usage.recordedStreams.insert toRecord } }

def beginAllocateToPool : M Unit := do
  let s ← get
  internalAssert s.captureFreeStreams.isEmpty "capture_free_streams.empty()"
  torchCheck (!s.captureUnderway) "Only one capture at a time is allowed in a process."
  set { s with captureUnderway := true }

def notUnderway (notification : String) : String :=
  "TopsMallocAsync::" ++ notification ++
    " called, but TopsMallocAsync::capture_underway is false."

def endAllocateToPool (rt : EndAnswers) (device : DeviceIndex) : M Unit := do
  let s ← get
  torchCheck (decide (0 ≤ device ∧ device < s.deviceCount)) "Invalid device argument."
  torchCheck s.captureUnderway (notUnderway "notifyCaptureAboutToEnd")
  syncStreams rt.guard rt.sync s.captureFreeStreams
  modify fun s => { s with captureFreeStreams := [] }
  torchCheck (← get).captureUnderway (notUnderway "notifyCaptureEnded")
  modify fun s => { s with captureUnderway := false }

/-! ### Sequences of operations -/

inductive Call where
  | mallocAsync (rt : MallocAnswers) (device : DeviceIndex) (size : UInt64) (stream : StreamId)
  | freeAsync (getLastError : Option TopsError) (rt : FreeAnswers) (ptr : Ptr)
  | recordStream (ptr : Ptr) (toRecord : UsageStream)
  | beginAllocateToPool
  | endAllocateToPool (rt : EndAnswers) (device : DeviceIndex)

def Call.run : Call → M Unit
  | .mallocAsync rt device size stream => TopsMallocAsync.mallocAsync rt device size stream
  | .freeAsync getLastError rt ptr => TopsMallocAsync.freeAsync getLastError rt ptr
  | .recordStream ptr toRecord => TopsMallocAsync.recordStream ptr toRecord
  | .beginAllocateToPool => TopsMallocAsync.beginAllocateToPool
  | .endAllocateToPool rt device => TopsMallocAsync.endAllocateToPool rt device

/-- The state after a call, whether it returns or raises. -/
def Allocator.after (s : Allocator) (call : Call) : Allocator :=
  match call.run s with
  | .ok _ t => t
  | .error _ t => t

/-- Calls hold `general_mutex`, so one call is one step. -/
inductive Called : Allocator → Call → Allocator → Prop where
  | call {s : Allocator} (call : Call) : Called s call (s.after call)

/-- The allocator after `init`. -/
def init (devCount : Nat) : Allocator := { deviceCount := devCount }

end TorchGcu.TopsMallocAsync

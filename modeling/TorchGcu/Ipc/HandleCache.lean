import Mathlib.Logic.Function.Basic
import TorchGcu.Checks
import TorchGcu.Logic.Ledger

/-! The cache of opened IPC handles in the receiving process: `getIpcDevPtr`, the deleter of
the pointers it returns, and the control blocks of `std::shared_ptr` between the two. The
n-th handle opened is named n in the ledger. -/
namespace TorchGcu.Ipc
open ProgramLogic
open GCUCachingAllocator (Err TopsError DeviceIndex)

/-- A `std::string` of bytes. -/
abbrev Bytes := List UInt8
/-- `topsIpcMemHandle_t`. -/
abbrev MemHandle := List UInt8
abbrev DevPtr := Nat
abbrev ControlId := Nat

def shareableHandleVersion : Int := 1
/-- `'c'`. -/
def shareableGcuMalloc : Int := 99
/-- `'e'`. -/
def shareableGcuExpandableSegment : Int := 101

/-- An entry whose `expandable_segment_` is null: the constructor refuses the other kind. -/
structure MemHandleCacheEntry where
  device : DeviceIndex
  gcuIpcPtr : DevPtr
  wp : Option ControlId := none
deriving DecidableEq, Repr

/-- The owners of one `std::shared_ptr`, with what its deleter captures. -/
structure ControlBlock where
  handle : Bytes
  ptr : DevPtr
  useCount : Nat
  deleted : Bool := false
deriving DecidableEq, Repr

/-- What the runtime has mapped at an address: by which opening, and for which handle. -/
structure Mapping where
  opening : Nat
  handle : Bytes
  memHandle : MemHandle
deriving DecidableEq, Repr

structure HandleCache where
  ipcMemHandleToDevptr : Bytes → Option MemHandleCacheEntry := fun _ => none
  controls : ControlId → Option ControlBlock := fun _ => none
  nextControl : ControlId := 0
  mappings : DevPtr → Option Mapping := fun _ => none
  openings : Nat := 0
  ledger : Ledger Nat := []

abbrev IpcM := EStateM Err HandleCache

/-- The answers of the runtime during one section, and what stands on the stack where a
handle is read that is too short. -/
structure IpcRuntime where
  getDevice : Except TopsError DeviceIndex := .ok 0
  topsIpcOpenMemHandle : Except TopsError DevPtr
  uninitialized : MemHandle := []
  deviceGuard : Option TopsError := none
  topsIpcCloseMemHandle : Option TopsError := none

namespace HandleCache

def insert (s : HandleCache) (handle : Bytes) (entry : MemHandleCacheEntry) : HandleCache :=
  { s with ipcMemHandleToDevptr := Function.update s.ipcMemHandleToDevptr handle (some entry) }

def erase (s : HandleCache) (handle : Bytes) : HandleCache :=
  { s with ipcMemHandleToDevptr := Function.update s.ipcMemHandleToDevptr handle none }

def setControl (s : HandleCache) (control : ControlId) (block : ControlBlock) : HandleCache :=
  { s with controls := Function.update s.controls control (some block) }

def map (s : HandleCache) (ptr : DevPtr) (handle : Bytes) (memHandle : MemHandle) : HandleCache :=
  { s with
    mappings := Function.update s.mappings ptr (some ⟨s.openings, handle, memHandle⟩)
    openings := s.openings + 1
    ledger := .obtained s.openings :: s.ledger }

def unmap (s : HandleCache) (ptr : DevPtr) : HandleCache :=
  match s.mappings ptr with
  | none => s
  | some mapping =>
    { s with
      mappings := Function.update s.mappings ptr none
      ledger := .destroyed mapping.opening :: s.ledger }

/-- Another owner. -/
def acquire (s : HandleCache) (control : ControlId) (block : ControlBlock) : HandleCache :=
  s.setControl control { block with useCount := block.useCount + 1 }

/-- One owner less. -/
def release (s : HandleCache) (control : ControlId) (block : ControlBlock) : HandleCache :=
  s.setControl control { block with useCount := block.useCount - 1 }

end HandleCache

/-- `std::istringstream::get`: the next byte, or `EOF`. -/
def getByte : Bytes → Int × Bytes
  | [] => (-1, [])
  | byte :: rest => (byte.toNat, rest)

section Sections
-- `TOPS_IPC_HANDLE_SIZE`
variable (handleSize : Nat)

/-- What the constructor reads into its `topsIpcMemHandle_t`. -/
def readHandle (rest : Bytes) (uninitialized : MemHandle) : MemHandle :=
  rest.take handleSize ++ uninitialized.take (handleSize - rest.length)

/-- The type of a handle, and what follows its header. A handle of the size of a
`topsIpcMemHandle_t` has no header. -/
def readType (handle : Bytes) : IpcM (Int × Bytes) :=
  if handle.length ≠ handleSize then do
    let (version, ss) := getByte handle
    torchCheck (decide (version ≤ shareableHandleVersion))
      "received sharable handle from a future version of torch that this version does not know how to handle"
    return getByte ss
  else
    return (shareableGcuMalloc, handle)

/-- The constructor of `MemHandleCacheEntry`. -/
def openEntry (rt : IpcRuntime) (device : DeviceIndex) (handle : Bytes) :
    IpcM MemHandleCacheEntry := do
  let (type, ss) ← readType handleSize handle
  if type = shareableGcuMalloc then
    match rt.topsIpcOpenMemHandle with
    | .error error => throw (.gcuError error)
    | .ok ptr =>
      modify (·.map ptr handle (readHandle handleSize ss rt.uninitialized))
      return { device, gcuIpcPtr := ptr }
  else if type = shareableGcuExpandableSegment then
    throw (.torchCheck "expandable segment is not supported on GCU yet")
  else
    throw (.internalAssert "unexpected or illformed shareable handle type")

/-- `std::weak_ptr::lock`. -/
def lock (wp : Option ControlId) : IpcM (Option ControlId) := do
  let s ← get
  match wp with
  | none => return none
  | some control =>
    match s.controls control with
    | none => return none
    | some block =>
      if 0 < block.useCount then
        set (s.acquire control block)
        return some control
      else
        return none

/-- A `std::shared_ptr` with the deleter of a handle. -/
def makeShared (handle : Bytes) (ptr : DevPtr) : IpcM ControlId := do
  let s ← get
  set { s.setControl s.nextControl { handle, ptr, useCount := 1 } with
    nextControl := s.nextControl + 1 }
  return s.nextControl

def missingSharedPtr : Err := .internalAssert "entry in cache has missing shared_ptr"

def getIpcDevPtr (rt : IpcRuntime) (handle : Bytes) : IpcM ControlId := do
  match (← get).ipcMemHandleToDevptr handle with
  | some entry =>
    match ← lock entry.wp with
    | some devptr => return devptr
    | none => throw missingSharedPtr
  | none =>
    match rt.getDevice with
    | .error error => throw (.gcuError error)
    | .ok currDevice =>
      let inserted ← openEntry handleSize rt currDevice handle
      modify (·.insert handle inserted)
      let sp ← makeShared handle inserted.gcuIpcPtr
      modify (·.insert handle { inserted with wp := some sp })
      return sp

/-- `MemHandleCacheEntry::clear`. -/
def clear (rt : IpcRuntime) (entry : MemHandleCacheEntry) : IpcM Unit := do
  gcuCheck rt.deviceGuard
  gcuCheck rt.topsIpcCloseMemHandle
  modify (·.unmap entry.gcuIpcPtr)

/-- The deleter of the pointers that `getIpcDevPtr` makes for a handle. -/
def deleter (rt : IpcRuntime) (handle : Bytes) : IpcM Unit := do
  match (← get).ipcMemHandleToDevptr handle with
  | none => throw (.internalAssert "it != ipcMemHandle_to_devptr.end()")
  | some entry =>
    clear rt entry
    modify (·.erase handle)

/-! ### The receiving process -/

/-- The cache, what calls of `getIpcDevPtr` have raised, and whether an exception has left a
deleter, which ends the process. -/
structure Receiver where
  cache : HandleCache := {}
  raised : List Err := []
  terminated : Bool := false

inductive IpcAction where
  | getIpcDevPtr (rt : IpcRuntime) (handle : Bytes)
  | copy (control : ControlId)
  | drop (control : ControlId)
  | deleter (rt : IpcRuntime) (control : ControlId)

/-- The runtime maps memory at addresses where nothing is mapped. -/
def IpcRuntime.MapsUnused (rt : IpcRuntime) (s : HandleCache) : Prop :=
  ∀ ptr, rt.topsIpcOpenMemHandle = .ok ptr → s.mappings ptr = none

def afterCall (raised : List Err) : EStateM.Result Err HandleCache ControlId → Receiver
  | .ok _ t => ⟨t, raised, false⟩
  | .error error t => ⟨t, error :: raised, false⟩

def afterDeleter (raised : List Err) (control : ControlId) (block : ControlBlock) :
    EStateM.Result Err HandleCache Unit → Receiver
  | .ok _ t => ⟨t.setControl control { block with deleted := true }, raised, false⟩
  | .error _ t => ⟨t, raised, true⟩

/-- Steps of any threads. A section under `IpcMutex` is one step. The owner whose drop
brings the count to zero runs the deleter as a step of its own. -/
inductive IpcStep : Receiver → IpcAction → Receiver → Prop where
  | getIpcDevPtr {s : HandleCache} {raised : List Err} (rt : IpcRuntime) (handle : Bytes)
      (unused : rt.MapsUnused s) :
      IpcStep ⟨s, raised, false⟩ (.getIpcDevPtr rt handle)
        (afterCall raised ((getIpcDevPtr handleSize rt handle).run s))
  | copy {s : HandleCache} {raised : List Err} {control : ControlId} {block : ControlBlock}
      (found : s.controls control = some block) (owned : 0 < block.useCount) :
      IpcStep ⟨s, raised, false⟩ (.copy control) ⟨s.acquire control block, raised, false⟩
  | drop {s : HandleCache} {raised : List Err} {control : ControlId} {block : ControlBlock}
      (found : s.controls control = some block) (owned : 0 < block.useCount) :
      IpcStep ⟨s, raised, false⟩ (.drop control) ⟨s.release control block, raised, false⟩
  | deleter {s : HandleCache} {raised : List Err} {control : ControlId} {block : ControlBlock}
      (rt : IpcRuntime) (found : s.controls control = some block) (expired : block.useCount = 0)
      (pending : block.deleted = false) :
      IpcStep ⟨s, raised, false⟩ (.deleter rt control)
        (afterDeleter raised control block ((deleter rt block.handle).run s))

end Sections
end TorchGcu.Ipc

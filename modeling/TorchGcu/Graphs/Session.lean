import TorchGcu.CachingAllocator.Graph
import TorchGcu.Graphs.Generator
import TorchGcu.Logic.Ledger

/-! The process as the methods of one `GCUGraph` object see it. Graph handles, tensors and
captures are named by numbers that are never reused; two ledgers and a log, newest entry
first, keep what has been done with handles and pools. -/
namespace TorchGcu.Graphs
open ProgramLogic
open GCUCachingAllocator (Err TopsError GCUStream DeviceIndex StreamId MempoolId)

abbrev GraphId := Nat
abbrev Handle := Nat
abbrev CaptureId := Nat

structure ExtraGenData where
  seedExtragraph : TensorId
  offsetExtragraph : TensorId
  wholegraphIncrement : UInt64 := 0
deriving DecidableEq, Repr

/-- The entries of `extra_generators_`. -/
abbrev Extras := List (GeneratorId × ExtraGenData)

/-- What becomes of captures and their pools. A completed capture is named by its
executable graph, and a call of `releasePool` by the one the object then holds. -/
inductive PoolEvent where
  | captureCompleted (exec : Handle) (device : DeviceIndex) (pool : MempoolId)
  | poolReleased (exec : Option Handle) (device : DeviceIndex) (pool : MempoolId)
deriving DecidableEq, Repr

/-- The members of `GCUGraph`. -/
structure GCUGraph where
  extraGenerators : Extras := []
  graph : Option Handle := none
  graphExec : Option Handle := none
  hasGraph : Bool := false
  hasGraphExec : Bool := false
  id : CaptureId := 0
  mempoolId : MempoolId := (0, 0)
  captureStream : GCUStream := ⟨0, 0⟩
  captureGen : GeneratorId := 0
  captureDev : DeviceIndex := 0
  seedExtragraph : TensorId := 0
  offsetExtragraph : TensorId := 0
  wholegraphIncrement : UInt64 := 0
  hasPyHostFunctions : Bool := false

/-- The answers of the tops runtime during one call of a method; the iteration order of
`extra_generators_` is a permutation. -/
structure GraphRuntime where
  topsStreamIsCapturing : GeneratorId → Option TopsError := fun _ => none
  emptyTensor : TensorId → Option TopsError := fun _ => none
  topsHostMalloc : Nat → Option TopsError := fun _ => none
  topsHostFree : Nat → Option TopsError := fun _ => none
  topsMemcpy : TensorId → Option TopsError := fun _ => none
  topsStreamBeginCapture : Option TopsError := none
  topsStreamGetCaptureInfo : Except TopsError CaptureStatus := .ok .active
  /-- Whether the captured graph is not null. -/
  topsStreamEndCapture : Except TopsError Bool := .ok true
  topsGraphInstantiate : Option TopsError := none
  topsGraphGetNodes : Option TopsError := none
  topsGraphDestroy : Option TopsError := none
  topsGraphLaunch : Option TopsError := none
  topsStreamSynchronize : Option TopsError := none
  topsDriverGetVersion : Option TopsError := none
  /-- Whether a stream takes part in the capture that begins, as it will answer later. -/
  takesPart : StreamId → Bool := fun _ => true
  extraOrder : Extras → Extras := id
  extraOrder_perm : ∀ extras, (extraOrder extras).Perm extras := by exact fun l => .refl l

structure Session where
  this : GCUGraph := {}
  thisId : GraphId := 0
  allocators : DeviceIndex → GCUCachingAllocator.State := fun _ => {}
  /-- `device_allocator.size()`. -/
  deviceCount : Nat := 1
  generators : GeneratorId → GCUGeneratorImpl := fun _ => {}
  defaultGenerators : DeviceIndex → GeneratorId := id
  currentDevice : DeviceIndex := 0
  currentStreams : DeviceIndex → StreamId := fun _ => 0
  captureStatus : GCUStream → CaptureStatus := fun _ => .none
  memory : TensorId → UInt64 := fun _ => 0
  nextTensor : TensorId := 0
  nextHandle : Handle := 0
  nextCaptureId : CaptureId := 1
  pendingEventQueries : Int := 0
  gcuGraphsDebug : Bool := false
  currentGcuGraph : Option GraphId := none
  graphLedger : Ledger Handle := []
  execLedger : Ledger Handle := []
  poolLog : List PoolEvent := []

abbrev SessionM := EStateM Err Session

namespace Session

/-- `getCurrentGCUStream()`. -/
def currentStream (s : Session) : GCUStream := ⟨s.currentDevice, s.currentStreams s.currentDevice⟩

/-- `getDefaultGCUStream()`. -/
def defaultStream (s : Session) : GCUStream := ⟨s.currentDevice, 0⟩

/-- The default generator of the device that is current. -/
def defaultGenerator (s : Session) : GeneratorId := s.defaultGenerators s.currentDevice

def currentStatus (s : Session) : CaptureStatus := s.captureStatus s.currentStream

def logGraph (s : Session) (event : LedgerEvent Handle) : Session :=
  { s with graphLedger := event :: s.graphLedger }

def logExec (s : Session) (event : LedgerEvent Handle) : Session :=
  { s with execLedger := event :: s.execLedger }

def logPool (s : Session) (event : PoolEvent) : Session :=
  { s with poolLog := event :: s.poolLog }

def setThis (s : Session) (this : GCUGraph) : Session := { s with this }

def setGenerator (s : Session) (gen : GeneratorId) (state : GCUGeneratorImpl) : Session :=
  { s with generators := Function.update s.generators gen state }

def setAllocator (s : Session) (device : DeviceIndex) (st : GCUCachingAllocator.State) : Session :=
  { s with allocators := Function.update s.allocators device st }

def writeTensor (s : Session) (tensor : TensorId) (value : UInt64) : Session :=
  { s with memory := Function.update s.memory tensor value }

end Session

/-- A method of a generator. -/
def onGenerator {α : Type} (gen : GeneratorId) (m : EStateM Err GCUGeneratorImpl α) :
    SessionM α :=
  zoom (fun s => s.generators gen) (fun state s => s.setGenerator gen state) m

/-- A method of the native allocator on one device. -/
def onAllocator {α : Type} (device : DeviceIndex) (m : GCUCachingAllocator.M α) : SessionM α := do
  -- `assertValidDevice`
  torchCheck (decide (device < (← get).deviceCount)) "Invalid device argument "
  zoom (fun s => s.allocators device) (fun st s => s.setAllocator device st) m

def currentStreamCaptureStatus (rt : GraphRuntime) (gen : GeneratorId) : SessionM CaptureStatus := do
  gcuCheck (rt.topsStreamIsCapturing gen)
  return (← get).currentStatus

def currentSeed (rt : GraphRuntime) (gen : GeneratorId) : SessionM UInt64 := do
  let status ← currentStreamCaptureStatus rt gen
  torchCheck (decide (status = .none)) "Cannot call GCUGeneratorImpl::current_seed"
  return ((← get).generators gen).seed

/-- `gen->philox_gcu_state(increment)`. -/
def philoxState (rt : GraphRuntime) (gen : GeneratorId) (increment : UInt64) :
    SessionM PhiloxGcuState := do
  let status ← currentStreamCaptureStatus rt gen
  onGenerator gen (GCUGeneratorImpl.philoxGcuState status increment)

/-- `at::empty` for a tensor of one 64-bit value; whatever it raises counts as an error of
the runtime. -/
def emptyTensor (rt : GraphRuntime) : SessionM TensorId := do
  let s ← get
  gcuCheck (rt.emptyTensor s.nextTensor)
  set { s with nextTensor := s.nextTensor + 1 }
  return s.nextTensor

/-- A copy of one 64-bit value to the device; one that is only queued counts as done, since
the graph is launched on the same stream. -/
def copyToDevice (rt : GraphRuntime) (tensor : TensorId) (value : UInt64) : SessionM Unit := do
  gcuCheck (rt.topsMemcpy tensor)
  modify (·.writeTensor tensor value)

end TorchGcu.Graphs

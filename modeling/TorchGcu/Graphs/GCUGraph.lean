import TorchGcu.Graphs.Session

/-! The methods of `GCUGraph`, and the context manager `torch.gcu.graph`. -/
namespace TorchGcu.Graphs
open ProgramLogic
open GCUCachingAllocator (Err TopsError GCUStream DeviceIndex StreamId MempoolId)

def modifyThis (f : GCUGraph → GCUGraph) : SessionM Unit := modify fun s => s.setThis (f s.this)

def prologue (gen : GeneratorId) (seed offset : TensorId) : SessionM Unit :=
  onGenerator gen (modify fun state => state.capturePrologue seed offset)

/-! ### Construction and registration -/

/-- `GCUGraph::GCUGraph`. -/
def construct (rt : GraphRuntime) : SessionM Unit := do
  modify fun s => s.setThis { captureStream := s.currentStream }
  gcuCheck (rt.topsHostMalloc 0)
  gcuCheck (rt.topsHostMalloc 1)

/-- `extra_generators_[gen] = data`. -/
def GCUGraph.assignExtra (graph : GCUGraph) (gen : GeneratorId) (data : ExtraGenData) : GCUGraph :=
  { graph with
    extraGenerators := (gen, data) :: graph.extraGenerators.filter fun extra => extra.1 ≠ gen }

def registerGeneratorState (rt : GraphRuntime) (gen : GeneratorId) : SessionM Unit := do
  -- `gen->register_graph(this)`
  let status ← currentStreamCaptureStatus rt gen
  torchCheck (decide (status = .none)) "Cannot register a GCU graph to a generator during capture."
  let seedExtragraph ← emptyTensor rt
  let offsetExtragraph ← emptyTensor rt
  gcuCheck (rt.topsHostMalloc 0)
  gcuCheck (rt.topsHostMalloc 1)
  modifyThis (·.assignExtra gen { seedExtragraph, offsetExtragraph })

/-! ### Capture -/

/-- Initialize capture state for each extra registered generator. -/
def beginExtras (rt : GraphRuntime) : Extras → SessionM Unit
  | [] => pure ()
  | (gen, data) :: rest => do
    let seed ← currentSeed rt gen
    copyToDevice rt data.seedExtragraph seed
    prologue gen data.seedExtragraph data.offsetExtragraph
    beginExtras rt rest

/-- `capture_begin` up to the check of the current stream. -/
def beginGenerators (rt : GraphRuntime) (gen : GeneratorId) : SessionM Unit := do
  let seedExtragraph ← emptyTensor rt
  modifyThis fun this => { this with seedExtragraph }
  let offsetExtragraph ← emptyTensor rt
  modifyThis fun this => { this with offsetExtragraph }
  let seed ← currentSeed rt gen
  copyToDevice rt seedExtragraph seed
  prologue gen seedExtragraph offsetExtragraph
  beginExtras rt (rt.extraOrder (← get).this.extraGenerators)

def captureSequenceId : SessionM CaptureId := do
  let s ← get
  set { s with nextCaptureId := s.nextCaptureId + 1 }
  return s.nextCaptureId

/-- `capture_begin` from the registration with the allocator on. -/
def beginStream (rt : GraphRuntime) (stream : GCUStream) : SessionM Unit := do
  let s ← get
  onAllocator s.this.captureDev
    (GCUCachingAllocator.beginAllocateToPool s.this.mempoolId rt.takesPart)
  -- The wait ends when the watchdogs have brought the counter down.
  modify fun s => { s with pendingEventQueries := 0, currentGcuGraph := some s.thisId }
  gcuCheck rt.topsStreamBeginCapture
  modify fun s => { s with captureStatus := Function.update s.captureStatus stream .active }
  match rt.topsStreamGetCaptureInfo with
  | .error error => throw (.gcuError error)
  | .ok status =>
    internalAssert (decide (status = .active))
      "status == topsStreamCaptureStatus::topsStreamCaptureStatusActive"
  internalAssert (decide (0 < (← get).this.id)) "id_ > 0"

def captureBegin (rt : GraphRuntime) (pool : MempoolId) : SessionM Unit := do
  torchCheck (!(← get).this.hasGraphExec) "This GCUGraph instance already owns a captured graph. "
  let gen := (← get).defaultGenerator
  beginGenerators rt gen
  let stream := (← get).currentStream
  torchCheck (decide (stream ≠ (← get).defaultStream))
    "GCU graphs must be captured on a non-default stream. "
  let device := (← get).currentDevice
  modifyThis fun this =>
    { this with captureStream := stream, captureGen := gen, captureDev := device }
  let id ← captureSequenceId
  modifyThis fun this => { this with id }
  if pool.1 ≠ 0 ∨ pool.2 ≠ 0 then
    internalAssert (!(pool.1 ≠ 0 && pool.2 ≠ 0)) "!(pool.first && pool.second)"
    modifyThis fun this => { this with mempoolId := pool }
  else
    modifyThis fun this => { this with mempoolId := (id, 0) }
  beginStream rt stream

/-- Finalize capture state for each extra registered generator. -/
def endExtras : Extras → SessionM Extras
  | [] => return []
  | (gen, data) :: rest => do
    let wholegraphIncrement ← onGenerator gen GCUGeneratorImpl.captureEpilogue
    return (gen, { data with wholegraphIncrement }) :: (← endExtras rest)

/-- `topsGraphDestroy(graph_)`; however it answers, the handle has been passed to it. -/
def graphDestroy (rt : GraphRuntime) : SessionM (Option TopsError) := do
  if let some graph := (← get).this.graph then
    modify (·.logGraph (.destroyed graph))
  return rt.topsGraphDestroy

/-- `topsStreamEndCapture(capture_stream_, &graph_)`. -/
def streamEndCapture (rt : GraphRuntime) : SessionM Unit := do
  match rt.topsStreamEndCapture with
  | .error error => throw (.gcuError error)
  | .ok captured =>
    modify fun s =>
      { s with captureStatus := Function.update s.captureStatus s.this.captureStream .none }
    if captured then
      let graph := (← get).nextHandle
      modify fun s => { s.logGraph (.obtained graph) with nextHandle := graph + 1 }
      modifyThis fun this => { this with graph := some graph }
    else modifyThis fun this => { this with graph := none }

/-- `topsGraphInstantiate(&graph_exec_, graph_, NULL, NULL, 0)`. -/
def graphInstantiate (rt : GraphRuntime) (graph : Handle) : SessionM Unit := do
  modify (·.logGraph (.used graph))
  gcuCheck rt.topsGraphInstantiate
  let exec := (← get).nextHandle
  modify fun s => { s.logExec (.obtained exec) with nextHandle := exec + 1 }
  modifyThis fun this => { this with graphExec := some exec }

/-- `capture_end` once the graph has been instantiated. -/
def endGenerators (rt : GraphRuntime) (graph : Handle) : SessionM Unit := do
  let gen := (← get).defaultGenerator
  torchCheck (decide (gen = (← get).this.captureGen))
    "Default GCU RNG generator on current device at capture end "
  let wholegraphIncrement ← onGenerator gen GCUGeneratorImpl.captureEpilogue
  modifyThis fun this => { this with wholegraphIncrement }
  let extras ← endExtras (rt.extraOrder (← get).this.extraGenerators)
  modifyThis fun this => { this with extraGenerators := extras }
  modify (·.logGraph (.used graph))
  gcuCheck rt.topsGraphGetNodes
  -- Without debugging, the graph is not needed any more.
  if !(← get).gcuGraphsDebug then
    gcuCheck (← graphDestroy rt)
    modifyThis fun this => { this with hasGraph := false }
  modify fun s => { s with currentGcuGraph := none }

def captureEnd (rt : GraphRuntime) : SessionM Unit := do
  torchCheck (decide ((← get).currentStream = (← get).this.captureStream))
    "Capture must end on the same stream it began on."
  streamEndCapture rt
  let this := (← get).this
  onAllocator this.captureDev (GCUCachingAllocator.endAllocateToPool this.mempoolId)
  let some graph := (← get).this.graph | throw (.torchCheck "Invalid capture.")
  modifyThis fun this => { this with hasGraph := true }
  graphInstantiate rt graph
  modifyThis fun this => { this with hasGraphExec := true }
  endGenerators rt graph
  if let some exec := (← get).this.graphExec then
    modify (·.logPool (.captureCompleted exec this.captureDev this.mempoolId))

/-! ### Replay -/

/-- What `replay` does for one generator: take the next offset, and write it and the seed
where the captured kernels read them. -/
def refill (rt : GraphRuntime) (gen : GeneratorId) (wholegraphIncrement : UInt64)
    (seedExtragraph offsetExtragraph : TensorId) : SessionM Unit := do
  let inputs ← philoxState rt gen wholegraphIncrement
  let seed ← currentSeed rt gen
  -- A stream that is capturing has no `offset_.val`, and no seed was given out for it.
  let offset := match inputs with
    | .values _ offset => offset
    | .captured .. => 0
  copyToDevice rt seedExtragraph seed
  copyToDevice rt offsetExtragraph offset

/-- Update seed and offset tensors for each extra registered generator. -/
def refillExtras (rt : GraphRuntime) : Extras → SessionM Unit
  | [] => pure ()
  | (gen, data) :: rest => do
    refill rt gen data.wholegraphIncrement data.seedExtragraph data.offsetExtragraph
    refillExtras rt rest

/-- `OptionalDeviceGuard`. -/
def withDevice {α : Type} (device : DeviceIndex) (m : SessionM α) : SessionM α :=
  zoom (fun s => { s with currentDevice := device })
    (fun t s => { t with currentDevice := s.currentDevice }) m

/-- `topsGraphLaunch(graph_exec_, stream)`. -/
def graphLaunch (rt : GraphRuntime) : SessionM Unit := do
  if let some exec := (← get).this.graphExec then
    modify (·.logExec (.used exec))
  gcuCheck rt.topsGraphLaunch

def replay (rt : GraphRuntime) : SessionM Unit := do
  torchCheck (← get).this.hasGraphExec
    "Called GCUGraph::replay without a preceding successful capture."
  withDevice (← get).this.captureStream.deviceIndex do
    let s ← get
    refill rt s.defaultGenerator s.this.wholegraphIncrement s.this.seedExtragraph
      s.this.offsetExtragraph
    refillExtras rt (rt.extraOrder s.this.extraGenerators)
    graphLaunch rt
    if s.this.hasPyHostFunctions then gcuCheck rt.topsStreamSynchronize
    gcuCheck rt.topsDriverGetVersion

/-! ### Debugging and release -/

def enableDebugMode : SessionM Unit := modify fun s => { s with gcuGraphsDebug := true }

def debugDump (rt : GraphRuntime) : SessionM Unit := do
  if (← get).gcuGraphsDebug then
    if (← get).this.hasGraph then
      -- A failing `topsGraphDebugDotPrint` only warns.
      if let some graph := (← get).this.graph then
        modify (·.logGraph (.used graph))
      gcuCheck (← graphDestroy rt)

/-- Destroying only warns when it fails. -/
def reset (rt : GraphRuntime) : SessionM Unit := do
  let this := (← get).this
  if this.hasGraph || this.hasGraphExec then
    let exec := if this.hasGraphExec then this.graphExec else none
    modify (·.logPool (.poolReleased exec this.captureDev this.mempoolId))
    onAllocator this.captureDev (GCUCachingAllocator.releasePool this.mempoolId)
  if this.hasGraph then
    let _ ← graphDestroy rt
    modifyThis fun this => { this with hasGraph := false }
  if this.hasGraphExec then
    if let some exec := (← get).this.graphExec then
      modify (·.logExec (.destroyed exec))
    modifyThis fun this => { this with hasGraphExec := false }

/-- `~GCUGraph`. Freeing the host buffers of the extra generators only warns. -/
def destruct (rt : GraphRuntime) : SessionM Unit := do
  gcuCheck (rt.topsHostFree 0)
  gcuCheck (rt.topsHostFree 1)
  reset rt

/-! ### `torch.gcu.graph` -/

/-- `torch_gcu.gcu.set_stream`. -/
def setStream (stream : GCUStream) : SessionM Unit :=
  modify fun s =>
    { s with
      currentDevice := stream.deviceIndex
      currentStreams := Function.update s.currentStreams stream.deviceIndex stream.stream }

/-- `StreamContext`: the streams that were current on the device left and on the one entered. -/
structure StreamContext where
  stream : GCUStream
  srcPrevStream : GCUStream
  dstPrevStream : GCUStream

def StreamContext.enter (stream : GCUStream) : SessionM StreamContext := do
  let s ← get
  setStream stream
  return { stream
           srcPrevStream := s.currentStream
           dstPrevStream := ⟨stream.deviceIndex, s.currentStreams stream.deviceIndex⟩ }

def StreamContext.exit (ctx : StreamContext) : SessionM Unit := do
  if ctx.srcPrevStream.deviceIndex ≠ ctx.stream.deviceIndex then
    setStream ctx.dstPrevStream
  setStream ctx.srcPrevStream

/-- `graph.__enter__`. -/
def graphEnter (rt : GraphRuntime) (stream : GCUStream) (pool : MempoolId) :
    SessionM StreamContext := do
  let ctx ← StreamContext.enter stream
  captureBegin rt pool
  return ctx

/-- `graph.__exit__`. -/
def graphExit (rt : GraphRuntime) (ctx : StreamContext) : SessionM Unit := do
  captureEnd rt
  ctx.exit

end TorchGcu.Graphs

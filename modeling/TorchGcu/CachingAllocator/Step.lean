import TorchGcu.CachingAllocator.Graph

/-! Runs of one `DeviceCachingAllocator`: operations one after another, each under the
settings in force and the answers of the runtime it meets. -/
namespace TorchGcu.GCUCachingAllocator

inductive Op where
  | malloc (device : DeviceIndex) (origSize : Nat) (stream : StreamId)
  | free (block : BlockId)
  | recordStream (block : BlockId) (stream : GCUStream)
  | emptyCache
  | setMemoryFraction (allowed : Nat)
  | beginAllocateToPool (id : MempoolId) (filter : StreamId → Bool)
  | endAllocateToPool (id : MempoolId)
  | releasePool (id : MempoolId)
  | getCheckpointState (id : MempoolId)
  | setCheckpointPoolState (pps : PrivatePoolState)

/-- What an operation answers. -/
inductive Answer where
  | unit
  | block (b : BlockId)
  | checkpoint (pps : PrivatePoolState)
  | restored (rr : RestoreResult)

structure Step where
  cfg : GCUAllocatorConfig
  rt : Runtime
  op : Op

def Step.run (step : Step) : M Answer :=
  match step.op with
  | .malloc device origSize stream =>
    return .block (← malloc step.cfg step.rt device origSize stream)
  | .free block => do free step.cfg step.rt block; return .unit
  | .recordStream block stream => do recordStream block stream; return .unit
  | .emptyCache => do emptyCache step.cfg step.rt; return .unit
  | .setMemoryFraction allowed => do setMemoryFraction allowed; return .unit
  | .beginAllocateToPool id filter => do beginAllocateToPool id filter; return .unit
  | .endAllocateToPool id => do endAllocateToPool id; return .unit
  | .releasePool id => do releasePool id; return .unit
  | .getCheckpointState id => return .checkpoint (← getCheckpointState step.rt id)
  | .setCheckpointPoolState pps =>
    return .restored (← setCheckpointPoolState step.cfg step.rt pps)

end TorchGcu.GCUCachingAllocator

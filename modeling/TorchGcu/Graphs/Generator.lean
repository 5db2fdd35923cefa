import TorchGcu.Checks

/-! The state of a Philox generator (`GCUGeneratorImpl`), which hands out offsets eagerly
or, while a graph is being captured, relative to an offset written at replay. -/
namespace TorchGcu.Graphs
open GCUCachingAllocator (Err)

abbrev GeneratorId := Nat

/-- A tensor that holds one 64-bit value in device memory. -/
abbrev TensorId := Nat

inductive CaptureStatus where
  | none
  | active
  | invalidated
deriving DecidableEq, Repr

/-- What a random op is given: the values, or where its kernel will find them. -/
inductive PhiloxGcuState where
  | values (seed offset : UInt64)
  | captured (seed offset : Option TensorId) (offsetIntragraph : UInt32)
deriving DecidableEq, Repr

structure GCUGeneratorImpl where
  seed : UInt64 := 67280421310721
  philoxOffsetPerThread : UInt64 := 0
  seedExtragraph : Option TensorId := none
  offsetExtragraph : Option TensorId := none
  offsetIntragraph : UInt32 := 0
  graphExpectsThisGen : Bool := false
deriving DecidableEq, Repr

namespace GCUGeneratorImpl

def capturePrologue (gen : GCUGeneratorImpl) (seedExtragraph offsetExtragraph : TensorId) :
    GCUGeneratorImpl :=
  { gen with
    seedExtragraph := some seedExtragraph
    offsetExtragraph := some offsetExtragraph
    offsetIntragraph := 0
    graphExpectsThisGen := true }

def captureEpilogue : EStateM Err GCUGeneratorImpl UInt64 := do
  modify fun gen => { gen with graphExpectsThisGen := false }
  return (← get).offsetIntragraph.toUInt64

/-- `((increment + 3) / 4) * 4`, which wraps. -/
def roundIncrement (increment : UInt64) : UInt64 := (increment + 3) / 4 * 4

/-- `std::numeric_limits<uint32_t>::max()`. -/
def uint32Max : UInt64 := 4294967295

def philoxGcuState (status : CaptureStatus) (increment : UInt64) :
    EStateM Err GCUGeneratorImpl PhiloxGcuState := do
  -- rounds increment up to the nearest multiple of 4
  let increment := roundIncrement increment
  let gen ← get
  if status ≠ .none then
    torchCheck gen.graphExpectsThisGen
      "philox_gcu_state for an unexpected GCU generator used during capture. "
    internalAssert (gen.offsetIntragraph % 4 == 0) "this->offset_intragraph_ % 4 == 0"
    -- the subtraction is one of 64-bit words, and so is the addition before it is cut off
    internalAssert (decide (gen.offsetIntragraph.toUInt64 ≤ uint32Max - increment))
      "this->offset_intragraph_ <= std::numeric_limits<uint32_t>::max() - increment"
    set { gen with offsetIntragraph := (gen.offsetIntragraph.toUInt64 + increment).toUInt32 }
    return .captured gen.seedExtragraph gen.offsetExtragraph gen.offsetIntragraph
  else
    torchCheck (!gen.graphExpectsThisGen)
      "GCU generator expects graph capture to be underway, but the current stream is not capturing."
    internalAssert (gen.philoxOffsetPerThread % 4 == 0) "this->philox_offset_per_thread_ % 4 == 0"
    set { gen with philoxOffsetPerThread := gen.philoxOffsetPerThread + increment }
    return .values gen.seed gen.philoxOffsetPerThread

/-- `philox_engine_inputs`. -/
def philoxEngineInputs (increment : UInt64) :
    EStateM Err GCUGeneratorImpl (UInt64 × UInt64) := do
  -- rounds increment up to the nearest multiple of 4
  let increment := roundIncrement increment
  let gen ← get
  internalAssert (gen.philoxOffsetPerThread % 4 == 0) "this->philox_offset_per_thread_ % 4 == 0"
  set { gen with philoxOffsetPerThread := gen.philoxOffsetPerThread + increment }
  return (gen.seed, gen.philoxOffsetPerThread)

end GCUGeneratorImpl
end TorchGcu.Graphs

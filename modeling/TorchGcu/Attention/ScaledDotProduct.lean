import TorchGcu.Graphs.Generator

/-! Scaled dot product attention with dropout: the random numbers that a forward call takes from
its generator, what it saves of them for autograd, and what a backward call makes of that. -/
namespace TorchGcu.Attention
open Graphs (CaptureStatus PhiloxGcuState GCUGeneratorImpl TensorId)
open GCUCachingAllocator (Err)

/-- A tensor of seeds and offsets: 64-bit numbers in host memory, or device memory. -/
inductive PhiloxTensor where
  | cpu (data : List UInt64)
  | device (tensor : TensorId)
deriving DecidableEq, Repr

/-- A forward call, with the answers of the operator library and what uninitialised memory
holds when it is made. -/
structure Request where
  /-- `dropout_p > 0.0`. -/
  isDropout : Bool := true
  captureStatus : CaptureStatus := .none
  getOffset : Except Err UInt64
  kernel : Except Err Unit := .ok ()
  /-- The seed and offset tensors of the shape inference. -/
  inferred : PhiloxTensor × PhiloxTensor := (.device 0, .device 1)
  /-- A `PhiloxGcuState` by default: its two words are not initialised. -/
  uninitialized : UInt64 × UInt64
  /-- The word of `at::empty({})`. -/
  unusedWord : UInt64 := 0
deriving DecidableEq

/-- What a forward call took from the generator, what it gave its kernel, and the seed and offset
tensors that it returns. -/
structure Forward where
  taken : Option (UInt64 × PhiloxGcuState)
  kernel : PhiloxGcuState
  saved : PhiloxTensor × PhiloxTensor
deriving DecidableEq

/-- `state.seed_.val` and `state.offset_.val`, read of states without pointers only. -/
def payloads : PhiloxGcuState → UInt64 × UInt64
  | .values seed offset => (seed, offset)
  | .captured _ _ _ => (0, 0)

def ofExcept {σ α : Type} (answer : Except Err α) : EStateM Err σ α :=
  match answer with
  | .ok value => pure value
  | .error error => throw error

/-- The part of a forward call on the generator: what it asks for and what it is given. -/
def takePhilox (request : Request) :
    EStateM Err GCUGeneratorImpl (Option (UInt64 × PhiloxGcuState)) := do
  if request.isDropout then
    -- 2. get offset
    let offset ← ofExcept request.getOffset
    let state ← GCUGeneratorImpl.philoxGcuState request.captureStatus offset
    return some (offset, state)
  else return none

def Request.defaultState (request : Request) : PhiloxGcuState :=
  .values request.uninitialized.1 request.uninitialized.2

/-- The seeds are written to host memory outside capture: during capture the kernel writes them. -/
def Request.records (request : Request) : Bool :=
  request.captureStatus == .none && request.isDropout

def scaledDotProductFlashAttention (request : Request) :
    EStateM Err GCUGeneratorImpl Forward := do
  let taken ← takePhilox request
  let state := (taken.map Prod.snd).getD request.defaultState
  -- 3. call topsaten op
  ofExcept request.kernel
  let (seed, offset) := payloads state
  if request.records then return ⟨taken, state, .cpu [seed, offset], .cpu [request.unusedWord]⟩
  else return ⟨taken, state, request.inferred⟩

def scaledDotProductEfficientAttention (request : Request) :
    EStateM Err GCUGeneratorImpl Forward := do
  -- the state it is given is held by a variable of the inner block, which ends with it
  let taken ← takePhilox request
  let state := request.defaultState
  -- 3. call topsaten op
  ofExcept request.kernel
  let (seed, offset) := payloads state
  if request.records then return ⟨taken, state, .cpu [seed], .cpu [offset]⟩
  else return ⟨taken, state, request.inferred⟩

/-- What a backward kernel is given: two numbers, or two tensors. -/
inductive PhiloxArgument where
  | scalars (seed offset : UInt64)
  | tensors (seed offset : TensorId)
deriving DecidableEq

def sameDevice : Err :=
  .torchCheck "philox_seed and philox_offset must be on the same device."

/-- Both numbers are read of the seed tensor. -/
def scaledDotProductFlashAttentionBackward (gradOutDefined : Bool) :
    PhiloxTensor × PhiloxTensor → Except Err (Option PhiloxArgument)
  | saved =>
    if !gradOutDefined then .ok none
    else match saved with
      | (.cpu seed, .cpu _) => .ok (some (.scalars (seed.getD 0 0) (seed.getD 1 0)))
      | (.device seed, .device offset) => .ok (some (.tensors seed offset))
      | _ => .error sameDevice

def scaledDotProductEfficientAttentionBackward (gradOutDefined : Bool) :
    PhiloxTensor × PhiloxTensor → Except Err (Option PhiloxArgument)
  | saved =>
    if !gradOutDefined then .ok none
    else match saved with
      | (.cpu seed, .cpu offset) => .ok (some (.scalars (seed.getD 0 0) (offset.getD 0 0)))
      | (.device seed, .device offset) => .ok (some (.tensors seed offset))
      | _ => .error sameDevice

end TorchGcu.Attention

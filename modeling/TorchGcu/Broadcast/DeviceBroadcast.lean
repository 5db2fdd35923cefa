import TorchGcu.Tensor.CopyRecursion

/-! Broadcasts of tensors to devices. Where the collective library takes all tensors, one thread
for each device calls it on the elements as they are in memory; elsewhere the tensors are copied
one by one. Many tensors are broadcast in chunks of one type. -/
namespace TorchGcu.Broadcast
open Resize (numel positions contiguousStrides)

/-- A dense tensor on a device, or on the host, whose index is -1. The data are the bytes of the
elements in their order, as devices store them. -/
structure Tensor (hardware : Hardware) where
  device : Int
  dtype : ScalarType
  sizes : List Nat
  strides : List Nat
  data : List UInt8
  full : data.length = numel sizes * deviceElementSize hardware dtype
deriving DecidableEq

/-- How a broadcast ends early. An exception that leaves a thread terminates the process. -/
inductive Stop where
  | torchCheck (message : String)
  | internalAssert
  | runtimeError (message : String)
  | terminated (message : String)
deriving DecidableEq

variable {hardware : Hardware}

def Tensor.numel (t : Tensor hardware) : Nat := Resize.numel t.sizes

def Tensor.isGcu (t : Tensor hardware) : Bool := 0 ≤ t.device

def Tensor.isContiguous (t : Tensor hardware) : Bool :=
  positions t.sizes t.strides = List.range t.numel

/-- The functions of the framework and the limit of the collective library: copies between
tensors, how tensors are gathered in chunks, flattened, cut again and put in order, and the sizes
that an empty tensor has after it was cut. -/
structure Framework (hardware : Hardware) where
  copy : Tensor hardware → Tensor hardware → Tensor hardware
  takeTensors : List (Tensor hardware) → Nat → List (List (Tensor hardware))
  flattenDenseTensors : List (Tensor hardware) → Tensor hardware
  unflattenDenseTensors : Tensor hardware → List (Tensor hardware) → List (Tensor hardware)
  reorderTensorsLike : List (Tensor hardware) → List (Tensor hardware) → List (Tensor hardware)
  emptySizes : List Nat → {sizes : List Nat // Resize.numel sizes = 0}
  countMax : Nat

/-! ### The collective library -/

def getEcclDataType (type : ScalarType) (needReduce : Bool) : Except Stop EcclDataType :=
  if !needReduce && fp8 type then .ok .int8
  else match ecclDataType type with
    | some dataType => .ok dataType
    | none =>
      .error (.torchCheck "Input tensor data type is not supported for ECCL process group: ")

/-- Bytes written over the first bytes of a memory. -/
def overwrite : Nat → List UInt8 → List UInt8 → List UInt8
  | count + 1, byte :: source, _ :: target => byte :: overwrite count source target
  | _, _, target => target

theorem length_overwrite (count : Nat) (source target : List UInt8) :
    (overwrite count source target).length = target.length := by
  induction count, source, target using overwrite.induct with
  | case1 count byte source _ target ih => simp [overwrite, ih]
  | case2 count source target other => rw [overwrite]; exact other

/-- What `ecclBroadcast` leaves in a tensor: the elements of the root, as many as there are. -/
def ecclBroadcast (root : Tensor hardware) (count : Nat) (dataType : EcclDataType)
    (t : Tensor hardware) : Tensor hardware :=
  { t with
    data := overwrite (count * dataType.size) root.data t.data
    full := (length_overwrite _ _ _).trans t.full }

/-! ### The checks of inputs and outputs -/

def isAvailableWith (devices : List Int) : List (Tensor hardware) → Bool
  | [] => true
  | t :: tensors =>
    if !t.isGcu then false
    else if !t.isContiguous then false
    else if devices.contains t.device then false
    else isAvailableWith (t.device :: devices) tensors

def isAvailable (tensors : List (Tensor hardware)) : Bool := isAvailableWith [] tensors

def checkOne (refDtype : ScalarType) (t : Tensor hardware) : Except Stop Unit := do
  if !t.isGcu then
    throw (.runtimeError "input and output elements have to be gcu dense Tensors")
  if refDtype ≠ t.dtype then
    throw (.runtimeError "all inputs and outputs must be of the same Tensor dtype")
  if !t.isContiguous then
    throw (.runtimeError "all inputs and outputs have to be contiguous")

def checkTensor (input : Tensor hardware) (output : Option (Tensor hardware))
    (inputMultiplier outputMultiplier refNumel : Nat) (refDtype : ScalarType) :
    Except Stop Unit := do
  checkOne refDtype input
  if input.numel ≠ refNumel then
    throw (.runtimeError "all inputs must have the same number of elements")
  match output with
  | none => pure ()
  | some output => do
    checkOne refDtype output
    if input.device ≠ output.device then
      throw (.runtimeError "input and output must be on the same device")
    if output.numel * outputMultiplier ≠ refNumel * inputMultiplier then
      throw (.runtimeError "output must be of size input_size * size_multiplier")

def checkEach (inputMultiplier outputMultiplier refNumel : Nat) (refDtype : ScalarType)
    (devices : List Int) : List (Tensor hardware × Tensor hardware) → Except Stop Unit
  | [] => .ok ()
  | (input, output) :: rest => do
    checkTensor input (some output) inputMultiplier outputMultiplier refNumel refDtype
    if devices.contains input.device then
      throw (.runtimeError "inputs must be on unique devices")
    checkEach inputMultiplier outputMultiplier refNumel refDtype (input.device :: devices) rest

def checkInputs (inputs outputs : List (Tensor hardware))
    (inputMultiplier outputMultiplier : Nat) : Except Stop Unit :=
  match inputs with
  | [] => .error (.runtimeError "input sequence can't be empty")
  | first :: _ => do
    if inputs.length ≠ outputs.length then
      throw (.runtimeError (s!"inputs and outputs sequences have to be of the same length, but " ++
        s!"got input of length {inputs.length} and output of length {outputs.length}"))
    checkEach inputMultiplier outputMultiplier first.numel first.dtype [] (inputs.zip outputs)

/-! ### Broadcasts -/

variable (framework : Framework hardware)

/-- The broadcast of the first tensor to all. Every thread checks the same number of elements. -/
def innerBroadcast (tensors : List (Tensor hardware)) : Except Stop (List (Tensor hardware)) := do
  checkInputs tensors tensors 1 1
  match tensors with
  | [] => .ok []
  | root :: _ =>
    let dataType ← getEcclDataType root.dtype false
    if framework.countMax < root.numel then
      throw (.terminated (s!"Broadcast tensor has {root.numel} elements, which exceeds the " ++
        s!"maximum ECCL supports ({framework.countMax})"))
    return tensors.map (ecclBroadcast root root.numel dataType)

/-- `eccl` says whether the program is built with the collective library. -/
def broadcastOutImpl (eccl : Bool) (tensor : Tensor hardware)
    (outTensors : List (Tensor hardware)) : Except Stop (List (Tensor hardware)) :=
  if eccl && isAvailable (tensor :: outTensors) then do
    let tensors ← innerBroadcast framework (tensor :: outTensors)
    return tensors.tail
  else .ok (outTensors.map (framework.copy · tensor))

def checkOutputs (tensor : Tensor hardware) : Nat → List (Tensor hardware) → Except Stop Unit
  | _, [] => .ok ()
  | i, out :: outTensors => do
    if !out.isGcu then
      throw (.torchCheck (s!"Expected all output tensors to be GCU tensors, but output " ++
        s!"tensor at index {i} has device 'cpu'"))
    if out.sizes ≠ tensor.sizes then
      throw (.torchCheck (s!"Expected all output tensors to have same shape as the source tensor " ++
        s!"{tensor.sizes}, but output tensor at index {i} has shape {out.sizes}"))
    checkOutputs tensor (i + 1) outTensors

def broadcastOut (eccl : Bool) (tensor : Tensor hardware) (outTensors : List (Tensor hardware)) :
    Except Stop (List (Tensor hardware)) := do
  checkOutputs tensor 0 outTensors
  broadcastOutImpl framework eccl tensor outTensors

/-- `at::empty`, with the bytes that happen to be in the memory. -/
def Tensor.emptyLike (t : Tensor hardware) (device : Int) (memory : Nat → UInt8) :
    Tensor hardware where
  device := device
  dtype := t.dtype
  sizes := t.sizes
  strides := contiguousStrides t.sizes
  data := (List.range t.data.length).map memory
  full := by simpa using t.full

/-- The new tensors for the devices other than the one of the tensor. -/
def differentDevices (memory : Int → Nat → UInt8) (tensor : Tensor hardware) :
    List Int → Except Stop (List (Tensor hardware))
  | [] => .ok []
  | device :: devices => do
    if device < 0 then
      throw (.torchCheck s!"Expected non-negative device index, but got {device}")
    let rest ← differentDevices memory tensor devices
    return if device ≠ tensor.device then tensor.emptyLike device (memory device) :: rest else rest

/-- The results in the order of the devices, with what is left of the new tensors. -/
def collect (tensor : Tensor hardware) :
    List Int → List (Tensor hardware) → Option (List (Tensor hardware) × List (Tensor hardware))
  | [], it => some ([], it)
  | device :: devices, it =>
    if device ≠ tensor.device then
      match it with
      | [] => none
      | next :: it => (collect tensor devices it).map fun (rest, it) => (next :: rest, it)
    else (collect tensor devices it).map fun (rest, it) => (tensor :: rest, it)

def broadcast (eccl : Bool) (memory : Int → Nat → UInt8) (tensor : Tensor hardware)
    (devices : List Int) : Except Stop (List (Tensor hardware)) := do
  let diffDeviceDstTensors ← differentDevices memory tensor devices
  let it ← broadcastOutImpl framework eccl tensor diffDeviceDstTensors
  match collect tensor devices it with
  | some (dstTensors, []) => return dstTensors
  | _ => throw .internalAssert

/-! ### Coalesced broadcasts -/

/-- Whether only one type was seen. -/
structure UniqueTypeChecker where
  typeId : Option ScalarType := none
  unique : Bool := true

def UniqueTypeChecker.show (checker : UniqueTypeChecker) (typeId : ScalarType) :
    UniqueTypeChecker :=
  if !checker.unique then checker
  else
    let first := checker.typeId.getD typeId
    ⟨some first, first == typeId⟩

def typeId (chunk : List (Tensor hardware)) : ScalarType :=
  (chunk.head?.map (·.dtype)).getD .undefined

/-- The loop over the chunks, which adds to the outputs of every device but the first. -/
def broadcastChunks (eccl : Bool) (memory : Nat → Int → Nat → UInt8) (devices : List Int) :
    Nat → UniqueTypeChecker → List (List (Tensor hardware)) → List (List (Tensor hardware)) →
      Except Stop (UniqueTypeChecker × List (List (Tensor hardware)))
  | _, checker, outputs, [] => .ok (checker, outputs)
  | i, checker, outputs, chunk :: chunks => do
    let checker := checker.show (typeId chunk)
    let results ← broadcast framework eccl (memory i) (framework.flattenDenseTensors chunk) devices
    let outputs := List.zipWith (fun output result =>
      output ++ framework.unflattenDenseTensors result chunk) outputs results.tail
    broadcastChunks eccl memory devices (i + 1) checker outputs chunks

def broadcastCoalesced (eccl : Bool) (memory : Nat → Int → Nat → UInt8)
    (tensors : List (Tensor hardware)) (first : Int) (others : List Int) (bufferSize : Nat) :
    Except Stop (List (List (Tensor hardware))) := do
  if !tensors.all (·.device == first) then
    throw (.torchCheck s!"All tensors must be on devices[0]: {first}")
  let bufferSize := if eccl then min framework.countMax bufferSize else bufferSize
  let (typeChecker, outputs) ← broadcastChunks framework eccl memory (first :: others) 0 {}
    (others.map fun _ => []) (framework.takeTensors tensors bufferSize)
  let outputs := tensors :: outputs
  return if typeChecker.unique then outputs
    else outputs.map (framework.reorderTensorsLike · tensors)

end TorchGcu.Broadcast

import TorchGcu.Logic.Wp
import TorchGcu.Tensor.ScalarType

/-! The fallback to the CPU of operators that the device does not have: a boxed call with its
arguments on top of a stack, the retry with `Float` for kernels that have no `Half`, and the copies
back to the device. -/
namespace TorchGcu.CpuFallback
open ProgramLogic

abbrev TensorId := Nat

/-- A tensor, which may be undefined. -/
abbrev Tensor := Option TensorId

inductive Device where
  | cpu
  | privateUse1 (index : Nat)
  | metaDevice
deriving DecidableEq

/-- `c10::IValue`, as far as the fallback looks into it. -/
inductive IValue (ω : Type) where
  | tensor (t : Tensor)
  | tensorList (l : List Tensor)
  | optionalTensorList (l : List (Option Tensor))
  | other (value : ω)
deriving DecidableEq

/-- What is to know of a tensor. -/
structure TensorImpl (α : Type) where
  device : Device
  dtype : ScalarType
  sizes : List Nat
  data : α
deriving DecidableEq

/-- The tensors there are. -/
structure Heap (α : Type) where
  contents : TensorId → TensorImpl α
  next : TensorId

/-- The texts of errors. The retry is for those that have "not implemented for 'Half'" in theirs. -/
inductive Fault where
  | notImplementedForHalf (what : String)
  | error (what : String)
  | outOfRange
  | badValue
deriving DecidableEq

abbrev HeapM (α : Type) := EStateM Fault (Heap α)

/-- The stack, the tensors, and with what the kernel was called in the retry, which is history. -/
structure State (α ω : Type) where
  stack : List (IValue ω)
  heap : Heap α
  calls : List (List (IValue ω) × Heap α)

abbrev StackM (α ω : Type) := EStateM Fault (State α ω)

/-- A kernel takes its arguments and makes its returns. -/
abbrev Kernel (α ω : Type) := List (IValue ω) → HeapM α (List (IValue ω))

/-- An operator: for each argument whether it has alias information and is written,
`at::native::cpu_fallback` of it, its kernels, and what a kernel that fails leaves of its
arguments. -/
structure Operator (α ω : Type) where
  arguments : List (Option Bool)
  cpuFallback : Kernel α ω
  cpuKernel : Kernel α ω
  metaKernel : Kernel α ω
  leftover : List (IValue ω) → List (IValue ω)

/-- Conversions of the data of a tensor between types, and the current device. -/
structure Backend (α : Type) where
  convert : ScalarType → ScalarType → α → α
  currentDevice : Nat
  same : ∀ dtype data, convert dtype dtype data = data

variable {α ω : Type}

/-! ### Tensors -/

def implOf (t : TensorId) : HeapM α (TensorImpl α) := do
  let heap ← get
  return heap.contents t

def alloc (impl : TensorImpl α) : HeapM α TensorId := do
  let heap ← get
  set ({ contents := fun t => if t = heap.next then impl else heap.contents t
         next := heap.next + 1 } : Heap α)
  return heap.next

def write (t : TensorId) (impl : TensorImpl α) : HeapM α Unit := do
  let heap ← get
  set ({ heap with contents := fun other => if other = t then impl else heap.contents other } :
    Heap α)

/-- `t.to(device)`. -/
def toDevice (t : TensorId) (device : Device) : HeapM α TensorId := do
  let impl ← implOf t
  if impl.device = device then return t else alloc { impl with device }

/-- `t.to(dtype)`. -/
def toDtype (b : Backend α) (t : TensorId) (dtype : ScalarType) : HeapM α TensorId := do
  let impl ← implOf t
  if impl.dtype = dtype then return t
  else alloc { impl with dtype, data := b.convert impl.dtype dtype impl.data }

/-- `at::_copy_from_and_resize`, and `dst.resize_(src.sizes()).copy_(src)`. -/
def copyFromAndResize (b : Backend α) (src dst : TensorId) : HeapM α Unit := do
  let source ← implOf src
  let target ← implOf dst
  write dst { target with
    sizes := source.sizes, data := b.convert source.dtype target.dtype source.data }

/-- `t.cpu().to(dtype).to(t.device())`. -/
def convertInPlace (b : Backend α) (t : TensorId) (dtype : ScalarType) : HeapM α TensorId := do
  let impl ← implOf t
  let onCpu ← toDevice t .cpu
  let converted ← toDtype b onCpu dtype
  toDevice converted impl.device

/-! ### The stack -/

/-- `stack->at(i)`. -/
def stackAt (i : Nat) : StackM α ω (IValue ω) := do
  let s ← get
  match s.stack[i]? with
  | some v => return v
  | none => throw .outOfRange

/-- `stack->at(i) = v`. -/
def setStackAt (i : Nat) (v : IValue ω) : StackM α ω Unit := do
  let s ← get
  if i < s.stack.length then set { s with stack := s.stack.set i v } else throw .outOfRange

/-- A program on the tensors only. -/
def onHeap {β : Type} (m : HeapM α β) : StackM α ω β :=
  zoom State.heap (fun heap s => { s with heap }) m

/-- A kernel pops its arguments from the top of the stack and pushes its returns. -/
def callBoxed (op : Operator α ω) (kernel : Kernel α ω) : StackM α ω Unit := fun s =>
  let front := s.stack.take (s.stack.length - op.arguments.length)
  let arguments := s.stack.drop (s.stack.length - op.arguments.length)
  match (kernel arguments).run s.heap with
  | .ok returns heap => .ok () { s with stack := front ++ returns, heap }
  | .error fault heap => .error fault { s with stack := front ++ op.leftover arguments, heap }

/-- The loop over the stack, from position `i` on. -/
def forStack (f : IValue ω → HeapM α (IValue ω)) (i : Nat) : (count : Nat) → StackM α ω Unit
  | 0 => return ()
  | count + 1 => do
    let v ← stackAt i
    let changed ← onHeap (f v)
    setStackAt i changed
    forStack f (i + 1) count

/-! ### `to_xdevice`, for the CPU -/

def toXdeviceOne : Option Tensor → HeapM α (Option Tensor)
  | some (some t) => do
    let moved ← toDevice t .cpu
    return some (some moved)
  | other => return other

def toXdevice : List (Option Tensor) → HeapM α (List (Option Tensor))
  | [] => return []
  | t :: tensors => do
    let moved ← toXdeviceOne t
    let others ← toXdevice tensors
    return moved :: others

/-! ### `copy_back_to_org_device` -/

/-- An optional tensor list of the arguments: its position, itself, and its copy on the CPU. -/
structure OptionalList where
  index : Nat
  original : List (Option Tensor)
  onCpu : List (Option Tensor)

/-- The written tensors of a list get what their copies hold. -/
def copyBackList (b : Backend α) : List (Option Tensor) → List (Option Tensor) → HeapM α Unit
  | some original :: originals, onCpu :: copies => do
    match original, onCpu with
    | some t, some (some copy) =>
      copyFromAndResize b copy t
      copyBackList b originals copies
    | _, _ => throw .badValue
  | none :: originals, _ :: copies => copyBackList b originals copies
  | _ :: _, [] => throw .badValue
  | [], _ => return ()

/-- `alias_info != nullptr && alias_info->isWrite()`. -/
def Operator.writes (op : Operator α ω) (i : Nat) : Bool := op.arguments[i]? == some (some true)

def copyBackArguments (b : Backend α) (op : Operator α ω) : List OptionalList → HeapM α Unit
  | [] => return ()
  | list :: lists => do
    if op.writes list.index then copyBackList b list.original list.onCpu
    copyBackArguments b op lists

def toReturnDeviceOne (b : Backend α) : Option Tensor → HeapM α (Option Tensor)
  | some (some t) => do
    let moved ← toDevice t (.privateUse1 b.currentDevice)
    return some (some moved)
  | other => return other

def toReturnDeviceList (b : Backend α) : List (Option Tensor) → HeapM α (List (Option Tensor))
  | [] => return []
  | t :: tensors => do
    let moved ← toReturnDeviceOne b t
    let others ← toReturnDeviceList b tensors
    return moved :: others

def toReturnDevice (b : Backend α) : IValue ω → HeapM α (IValue ω)
  | .optionalTensorList l => do
    let moved ← toReturnDeviceList b l
    return .optionalTensorList moved
  | v => return v

def copyBackToOrgDevice (b : Backend α) (op : Operator α ω) (lists : List OptionalList) :
    StackM α ω Unit := do
  onHeap (copyBackArguments b op lists)
  let s ← get
  forStack (toReturnDevice b) 0 s.stack.length

/-! ### `convert_tensor_to_f32` -/

/-- The Float copies: with the positions of their arguments, and in lists. -/
structure Promoted where
  tensors : List (Nat × TensorId) := []
  lists : List (Nat × Nat × TensorId) := []
  optionals : List (Nat × Nat × TensorId) := []

/-- The Float copy of a defined Half tensor. -/
def promote (b : Backend α) : Tensor → HeapM α (Option TensorId)
  | none => return none
  | some t => do
    let impl ← implOf t
    if impl.dtype = .half then
      let copy ← convertInPlace b t .float
      return some copy
    else return none

def promoteList (b : Backend α) (i : Nat) :
    Nat → List Tensor → HeapM α (List Tensor × List (Nat × Nat × TensorId))
  | _, [] => return ([], [])
  | j, t :: tensors => do
    let copy ← promote b t
    let (others, copies) ← promoteList b i (j + 1) tensors
    match copy with
    | some f => return (some f :: others, (i, j, f) :: copies)
    | none => return (t :: others, copies)

def promoteOptionalList (b : Backend α) (i : Nat) :
    Nat → List (Option Tensor) → HeapM α (List (Option Tensor) × List (Nat × Nat × TensorId))
  | _, [] => return ([], [])
  | j, t :: tensors => do
    let copy ← promote b (t.getD none)
    let (others, copies) ← promoteOptionalList b i (j + 1) tensors
    match copy with
    | some f => return (some (some f) :: others, (i, j, f) :: copies)
    | none => return (t :: others, copies)

def convertTensorToF32 (b : Backend α) (argumentsBegin i : Nat) :
    (count : Nat) → StackM α ω Promoted
  | 0 => return {}
  | count + 1 => do
    match ← stackAt (argumentsBegin + i) with
    | .tensor t =>
      match ← onHeap (promote b t) with
      | some f =>
        setStackAt (argumentsBegin + i) (.tensor (some f))
        let rest ← convertTensorToF32 b argumentsBegin (i + 1) count
        return { rest with tensors := (i, f) :: rest.tensors }
      | none => convertTensorToF32 b argumentsBegin (i + 1) count
    | .tensorList l =>
      let (promoted, copies) ← onHeap (promoteList b i 0 l)
      setStackAt (argumentsBegin + i) (.tensorList promoted)
      let rest ← convertTensorToF32 b argumentsBegin (i + 1) count
      return { rest with lists := copies ++ rest.lists }
    | .optionalTensorList l =>
      -- the list with the copies is not put on the stack
      let (_, copies) ← onHeap (promoteOptionalList b i 0 l)
      let rest ← convertTensorToF32 b argumentsBegin (i + 1) count
      return { rest with optionals := copies ++ rest.optionals }
    | .other _ => convertTensorToF32 b argumentsBegin (i + 1) count

/-! ### `convert_to_meta` -/

/-- `at::empty(t.sizes(), t.options().device(at::kMeta))`. -/
def metaTensor : Tensor → HeapM α Tensor
  | none => return none
  | some t => do
    let impl ← implOf t
    let made ← alloc { impl with device := .metaDevice }
    return some made

def metaList : List Tensor → HeapM α (List Tensor)
  | [] => return []
  | t :: tensors => do
    let made ← metaTensor t
    let others ← metaList tensors
    return made :: others

/-- Of the optional tensors, only those of type Half. -/
def metaOptionalOne : Option Tensor → HeapM α (Option Tensor)
  | some (some t) => do
    let impl ← implOf t
    if impl.dtype = .half then
      let made ← metaTensor (some t)
      return some made
    else return some (some t)
  | other => return other

def metaOptionalList : List (Option Tensor) → HeapM α (List (Option Tensor))
  | [] => return []
  | t :: tensors => do
    let made ← metaOptionalOne t
    let others ← metaOptionalList tensors
    return made :: others

def metaValue : IValue ω → HeapM α (IValue ω)
  | .tensor t => do
    let made ← metaTensor t
    return .tensor made
  | .tensorList l => do
    let made ← metaList l
    return .tensorList made
  | .optionalTensorList l => do
    let made ← metaOptionalList l
    return .optionalTensorList made
  | .other v => return .other v

def convertToMeta : List (IValue ω) → HeapM α (List (IValue ω))
  | [] => return []
  | v :: values => do
    let made ← metaValue v
    let others ← convertToMeta values
    return made :: others

/-! ### `xdevice_cpu_fallback_with_convert` -/

/-- A written Half tensor gets what its Float copy holds, as Half. -/
def writeBack (b : Backend α) (copy : TensorId) (original : Tensor) : HeapM α Unit := do
  match original with
  | none => throw .badValue
  | some t =>
    let half ← convertInPlace b copy .half
    copyFromAndResize b half t

def writeBackTensors (b : Backend α) (op : Operator α ω) (backup : List (IValue ω)) :
    List (Nat × TensorId) → HeapM α Unit
  | [] => return ()
  | (i, copy) :: copies => do
    match backup[i]? with
    | some (.tensor t) => if op.writes i then writeBack b copy t
    | _ => throw .badValue
    writeBackTensors b op backup copies

def writeBackLists (b : Backend α) (op : Operator α ω) (backup : List (IValue ω)) :
    List (Nat × Nat × TensorId) → HeapM α Unit
  | [] => return ()
  | (i, j, copy) :: copies => do
    if op.writes i then
      match backup[i]? with
      | some (.tensorList l) => writeBack b copy (l[j]?.getD none)
      | _ => throw .badValue
    writeBackLists b op backup copies

def writeBackOptionals (b : Backend α) (op : Operator α ω) (backup : List (IValue ω)) :
    List (Nat × Nat × TensorId) → HeapM α Unit
  | [] => return ()
  | (i, j, copy) :: copies => do
    if op.writes i then
      match backup[i]? with
      | some (.optionalTensorList l) => writeBack b copy ((l[j]?.getD none).getD none)
      | _ => throw .badValue
    writeBackOptionals b op backup copies

/-- A returned tensor with the type that the meta kernel gives. -/
def repairTensor (b : Backend α) : Tensor → Tensor → HeapM α Tensor
  | none, _ => return none
  | some _, none => throw .badValue
  | some t, some m => do
    let impl ← implOf t
    let meta' ← implOf m
    if impl.dtype = meta'.dtype then return some t
    else
      let converted ← convertInPlace b t meta'.dtype
      return some converted

def repairList (b : Backend α) : List Tensor → List Tensor → HeapM α (List Tensor)
  | [], _ => return []
  | _ :: _, [] => throw .outOfRange
  | t :: tensors, m :: metas => do
    let repaired ← repairTensor b t m
    let others ← repairList b tensors metas
    return repaired :: others

def repairOptionalList (b : Backend α) :
    List (Option Tensor) → List (Option Tensor) → HeapM α (List (Option Tensor))
  | [], _ => return []
  | _ :: _, [] => throw .outOfRange
  | none :: tensors, _ :: metas => do
    let others ← repairOptionalList b tensors metas
    return none :: others
  | some _ :: _, none :: _ => throw .badValue
  | some t :: tensors, some m :: metas => do
    let repaired ← repairTensor b t m
    let others ← repairOptionalList b tensors metas
    return some repaired :: others

def repairValue (b : Backend α) : IValue ω → IValue ω → HeapM α (IValue ω)
  | .tensor t, .tensor m => do
    let repaired ← repairTensor b t m
    return .tensor repaired
  | .tensorList l, .tensorList m => do
    let repaired ← repairList b l m
    return .tensorList repaired
  | .optionalTensorList l, .optionalTensorList m => do
    let repaired ← repairOptionalList b l m
    return .optionalTensorList repaired
  | .other v, _ => return .other v
  | _, _ => throw .badValue

/-- The loop over the whole stack, each value with the value of the meta stack at its position. -/
def repairStack (b : Backend α) (metaStack : List (IValue ω)) (i : Nat) :
    (count : Nat) → StackM α ω Unit
  | 0 => return ()
  | count + 1 => do
    let v ← stackAt i
    match metaStack[i]? with
    | none => throw .outOfRange
    | some m =>
      let repaired ← onHeap (repairValue b v m)
      setStackAt i repaired
      repairStack b metaStack (i + 1) count

/-- The first positions of the stack become the backup again. -/
def reloadBackup (i : Nat) : List (IValue ω) → StackM α ω Unit
  | [] => return ()
  | v :: backup => do
    setStackAt i v
    reloadBackup (i + 1) backup

def xdeviceCpuFallbackWithConvert (b : Backend α) (op : Operator α ω)
    (stackBackup : List (IValue ω)) (isCpuCpuFallback : Bool) : StackM α ω Unit := do
  reloadBackup 0 (stackBackup.take op.arguments.length)
  -- the meta kernel gives the types of the returns
  let metaArguments ← onHeap (convertToMeta stackBackup)
  let metaStack ← onHeap (op.metaKernel metaArguments)
  let s ← get
  let argumentsBegin := s.stack.length - op.arguments.length
  let promoted ← convertTensorToF32 b argumentsBegin 0 op.arguments.length
  modify fun s => { s with calls := (s.stack.drop argumentsBegin, s.heap) :: s.calls }
  callBoxed op (if isCpuCpuFallback then op.cpuKernel else op.cpuFallback)
  onHeap (writeBackTensors b op stackBackup promoted.tensors)
  onHeap (writeBackLists b op stackBackup promoted.lists)
  onHeap (writeBackOptionals b op stackBackup promoted.optionals)
  let s ← get
  repairStack b metaStack 0 s.stack.length

/-! ### `gcu_cpu_fallback` -/

/-- The optional tensor lists among the arguments go to the CPU. Arguments are counted from the
first argument and written from the bottom of the stack. -/
def optionalListsToCpu (argumentsBegin idx : Nat) : (count : Nat) → StackM α ω (List OptionalList)
  | 0 => return []
  | count + 1 => do
    match ← stackAt (argumentsBegin + idx) with
    | .optionalTensorList original =>
      let onCpu ← onHeap (toXdevice original)
      setStackAt idx (.optionalTensorList onCpu)
      let rest ← optionalListsToCpu argumentsBegin (idx + 1) count
      return ⟨idx, original, onCpu⟩ :: rest
    | _ => optionalListsToCpu argumentsBegin (idx + 1) count

/-- `stack_backup`: what is at the bottom of the stack. -/
def backupStack (op : Operator α ω) : StackM α ω (List (IValue ω)) := do
  let s ← get
  if op.arguments.length ≤ s.stack.length then return s.stack.take op.arguments.length
  else throw .outOfRange

def gcuCpuFallback (b : Backend α) (op : Operator α ω) : StackM α ω Unit := do
  let s ← get
  let lists ← optionalListsToCpu (s.stack.length - op.arguments.length) 0 op.arguments.length
  let stackBackup ← backupStack op
  fun s =>
    match (do callBoxed op op.cpuFallback; copyBackToOrgDevice b op lists).run s with
    | .ok () s => .ok () s
    | .error (.notImplementedForHalf _) s =>
      (do xdeviceCpuFallbackWithConvert b op stackBackup false
          copyBackToOrgDevice b op lists).run s
    | .error fault s => .error fault s

end TorchGcu.CpuFallback

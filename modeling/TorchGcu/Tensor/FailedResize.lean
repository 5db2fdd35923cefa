import TorchGcu.Checks
import TorchGcu.Tensor.Resize

/-! What a resize that raises leaves behind. The sizes of the tensor are written first and its
storage grows afterwards, and `set_` replaces the storage and the offset before either. -/
namespace TorchGcu.FailedResize
open ProgramLogic
open GCUCachingAllocator (Err TopsError)
open Resize (MemoryFormat)

/-! ### Tensors and their storages -/

structure StorageImpl where
  nbytes : Nat
  /-- No address is a null pointer. -/
  dataPtr : Option Nat
  resizable : Bool
  allocator : Option Nat
  device : Nat
deriving DecidableEq

/-- A tensor; it holds no storage where the storage is null. -/
structure TensorImpl where
  sizes : List Int
  strides : List Int
  storageOffset : Int
  storage : Option Nat
  dtype : ScalarType
  device : Nat
  hasNames : Bool
deriving DecidableEq

structure State where
  self : TensorImpl
  storages : List StorageImpl
deriving DecidableEq

abbrev M := EStateM Err State

/-- The framework and the runtime. A computation of strides says whether it overflowed, and one of
a size has no result when it did. `checkSetStorage` returns with the tensor on the storage, or it
raises an error and leaves a tensor. -/
structure Machine where
  hardware : Hardware
  numel : List Int → Option Nat
  contiguousStrides : List Int → List Int × Bool
  /-- The strides that `set_sizes_and_strides` writes, which keep the negative ones out. -/
  normalStrides : List Int → List Int → List Int × Bool
  channelsLastStrides : List Int → List Int
  computeStorageNbytes : List Int → List Int → Nat → Int → Option Nat
  computeStorageNbytesContiguous : List Int → Nat → Int → Option Nat
  checkSetStorage : State → Option Nat → Int → List Int → Option (List Int) →
    Option (Err × TensorImpl)
  deterministicAlgorithms : Bool
  /-- The error of filling what a resize added. -/
  fill : Option Err
  currentDevice : Nat
  getDevice : Option TopsError
  setDevice : Nat → Option TopsError
  allocate : Nat → Nat → Except Err Nat
  memcpy : Option TopsError

variable (machine : Machine)

def State.find (s : State) (storage : Option Nat) : Option StorageImpl :=
  storage.bind (s.storages[·]?)

def setSelf (change : TensorImpl → TensorImpl) : M Unit :=
  modify fun s => { s with self := change s.self }

def orRaise {α : Type} (error : Err) : Option α → M α
  | some a => pure a
  | none => throw error

/-! ### The framework -/

/-- `numel` is asked for again whenever sizes are written. -/
def refreshNumel (size : List Int) : M Unit :=
  torchCheck (machine.numel size).isSome "numel: integer multiplication overflow"

def setSizesAndStrides (size stride : List Int) : M Unit := do
  torchCheck (size.length = stride.length)
    "dimensionality of sizes must match dimensionality of strides"
  setSelf fun self =>
    { self with sizes := size, strides := (machine.normalStrides size stride).1 }
  torchCheck (!(machine.normalStrides size stride).2) "Stride calculation overflowed"
  refreshNumel machine size

def restrideContiguous : M Unit := do
  let size := (← get).self.sizes
  setSelf fun self => { self with strides := (machine.contiguousStrides size).1 }
  torchCheck (!(machine.contiguousStrides size).2) "Stride calculation overflowed"

/-- `set_sizes_contiguous`: new dimensions have stride 0 until the strides are written. -/
def setSizesContiguous (size : List Int) : M Unit := do
  setSelf fun self =>
    { self with
      sizes := size
      strides := (List.range size.length).map (self.strides.getD · 0) }
  refreshNumel machine size
  restrideContiguous machine

def restrideChannelsLast (rank : Nat) (message : String) : M Unit := do
  let size := (← get).self.sizes
  torchCheck (size.length = rank) message
  setSizesAndStrides machine size (machine.channelsLastStrides size)

def emptyTensorRestride : MemoryFormat → M Unit
  | .contiguous => restrideContiguous machine
  | .channelsLast => restrideChannelsLast machine 4
      "required rank 4 tensor to use channels_last format"
  | .channelsLast3d => restrideChannelsLast machine 5
      "required rank 5 tensor to use channels_last_3d format"
  | .preserve => throw (.torchCheck "unsupported memory format Preserve")

/-- `as_strided_`, with the offset that the tensor has. -/
def asStrided (size stride : List Int) : M Unit := do
  let s ← get
  torchCheck (size.length = stride.length) "mismatch in length of strides and shape"
  torchCheck (stride.all (0 ≤ ·)) "as_strided: Negative strides are not supported at the moment"
  let storageSizeBytes ← orRaise (.torchCheck "Storage size calculation overflowed")
    (machine.computeStorageNbytes size stride (elementSize s.self.dtype) 0)
  let storage ← orRaise .outOfRange (s.find s.self.storage)
  torchCheck (storageSizeBytes = 0 ||
      storageSizeBytes + s.self.storageOffset * elementSize s.self.dtype ≤ storage.nbytes)
    "setStorage: out of bounds for storage"
  torchCheck (0 ≤ s.self.storageOffset) "Tensor: invalid storage offset"
  setSizesAndStrides machine size stride

/-- `fill_resize_deterministic_`. -/
def fillResizeDeterministic (oldStorageNbytes : Nat) : M Unit := do
  let s ← get
  let storage ← orRaise .outOfRange (s.find s.self.storage)
  if oldStorageNbytes / elementSize s.self.dtype < storage.nbytes / elementSize s.self.dtype then
    match machine.fill with
    | some error => throw error
    | none => pure ()
  else pure ()

def checkSetStorage (storage : Option Nat) (storageOffset : Int) (size : List Int)
    (stride : Option (List Int)) : M Unit := do
  match machine.checkSetStorage (← get) storage storageOffset size stride with
  | none => setSelf fun self => { self with storage }
  | some (error, self) => do
    setSelf fun _ => self
    throw error

/-! ### The operators -/

def replaceData (index : Nat) (storage : StorageImpl) (dataPtr : Option Nat) (nbytes : Nat) :
    M Unit :=
  modify fun s => { s with storages := s.storages.set index { storage with dataPtr, nbytes } }

def growBytes (index : Nat) (storage : StorageImpl) (allocator sizeBytes : Nat)
    (isNarrow : Bool) : M Unit := do
  match machine.allocate allocator (if isNarrow then sizeBytes / 2 else sizeBytes) with
  | .error error => throw error
  | .ok data => do
    gcuCheck (if storage.dataPtr.isSome then machine.memcpy else none)
    replaceData index storage (some data) sizeBytes

def resizeBytes (index : Nat) (storage : StorageImpl) (sizeBytes : Nat) (isNarrow : Bool) :
    M Unit := do
  torchCheck storage.resizable "Trying to resize storage that is not resizable"
  let allocator ← orRaise (.torchCheck "Trying to resize storage without an allocator")
    storage.allocator
  gcuCheck machine.getDevice
  if sizeBytes = 0 then replaceData index storage none 0
  else growBytes machine index storage allocator sizeBytes isNarrow

def maybeResizeStorage (newSizeBytes : Nat) (isNarrow : Bool) : M Unit := do
  let s ← get
  if machine.numel s.self.sizes = some 0 then pure ()
  else do
    let storage ← orRaise (.torchCheck "Tensor: invalid null storage") (s.find s.self.storage)
    if storage.nbytes < newSizeBytes then
      resizeBytes machine (s.self.storage.getD 0) storage newSizeBytes isNarrow
    else pure ()

/-- The sizes as they are written, and the bytes that they need. -/
def writeSizes (size : List Int) (stride : Option (List Int)) (itemsize : Nat)
    (storageOffset : Int) : M Nat :=
  match stride with
  | some stride => do
    setSizesAndStrides machine size stride
    orRaise (.torchCheck "Storage size calculation overflowed")
      (machine.computeStorageNbytes size stride itemsize storageOffset)
  | none => do
    setSizesContiguous machine size
    orRaise (.torchCheck "Storage size calculation overflowed")
      (machine.computeStorageNbytesContiguous size itemsize storageOffset)

def resizeImpl (size : List Int) (stride : Option (List Int)) : M Unit := do
  let s ← get
  if s.self.sizes = size ∧ (stride = none ∨ stride = some s.self.strides) then pure ()
  else do
    -- the guard reads the device of the storage, and a null storage is followed here
    let storage ← orRaise .outOfRange (s.find s.self.storage)
    gcuCheck (machine.setDevice storage.device)
    let storageSize ← writeSizes machine size stride (elementSize s.self.dtype) s.self.storageOffset
    maybeResizeStorage machine storageSize (isNarrowType machine.hardware s.self.dtype)

/-- `resize_named_tensor_`. -/
def resizeNamedTensor (size : List Int) (memoryFormat : Option MemoryFormat) : M Unit := do
  let s ← get
  torchCheck memoryFormat.isNone "Unsupported memory format for named tensor resize"
  torchCheck (s.self.sizes = size) "Cannot resize named tensor with resize_ or resize_as_"

def restrideAs : Option MemoryFormat → M Unit
  | none => pure ()
  | some memoryFormat => do
    torchCheck (memoryFormat ≠ .preserve) "Unsupported memory format"
    emptyTensorRestride machine memoryFormat

def resize (size : List Int) (memoryFormat : Option MemoryFormat) : M Unit := do
  let s ← get
  if s.self.hasNames then resizeNamedTensor size memoryFormat
  else do
    let oldStorageNbytes := ((s.find s.self.storage).map (·.nbytes)).getD 0
    resizeImpl machine size none
    restrideAs machine memoryFormat
    if machine.deterministicAlgorithms then fillResizeDeterministic machine oldStorageNbytes
    else pure ()

/-- `resize_output`, and what `_resize_output_` does after its check. -/
def resizeOutput (shape : List Int) : M Bool := do
  let s ← get
  if s.self.sizes = shape then pure false
  else do
    resize machine shape none
    pure true

/-- `_resize_output_`. -/
def resizeOutputOn (size : List Int) (device : Nat) : M Unit := do
  let s ← get
  torchCheck (s.self.device = device) "out Tensor doesn't have the correct device set"
  let _ ← resizeOutput machine size

structure TensorOptions where
  dtype : ScalarType
  device : Nat
  memoryFormat : Option MemoryFormat

def layOut (sizes strides : List Int) (memoryFormat : Option MemoryFormat) : M Unit :=
  if strides ≠ [] then do
    internalAssert memoryFormat.isNone "!options.memory_format_opt().has_value()"
    asStrided machine sizes strides
  else
    match memoryFormat with
    | some memoryFormat => emptyTensorRestride machine memoryFormat
    | none => pure ()

def resizeOut (sizes strides : List Int) (options : TensorOptions) : M Unit := do
  let s ← get
  torchCheck (options.dtype = s.self.dtype) "Expected out tensor to have dtype"
  torchCheck (options.device = s.self.device) "Expected out tensor to have device"
  let resized ← resizeOutput machine sizes
  if resized then layOut machine sizes strides options.memoryFormat else pure ()

/-- `set_` to a storage, with an offset, sizes and maybe strides. -/
def setStorageOffset (storage : Option Nat) (storageOffset : Int) (size : List Int)
    (stride : Option (List Int)) : M Unit := do
  checkSetStorage machine storage storageOffset size stride
  setSelf fun self => { self with storageOffset }
  resizeImpl machine size stride

/-- The storage of no bytes that `set_` to nothing makes. -/
def emptyStorage : StorageImpl where
  nbytes := 0
  dataPtr := none
  resizable := true
  allocator := some 0
  device := machine.currentDevice

def set : M Unit := do
  let s ← get
  modify fun s => { s with storages := s.storages ++ [emptyStorage machine] }
  setStorageOffset machine (some s.storages.length) 0 [0] none
  internalAssert (s.self.dtype = (← get).self.dtype) "dtype == result.dtype()"

def setStorage (source : Option Nat) : M Unit := do
  let s ← get
  let storage ← orRaise .outOfRange (s.find source)
  setStorageOffset machine source 0 [(storage.nbytes / elementSize s.self.dtype : Nat)] none

/-- `set_` to a tensor, which may be this one. -/
def setTensor (source : TensorImpl) (sameImpl : Bool) : M Unit :=
  if sameImpl then pure ()
  else setStorageOffset machine source.storage source.storageOffset source.sizes
    (some source.strides)

inductive Op where
  | resize (size : List Int) (memoryFormat : Option MemoryFormat)
  | resizeOutputOn (size : List Int) (device : Nat)
  | resizeOutput (shape : List Int)
  | resizeOut (sizes strides : List Int) (options : TensorOptions)
  | set
  | setStorage (source : Option Nat)
  | setStorageOffset (storage : Option Nat) (storageOffset : Int) (size : List Int)
      (stride : Option (List Int))
  | setTensor (source : TensorImpl) (sameImpl : Bool)

def Op.run : Op → M Unit
  | .resize size memoryFormat => FailedResize.resize machine size memoryFormat
  | .resizeOutputOn size device => FailedResize.resizeOutputOn machine size device
  | .resizeOutput shape => (fun _ => ()) <$> FailedResize.resizeOutput machine shape
  | .resizeOut sizes strides options => FailedResize.resizeOut machine sizes strides options
  | .set => FailedResize.set machine
  | .setStorage source => FailedResize.setStorage machine source
  | .setStorageOffset storage storageOffset size stride =>
    FailedResize.setStorageOffset machine storage storageOffset size stride
  | .setTensor source sameImpl => FailedResize.setTensor machine source sameImpl

/-! ### Which calls raise after they wrote -/

/-- The bytes that sizes and strides need. -/
def needed (self : TensorImpl) (size : List Int) : Option (List Int) → Option Nat
  | some stride =>
    machine.computeStorageNbytes size stride (elementSize self.dtype) self.storageOffset
  | none =>
    machine.computeStorageNbytesContiguous size (elementSize self.dtype) self.storageOffset

/-- Neither the number of elements nor a stride overflows. -/
def SizesFit (size : List Int) (stride : Option (List Int)) : Prop :=
  (machine.numel size).isSome = true ∧
    (match stride with
      | some stride => machine.normalStrides size stride
      | none => machine.contiguousStrides size).2 = false

/-- The storage may be resized and has an allocator, and the allocation and the copy succeed. -/
def CanGrow (storage : StorageImpl) (sizeBytes : Nat) (isNarrow : Bool) : Prop :=
  storage.resizable = true ∧ machine.getDevice = none ∧
    (∃ allocator ∈ storage.allocator, ∃ data,
      machine.allocate allocator (if isNarrow then sizeBytes / 2 else sizeBytes) = .ok data) ∧
    (storage.dataPtr.isSome = true → machine.memcpy = none)

/-- What is asked of the storage of a tensor of new sizes is there, or it can grow. -/
def Accepts (s : State) (size : List Int) (stride : Option (List Int)) : Prop :=
  SizesFit machine size stride ∧
    ∃ bytes ∈ needed machine s.self size stride, machine.numel size ≠ some 0 →
      ∀ storage ∈ s.find s.self.storage, storage.nbytes < bytes →
        CanGrow machine storage bytes (isNarrowType machine.hardware s.self.dtype)

/-- The tensor after its sizes were written. -/
def resized (self : TensorImpl) (size : List Int) (stride : Option (List Int)) : TensorImpl :=
  match stride with
  | some stride => { self with sizes := size, strides := (machine.normalStrides size stride).1 }
  | none =>
    { self with
      sizes := size
      strides :=
        if machine.numel size = none then (List.range size.length).map (self.strides.getD · 0)
        else (machine.contiguousStrides size).1 }

/-- The size of the storage after a tensor was resized. -/
def grownNbytes (s : State) (storage : StorageImpl) (size : List Int)
    (stride : Option (List Int)) : Nat :=
  if machine.numel size = some 0 then storage.nbytes
  else max storage.nbytes ((needed machine s.self size stride).getD 0)

/-- The guard finds the storage of the tensor and selects its device. -/
def Guarded (s : State) : Prop :=
  ∃ storage ∈ s.find s.self.storage, machine.setDevice storage.device = none

/-- The tensor has the sizes already, and the strides if there are any. -/
def Fits (s : State) (size : List Int) (stride : Option (List Int)) : Prop :=
  s.self.sizes = size ∧ (stride = none ∨ stride = some s.self.strides)

/-- A tensor of these sizes has the rank of a format of channels last. -/
def HasRank (rank : Nat) (size : List Int) : Prop :=
  size.length = rank ∧ size.length = (machine.channelsLastStrides size).length

instance (rank : Nat) (size : List Int) : Decidable (HasRank machine rank size) :=
  inferInstanceAs (Decidable (_ ∧ _))

/-- The strides that a memory format writes, which it may do before it raises. -/
def formatWrites (size : List Int) : MemoryFormat → Option (List Int)
  | .contiguous => some (machine.contiguousStrides size).1
  | .channelsLast =>
    if HasRank machine 4 size then
      some (machine.normalStrides size (machine.channelsLastStrides size)).1
    else none
  | .channelsLast3d =>
    if HasRank machine 5 size then
      some (machine.normalStrides size (machine.channelsLastStrides size)).1
    else none
  | .preserve => none

def FormatAccepts (size : List Int) : MemoryFormat → Prop
  | .contiguous => (machine.contiguousStrides size).2 = false
  | .channelsLast =>
    HasRank machine 4 size ∧ SizesFit machine size (some (machine.channelsLastStrides size))
  | .channelsLast3d =>
    HasRank machine 5 size ∧ SizesFit machine size (some (machine.channelsLastStrides size))
  | .preserve => False

/-- The elements that a resize adds are to be filled, and that fails. -/
def FillRefused (s : State) (size : List Int) : Prop :=
  machine.deterministicAlgorithms = true ∧ machine.fill ≠ none ∧
    ∃ storage ∈ s.find s.self.storage, storage.nbytes / elementSize s.self.dtype <
      grownNbytes machine s storage size none / elementSize s.self.dtype

/-- A resize to other sizes is refused after they were written. -/
def ResizeRefused (s : State) (size : List Int) (memoryFormat : Option MemoryFormat) : Prop :=
  ¬ Accepts machine s size none ∨
    (∃ format ∈ memoryFormat, ¬ FormatAccepts machine size format) ∨
    FillRefused machine s size

/-- A resize to the sizes that the tensor has writes other strides and is refused. -/
def RestrideRefused (s : State) (memoryFormat : Option MemoryFormat) : Prop :=
  ∃ format ∈ memoryFormat, ∃ strides ∈ formatWrites machine s.self.sizes format,
    strides ≠ s.self.strides ∧ (¬ FormatAccepts machine s.self.sizes format ∨
      (machine.deterministicAlgorithms = true ∧ s.find s.self.storage = none))

/-- A tensor that was resized to these sizes can take these strides as well. -/
def AsStridedAccepts (s : State) (sizes strides : List Int) : Prop :=
  sizes.length = strides.length ∧ (∀ stride ∈ strides, 0 ≤ stride) ∧
    (∃ bytes ∈ machine.computeStorageNbytes sizes strides (elementSize s.self.dtype) 0,
      ∀ storage ∈ s.find s.self.storage, bytes = 0 ∨
        bytes + s.self.storageOffset * elementSize s.self.dtype ≤
          grownNbytes machine s storage sizes none) ∧
    0 ≤ s.self.storageOffset ∧ SizesFit machine sizes (some strides)

/-- The layout that is asked for after a resize is refused. -/
def LayOutRefused (s : State) (sizes strides : List Int) (memoryFormat : Option MemoryFormat) :
    Prop :=
  if strides ≠ [] then ¬ (memoryFormat = none ∧ AsStridedAccepts machine s sizes strides)
  else ∃ format ∈ memoryFormat, ¬ FormatAccepts machine sizes format

/-- The state after a tensor was set on a storage. -/
def moved (s : State) (storage : Option Nat) (storageOffset : Int) : State :=
  { s with self := { s.self with storage, storageOffset } }

/-- A resize is refused when the tensor is not what it was: `self` before it was set on its
storage. -/
def WriteRefused (self : TensorImpl) (s : State) (size : List Int) (stride : Option (List Int)) :
    Prop :=
  ¬ Fits s size stride ∧
    (¬ Guarded machine s ∧ s.self ≠ self ∨
      Guarded machine s ∧ ¬ Accepts machine s size stride ∧
        resized machine s.self size stride ≠ self)

/-- `set_` is refused after it changed the tensor: by a check that leaves another tensor, or by the
resize. -/
def SetRefused (s : State) (storage : Option Nat) (storageOffset : Int) (size : List Int)
    (stride : Option (List Int)) : Prop :=
  (∃ refusal ∈ machine.checkSetStorage s storage storageOffset size stride, refusal.2 ≠ s.self) ∨
    machine.checkSetStorage s storage storageOffset size stride = none ∧
      WriteRefused machine s.self (moved s storage storageOffset) size stride

/-- An operator is refused after it wrote something else than there was. -/
def FailsLate (s : State) : Op → Prop
  | .resize size memoryFormat =>
    s.self.hasNames = false ∧
      if s.self.sizes = size then RestrideRefused machine s memoryFormat
      else Guarded machine s ∧ ResizeRefused machine s size memoryFormat
  | .resizeOutputOn size device =>
    s.self.device = device ∧ s.self.hasNames = false ∧ s.self.sizes ≠ size ∧ Guarded machine s ∧
      ResizeRefused machine s size none
  | .resizeOutput shape =>
    s.self.hasNames = false ∧ s.self.sizes ≠ shape ∧ Guarded machine s ∧
      ResizeRefused machine s shape none
  | .resizeOut sizes strides options =>
    options.dtype = s.self.dtype ∧ options.device = s.self.device ∧ s.self.hasNames = false ∧
      s.self.sizes ≠ sizes ∧ Guarded machine s ∧ (ResizeRefused machine s sizes none ∨
        LayOutRefused machine s sizes strides options.memoryFormat)
  | .set =>
    SetRefused machine { s with storages := s.storages ++ [emptyStorage machine] }
      (some s.storages.length) 0 [0] none
  | .setStorage source =>
    ∃ storage ∈ s.find source,
      SetRefused machine s source 0 [(storage.nbytes / elementSize s.self.dtype : Nat)] none
  | .setStorageOffset storage storageOffset size stride =>
    SetRefused machine s storage storageOffset size stride
  | .setTensor source sameImpl =>
    sameImpl = false ∧
      SetRefused machine s source.storage source.storageOffset source.sizes (some source.strides)

/-- `checkSetStorage` accepts strides only that are as many as the sizes. -/
def Machine.ChecksLengths (machine : Machine) : Prop :=
  ∀ s storage storageOffset size stride,
    machine.checkSetStorage s storage storageOffset size (some stride) = none →
      size.length = stride.length

/-! ### What a raise leaves -/

/-- The tensor is what it was, and so is every storage there was. -/
def Unchanged (s t : State) : Prop := t.self = s.self ∧ s.storages <+: t.storages

variable {machine : Machine} {s : State} {size : List Int} {stride : Option (List Int)}

theorem wp_orRaise {α : Type} {normal : α → State → Prop} {raised : Err → State → Prop}
    (error : Err) (a : Option α) :
    wp (orRaise error a) normal raised s ↔
      (∀ b, a = some b → normal b s) ∧ (a = none → raised error s) := by
  cases a <;> simp [orRaise]

section
variable {normal : Unit → State → Prop} {raised : Err → State → Prop}

@[simp] theorem wp_setSelf (change : TensorImpl → TensorImpl) :
    wp (setSelf change) normal raised s ↔ normal () { s with self := change s.self } := Iff.rfl

@[simp] theorem wp_replaceData (index : Nat) (storage : StorageImpl) (dataPtr : Option Nat)
    (nbytes : Nat) : wp (replaceData index storage dataPtr nbytes) normal raised s ↔
      normal () { s with storages := s.storages.set index { storage with dataPtr, nbytes } } :=
  Iff.rfl

theorem setSizesAndStrides_leaves {stride : List Int} (lengths : size.length = stride.length)
    (fits : SizesFit machine size (some stride) →
      normal () { s with self := resized machine s.self size (some stride) })
    (refused : ¬ SizesFit machine size (some stride) → ∀ e,
      raised e { s with self := resized machine s.self size (some stride) }) :
    wp (setSizesAndStrides machine size stride) normal raised s := by
  simp only [setSizesAndStrides, refreshNumel, wp_bind, wp_torchCheck, wp_setSelf, lengths,
    decide_true, true_implies, reduceCtorEq, false_implies, and_true]
  refine ⟨fun steady => ⟨fun counted => fits ⟨counted, ?_⟩, fun overflow => refused ?_ _⟩,
    fun overflow => refused ?_ _⟩
  · simpa using steady
  · exact fun fit => by simp [fit.1] at overflow
  · exact fun fit => by simp [fit.2] at overflow

theorem setSizesContiguous_leaves
    (fits : SizesFit machine size none →
      normal () { s with self := resized machine s.self size none })
    (refused : ¬ SizesFit machine size none → ∀ e,
      raised e { s with self := resized machine s.self size none }) :
    wp (setSizesContiguous machine size) normal raised s := by
  simp only [setSizesContiguous, restrideContiguous, refreshNumel, wp_bind, wp_torchCheck,
    wp_setSelf, wp_get]
  refine ⟨fun counted => ?_, fun overflow => ?_⟩
  · have written : machine.numel size ≠ none := Option.isSome_iff_ne_none.mp counted
    simp only [resized, written, if_false] at fits refused
    refine ⟨fun steady => fits ⟨counted, by simpa using steady⟩, fun overflow => refused ?_ _⟩
    exact fun fit => by simp [fit.2] at overflow
  · have uncounted : machine.numel size = none := by simpa using overflow
    simp only [resized, uncounted, if_true] at refused
    exact refused (fun fit => by simp [SizesFit, uncounted] at fit) _

/-- What `writeSizes` leaves: the tensor has its new sizes, however it ends. -/
theorem writeSizes_leaves {normal : Nat → State → Prop}
    (lengths : ∀ strides ∈ stride, size.length = strides.length)
    (fits : SizesFit machine size stride → ∀ bytes, needed machine s.self size stride = some bytes →
      normal bytes { s with self := resized machine s.self size stride })
    (refused : ¬ (SizesFit machine size stride ∧ (needed machine s.self size stride).isSome = true) →
      ∀ e, raised e { s with self := resized machine s.self size stride }) :
    wp (writeSizes machine size stride (elementSize s.self.dtype) s.self.storageOffset)
      normal raised s := by
  cases stride with
  | some strides =>
    simp only [writeSizes, wp_bind, wp_orRaise]
    refine setSizesAndStrides_leaves (lengths strides rfl) (fun fit => ⟨fits fit, ?_⟩)
      fun unfit => refused fun both => unfit both.1
    exact fun overflow => refused (fun both => by simp [needed, overflow] at both) _
  | none =>
    simp only [writeSizes, wp_bind, wp_orRaise]
    refine setSizesContiguous_leaves (fun fit => ⟨fits fit, ?_⟩)
      fun unfit => refused fun both => unfit both.1
    exact fun overflow => refused (fun both => by simp [needed, overflow] at both) _

/-- What the storage of a tensor is after it was replaced. -/
theorem find_set {storage grown : StorageImpl} (found : s.find s.self.storage = some storage) :
    State.find ⟨s.self, s.storages.set (s.self.storage.getD 0) grown⟩ s.self.storage =
      some grown := by
  cases index : s.self.storage with
  | none => simp [State.find, index] at found
  | some i =>
    have bound : i < s.storages.length := by
      simp only [State.find, index, Option.bind_some] at found
      exact (List.getElem?_eq_some_iff.mp found).1
    simp [State.find, bound]

theorem resizeBytes_leaves {storage : StorageImpl} {index sizeBytes : Nat} {isNarrow : Bool}
    (positive : sizeBytes ≠ 0)
    (grown : CanGrow machine storage sizeBytes isNarrow → ∀ dataPtr, normal ()
      { s with storages := s.storages.set index { storage with dataPtr, nbytes := sizeBytes } })
    (refused : ¬ CanGrow machine storage sizeBytes isNarrow → ∀ e, raised e s) :
    wp (resizeBytes machine index storage sizeBytes isNarrow) normal raised s := by
  simp only [resizeBytes, growBytes, wp_bind, wp_torchCheck, wp_orRaise, wp_gcuCheck, positive,
    if_false]
  refine ⟨fun resizable => ⟨fun allocator isAllocator => ⟨fun device => ?_, fun _ failed => ?_⟩,
    fun missing => ?_⟩, fun fixed => ?_⟩
  · cases allocated : machine.allocate allocator (if isNarrow then sizeBytes / 2 else sizeBytes) with
    | error error =>
      refine refused (fun can => ?_) _
      obtain ⟨_, isSame, _, served⟩ := can.2.2.1
      cases isAllocator.symm.trans isSame
      cases allocated.symm.trans served
    | ok data =>
      simp only [wp_bind, wp_gcuCheck, wp_replaceData]
      refine ⟨fun copied => grown ⟨resizable, device, ⟨_, isAllocator, _, allocated⟩, ?_⟩ _,
        fun error failed => refused (fun can => ?_) _⟩
      · exact fun present => by simpa [present] using copied
      · have uncopied := can.2.2.2
        split at failed
        · rename_i present
          cases failed.symm.trans (uncopied present)
        · cases failed
  · exact refused (fun can => by simp [can.2.1] at failed) _
  · exact refused (fun can => by
      obtain ⟨_, isAllocator, _⟩ := can.2.2.1
      cases missing.symm.trans isAllocator) _
  · exact refused (fun can => by simp [can.1] at fixed) _

/-- What `maybeResizeStorage` leaves: a raise comes before the storage is changed. -/
theorem maybeResizeStorage_leaves {storage : StorageImpl} {bytes : Nat} {isNarrow : Bool}
    (found : s.find s.self.storage = some storage)
    (grown : (machine.numel s.self.sizes ≠ some 0 → storage.nbytes < bytes →
        CanGrow machine storage bytes isNarrow) → ∀ t after, t.self = s.self →
      t.find s.self.storage = some after →
        after.nbytes = (if machine.numel s.self.sizes = some 0 then storage.nbytes
          else max storage.nbytes bytes) → normal () t)
    (refused : ¬ (machine.numel s.self.sizes ≠ some 0 → storage.nbytes < bytes →
        CanGrow machine storage bytes isNarrow) → ∀ e, raised e s) :
    wp (maybeResizeStorage machine bytes isNarrow) normal raised s := by
  simp only [maybeResizeStorage, wp_bind, wp_get]
  split
  · rename_i none
    exact grown (fun some => absurd none some) s storage rfl found (by simp [none])
  · rename_i some
    simp only [wp_bind, wp_orRaise, found, Option.some.injEq, reduceCtorEq, false_implies, and_true]
    rintro _ rfl
    split
    · rename_i small
      refine resizeBytes_leaves (Nat.ne_of_gt (Nat.zero_lt_of_lt small)) (fun can dataPtr => ?_)
        fun cannot => refused fun can => cannot (can some small)
      refine grown (fun _ _ => can) _ _ rfl (find_set found) ?_
      simp [some, Nat.max_eq_right (Nat.le_of_lt small)]
    · rename_i large
      refine grown (fun _ small => absurd small large) s storage rfl found ?_
      simp [some, Nat.max_eq_left (Nat.not_lt.mp large)]

/-- What `resizeImpl` leaves: a raise comes before anything is written, or when the tensor has its
new sizes. -/
theorem resizeImpl_leaves (lengths : ∀ strides ∈ stride, size.length = strides.length)
    (fits : Fits s size stride → normal () s)
    (early : ¬ Fits s size stride → ¬ Guarded machine s → ∀ e, raised e s)
    (late : ¬ Fits s size stride → Guarded machine s → ¬ Accepts machine s size stride →
      ∀ e, raised e { s with self := resized machine s.self size stride })
    (done : ¬ Fits s size stride → Guarded machine s → Accepts machine s size stride →
      ∀ t before after, t.self = resized machine s.self size stride →
        s.find s.self.storage = some before → t.find s.self.storage = some after →
          after.nbytes = grownNbytes machine s before size stride → normal () t) :
    wp (resizeImpl machine size stride) normal raised s := by
  simp only [resizeImpl, wp_bind, wp_get]
  refine (wp_ite _ _ _).mpr ⟨fits, fun differs => ?_⟩
  simp only [wp_bind, wp_orRaise, wp_gcuCheck]
  refine ⟨fun storage found => ⟨fun selected => ?_, fun _ failed => ?_⟩, fun null => ?_⟩
  · have guarded : Guarded machine s := ⟨storage, found, selected⟩
    refine writeSizes_leaves lengths (fun fit bytes asked => ?_)
      fun refused => late differs guarded fun accepts => refused ⟨accepts.1, ?_⟩
    · have same : (resized machine s.self size stride).storage = s.self.storage := by
        unfold resized
        cases stride <;> rfl
      have sizes : (resized machine s.self size stride).sizes = size := by
        unfold resized
        cases stride <;> rfl
      have there : State.find { s with self := resized machine s.self size stride }
          (resized machine s.self size stride).storage = some storage := by
        rw [same]
        exact found
      refine maybeResizeStorage_leaves there (fun can t after self foundAfter bigger => ?_)
        fun cannot => late differs guarded ?_
      · refine done differs guarded ⟨fit, bytes, asked, ?_⟩ t storage after self found
          (by simpa [same] using foundAfter) ?_
        · intro some _ isStorage
          cases found.symm.trans isStorage
          exact can (by simpa [sizes] using some)
        · simpa [grownNbytes, sizes, asked] using bigger
      · rintro ⟨_, _, isBytes, can⟩
        cases asked.symm.trans isBytes
        exact cannot fun some => can (by simpa [sizes] using some) storage found
    · obtain ⟨_, bytes, asked, _⟩ := accepts
      exact Option.isSome_iff_exists.mpr ⟨bytes, asked⟩
  · refine early differs ?_ _
    rintro ⟨_, other, selected⟩
    cases found.symm.trans other
    simp [selected] at failed
  · refine early differs ?_ _
    rintro ⟨_, other, _⟩
    cases null.symm.trans other

/-- The tensor after a memory format wrote its strides, if it did. -/
def restrided (machine : Machine) (self : TensorImpl) (format : MemoryFormat) : TensorImpl :=
  { self with strides := (formatWrites machine self.sizes format).getD self.strides }

theorem restrideChannelsLast_leaves {rank : Nat} {message : String}
    (fits : HasRank machine rank s.self.sizes →
      SizesFit machine s.self.sizes (some (machine.channelsLastStrides s.self.sizes)) →
        normal () { s with self := { s.self with strides :=
          (machine.normalStrides s.self.sizes (machine.channelsLastStrides s.self.sizes)).1 } })
    (written : HasRank machine rank s.self.sizes →
      ¬ SizesFit machine s.self.sizes (some (machine.channelsLastStrides s.self.sizes)) →
        ∀ e, raised e { s with self := { s.self with strides :=
          (machine.normalStrides s.self.sizes (machine.channelsLastStrides s.self.sizes)).1 } })
    (refused : ¬ HasRank machine rank s.self.sizes → ∀ e, raised e s) :
    wp (restrideChannelsLast machine rank message) normal raised s := by
  simp only [restrideChannelsLast, wp_bind, wp_get, wp_torchCheck, decide_eq_true_eq,
    decide_eq_false_iff_not]
  refine ⟨fun ranked => ?_, fun other => refused (fun has => other has.1) _⟩
  by_cases lengths : s.self.sizes.length = (machine.channelsLastStrides s.self.sizes).length
  · exact setSizesAndStrides_leaves lengths (fits ⟨ranked, lengths⟩) (written ⟨ranked, lengths⟩)
  · simp only [setSizesAndStrides, wp_bind, wp_torchCheck, decide_eq_true_eq,
      decide_eq_false_iff_not]
    exact ⟨fun same => absurd same lengths, fun _ => refused (fun has => lengths has.2) _⟩

/-- What `emptyTensorRestride` leaves: the strides are written however it ends, or nothing is. -/
theorem emptyTensorRestride_leaves (format : MemoryFormat)
    (fits : FormatAccepts machine s.self.sizes format →
      normal () { s with self := restrided machine s.self format })
    (refused : ¬ FormatAccepts machine s.self.sizes format → ∀ e,
      raised e { s with self := restrided machine s.self format }) :
    wp (emptyTensorRestride machine format) normal raised s := by
  cases format with
  | contiguous =>
    simp only [emptyTensorRestride, restrideContiguous, wp_bind, wp_get, wp_setSelf, wp_torchCheck]
    refine ⟨fun steady => fits (by simpa [FormatAccepts] using steady), fun overflow => ?_⟩
    exact refused (fun accepts => by simp [show _ = false from accepts] at overflow) _
  | preserve =>
    exact refused (fun accepts => accepts) _
  | channelsLast =>
    refine restrideChannelsLast_leaves (fun ranked fit => ?_) (fun ranked unfit e => ?_)
      fun other e => ?_
    · simpa [restrided, formatWrites, ranked] using fits ⟨ranked, fit⟩
    · simpa [restrided, formatWrites, ranked] using refused (fun accepts => unfit accepts.2) e
    · simpa [restrided, formatWrites, other] using refused (fun accepts => other accepts.1) e
  | channelsLast3d =>
    refine restrideChannelsLast_leaves (fun ranked fit => ?_) (fun ranked unfit e => ?_)
      fun other e => ?_
    · simpa [restrided, formatWrites, ranked] using fits ⟨ranked, fit⟩
    · simpa [restrided, formatWrites, ranked] using refused (fun accepts => unfit accepts.2) e
    · simpa [restrided, formatWrites, other] using refused (fun accepts => other accepts.1) e

/-- The same for a format that may be absent, or the one that is not supported. -/
theorem restrideAs_leaves (memoryFormat : Option MemoryFormat)
    (fits : (∀ format ∈ memoryFormat, FormatAccepts machine s.self.sizes format) →
      normal () { s with self := memoryFormat.elim s.self (restrided machine s.self) })
    (refused : ∀ format ∈ memoryFormat, ¬ FormatAccepts machine s.self.sizes format → ∀ e,
      raised e { s with self := restrided machine s.self format }) :
    wp (restrideAs machine memoryFormat) normal raised s := by
  cases memoryFormat with
  | none => exact fits fun _ never => by simp at never
  | some format =>
    simp only [restrideAs, wp_bind, wp_torchCheck, decide_eq_true_eq, decide_eq_false_iff_not]
    refine ⟨fun _ => emptyTensorRestride_leaves format (fun accepts => fits ?_)
      (refused format rfl), fun preserve => ?_⟩
    · rintro _ ⟨⟩
      exact accepts
    · cases Decidable.of_not_not preserve
      exact refused .preserve rfl (fun accepts => accepts) _

/-- What `fillResizeDeterministic` leaves: nothing but the elements it fills changes. -/
theorem fillResizeDeterministic_leaves {old : Nat}
    (filled : ∀ storage, s.find s.self.storage = some storage →
      (storage.nbytes / elementSize s.self.dtype ≤ old / elementSize s.self.dtype ∨
        machine.fill = none) → normal () s)
    (refused : (s.find s.self.storage = none ∨ machine.fill ≠ none ∧
      ∃ storage ∈ s.find s.self.storage, old / elementSize s.self.dtype <
        storage.nbytes / elementSize s.self.dtype) → ∀ e, raised e s) :
    wp (fillResizeDeterministic machine old) normal raised s := by
  simp only [fillResizeDeterministic, wp_bind, wp_get, wp_orRaise]
  refine ⟨fun storage found => (wp_ite _ _ _).mpr ⟨fun more => ?_, fun enough => ?_⟩,
    fun null => refused (.inl null) _⟩
  · cases outcome : machine.fill with
    | none => exact filled storage found (.inr outcome)
    | some error => exact refused (.inr ⟨by simp [outcome], storage, found, more⟩) error
  · exact filled storage found (.inl (Nat.not_lt.mp enough))

@[simp] theorem resized_sizes (self : TensorImpl) : (resized machine self size stride).sizes = size := by
  unfold resized
  cases stride <;> rfl

@[simp] theorem resized_storage (self : TensorImpl) :
    (resized machine self size stride).storage = self.storage := by
  unfold resized
  cases stride <;> rfl

@[simp] theorem resized_dtype (self : TensorImpl) :
    (resized machine self size stride).dtype = self.dtype := by
  unfold resized
  cases stride <;> rfl

/-- What the filling after a resize to other sizes leaves. -/
theorem fillAfter_leaves {t : State} {before after : StorageImpl}
    (dtype : t.self.dtype = s.self.dtype) (storage : t.self.storage = s.self.storage)
    (found : s.find s.self.storage = some before) (foundAfter : t.find s.self.storage = some after)
    (grown : after.nbytes = grownNbytes machine s before size none)
    (filled : ¬ FillRefused machine s size → normal () t)
    (refused : FillRefused machine s size → ∀ e, raised e t) :
    wp (if machine.deterministicAlgorithms = true then
        fillResizeDeterministic machine (((s.find s.self.storage).map (·.nbytes)).getD 0)
      else pure ()) normal raised t := by
  refine (wp_ite _ _ _).mpr ⟨fun deterministic => ?_, fun other => ?_⟩
  · rw [found]
    refine fillResizeDeterministic_leaves (fun other isOther enough => filled ?_) fun failed => ?_
    · rintro ⟨_, fails, _, isBefore, more⟩
      cases found.symm.trans isBefore
      rw [storage, foundAfter] at isOther
      cases isOther
      rcases enough with less | fine
      · rw [grown, dtype] at less
        exact absurd more (Nat.not_lt.mpr less)
      · exact fails fine
    · rcases failed with null | ⟨fails, _, isAfter, more⟩
      · rw [storage, foundAfter] at null
        cases null
      · rw [storage, foundAfter] at isAfter
        cases isAfter
        refine refused ⟨deterministic, fails, before, found, ?_⟩
        rw [← grown, ← dtype]
        exact more
  · exact filled fun both => other both.1

/-- What `resize` to other sizes leaves. -/
theorem resize_leaves {memoryFormat : Option MemoryFormat} (differs : s.self.sizes ≠ size)
    (early : s.self.hasNames = true ∨ ¬ Guarded machine s → ∀ e, raised e s)
    (late : s.self.hasNames = false → Guarded machine s → ResizeRefused machine s size memoryFormat →
      ∀ e t, t.self.sizes = size → raised e t)
    (done : s.self.hasNames = false → Guarded machine s →
      ¬ ResizeRefused machine s size memoryFormat → ∀ t before after,
        (memoryFormat = none → t.self = resized machine s.self size none) →
          s.find s.self.storage = some before → t.find s.self.storage = some after →
            after.nbytes = grownNbytes machine s before size none → normal () t) :
    wp (resize machine size memoryFormat) normal raised s := by
  simp only [resize, wp_bind, wp_get]
  refine (wp_ite _ _ _).mpr ⟨fun named => ?_, fun unnamed => ?_⟩
  · simp only [resizeNamedTensor, wp_bind, wp_get, wp_torchCheck, decide_eq_true_eq]
    exact ⟨fun _ => ⟨fun same => absurd same differs, fun _ => early (.inl named) _⟩,
      fun _ => early (.inl named) _⟩
  · have unnamed : s.self.hasNames = false := by simpa using unnamed
    simp only [wp_bind]
    refine resizeImpl_leaves (fun _ never => by simp at never) (fun fits => absurd fits.1 differs)
      (fun _ unguarded => early (.inr unguarded)) (fun _ guarded unaccepted e => ?_)
      fun _ guarded accepted t before after self found foundAfter grown => ?_
    · exact late unnamed guarded (.inl unaccepted) e _ (resized_sizes _)
    · have sizes : t.self.sizes = size := by rw [self, resized_sizes]
      refine restrideAs_leaves memoryFormat (fun formatted => ?_) fun format isFormat refused e => ?_
      · have kept : ∀ self', self' = memoryFormat.elim t.self (restrided machine t.self) →
            self'.sizes = size ∧ self'.dtype = s.self.dtype ∧ self'.storage = s.self.storage := by
          rintro _ rfl
          cases memoryFormat <;> simp [restrided, self]
        obtain ⟨newSizes, newDtype, newStorage⟩ := kept _ rfl
        refine fillAfter_leaves newDtype newStorage found foundAfter grown (fun filled => ?_)
          fun failed e => late unnamed guarded (.inr (.inr failed)) e _ newSizes
        refine done unnamed guarded ?_ _ before after (fun none => ?_) found foundAfter grown
        · rintro (unaccepted | ⟨format, isFormat, unformatted⟩ | failed)
          · exact unaccepted accepted
          · exact unformatted (by simpa [sizes] using formatted format isFormat)
          · exact filled failed
        · subst none
          exact self
      · refine late unnamed guarded (.inr (.inl ⟨format, isFormat, ?_⟩)) e _ sizes
        simpa [sizes] using refused

/-- A format that does not change the strides leaves the tensor as it is. -/
theorem restrided_cases (self : TensorImpl) (format : MemoryFormat) :
    restrided machine self format = self ∨
      (∃ strides ∈ formatWrites machine self.sizes format, strides ≠ self.strides) ∧
        restrided machine self format ≠ self := by
  cases written : formatWrites machine self.sizes format with
  | none => exact .inl (by simp [restrided, written])
  | some strides =>
    by_cases same : strides = self.strides
    · exact .inl (by simp [restrided, written, same])
    · refine .inr ⟨⟨strides, rfl, same⟩, fun kept => same ?_⟩
      simpa [restrided, written] using congrArg TensorImpl.strides kept

/-- What `resize` to the sizes that the tensor has leaves. -/
theorem resize_same_leaves {memoryFormat : Option MemoryFormat} (same : s.self.sizes = size)
    (early : s.self.hasNames = true ∨ ¬ RestrideRefused machine s memoryFormat → ∀ e, raised e s)
    (late : s.self.hasNames = false → RestrideRefused machine s memoryFormat →
      ∀ e t, t.self ≠ s.self → raised e t)
    (done : s.self.hasNames = true ∨ ¬ RestrideRefused machine s memoryFormat → ∀ t, normal () t) :
    wp (resize machine size memoryFormat) normal raised s := by
  subst same
  simp only [resize, wp_bind, wp_get]
  refine (wp_ite _ _ _).mpr ⟨fun named => ?_, fun unnamed => ?_⟩
  · simp only [resizeNamedTensor, wp_bind, wp_get, wp_torchCheck, decide_true, true_implies,
      reduceCtorEq, false_implies, and_true]
    exact ⟨fun _ => done (.inl named) s, fun _ => early (.inl named) _⟩
  · have unnamed : s.self.hasNames = false := by simpa using unnamed
    have fits : Fits s s.self.sizes none := ⟨rfl, .inl rfl⟩
    -- a format that is refused, with what it wrote
    have spoiled : ∀ format ∈ memoryFormat, (¬ FormatAccepts machine s.self.sizes format ∨
        (machine.deterministicAlgorithms = true ∧ s.find s.self.storage = none)) →
          ∀ e, raised e { s with self := restrided machine s.self format } := by
      intro format isFormat refused e
      by_cases spoils : RestrideRefused machine s memoryFormat
      · rcases @restrided_cases machine s.self format with kept | ⟨_, changed⟩
        · obtain ⟨other, isOther, strides, written, differs, _⟩ := spoils
          cases isFormat.symm.trans isOther
          refine absurd (congrArg TensorImpl.strides kept) ?_
          simpa [restrided, show _ = some strides from written] using differs
        · exact late unnamed spoils e _ changed
      · rcases @restrided_cases machine s.self format with kept | ⟨written, _⟩
        · rw [kept]
          exact early (.inr spoils) e
        · obtain ⟨strides, isWritten, differs⟩ := written
          exact absurd ⟨format, isFormat, strides, isWritten, differs, refused⟩ spoils
    simp only [wp_bind]
    refine resizeImpl_leaves (fun _ never => by simp at never) (fun _ => ?_)
      (fun unfit => absurd fits unfit) (fun unfit => absurd fits unfit)
      (fun unfit => absurd fits unfit)
    refine restrideAs_leaves memoryFormat (fun formatted => ?_)
      fun format isFormat refused => spoiled format isFormat (.inl refused)
    have kept : RestrideRefused machine s memoryFormat →
        machine.deterministicAlgorithms = true ∧ s.find s.self.storage = none := by
      rintro ⟨format, isFormat, _, _, _, unformatted | null⟩
      · exact absurd (formatted format isFormat) unformatted
      · exact null
    have storage : (memoryFormat.elim s.self (restrided machine s.self)).storage =
        s.self.storage := by
      cases memoryFormat <;> rfl
    have dtype : (memoryFormat.elim s.self (restrided machine s.self)).dtype = s.self.dtype := by
      cases memoryFormat <;> rfl
    refine (wp_ite _ _ _).mpr ⟨fun deterministic => ?_, fun other => ?_⟩
    · refine fillResizeDeterministic_leaves (fun found isFound _ => done (.inr ?_) _) ?_
      · intro spoils
        have null := (kept spoils).2
        simp only [storage] at isFound
        cases null.symm.trans isFound
      · rintro (null | ⟨_, found, isFound, more⟩) e
        · cases memoryFormat with
          | none =>
            refine early (.inr ?_) e
            rintro ⟨_, never, _⟩
            simp at never
          | some format => exact spoiled format rfl (.inr ⟨deterministic, null⟩) e
        · simp only [storage] at isFound
          have found : s.find s.self.storage = some found := isFound
          simp only [found, dtype, Option.map_some, Option.getD_some] at more
          exact absurd more (Nat.lt_irrefl _)
    · exact done (.inr fun spoils => other (kept spoils).1) _

/-- What `resizeImpl` leaves of a tensor that was `self`. -/
theorem resizeImpl_moved_leaves {self : TensorImpl}
    (lengths : ∀ strides ∈ stride, size.length = strides.length)
    (done : ¬ WriteRefused machine self s size stride → ∀ t, t.self.dtype = s.self.dtype →
      normal () t)
    (late : WriteRefused machine self s size stride → ∀ e t, t.self ≠ self → raised e t)
    (early : ¬ WriteRefused machine self s size stride → ∀ e, raised e { s with self }) :
    wp (resizeImpl machine size stride) normal raised s := by
  -- a raise with the tensor as it stands
  have left : ∀ self', (self' ≠ self ↔ WriteRefused machine self s size stride) →
      ∀ e, raised e { s with self := self' } := by
    intro self' changes e
    by_cases same : self' = self
    · subst same
      exact early (fun refused => absurd rfl (changes.mpr refused)) e
    · exact late (changes.mp same) e _ same
  refine resizeImpl_leaves lengths (fun fits => ?_) (fun unfit unguarded e => ?_)
    (fun unfit guarded unaccepted e => ?_) fun unfit guarded accepted t _ _ after _ _ _ => ?_
  · exact done (fun refused => refused.1 fits) s rfl
  · refine left s.self ?_ e
    simp [WriteRefused, unfit, unguarded]
  · refine left _ ?_ e
    simp [WriteRefused, unfit, guarded, unaccepted]
  · refine done (fun refused => ?_) t (by rw [after, resized_dtype])
    rcases refused.2 with both | both
    · exact both.1 guarded
    · exact both.2.1 accepted

/-- What `setStorageOffset` leaves. -/
theorem setStorageOffset_leaves {storage : Option Nat} {storageOffset : Int}
    (checks : machine.ChecksLengths)
    (done : ¬ SetRefused machine s storage storageOffset size stride → ∀ t,
      t.self.dtype = s.self.dtype → normal () t)
    (late : SetRefused machine s storage storageOffset size stride → ∀ e t, t.self ≠ s.self →
      raised e t)
    (early : ¬ SetRefused machine s storage storageOffset size stride → ∀ e, raised e s) :
    wp (setStorageOffset machine storage storageOffset size stride) normal raised s := by
  simp only [setStorageOffset, checkSetStorage, wp_bind, wp_get]
  cases checked : machine.checkSetStorage s storage storageOffset size stride with
  | none =>
    have lengths : ∀ strides ∈ stride, size.length = strides.length := by
      rintro strides ⟨⟩
      exact checks _ _ _ _ _ checked
    have asks : SetRefused machine s storage storageOffset size stride ↔
        WriteRefused machine s.self (moved s storage storageOffset) size stride := by
      simp [SetRefused, checked]
    rw [asks] at done late early
    exact resizeImpl_moved_leaves (s := moved s storage storageOffset) lengths done late early
  | some refusal =>
    have asks : SetRefused machine s storage storageOffset size stride ↔ refusal.2 ≠ s.self := by
      simp [SetRefused, checked]
    rw [asks] at late early
    obtain ⟨error, self⟩ := refusal
    by_cases same : self = s.self
    · subst same
      exact early (fun other => other rfl) error
    · exact late same error _ same

theorem resizeOutput_leaves {normal : Bool → State → Prop}
    (same : s.self.sizes = size → normal false s)
    (early : s.self.sizes ≠ size → s.self.hasNames = true ∨ ¬ Guarded machine s → ∀ e, raised e s)
    (late : s.self.sizes ≠ size → s.self.hasNames = false → Guarded machine s →
      ResizeRefused machine s size none → ∀ e t, t.self.sizes = size → raised e t)
    (done : s.self.sizes ≠ size → s.self.hasNames = false → Guarded machine s →
      ¬ ResizeRefused machine s size none → ∀ t before after,
        t.self = resized machine s.self size none →
          s.find s.self.storage = some before → t.find s.self.storage = some after →
            after.nbytes = grownNbytes machine s before size none → normal true t) :
    wp (resizeOutput machine size) normal raised s := by
  simp only [resizeOutput, wp_bind, wp_get]
  refine (wp_ite _ _ _).mpr ⟨same, fun differs => ?_⟩
  simp only [wp_bind, wp_pure]
  exact resize_leaves differs (early differs) (late differs) fun unnamed guarded accepted t before
    after self => done differs unnamed guarded accepted t before after (self rfl)

/-- What `asStrided` leaves of a tensor that was resized to these sizes. -/
theorem asStrided_leaves {t : State} {before after : StorageImpl} {strides : List Int}
    (self : t.self = resized machine s.self size none)
    (found : s.find s.self.storage = some before) (foundAfter : t.find s.self.storage = some after)
    (grown : after.nbytes = grownNbytes machine s before size none)
    (fits : AsStridedAccepts machine s size strides → ∀ t, normal () t)
    (refused : ¬ AsStridedAccepts machine s size strides → ∀ e t, t.self.sizes = size → raised e t) :
    wp (asStrided machine size strides) normal raised t := by
  have sizes : t.self.sizes = size := by rw [self, resized_sizes]
  have dtype : t.self.dtype = s.self.dtype := by rw [self, resized_dtype]
  have offset : t.self.storageOffset = s.self.storageOffset := by rw [self]; rfl
  have storage : t.self.storage = s.self.storage := by rw [self, resized_storage]
  simp only [asStrided, wp_bind, wp_get, wp_torchCheck, wp_orRaise, decide_eq_true_eq,
    decide_eq_false_iff_not, dtype, offset, storage, foundAfter, Option.some.injEq]
  refine ⟨fun equal => ⟨fun positive => ⟨fun bytes asked => ⟨?_, fun null => by cases null⟩,
    fun overflow => ?_⟩, fun negative => ?_⟩, fun unequal => ?_⟩
  · rintro _ rfl
    refine ⟨fun inside => ⟨fun nonneg => ?_, fun negative => ?_⟩, fun outside => ?_⟩
    · refine setSizesAndStrides_leaves equal (fun fit => fits ⟨equal, ?_, ⟨bytes, asked, ?_⟩, nonneg,
        fit⟩ _) fun unfit e => refused (fun accepts => unfit accepts.2.2.2.2) e _ (resized_sizes _)
      · simpa using positive
      · intro _ isBefore
        cases found.symm.trans isBefore
        simpa [grown] using inside
    · exact refused (fun accepts => negative accepts.2.2.2.1) _ t sizes
    · refine refused (fun accepts => ?_) _ t sizes
      obtain ⟨_, _, ⟨_, isBytes, inside⟩, _⟩ := accepts
      cases asked.symm.trans isBytes
      have inside := inside before found
      simp only [grown] at outside
      simp at outside
      omega
  · refine refused (fun accepts => ?_) _ t sizes
    obtain ⟨_, _, ⟨_, isBytes, _⟩, _⟩ := accepts
    cases overflow.symm.trans isBytes
  · refine refused (fun accepts => ?_) _ t sizes
    have all : strides.all (0 ≤ ·) = true := by simpa using accepts.2.1
    simp [all] at negative
  · exact refused (fun accepts => unequal accepts.1) _ t sizes

theorem layOut_leaves {t : State} {before after : StorageImpl} {strides : List Int}
    {memoryFormat : Option MemoryFormat}
    (self : t.self = resized machine s.self size none)
    (found : s.find s.self.storage = some before) (foundAfter : t.find s.self.storage = some after)
    (grown : after.nbytes = grownNbytes machine s before size none)
    (fits : ¬ LayOutRefused machine s size strides memoryFormat → ∀ t, normal () t)
    (refused : LayOutRefused machine s size strides memoryFormat → ∀ e t, t.self.sizes = size →
      raised e t) :
    wp (layOut machine size strides memoryFormat) normal raised t := by
  have sizes : t.self.sizes = size := by rw [self, resized_sizes]
  refine (wp_ite _ _ _).mpr ⟨fun strided => ?_, fun unstrided => ?_⟩
  · simp only [LayOutRefused, strided, not_false_eq_true, if_true, ne_eq, not_not] at fits refused
    simp only [wp_bind, wp_internalAssert]
    refine ⟨fun free => ?_, fun given => refused (fun both => ?_) _ t sizes⟩
    · have free : memoryFormat = none := by simpa using free
      exact asStrided_leaves self found foundAfter grown (fun accepts => fits ⟨free, accepts⟩)
        fun unaccepted => refused fun both => unaccepted both.2
    · simp [both.1] at given
  · simp only [LayOutRefused, unstrided, if_false] at fits refused
    cases memoryFormat with
    | none =>
      refine fits ?_ t
      rintro ⟨_, never, _⟩
      simp at never
    | some format =>
      refine emptyTensorRestride_leaves format (fun accepts => fits ?_ _) fun unaccepted e => ?_
      · rintro ⟨_, isFormat, unaccepted⟩
        cases isFormat
        exact unaccepted (by simpa [sizes] using accepts)
      · exact refused ⟨format, rfl, by simpa [sizes] using unaccepted⟩ e _ sizes

end

/-- What a raise leaves, where `late` says whether it comes after something was written. -/
def Leaves (late : Prop) (s t : State) : Prop :=
  (late → t.self ≠ s.self) ∧ (¬ late → Unchanged s t)

namespace Leaves
variable {late : Prop} {t : State}

theorem same (early : ¬ late) : Leaves late s s :=
  ⟨fun holds => absurd holds early, fun _ => ⟨rfl, List.prefix_refl _⟩⟩

theorem changed (holds : late) (differs : t.self ≠ s.self) : Leaves late s t :=
  ⟨fun _ => differs, fun early => absurd holds early⟩

theorem sizes (holds : late) (differs : s.self.sizes ≠ size) (written : t.self.sizes = size) :
    Leaves late s t := by
  refine changed holds fun same => differs ?_
  rw [← same]
  exact written

end Leaves

theorem resize_raises (memoryFormat : Option MemoryFormat) :
    wp (resize machine size memoryFormat)
      (fun _ _ => ¬ FailsLate machine s (.resize size memoryFormat))
      (fun _ => Leaves (FailsLate machine s (.resize size memoryFormat)) s) s := by
  by_cases same : s.self.sizes = size
  · simp only [FailsLate, same, if_true]
    refine resize_same_leaves same (fun early _ => .same ?_)
      (fun unnamed refused _ _ => .changed ⟨unnamed, refused⟩) fun early _ late => ?_
    · rintro ⟨unnamed, refused⟩
      rcases early with named | accepted
      · simp [unnamed] at named
      · exact accepted refused
    · rcases early with named | accepted
      · simp [late.1] at named
      · exact accepted late.2
  · simp only [FailsLate, same, if_false]
    refine resize_leaves same (fun early _ => .same ?_)
      (fun unnamed guarded refused _ _ => .sizes ⟨unnamed, guarded, refused⟩ same)
      fun _ _ accepted _ _ _ _ _ _ _ late => accepted late.2.2
    rintro ⟨unnamed, guarded, _⟩
    rcases early with named | unguarded
    · simp [unnamed] at named
    · exact unguarded guarded

theorem resizeOutput_raises :
    wp (resizeOutput machine size) (fun _ _ => ¬ FailsLate machine s (.resizeOutput size))
      (fun _ => Leaves (FailsLate machine s (.resizeOutput size)) s) s := by
  refine resizeOutput_leaves (fun same late => late.2.1 same) (fun _ early _ => .same ?_)
    (fun differs unnamed guarded refused _ _ => .sizes ⟨unnamed, differs, guarded, refused⟩ differs)
    fun _ _ _ accepted _ _ _ _ _ _ _ late => accepted late.2.2.2
  rintro ⟨unnamed, _, guarded, _⟩
  rcases early with named | unguarded
  · simp [unnamed] at named
  · exact unguarded guarded

theorem resizeOutputOn_raises (device : Nat) :
    wp (resizeOutputOn machine size device)
      (fun _ _ => ¬ FailsLate machine s (.resizeOutputOn size device))
      (fun _ => Leaves (FailsLate machine s (.resizeOutputOn size device)) s) s := by
  simp only [resizeOutputOn, wp_bind, wp_get, wp_torchCheck, wp_pure, decide_eq_true_eq,
    decide_eq_false_iff_not]
  refine ⟨fun here => ?_, fun other => .same fun late => other late.1⟩
  have only : FailsLate machine s (.resizeOutputOn size device) ↔
      FailsLate machine s (.resizeOutput size) := by
    simp [FailsLate, here]
  rw [only]
  exact resizeOutput_raises

theorem resizeOut_raises (strides : List Int) (options : TensorOptions) :
    wp (resizeOut machine size strides options)
      (fun _ _ => ¬ FailsLate machine s (.resizeOut size strides options))
      (fun _ => Leaves (FailsLate machine s (.resizeOut size strides options)) s) s := by
  simp only [resizeOut, wp_bind, wp_get, wp_torchCheck, decide_eq_true_eq,
    decide_eq_false_iff_not]
  refine ⟨fun dtype => ⟨fun device => ?_, fun other => .same fun late => other late.2.1⟩,
    fun other => .same fun late => other late.1⟩
  refine resizeOutput_leaves (fun same => ?_) (fun _ early _ => .same ?_) ?_ ?_
  · exact (wp_pure _).mpr fun late => late.2.2.2.1 same
  · rintro ⟨_, _, unnamed, _, guarded, _⟩
    rcases early with named | unguarded
    · simp [unnamed] at named
    · exact unguarded guarded
  · exact fun differs unnamed guarded refused _ _ =>
      .sizes ⟨dtype, device, unnamed, differs, guarded, .inl refused⟩ differs
  · intro differs unnamed guarded accepted t before after self found foundAfter grown
    refine (wp_ite _ _ _).mpr ⟨fun _ => ?_, fun never => by simp at never⟩
    refine layOut_leaves self found foundAfter grown (fun laidOut _ late => ?_)
      fun refused _ _ =>
        .sizes ⟨dtype, device, unnamed, differs, guarded, .inr refused⟩ differs
    rcases late.2.2.2.2.2 with refused | refused
    · exact accepted refused
    · exact laidOut refused

theorem setStorageOffset_raises (checks : machine.ChecksLengths) (storage : Option Nat)
    (storageOffset : Int) :
    wp (setStorageOffset machine storage storageOffset size stride)
      (fun _ t => ¬ SetRefused machine s storage storageOffset size stride ∧
        t.self.dtype = s.self.dtype)
      (fun _ => Leaves (SetRefused machine s storage storageOffset size stride) s) s :=
  setStorageOffset_leaves checks (fun accepted _ dtype => ⟨accepted, dtype⟩)
    (fun refused _ _ => .changed refused) fun accepted _ => .same accepted

theorem set_raises (checks : machine.ChecksLengths) :
    wp (set machine) (fun _ _ => ¬ FailsLate machine s .set)
      (fun _ => Leaves (FailsLate machine s .set) s) s := by
  simp only [set, wp_bind, wp_get, wp_modify, wp_internalAssert]
  refine wp_mono (setStorageOffset_raises checks _ _) (fun _ t after => ?_) fun _ t left => ?_
  · exact ⟨fun _ => after.1, fun other => by simp [after.2] at other⟩
  · refine ⟨left.1, fun early => ?_⟩
    obtain ⟨self, storages⟩ := left.2 early
    exact ⟨self, (List.prefix_append _ _).trans storages⟩

theorem setStorage_raises (checks : machine.ChecksLengths) (source : Option Nat) :
    wp (setStorage machine source) (fun _ _ => ¬ FailsLate machine s (.setStorage source))
      (fun _ => Leaves (FailsLate machine s (.setStorage source)) s) s := by
  simp only [setStorage, wp_bind, wp_get, wp_orRaise]
  refine ⟨fun storage found => ?_, fun null => .same ?_⟩
  rotate_left
  · rintro ⟨_, found, _⟩
    cases null.symm.trans found
  have only : FailsLate machine s (.setStorage source) ↔ SetRefused machine s source 0
      [(storage.nbytes / elementSize s.self.dtype : Nat)] none := by
    refine ⟨?_, fun refused => ⟨storage, found, refused⟩⟩
    rintro ⟨_, isStorage, refused⟩
    cases found.symm.trans isStorage
    exact refused
  rw [only]
  exact wp_mono (setStorageOffset_raises checks _ _) (fun _ _ after => after.1) fun _ _ left => left

/-- An operator raises before it wrote, or after it. -/
theorem Op.run_leaves (checks : machine.ChecksLengths) (op : Op) :
    wp (op.run machine) (fun _ _ => ¬ FailsLate machine s op)
      (fun _ => Leaves (FailsLate machine s op) s) s := by
  cases op with
  | resize size memoryFormat => exact resize_raises memoryFormat
  | resizeOutputOn size device => exact resizeOutputOn_raises device
  | resizeOutput shape => exact (wp_map _ _).mpr resizeOutput_raises
  | resizeOut sizes strides options => exact resizeOut_raises strides options
  | set => exact set_raises checks
  | setStorage source => exact setStorage_raises checks source
  | setStorageOffset storage storageOffset size stride =>
    exact wp_mono (setStorageOffset_raises checks _ _) (fun _ _ after => after.1) fun _ _ left => left
  | setTensor source sameImpl =>
    cases sameImpl with
    | true => exact fun late => by simp [FailsLate] at late
    | false =>
      have only : FailsLate machine s (.setTensor source false) ↔ SetRefused machine s
          source.storage source.storageOffset source.sizes (some source.strides) := by
        simp [FailsLate]
      rw [only]
      exact wp_mono (setStorageOffset_raises checks _ _) (fun _ _ after => after.1) fun _ _ left => left

/-- A raise leaves the tensor and the storages as they were, unless it comes after something else
was written. -/
theorem raise_keeps_tensor (machine : Machine) (checks : machine.ChecksLengths) (s : State)
    (op : Op) :
    wp (op.run machine) (fun _ _ => True) (fun _ => Unchanged s) s ↔ ¬ FailsLate machine s op := by
  refine ⟨fun keeps late => ?_, fun early => ?_⟩
  · exact wp_false (wp_mono (wp_and keeps (Op.run_leaves checks op)) (fun _ _ both => both.2 late)
      fun _ _ both => both.2.1 late both.1.1)
  · exact wp_mono (Op.run_leaves checks op) (fun _ _ _ => trivial) fun _ _ left => left.2 early

/-- A framework on tensors that are small enough for nothing to overflow, and a device without
free memory. -/
def fullDevice : Machine where
  hardware := {}
  numel size := some (size.foldr (· * ·) 1).toNat
  contiguousStrides size := (size.tails.tail.map (·.foldr (max · 1 * ·) 1), false)
  normalStrides _ stride := (stride, false)
  channelsLastStrides size := size
  computeStorageNbytes size stride itemsize storageOffset :=
    if 0 ∈ size then some 0
    else some (((List.zipWith (fun n stride => (n - 1) * stride) size stride).sum + 1 +
      storageOffset) * itemsize).toNat
  computeStorageNbytesContiguous size itemsize storageOffset :=
    some ((size.foldr (· * ·) 1 + storageOffset) * itemsize).toNat
  checkSetStorage s _ storageOffset size stride :=
    if stride.any (size.length ≠ ·.length) then
      some (.torchCheck "unequal size length and stride length", s.self)
    else if storageOffset < 0 then some (.torchCheck "Tensor: invalid storage offset", s.self)
    else none
  deterministicAlgorithms := false
  fill := none
  currentDevice := 0
  getDevice := none
  setDevice _ := none
  allocate _ sizeBytes := .error (.outOfMemory sizeBytes 0 0)
  memcpy := none

/-- Two floats on a storage of eight bytes. -/
def pairOfFloats : State where
  self := ⟨[2], [1], 0, some 0, .float, 0, false⟩
  storages := [⟨8, some 4096, true, some 0, 0⟩]

theorem fullDevice_checks : fullDevice.ChecksLengths := by
  intro s storage storageOffset size stride accepted
  by_contra unequal
  simp [fullDevice, unequal] at accepted

/-- Setting the tensor on a storage that has no room is refused too late. -/
theorem raise_keeps_tensor_set :
    wp ((Op.setStorageOffset (some 0) 1 [2, 2] (some [2, 1])).run fullDevice) (fun _ _ => True)
      (fun _ => Unchanged pairOfFloats) pairOfFloats ↔
        ¬ FailsLate fullDevice pairOfFloats (.setStorageOffset (some 0) 1 [2, 2] (some [2, 1])) :=
  raise_keeps_tensor fullDevice fullDevice_checks _ _

/-- A tensor of two elements that is to get four: there is no memory for them, and it has four
elements afterwards. -/
theorem raise_changes_tensor : ¬ ∀ (machine : Machine) (s : State) (op : Op),
    machine.ChecksLengths → wp (op.run machine) (fun _ _ => True) (fun _ => Unchanged s) s := by
  intro keeps
  have kept : wp (resize fullDevice [4] none) (fun _ _ => True) (fun _ => Unchanged pairOfFloats)
      pairOfFloats := keeps fullDevice pairOfFloats (.resize [4] none) fullDevice_checks
  exact absurd kept.1 (by decide)

end TorchGcu.FailedResize

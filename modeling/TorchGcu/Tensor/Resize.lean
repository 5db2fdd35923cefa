import TorchGcu.Tensor.ScalarType

/-! Tensors over storages: how they are made, resized, set on storages and viewed. The size of a
storage is logical, and tensors of narrowed types use half of it on the device. -/
namespace TorchGcu.Resize

/-! ### Strided tensors -/

/-- The number of elements. -/
def numel (sizes : List Nat) : Nat := sizes.foldr (· * ·) 1

/-- The elements from the first to the last one of a strided tensor. -/
def extent (sizes strides : List Nat) : Nat :=
  if 0 ∈ sizes then 0 else 1 + (List.zipWith (fun size stride => (size - 1) * stride) sizes strides).sum

/-- Where the elements of a strided tensor are. -/
def positions : List Nat → List Nat → List Nat
  | [], _ => [0]
  | size :: sizes, strides =>
    (List.range size).flatMap fun i =>
      (positions sizes strides.tail).map (i * strides.headD 0 + ·)

/-- The strides of a tensor whose elements are in order. -/
def contiguousStrides : List Nat → List Nat
  | [] => []
  | _ :: sizes => numel (sizes.map (max · 1)) :: contiguousStrides sizes

/-- `computeStorageNbytes`. -/
def computeStorageNbytes (sizes strides : List Nat) (itemsize storageOffset : Nat) : Nat :=
  if 0 ∈ sizes then 0 else (storageOffset + extent sizes strides) * itemsize

/-- `computeStorageNbytesContiguous`. -/
def computeStorageNbytesContiguous (sizes : List Nat) (itemsize storageOffset : Nat) : Nat :=
  (numel sizes + storageOffset) * itemsize

inductive MemoryFormat where
  | contiguous
  | preserve
  | channelsLast
  | channelsLast3d
deriving DecidableEq

/-- What a tensor says about its elements. -/
structure Geometry where
  sizes : List Nat
  strides : List Nat
  storageOffset : Nat
deriving DecidableEq

/-- The functions of the framework that choose sizes and strides: of a view of other sizes, of a
memory format, and of a view of another element size; and whether two of its checks pass.
`checkSetStorage` is asked for a tensor of some element size with a storage of so many bytes at an
offset, with sizes and maybe strides, and `setStrided` for a view of such a storage. -/
structure Framework where
  inferSize : List Int → Nat → Option (List Nat)
  computeStride : List Nat → List Nat → List Nat → Option (List Nat)
  formatStrides : MemoryFormat → List Nat → Option (List Nat)
  viewDtype : Nat → Nat → Geometry → Option Geometry
  checkSetStorage : Geometry → (itemsize nbytes storageOffset : Nat) → List Nat →
    Option (List Nat) → Bool
  setStrided : (itemsize nbytes : Nat) → Geometry → Bool

/-- The bytes of the elements of a tensor, from the first byte of its storage. -/
def Geometry.Touches (geometry : Geometry) (itemsize byte : Nat) : Prop :=
  ∃ position ∈ positions geometry.sizes geometry.strides,
    (geometry.storageOffset + position) * itemsize ≤ byte ∧
      byte < (geometry.storageOffset + position + 1) * itemsize

/-- What the framework promises: a view has the elements of its tensor, a format orders the
elements without gaps, and a view of another type has bytes of its tensor only. A view passes
`setStrided` only within the bytes of the storage, and so does a tensor that keeps its sizes and
strides pass `checkSetStorage`, as nobody resizes the storage for it. -/
structure Framework.Lawful (framework : Framework) : Prop where
  inferSize : ∀ {shape count sizes}, framework.inferSize shape count = some sizes →
    numel sizes = count
  computeStride : ∀ {sizes strides newSizes newStrides}, numel newSizes = numel sizes →
    framework.computeStride sizes strides newSizes = some newStrides →
      ∀ position ∈ positions newSizes newStrides, position ∈ positions sizes strides
  formatStrides : ∀ {format sizes strides}, framework.formatStrides format sizes = some strides →
    ∀ position ∈ positions sizes strides, position < numel sizes
  viewDtype : ∀ {itemsize newItemsize geometry view},
    framework.viewDtype itemsize newItemsize geometry = some view →
      ∀ byte, view.Touches newItemsize byte → geometry.Touches itemsize byte
  checkSetStorage : ∀ {tensor itemsize nbytes storageOffset stride},
    framework.checkSetStorage tensor itemsize nbytes storageOffset tensor.sizes stride = true →
      stride = none ∨ stride = some tensor.strides →
        computeStorageNbytes tensor.sizes tensor.strides itemsize storageOffset ≤ nbytes
  setStrided : ∀ {itemsize nbytes view}, framework.setStrided itemsize nbytes view = true →
    computeStorageNbytes view.sizes view.strides itemsize view.storageOffset ≤ nbytes

/-! ### Storages and tensors -/

abbrev Bytes := List UInt8

/-- A storage: its logical size, and the device memory that was allocated for it, which is empty
for a null pointer. The code does not keep `madeFor`, the type of the tensor that the storage was
made for. -/
structure Storage where
  nbytes : Nat
  data : Bytes
  resizable : Bool
  madeFor : ScalarType
deriving DecidableEq

structure Tensor extends Geometry where
  storage : Nat
  dtype : ScalarType
deriving DecidableEq

/-- The device bytes from the start of the storage to the end of the tensor's last element. -/
def Tensor.physicalExtent (hardware : Hardware) (self : Tensor) : Nat :=
  computeStorageNbytes self.sizes self.strides (deviceElementSize hardware self.dtype)
    self.storageOffset

/-- How a storage grew: the device memory before and after, and how many bytes were copied. -/
structure Growth where
  old : Bytes
  new : Bytes
  copied : Nat

structure State where
  storages : List Storage
  tensors : List Tensor
  growths : List Growth

/-- The backend and the framework, and what device memory holds that was not written: a read past
the end of an allocation gets it as well. -/
structure Machine where
  hardware : Hardware
  framework : Framework
  garbage : Nat → UInt8

/-- The memory of a new allocation. -/
def Machine.allocate (machine : Machine) (sizeBytes : Nat) : Bytes :=
  (List.range sizeBytes).map machine.garbage

/-- `topsMemcpyAsync` to the front of a new allocation. -/
def Machine.copied (machine : Machine) (old : Bytes) (count sizeBytes : Nat) : Bytes :=
  (List.range sizeBytes).map fun i =>
    if i < count then old.getD i (machine.garbage i) else machine.garbage i

variable (machine : Machine)

def resizeBytes (storage : Storage) (sizeBytes : Nat) (isNarrow : Bool) :
    Option (Storage × List Growth) :=
  if storage.resizable = false then none
  else if sizeBytes = 0 then some ({ storage with data := [], nbytes := 0 }, [])
  else
    let physical := if isNarrow then sizeBytes / 2 else sizeBytes
    let oldStorageBytes := if isNarrow then storage.nbytes / 2 else storage.nbytes
    let count := if storage.data = [] then 0 else min oldStorageBytes physical
    let data := machine.copied storage.data count physical
    some ({ storage with data, nbytes := sizeBytes }, [⟨storage.data, data, count⟩])

/-- A storage of the state, and what the state becomes when it is replaced. -/
def State.replace (state : State) (index : Nat) (storage : Storage) (growths : List Growth) :
    State :=
  { state with
    storages := state.storages.set index storage
    growths := growths ++ state.growths }

/-- `maybe_resize_storage`. -/
def maybeResizeStorage (state : State) (self : Tensor) (newSizeBytes : Nat) (isNarrow : Bool) :
    Option State :=
  if numel self.sizes = 0 then some state
  else
    match state.storages[self.storage]? with
    | none => none
    | some storage =>
      if storage.nbytes < newSizeBytes then
        match resizeBytes machine storage newSizeBytes isNarrow with
        | none => none
        | some (grown, growths) => some (state.replace self.storage grown growths)
      else some state

/-- `resize_impl_`: the tensor as it becomes, and the state with its storage grown if it has to
be. -/
def resizeImpl (state : State) (self : Tensor) (size : List Nat) (stride : Option (List Nat)) :
    Option (Tensor × State) :=
  if self.sizes = size ∧ (stride = none ∨ stride = some self.strides) then some (self, state)
  else
    let itemsize := elementSize self.dtype
    let (resized, storageSize) :=
      match stride with
      | some stride => ({ self with sizes := size, strides := stride },
          computeStorageNbytes size stride itemsize self.storageOffset)
      | none => ({ self with sizes := size, strides := contiguousStrides size },
          computeStorageNbytesContiguous size itemsize self.storageOffset)
    match maybeResizeStorage machine state resized storageSize
      (isNarrowType machine.hardware self.dtype) with
    | none => none
    | some state => some (resized, state)

/-! ### The operations -/

inductive Op where
  | empty (size : List Nat) (dtype : ScalarType) (format : Option MemoryFormat)
  | emptyStrided (size stride : List Nat) (dtype : ScalarType)
  | resize (self : Nat) (size : List Nat) (format : Option MemoryFormat)
  | resizeOutput (output : Nat) (shape : List Nat)
  | set (result : Nat)
  | setStorage (result source : Nat)
  | setStorageOffset (result storage storageOffset : Nat) (size : List Nat)
      (stride : Option (List Nat))
  | setTensor (result source : Nat)
  | asStrided (self : Nat) (size stride : List Nat) (storageOffset : Option Nat)
  | view (self : Nat) (size : List Int)
  | viewDtype (self : Nat) (dtype : ScalarType)

/-- `tensor.unsafeGetTensorImpl()->empty_tensor_restride(format)`. -/
def restride (self : Tensor) (format : MemoryFormat) : Option Tensor :=
  match machine.framework.formatStrides format self.sizes with
  | some strides => some { self with strides }
  | none => none

/-- A state with a new storage, and the storage's number. -/
def State.make (state : State) (storage : Storage) : Nat × State :=
  (state.storages.length, { state with storages := state.storages ++ [storage] })

def State.push (state : State) (tensor : Tensor) : State :=
  { state with tensors := state.tensors ++ [tensor] }

def State.put (state : State) (index : Nat) (tensor : Tensor) : State :=
  { state with tensors := state.tensors.set index tensor }

/-- The storage of a new tensor that needs `sizeBytes` bytes of device memory. -/
def newStorage (sizeBytes : Nat) (dtype : ScalarType) : Storage where
  nbytes := if getGcuScalarType machine.hardware dtype ≠ dtype then 2 * sizeBytes else sizeBytes
  data := machine.allocate sizeBytes
  resizable := true
  madeFor := dtype

def empty (state : State) (size : List Nat) (dtype : ScalarType) (format : Option MemoryFormat) :
    Option State :=
  let sizeBytes := computeStorageNbytesContiguous size (deviceElementSize machine.hardware dtype) 0
  let (storage, state) := state.make (newStorage machine sizeBytes dtype)
  let tensor : Tensor := ⟨⟨size, contiguousStrides size, 0⟩, storage, dtype⟩
  match format with
  | none | some .contiguous => some (state.push tensor)
  | some format =>
    match restride machine tensor format with
    | some tensor => some (state.push tensor)
    | none => none

def emptyStrided (state : State) (size stride : List Nat) (dtype : ScalarType) : Option State :=
  if size.length ≠ stride.length then none
  else
    let sizeBytes :=
      computeStorageNbytes size stride (deviceElementSize machine.hardware dtype) 0
    let (storage, state) := state.make (newStorage machine sizeBytes dtype)
    some (state.push ⟨⟨size, stride, 0⟩, storage, dtype⟩)

/-- `resize_`. -/
def resize (state : State) (index : Nat) (self : Tensor) (size : List Nat)
    (format : Option MemoryFormat) : Option State :=
  match resizeImpl machine state self size none with
  | none => none
  | some (resized, state) =>
    match format with
    | none => some (state.put index resized)
    | some .preserve => none
    | some format =>
      match restride machine resized format with
      | some resized => some (state.put index resized)
      | none => none

def resizeOutput (state : State) (index : Nat) (output : Tensor) (shape : List Nat) :
    Option State :=
  if output.sizes = shape then some state else resize machine state index output shape none

/-- `set_` to a storage, with an offset, sizes and maybe strides. -/
def setStorageOffset (state : State) (index : Nat) (result : Tensor) (storage storageOffset : Nat)
    (size : List Nat) (stride : Option (List Nat)) : Option State :=
  match state.storages[storage]? with
  | none => none
  | some target =>
    if machine.framework.checkSetStorage result.toGeometry (elementSize result.dtype) target.nbytes
        storageOffset size stride = false then none
    else
      match resizeImpl machine state { result with storage, storageOffset } size stride with
      | none => none
      | some (result, state) => some (state.put index result)

/-- `set_` to nothing: a new storage of no bytes. -/
def set (state : State) (index : Nat) (result : Tensor) : Option State :=
  let (storage, state) := state.make ⟨0, [], true, result.dtype⟩
  setStorageOffset machine state index result storage 0 [0] none

def setStorage (state : State) (index : Nat) (result : Tensor) (source : Nat) : Option State :=
  match state.storages[source]? with
  | none => none
  | some storage =>
    setStorageOffset machine state index result source 0
      [storage.nbytes / elementSize result.dtype] none

def setTensor (state : State) (index : Nat) (result source : Tensor) : Option State :=
  setStorageOffset machine state index result source.storage source.storageOffset source.sizes
    (some source.strides)

def asStrided (state : State) (self : Tensor) (size stride : List Nat)
    (storageOffset : Option Nat) : Option State :=
  let geometry : Geometry := ⟨size, stride, storageOffset.getD self.storageOffset⟩
  match state.storages[self.storage]? with
  | none => none
  | some storage =>
    if machine.framework.setStrided (elementSize self.dtype) storage.nbytes geometry then
      some (state.push ⟨geometry, self.storage, self.dtype⟩)
    else none

def view (state : State) (self : Tensor) (size : List Int) : Option State :=
  match machine.framework.inferSize size (numel self.sizes) with
  | none => none
  | some size =>
    match machine.framework.computeStride self.sizes self.strides size with
    | none => none
    | some stride =>
      some (state.push ⟨⟨size, stride, self.storageOffset⟩, self.storage, self.dtype⟩)

def viewDtype (state : State) (self : Tensor) (dtype : ScalarType) : Option State :=
  match machine.framework.viewDtype (elementSize self.dtype) (elementSize dtype)
    self.toGeometry with
  | none => none
  | some geometry => some (state.push ⟨geometry, self.storage, dtype⟩)

/-- A tensor of the state. -/
def State.with (state : State) (index : Nat) (f : Tensor → Option State) : Option State :=
  match state.tensors[index]? with
  | none => none
  | some tensor => f tensor

/-- What an operation makes of a state when it returns normally. -/
def Op.run (state : State) : Op → Option State
  | .empty size dtype format => Resize.empty machine state size dtype format
  | .emptyStrided size stride dtype => Resize.emptyStrided machine state size stride dtype
  | .resize self size format =>
    state.with self fun tensor => Resize.resize machine state self tensor size format
  | .resizeOutput output shape =>
    state.with output fun tensor => Resize.resizeOutput machine state output tensor shape
  | .set result => state.with result fun tensor => Resize.set machine state result tensor
  | .setStorage result source =>
    state.with result fun tensor => Resize.setStorage machine state result tensor source
  | .setStorageOffset result storage storageOffset size stride =>
    state.with result fun tensor =>
      Resize.setStorageOffset machine state result tensor storage storageOffset size stride
  | .setTensor result source =>
    state.with result fun tensor =>
      if result = source then some state
      else state.with source fun source => Resize.setTensor machine state result tensor source
  | .asStrided self size stride storageOffset =>
    state.with self fun tensor =>
      Resize.asStrided machine state tensor size stride storageOffset
  | .view self size => state.with self fun tensor => Resize.view machine state tensor size
  | .viewDtype self dtype =>
    state.with self fun tensor => Resize.viewDtype machine state tensor dtype

end TorchGcu.Resize

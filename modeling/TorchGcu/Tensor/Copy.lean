import TorchGcu.Logic.Cells
import TorchGcu.Logic.Wp
import TorchGcu.Tensor.Resize

/-! Copies between tensors on the host and on devices: directly, or by way of contiguous
temporaries and further copies. -/
namespace TorchGcu.Copy
open ProgramLogic

/-! ### Tensors and their memory -/

inductive Device where
  | cpu
  | privateUse1 (index : Nat)
deriving DecidableEq, Repr

def Device.isPrivateUse1 : Device → Bool
  | .cpu => false
  | .privateUse1 _ => true

/-- The bits that say how elements are to be read. -/
structure Flags where
  conj : Bool := false
  neg : Bool := false
deriving DecidableEq, Repr

/-- An address is a storage and an offset in it. -/
abbrev Address := Nat × Nat

structure Tensor where
  device : Device
  dtype : ScalarType
  storage : Nat
  storageOffset : Nat := 0
  sizes : List Nat
  strides : List Nat
  flags : Flags := {}
deriving DecidableEq, Repr

namespace Tensor

def numel (t : Tensor) : Nat := Resize.numel t.sizes

/-- The elements in their logical order, as offsets from the first one. -/
def positions (t : Tensor) : List Nat := Resize.positions t.sizes t.strides

def addresses (t : Tensor) : List Address :=
  t.positions.map fun position => (t.storage, t.storageOffset + position)

def isContiguous (t : Tensor) : Bool := decide (t.positions = List.range t.numel)

end Tensor

/-- The strides of an expanded tensor, in the dimensions that it had. -/
def alignedStrides : List Nat → List Nat → List Nat → List Nat
  | size :: sizes, strides, target :: targets =>
    (if size = target then strides.headD 0 else 0) :: alignedStrides sizes strides.tail targets
  | _, _, _ => []

/-- `expand_as`: dimensions of size one, and new dimensions, are repeated. -/
def Tensor.expandAs (t : Tensor) (sizes : List Nat) : Tensor :=
  let added := sizes.length - t.sizes.length
  { t with
    sizes := sizes
    strides := List.replicate added 0 ++ alignedStrides t.sizes t.strides (sizes.drop added) }

/-- Whether a tensor of the first sizes can be expanded to the second. -/
def Expandable (sizes targets : List Nat) : Prop :=
  sizes.length ≤ targets.length ∧
    List.Forall₂ (fun size target => size = target ∨ size = 1) sizes
      (targets.drop (targets.length - sizes.length))

instance (sizes targets : List Nat) : Decidable (Expandable sizes targets) :=
  inferInstanceAs (Decidable (_ ∧ _))

/-- What `TensorIterator` makes sure of when it is built for a copy without resizing. -/
def Built (dst src : Tensor) : Prop := Expandable src.sizes dst.sizes ∧ dst.addresses.Nodup

instance (dst src : Tensor) : Decidable (Built dst src) := inferInstanceAs (Decidable (_ ∧ _))

/-- The memory of all storages. `isDevice` is what `topsPointerGetAttribute` answers for
addresses of a storage. -/
structure Heap (V : Type) where
  memory : Address → V
  isDevice : Nat → Bool
  next : Nat

/-- The physical elements. -/
def Heap.physical {V : Type} (heap : Heap V) (t : Tensor) : List V := t.addresses.map heap.memory

/-- What the program runs on. The element values have operations, a value is converted to a type,
and the framework answers `TensorIterator::is_contiguous` and chooses the strides of a tensor
that is to preserve the format of another. -/
structure Backend (V : Type) where
  hardware : Hardware
  conj : V → V
  neg : V → V
  convert : ScalarType → V → V
  isContiguous : Tensor → Tensor → Bool
  preservedStrides : Tensor → List Nat
  getP2pAccess : Nat → Nat → Bool
  isPinned : Tensor → Bool

inductive Err where
  | torchCheck (message : String)
  | internalAssert (message : String)
  | unbuilt
  | endless
deriving DecidableEq, Repr

abbrev M (V : Type) := EStateM Err (Heap V)

section Operations
variable {V : Type} (b : Backend V)

/-- The logical value of an element. -/
def Backend.read (flags : Flags) (v : V) : V :=
  let v := if flags.conj then b.conj v else v
  if flags.neg then b.neg v else v

def Backend.logical (heap : Heap V) (t : Tensor) : List V :=
  (heap.physical t).map (b.read t.flags)

/-- The type of the elements of a tensor as they are in memory: narrowed on a device. -/
def Backend.storedType (device : Device) (dtype : ScalarType) : ScalarType :=
  if device.isPrivateUse1 then getGcuScalarType b.hardware dtype else dtype

def Backend.stored (device : Device) (dtype : ScalarType) (v : V) : V :=
  b.convert (b.storedType device dtype) v

def internalAssert (condition : Bool) (message : String) : M V Unit :=
  if condition then pure () else throw (.internalAssert message)

/-- Stores the elements of a tensor. -/
def write (t : Tensor) (values : List V) : M V Unit :=
  modify fun heap => { heap with memory := Cells.store heap.memory (t.addresses.zip values) }

/-- A tensor of its own storage, with whatever is there. -/
def allocate (t : Tensor) : M V Tensor := do
  let heap ← get
  set { heap with
    isDevice := Function.update heap.isDevice heap.next t.device.isPrivateUse1
    next := heap.next + 1 }
  return { t with storage := heap.next, storageOffset := 0, flags := {} }

/-- `empty_like` with the contiguous memory format. -/
def emptyLike (t : Tensor) (dtype : ScalarType) : M V Tensor :=
  allocate { t with dtype := dtype, strides := Resize.contiguousStrides t.sizes }

/-- `Tensor::to(dtype)`. -/
def toDtype (t : Tensor) (dtype : ScalarType) : M V Tensor := do
  if t.dtype = dtype then return t
  let values := (b.logical (← get) t).map (b.stored t.device dtype)
  let fresh ← allocate { t with dtype := dtype, strides := b.preservedStrides t }
  write fresh values
  return fresh

/-- `Tensor::contiguous()`. -/
def contiguous (t : Tensor) : M V Tensor := do
  if t.isContiguous then return t
  let values := b.logical (← get) t
  let fresh ← allocate { t with strides := Resize.contiguousStrides t.sizes }
  write fresh values
  return fresh

/-- `copy_` between tensors on the host keeps logical values. -/
def cpuCopy (dst src : Tensor) : M V Unit := do
  let values := b.logical (← get) (src.expandAs dst.sizes)
  write dst (values.map fun v => b.read dst.flags (b.convert dst.dtype v))

/-- `topsatenCopy` copies and converts physical elements. -/
def topsatenCopy (dst src : Tensor) : M V Unit := do
  let values := (← get).physical (src.expandAs dst.sizes)
  write dst (values.map (b.stored dst.device dst.dtype))

/-- `topsMemcpy` of a number of elements, from the first element of one tensor to that of another. -/
def memcpy (dst src : Tensor) (numel : Nat) : M V Unit := do
  let heap ← get
  let cells := (List.range numel).map fun k =>
    ((dst.storage, dst.storageOffset + k), heap.memory (src.storage, src.storageOffset + k))
  set { heap with memory := Cells.store heap.memory cells }

def conjPhysicalInPlace (t : Tensor) : M V Unit := do
  write t (((← get).physical t).map b.conj)

def negInPlace (t : Tensor) : M V Unit := do
  write t (((← get).physical t).map b.neg)

/-! ### The kernel -/

/-- Type conversions and strides; the memory is copied as it is when that is enough. -/
def copyDeviceToDevice (dst src : Tensor) : M V Unit := do
  let sameType := decide (dst.dtype = src.dtype)
  let sameConj := decide (dst.flags.conj = src.flags.conj)
  let sameNeg := decide (dst.flags.neg = src.flags.neg)
  let memcpyEligible := sameType && sameConj && sameNeg && b.isContiguous dst src
  let srcDevice := if src.device = .cpu then dst.device else src.device
  if memcpyEligible then
    if srcDevice ≠ dst.device then memcpy dst src dst.numel
    else if (src.storage, src.storageOffset) ≠ (dst.storage, dst.storageOffset) then
      topsatenCopy b dst src
  else if sameNeg then
    if !sameConj then throw (.torchCheck "GCU not support conj_kernel yet")
    topsatenCopy b dst src
  else if !sameConj then throw (.torchCheck "GCU not support neg_conj_kernel yet")
  else throw (.torchCheck "GCU not support neg_kernel yet")

def copyRequiresTemporaries (dst src : Tensor) (p2pEnabled : Bool) : M V Bool := do
  if dst.device = src.device then
    internalAssert (dst.device.isPrivateUse1 && src.device.isPrivateUse1)
      "dst_device.is_privateuseone() && src_device.is_privateuseone()"
    return false
  if dst.dtype = src.dtype ∧ b.isContiguous dst src = true then return false
  else if dst.device.isPrivateUse1 && src.device.isPrivateUse1 then return !p2pEnabled
  else return true

def maybeEnableP2pAccess : Device → Device → Bool
  | .privateUse1 dst, .privateUse1 src => b.getP2pAccess src dst
  | _, _ => false

/-- `dst` itself when it will do, and else a contiguous tensor like it. -/
def dstTemporary (dst : Tensor) (dtype : ScalarType) (suits : Bool) : M V Tensor :=
  if suits then return dst else emptyLike dst dtype

/-- The temporaries: that of `dst` may be `dst` itself. Types are converted on the device of
`src`, but on the host for blocking copies to it. -/
def makeTemporaries (dst src : Tensor) (nonBlocking : Bool) : M V (Tensor × Tensor) := do
  if dst.device.isPrivateUse1 || nonBlocking then
    let dstContig ← dstTemporary dst dst.dtype dst.isContiguous
    let srcContig ← contiguous b ((← toDtype b src dst.dtype).expandAs dst.sizes)
    return (dstContig, srcContig)
  else
    let sameType := decide (dst.dtype = src.dtype)
    let dstContig ← dstTemporary dst src.dtype (dst.isContiguous && sameType)
    let srcContig ← contiguous b (src.expandAs dst.sizes)
    return (dstContig, srcContig)

/-- Copies by way of temporaries; `copy` is `Tensor::copy_`. -/
def copyByTemporaries (copy : Tensor → Tensor → Bool → M V Unit) (dst src : Tensor)
    (nonBlocking : Bool) : M V Unit := do
  let (dstContig, srcContig) ← makeTemporaries b dst src nonBlocking
  let dstContig := { dstContig with flags := dst.flags }
  let srcContig := { srcContig with flags := src.flags }
  internalAssert (dstContig.sizes == srcContig.sizes) "dst_contig.sizes().equals(src_contig.sizes())"
  internalAssert (dstContig.dtype == srcContig.dtype)
    "dst_contig.scalar_type() == src_contig.scalar_type()"
  copy dstContig srcContig nonBlocking
  if dstContig ≠ dst then
    internalAssert (dstContig.device == dst.device) "dst_contig.device() == dst.device()"
    copy dst dstContig nonBlocking

/-- The host side of a narrowed copy, in the type of the device. -/
def convertHostTensor (copy : Tensor → Tensor → Bool → M V Unit) (host : Tensor)
    (nonBlocking : Bool) : M V Tensor := do
  let convertedType := getGcuScalarType b.hardware host.dtype
  if nonBlocking && b.isPinned host then
    let converted ←
      allocate { host with dtype := convertedType, strides := b.preservedStrides host }
    copy converted host false
    return converted
  else toDtype b host convertedType

/-- What is left to do to the elements when a flag of only one tensor is set. -/
def repairFlags (dst src : Tensor) : M V Unit := do
  if dst.flags.conj ≠ src.flags.conj then conjPhysicalInPlace b dst
  if dst.flags.neg ≠ src.flags.neg then negInPlace b dst

/-- Copies between host and device, of the same type and both contiguous. -/
def copyHostAndDevice (copy : Tensor → Tensor → Bool → M V Unit) (dst src : Tensor)
    (nonBlocking : Bool) : M V Unit := do
  if isNarrowType b.hardware dst.dtype then
    if src.device = .cpu then
      let converted ← convertHostTensor b copy src nonBlocking
      memcpy dst converted dst.numel
    else
      let converted ← convertHostTensor b copy dst nonBlocking
      memcpy converted src dst.numel
      copy dst converted false
  else memcpy dst src dst.numel
  repairFlags b dst src

/-- The part of the kernel that follows the branch for temporaries. -/
def copyDirectly (copy : Tensor → Tensor → Bool → M V Unit) (dst src : Tensor)
    (nonBlocking : Bool) : M V Unit := do
  -- a tensor of `torch.as_tensor` says it is on the host, and its memory is on the device
  let srcIsGcu := decide (src.device = .cpu) && (← get).isDevice src.storage
  if dst.device.isPrivateUse1 && (src.device.isPrivateUse1 || srcIsGcu) then
    copyDeviceToDevice b dst src
  else
    internalAssert (dst.device.isPrivateUse1 != src.device.isPrivateUse1)
      "unsupported devices in GCU copy_()"
    copyHostAndDevice b copy dst src nonBlocking

def copyKernel (copy : Tensor → Tensor → Bool → M V Unit) (dst src : Tensor)
    (nonBlocking : Bool) : M V Unit := do
  let p2pEnabled := maybeEnableP2pAccess b dst.device src.device
  if ← copyRequiresTemporaries b dst src p2pEnabled then
    copyByTemporaries b copy dst src nonBlocking
  else copyDirectly b copy dst src nonBlocking

/-- `_copy_from`. -/
def copyFrom (kernel : Tensor → Tensor → Bool → M V Unit) (self dst : Tensor)
    (nonBlocking : Bool) : M V Unit := do
  if dst.storage = self.storage ∧ dst.storageOffset = self.storageOffset ∧
      dst.strides = self.strides ∧ dst.sizes = self.sizes ∧ dst.dtype = self.dtype ∧
      dst.flags = self.flags then return
  if ¬ Built dst self then throw .unbuilt
  if dst.numel = 0 then return
  kernel dst self nonBlocking

/-- `Tensor::copy_`. -/
def copyInto (kernel : Tensor → Tensor → Bool → M V Unit) (dst src : Tensor)
    (nonBlocking : Bool) : M V Unit :=
  if dst.device = .cpu ∧ src.device = .cpu then cpuCopy b dst src
  else copyFrom kernel src dst nonBlocking

/-- The kernel, with copies of copies down to a depth. -/
def copyKernelTo : Nat → Tensor → Tensor → Bool → M V Unit
  | 0, _, _, _ => throw .endless
  | depth + 1, dst, src, nonBlocking =>
    copyKernel b (copyInto b (copyKernelTo depth)) dst src nonBlocking

end Operations

end TorchGcu.Copy

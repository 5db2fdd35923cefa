import Mathlib.Algebra.Ring.Nat

/-! The element types of tensors, and the types that stand for them on the device. -/
namespace TorchGcu

/-- `at::ScalarType`. -/
inductive ScalarType where
  | byte | char | short | int | long | half | float | double
  | complexHalf | complexFloat | complexDouble | bool
  | qint8 | quint8 | qint32 | bfloat16 | quint4x2 | quint2x4
  | bits1x8 | bits2x4 | bits4x2 | bits8 | bits16
  | float8e5m2 | float8e4m3fn | float8e5m2fnuz | float8e4m3fnuz
  | uint16 | uint32 | uint64 | undefined
  deriving DecidableEq, Repr

/-- `c10::elementSize`, which is not asked for undefined types. -/
def elementSize : ScalarType → Nat
  | .byte | .char | .bool | .qint8 | .quint8 | .quint4x2 | .quint2x4 | .bits1x8 | .bits2x4
  | .bits4x2 | .bits8 | .float8e5m2 | .float8e4m3fn | .float8e5m2fnuz | .float8e4m3fnuz => 1
  | .short | .half | .bfloat16 | .bits16 | .uint16 => 2
  | .int | .float | .complexHalf | .qint32 | .uint32 => 4
  | .long | .double | .complexFloat | .uint64 => 8
  | .complexDouble => 16
  | .undefined => 0

/-- A supported backend (S60 or L600), and `TORCH_GCU_ENABLE_INT64_AND_UINT64`. -/
structure Hardware where
  enableInt64AndUint64 : Bool := false
  deriving DecidableEq

def isNarrowType (hardware : Hardware) (dtype : ScalarType) : Bool :=
  if hardware.enableInt64AndUint64 then
    -- int64 and uint64 are supported, and double and complex double are still narrowed
    dtype == .double || dtype == .complexDouble
  else
    dtype == .double || dtype == .long || dtype == .uint64 || dtype == .complexDouble

/-- The type of half the width that a narrowed type is stored as. -/
def getNarrowType : ScalarType → ScalarType
  | .double => .float
  | .long => .int
  | .uint64 => .uint32
  | .complexDouble => .complexFloat
  | dtype => dtype

def getGcuScalarType (hardware : Hardware) (dtype : ScalarType) : ScalarType :=
  if isNarrowType hardware dtype then getNarrowType dtype else dtype

/-- The size of an element in device memory. -/
def deviceElementSize (hardware : Hardware) (dtype : ScalarType) : Nat :=
  elementSize (getGcuScalarType hardware dtype)

theorem elementSize_narrow {hardware : Hardware} {dtype : ScalarType}
    (narrow : isNarrowType hardware dtype = true) :
    elementSize dtype = 2 * deviceElementSize hardware dtype := by
  simp only [deviceElementSize, getGcuScalarType, narrow, if_true]
  cases dtype <;> simp [isNarrowType] at narrow <;> rfl

theorem elementSize_wide {hardware : Hardware} {dtype : ScalarType}
    (wide : isNarrowType hardware dtype = false) :
    elementSize dtype = deviceElementSize hardware dtype := by
  simp [deviceElementSize, getGcuScalarType, wide]

theorem elementSize_pos {dtype : ScalarType} (defined : dtype ≠ .undefined) :
    0 < elementSize dtype := by
  cases dtype <;> simp_all [elementSize]

theorem deviceElementSize_pos {hardware : Hardware} {dtype : ScalarType}
    (defined : dtype ≠ .undefined) : 0 < deviceElementSize hardware dtype := by
  have pos := elementSize_pos defined
  cases narrow : isNarrowType hardware dtype with
  | true =>
    have half := elementSize_narrow narrow
    omega
  | false => exact elementSize_wide narrow ▸ pos

/-- The element types of the collective library. -/
inductive EcclDataType where
  | int8
  | uint8
  | float32
  | int32
  | half
  | bfloat16
deriving DecidableEq

def EcclDataType.size : EcclDataType → Nat
  | .int8 | .uint8 => 1
  | .half | .bfloat16 => 2
  | .float32 | .int32 => 4

def ecclDataType : ScalarType → Option EcclDataType
  | .char => some .int8
  | .byte => some .uint8
  | .float => some .float32
  | .double => some .float32
  | .int => some .int32
  | .long => some .int32
  | .half => some .half
  | .bool => some .uint8
  | .bfloat16 => some .bfloat16
  | _ => none

def fp8 : ScalarType → Bool
  | .float8e5m2 | .float8e4m3fn | .float8e5m2fnuz | .float8e4m3fnuz => true
  | _ => false

end TorchGcu

import TorchGcu.Profiler.AppendOnlyList
import TorchGcu.Profiler.DataFlow
import TorchGcu.Tensor.ScalarType

/-! The inputs of operators in a profile: four streams that are appended to while operators run, and
the generators that take the arguments of one operator after another from them. -/
namespace TorchGcu

/-- `c10::Layout`. -/
inductive Layout where
  | strided | sparse | sparseCsr | mkldnn | sparseCsc | sparseBsr | sparseBsc | jagged
deriving DecidableEq

namespace InputOutputEncoder
open DataFlow (Device noTensorImpl)

/-! ### Values -/

/-- What is read of an `at::Tensor`, with what its metadata asserts of it. -/
structure Tensor where
  defined : Bool
  isNested : Bool
  hasSymbolicSizesStrides : Bool
  impl : Nat
  /-- The data of the storage, for a tensor that has one. -/
  storage : Option Nat
  dtype : ScalarType
  layout : Layout
  device : Device
  sizes : List Int
  strides : List Int
  rank : sizes.length ≤ 2 ^ 32 - 1
  matching : layout = .strided → strides.length = sizes.length

/-- `c10::IValue`. -/
inductive IValue (V : Type) where
  | tensor (t : Tensor)
  | scalar (value : V)
  | tensorList (members : List Tensor)
  | list (elements : List (IValue V))
  | other (value : V)

structure RawTensorMetadataBase where
  data : Nat := 0
  dtype : ScalarType := .undefined
  layout : Layout := .strided
  sizeDim : Nat := 0

/-- `c10::DeviceType::CPU`. -/
def cpu : Nat := 0

structure RawTensorMetadata extends RawTensorMetadataBase where
  weakSelf : Option Nat := none
  deviceType : Nat := cpu
  deviceIndex : Int := -1

structure TensorMetadata extends RawTensorMetadataBase where
  weakSelf : Nat
  device : Device
  sizes : List Int
  strides : List Int

def RawTensorMetadata.ofTensor (t : Tensor) : RawTensorMetadata where
  data := t.storage.getD 0
  dtype := t.dtype
  layout := t.layout
  sizeDim := t.sizes.length % 2 ^ 32
  weakSelf := some t.impl
  deviceType := t.device.type
  deviceIndex := t.device.index

def TensorMetadata.ofRaw (r : RawTensorMetadata) (sizes strides : List Int) : TensorMetadata where
  toRawTensorMetadataBase := r.toRawTensorMetadataBase
  weakSelf := r.weakSelf.getD noTensorImpl
  device := ⟨r.deviceType, r.deviceIndex⟩
  sizes := sizes
  strides := strides

/-- `op_input_t`. -/
inductive OpInput (V : Type) where
  | tensor (t : TensorMetadata)
  | tensorList (list : List TensorMetadata)
  | value (value : IValue V)
  | nullopt

/-! ### Encoding -/

inductive Tag where
  | tensor | undefinedTensor | tensorListBegin | scalarList | scalar | other | terminator
deriving DecidableEq, Repr

inductive IOType where
  | shapes | concreteInputs | none
deriving DecidableEq, Repr

/-- `tag_map`. -/
def tagToIOType : Tag → IOType
  | .tensor | .undefinedTensor | .tensorListBegin => .shapes
  | .scalarList => .concreteInputs
  | .scalar | .other => .shapes
  | .terminator => .none

def scalarListLengthLimit : Nat := 30

variable {V : Type}

def IValue.isScalar : IValue V → Bool
  | .scalar _ => true
  | _ => false

/-- `toListRef`, for a value with `isList`. -/
def IValue.toListRef : IValue V → Option (List (IValue V))
  | .tensorList members => some (members.map .tensor)
  | .list elements => some elements
  | _ => none

/-- With `get_record_concrete_inputs_enabled`. -/
def isSupportedScalarList (recordConcreteInputs : Bool) (candidate : IValue V) : Bool :=
  if !recordConcreteInputs then false
  else match candidate.toListRef with
    | none => false
    | some list => match list with
      | [] => true
      | first :: _ =>
        if !first.isScalar then false
        else if list.length > scalarListLengthLimit then false
        else true

end InputOutputEncoder

/-- A stream of the encoder, with `IO_ENCODER_DEFAULT_BLOCK_SIZE`. -/
abbrev EncoderStream (α : Type) := AppendOnlyList α 1024

open InputOutputEncoder in
structure InputOutputEncoder (V : Type) where
  tags : EncoderStream Tag
  tensorMetadata : EncoderStream RawTensorMetadata
  tensorSizesStrides : EncoderStream Int
  ivalues : EncoderStream (IValue V)

namespace InputOutputEncoder
variable {V : Type}

def empty : InputOutputEncoder V := ⟨.empty, .empty, .empty, .empty⟩

def pushTag (e : InputOutputEncoder V) (tag : Tag) : InputOutputEncoder V :=
  { e with tags := e.tags.emplaceBack tag }

def pushTensor (e : InputOutputEncoder V) (t : Tensor) : InputOutputEncoder V :=
  -- nested and symbolic sizes are not encoded
  if t.defined && !t.isNested && !t.hasSymbolicSizesStrides then
    { e.pushTag .tensor with
      tensorMetadata := e.tensorMetadata.emplaceBack (.ofTensor t)
      tensorSizesStrides :=
        if t.layout = .strided then (e.tensorSizesStrides.copy t.sizes).copy t.strides
        else e.tensorSizesStrides.copy t.sizes }
  else e.pushTag .undefinedTensor

def pushIValue (e : InputOutputEncoder V) (value : IValue V) : InputOutputEncoder V :=
  { e with ivalues := e.ivalues.emplaceBack value }

/-- One argument of an operator. -/
def pushValue (recordConcreteInputs : Bool) (e : InputOutputEncoder V) :
    IValue V → InputOutputEncoder V
  | .tensor t => e.pushTensor t
  | .scalar value => (e.pushTag .scalar).pushIValue (.scalar value)
  | .tensorList members => (members.foldl pushTensor (e.pushTag .tensorListBegin)).pushTag .terminator
  | value =>
    if isSupportedScalarList recordConcreteInputs value then
      (e.pushTag .scalarList).pushIValue value
    else e.pushTag .other

/-- An operator whose inputs are pushed, and whether concrete inputs are recorded then. -/
structure Operator (V : Type) where
  recordConcreteInputs : Bool
  inputs : List (IValue V)

def push (e : InputOutputEncoder V) (op : Operator V) : InputOutputEncoder V :=
  (op.inputs.foldl (pushValue op.recordConcreteInputs) e).pushTag .terminator

/-! ### Decoding -/

inductive DecodeError where
  | access (error : AppendOnlyList.AccessError)
  | unexpectedTag (tag : Tag)
  /-- The fuel of the model is spent. -/
  | unfinished
deriving DecidableEq, Repr

abbrev StreamIterator (α : Type) := AppendOnlyList.Iterator α 1024

def read {α : Type} (it : StreamIterator α) : Except DecodeError α := it.deref.mapError .access

/-- The iterators that a generator keeps. -/
structure Generator (V : Type) where
  tagIt : StreamIterator Tag
  tensorMetadataIt : StreamIterator RawTensorMetadata
  tensorSizeStridesIt : StreamIterator Int
  ivalsIt : StreamIterator (IValue V)

def getIValueGenerator (e : InputOutputEncoder V) : Generator V where
  tagIt := e.tags.begin
  tensorMetadataIt := e.tensorMetadata.begin
  tensorSizeStridesIt := e.tensorSizesStrides.begin
  ivalsIt := e.ivalues.begin

def Generator.nextTag (g : Generator V) : Generator V := { g with tagIt := g.tagIt.next }

/-- So many numbers and whether there were as many, and the iterator behind them. -/
def readNumbers : Nat → StreamIterator Int →
    Except DecodeError (List Int × Bool × StreamIterator Int)
  | 0, it => .ok ([], true, it)
  | count + 1, it =>
    if it.exhausted then .ok ([], false, it)
    else do
      let number ← read it
      let (numbers, complete, it) ← readNumbers count it.next
      return (number :: numbers, complete, it)

/-- The strides of a tensor, whose metadata and sizes have been read. -/
def decodeStrides (g : Generator V) (raw : RawTensorMetadata) (sizes : List Int) :
    Except DecodeError (TensorMetadata × Generator V) :=
  if raw.layout = .strided then do
    let (strides, _, it) ← readNumbers raw.sizeDim g.tensorSizeStridesIt
    return (.ofRaw raw sizes strides, { g with tensorSizeStridesIt := it })
  else .ok (.ofRaw raw sizes [], g)

/-- `decode_tensor`. -/
def decodeTensor (g : Generator V) : Except DecodeError (TensorMetadata × Generator V) :=
  if g.tensorMetadataIt.exhausted then .ok (.ofRaw {} [] [], g)
  else do
    let raw ← read g.tensorMetadataIt
    let (sizes, complete, it) ← readNumbers raw.sizeDim g.tensorSizeStridesIt
    let g := { g with
      tensorMetadataIt := g.tensorMetadataIt.next
      tensorSizeStridesIt := it }
    if complete then decodeStrides g raw sizes else return (.ofRaw raw sizes [], g)

/-- `push_value`. -/
def entry (ioType : IOType) (tag : Tag) (input : OpInput V) : OpInput V :=
  if ioType = tagToIOType tag then input else .nullopt

/-- The members of a list up to its `TERMINATOR`, and whether one of them is undefined. -/
def decodeList : Nat → Generator V → List TensorMetadata → Bool →
    Except DecodeError (List TensorMetadata × Bool × Generator V)
  | 0, _, _, _ => .error .unfinished
  | fuel + 1, g, arg, foundUndefined => do
    let tag ← read g.nextTag.tagIt
    match tag with
    | .terminator => return (arg, foundUndefined, g.nextTag)
    | .undefinedTensor => decodeList fuel g.nextTag arg true
    | .tensor =>
      let (member, g) ← decodeTensor g.nextTag
      decodeList fuel g (arg ++ [member]) foundUndefined
    | tag => throw (.unexpectedTag tag)

/-- The `switch`: what is put out, and whether the operator has ended. -/
def decodeValue (ioType : IOType) (fuel : Nat) (g : Generator V) :
    Except DecodeError (List (OpInput V) × Bool × Generator V) := do
  let tag ← read g.tagIt
  match tag with
  | .tensor =>
    let (t, g) ← decodeTensor g
    return ([entry ioType tag (.tensor t)], false, g)
  | .tensorListBegin =>
    let (arg, foundUndefined, g) ← decodeList fuel g [] false
    if foundUndefined then
      let last ← read g.tagIt
      return ([entry ioType last .nullopt], false, g)
    else return ([entry ioType .tensorListBegin (.tensorList arg)], false, g)
  | .scalarList | .scalar =>
    let value ← read g.ivalsIt
    return ([entry ioType tag (.value value)], false, { g with ivalsIt := g.ivalsIt.next })
  | .undefinedTensor | .other => return ([entry ioType tag .nullopt], false, g)
  | .terminator => return ([], true, g)

def decodeOperator (ioType : IOType) : Nat → Generator V → List (OpInput V) →
    Except DecodeError (List (OpInput V) × Generator V)
  | 0, _, _ => .error .unfinished
  | fuel + 1, g, out =>
    if g.tagIt.exhausted then .ok (out, g)
    else do
      let (inputs, terminate, g) ← decodeValue ioType fuel g
      if terminate then return (out ++ inputs, g.nextTag)
      else decodeOperator ioType fuel g.nextTag (out ++ inputs)

/-- One call of a generator, with fuel for every tag. -/
def Generator.call (ioType : IOType) (g : Generator V) :
    Except DecodeError (List (OpInput V) × Generator V) :=
  decodeOperator ioType (g.tagIt.size + 1) g []

/-- What so many calls return. -/
def Generator.calls (ioType : IOType) : Nat → Generator V →
    Except DecodeError (List (List (OpInput V)))
  | 0, _ => .ok []
  | count + 1, g => do
    let (out, g) ← g.call ioType
    let outs ← calls ioType count g
    return out :: outs

def getInputShapeGenerator (e : InputOutputEncoder V) (count : Nat) :
    Except DecodeError (List (List (OpInput V))) := e.getIValueGenerator.calls .shapes count

def getConcreteInputGenerator (e : InputOutputEncoder V) (count : Nat) :
    Except DecodeError (List (List (OpInput V))) := e.getIValueGenerator.calls .concreteInputs count

end InputOutputEncoder
end TorchGcu

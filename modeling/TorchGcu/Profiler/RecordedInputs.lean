import TorchGcu.Profiler.InputOutputEncoder

/-! What the generators return for the operators that were pushed. -/
namespace TorchGcu.InputOutputEncoder
variable {V : Type}

/-! ### What is returned for an argument -/

/-- Tensors that are undefined, nested or of symbolic sizes are not recorded. -/
def Tensor.recorded (t : Tensor) : Bool := t.defined && !t.isNested && !t.hasSymbolicSizesStrides

def Tensor.metadata (t : Tensor) : TensorMetadata where
  data := t.storage.getD 0
  dtype := t.dtype
  layout := t.layout
  sizeDim := t.sizes.length
  weakSelf := t.impl
  device := t.device
  sizes := t.sizes
  strides := if t.layout = .strided then t.strides else []

def IValue.shape : IValue V → OpInput V
  | .tensor t => if t.recorded then .tensor t.metadata else .nullopt
  | .scalar value => .value (.scalar value)
  | .tensorList members =>
    if members.all Tensor.recorded then .tensorList (members.map Tensor.metadata) else .nullopt
  | .list _ | .other _ => .nullopt

def IValue.concrete (recordConcreteInputs : Bool) : IValue V → OpInput V
  | .list elements =>
    if isSupportedScalarList recordConcreteInputs (.list elements) then .value (.list elements)
    else .nullopt
  | _ => .nullopt

def IValue.returned (recordConcreteInputs : Bool) (value : IValue V) : IOType → OpInput V
  | .shapes => value.shape
  | .concreteInputs => value.concrete recordConcreteInputs
  | .none => .nullopt

def Operator.returned (ioType : IOType) (op : Operator V) : List (OpInput V) :=
  op.inputs.map (IValue.returned op.recordConcreteInputs · ioType)

/-! ### What is appended to the streams -/

/-- What the four streams hold. -/
structure Streams (V : Type) where
  tags : List Tag
  metadata : List RawTensorMetadata
  numbers : List Int
  values : List (IValue V)

namespace Streams

def nil : Streams V := ⟨[], [], [], []⟩

def tag (tag : Tag) (rest : Streams V) : Streams V := { rest with tags := tag :: rest.tags }

def value (value : IValue V) (rest : Streams V) : Streams V :=
  { rest with values := value :: rest.values }

end Streams

/-- The sizes and strides of a tensor in their stream. -/
def Tensor.numbers (t : Tensor) : List Int :=
  t.sizes ++ if t.layout = .strided then t.strides else []

/-- A tensor before the rest of what is encoded. -/
def Tensor.encode (t : Tensor) (rest : Streams V) : Streams V :=
  if t.recorded then
    { rest with
      tags := .tensor :: rest.tags
      metadata := .ofTensor t :: rest.metadata
      numbers := t.numbers ++ rest.numbers }
  else rest.tag .undefinedTensor

def IValue.encode (recordConcreteInputs : Bool) (value : IValue V) (rest : Streams V) : Streams V :=
  match value with
  | .tensor t => t.encode rest
  | .scalar value => (rest.value (.scalar value)).tag .scalar
  | .tensorList members => (members.foldr Tensor.encode (rest.tag .terminator)).tag .tensorListBegin
  | .list elements =>
    if isSupportedScalarList recordConcreteInputs (.list elements) then
      (rest.value (.list elements)).tag .scalarList
    else rest.tag .other
  | .other _ => rest.tag .other

def Operator.encode (op : Operator V) (rest : Streams V) : Streams V :=
  op.inputs.foldr (IValue.encode op.recordConcreteInputs) (rest.tag .terminator)

/-- What the streams hold, with the rest behind it. -/
def before (e : InputOutputEncoder V) (rest : Streams V) : Streams V where
  tags := e.tags.toList ++ rest.tags
  metadata := e.tensorMetadata.toList ++ rest.metadata
  numbers := e.tensorSizesStrides.toList ++ rest.numbers
  values := e.ivalues.toList ++ rest.values

structure Filled (e : InputOutputEncoder V) : Prop where
  tags : AppendOnlyList.Filled 1024 e.tags.blocks
  tensorMetadata : AppendOnlyList.Filled 1024 e.tensorMetadata.blocks
  tensorSizesStrides : AppendOnlyList.Filled 1024 e.tensorSizesStrides.blocks
  ivalues : AppendOnlyList.Filled 1024 e.ivalues.blocks

/-- From a well-formed encoder a push leads to another one, with the encoding appended. -/
def Appends (e after : InputOutputEncoder V) (encode : Streams V → Streams V) : Prop :=
  e.Filled → after.Filled ∧ ∀ rest, after.before rest = e.before (encode rest)

namespace Appends
variable {e after last : InputOutputEncoder V} {encode encodeLast : Streams V → Streams V}

theorem trans (first : Appends e after encode) (second : Appends after last encodeLast) :
    Appends e last (fun rest => encode (encodeLast rest)) := by
  intro filled
  obtain ⟨filled, front⟩ := first filled
  obtain ⟨filled, back⟩ := second filled
  exact ⟨filled, fun rest => (back rest).trans (front _)⟩

theorem foldl {A : Type} {push : InputOutputEncoder V → A → InputOutputEncoder V}
    {encode : A → Streams V → Streams V} (one : ∀ e a, Appends e (push e a) (encode a))
    (list : List A) (e : InputOutputEncoder V) :
    Appends e (list.foldl push e) (list.foldr encode ·) := by
  induction list generalizing e with
  | nil => exact fun filled => ⟨filled, fun _ => rfl⟩
  | cons a list ih => exact (one e a).trans (ih (push e a))

end Appends

theorem pushTag_appends (e : InputOutputEncoder V) (tag : Tag) :
    Appends e (e.pushTag tag) (Streams.tag tag) := by
  intro filled
  obtain ⟨tags, held⟩ := filled.tags.emplaceBack (by decide) tag
  refine ⟨{ filled with tags := tags }, fun rest => ?_⟩
  simp [before, pushTag, Streams.tag, held]

theorem pushIValue_appends (e : InputOutputEncoder V) (value : IValue V) :
    Appends e (e.pushIValue value) (Streams.value value) := by
  intro filled
  obtain ⟨ivalues, held⟩ := filled.ivalues.emplaceBack (by decide) value
  refine ⟨{ filled with ivalues := ivalues }, fun rest => ?_⟩
  simp [before, pushIValue, Streams.value, held]

theorem copy_numbers {l : EncoderStream Int} (filled : AppendOnlyList.Filled 1024 l.blocks)
    (t : Tensor) {after : EncoderStream Int}
    (stored : after = if t.layout = .strided then (l.copy t.sizes).copy t.strides
      else l.copy t.sizes) :
    AppendOnlyList.Filled 1024 after.blocks ∧ after.toList = l.toList ++ t.numbers := by
  subst stored
  obtain ⟨sized, sizes⟩ := filled.copy (by decide) t.sizes
  unfold Tensor.numbers
  split
  · obtain ⟨strided, strides⟩ := sized.copy (by decide) t.strides
    exact ⟨strided, by rw [strides, sizes, List.append_assoc]⟩
  · exact ⟨sized, by rw [sizes, List.append_nil]⟩

theorem pushTensor_appends (e : InputOutputEncoder V) (t : Tensor) :
    Appends e (e.pushTensor t) t.encode := by
  unfold pushTensor Tensor.encode Tensor.recorded
  split
  · intro filled
    obtain ⟨tags, tagsHeld⟩ := filled.tags.emplaceBack (by decide) .tensor
    obtain ⟨metadata, metadataHeld⟩ :=
      filled.tensorMetadata.emplaceBack (by decide) (.ofTensor t)
    obtain ⟨numbers, numbersHeld⟩ := copy_numbers filled.tensorSizesStrides t rfl
    refine ⟨⟨tags, metadata, numbers, filled.ivalues⟩, fun rest => ?_⟩
    simp [before, pushTag, tagsHeld, metadataHeld, numbersHeld]
  · exact pushTag_appends e .undefinedTensor

theorem pushValue_appends (recordConcreteInputs : Bool) (e : InputOutputEncoder V)
    (value : IValue V) : Appends e (e.pushValue recordConcreteInputs value)
      (value.encode recordConcreteInputs) := by
  cases value with
  | tensor t => exact pushTensor_appends e t
  | scalar value => exact (pushTag_appends e .scalar).trans (pushIValue_appends _ _)
  | tensorList members =>
    have list := Appends.foldl pushTensor_appends members (e.pushTag .tensorListBegin)
    exact ((pushTag_appends e .tensorListBegin).trans list).trans (pushTag_appends _ .terminator)
  | list elements =>
    cases supported : isSupportedScalarList recordConcreteInputs (.list elements) with
    | true =>
      have both := (pushTag_appends e .scalarList).trans (pushIValue_appends _ (.list elements))
      simpa [pushValue, Appends, IValue.encode, supported] using both
    | false => simpa [pushValue, Appends, IValue.encode, supported] using pushTag_appends e .other
  | other value =>
    have unsupported : isSupportedScalarList recordConcreteInputs (.other value) = false := by
      cases recordConcreteInputs <;> rfl
    simpa [pushValue, Appends, IValue.encode, unsupported] using pushTag_appends e .other

theorem push_appends (e : InputOutputEncoder V) (op : Operator V) :
    Appends e (e.push op) op.encode :=
  (Appends.foldl (pushValue_appends op.recordConcreteInputs) op.inputs e).trans
    (pushTag_appends _ .terminator)

/-! ### What is taken from the streams -/

/-- The iterators of the generator have these streams before them. -/
structure Generator.At (g : Generator V) (s : Streams V) : Prop where
  tags : g.tagIt.At s.tags
  metadata : g.tensorMetadataIt.At s.metadata
  numbers : g.tensorSizeStridesIt.At s.numbers
  values : g.ivalsIt.At s.values

theorem Filled.generator {e : InputOutputEncoder V} (filled : e.Filled) :
    e.getIValueGenerator.At (e.before .nil) where
  tags := by simpa [before, Streams.nil, getIValueGenerator] using filled.tags.begin
  metadata := by simpa [before, Streams.nil, getIValueGenerator] using filled.tensorMetadata.begin
  numbers := by simpa [before, Streams.nil, getIValueGenerator] using filled.tensorSizesStrides.begin
  values := by simpa [before, Streams.nil, getIValueGenerator] using filled.ivalues.begin

section Read
variable {α : Type} {it : StreamIterator α} {x : α} {xs : List α}

theorem read_cons (reached : it.At (x :: xs)) : read it = .ok x := by
  rw [read, reached.deref (by decide)]
  rfl

theorem readNumbers_append {it : StreamIterator Int} {numbers rest : List Int}
    (reached : it.At (numbers ++ rest)) :
    ∃ after, readNumbers numbers.length it = .ok (numbers, true, after) ∧ after.At rest := by
  induction numbers generalizing it with
  | nil => exact ⟨it, rfl, reached⟩
  | cons number numbers ih =>
    rw [List.cons_append] at reached
    obtain ⟨after, taken, remaining⟩ := ih (reached.next (by decide))
    have more : it.exhausted = false := reached.exhausted
    refine ⟨after, ?_, remaining⟩
    simp only [List.length_cons, readNumbers, more, read_cons reached, bind, Except.bind, taken]
    rfl

end Read

variable {g : Generator V} {s : Streams V}

theorem Generator.At.nextTag {tag : Tag} (reached : g.At (s.tag tag)) : g.nextTag.At s :=
  { reached with tags := reached.tags.next (by decide) }

theorem Generator.At.readTag {tag : Tag} (reached : g.At (s.tag tag)) : read g.tagIt = .ok tag :=
  read_cons reached.tags

theorem Tensor.sizeDim (t : Tensor) : t.sizes.length % 2 ^ 32 = t.sizes.length :=
  Nat.mod_eq_of_lt (Nat.lt_of_le_of_lt t.rank (by decide))

/-- The strides that the metadata of a tensor announces. -/
theorem decodeStrides_tensor (t : Tensor)
    (reached : g.At { s with numbers := (if t.layout = .strided then t.strides else []) ++ s.numbers }) :
    ∃ after, decodeStrides g (.ofTensor t) t.sizes = .ok (t.metadata, after) ∧ after.At s := by
  have described : TensorMetadata.ofRaw (.ofTensor t) t.sizes
      (if t.layout = .strided then t.strides else []) = t.metadata := by
    have small : t.sizes.length < 2 ^ 32 := Nat.lt_of_le_of_lt t.rank (by decide)
    simpa [TensorMetadata.ofRaw, RawTensorMetadata.ofTensor, Tensor.metadata] using small
  have layout : (RawTensorMetadata.ofTensor t).layout = t.layout := rfl
  unfold decodeStrides
  rw [layout]
  by_cases strided : t.layout = .strided
  · simp only [if_pos strided] at described reached ⊢
    obtain ⟨after, taken, remaining⟩ := readNumbers_append reached.numbers
    have count : (RawTensorMetadata.ofTensor t).sizeDim = t.strides.length :=
      t.sizeDim.trans (t.matching strided).symm
    refine ⟨{ g with tensorSizeStridesIt := after }, ?_, { reached with numbers := remaining }⟩
    rw [count, taken, ← described]
    rfl
  · simp only [if_neg strided, List.nil_append] at described reached ⊢
    exact ⟨g, by rw [described], reached⟩

theorem decodeTensor_recorded (t : Tensor) (reached : g.At { s with
      metadata := .ofTensor t :: s.metadata
      numbers := t.numbers ++ s.numbers }) :
    ∃ after, decodeTensor g = .ok (t.metadata, after) ∧ after.At s := by
  have metadata := reached.metadata
  have numbers := reached.numbers
  have more : g.tensorMetadataIt.exhausted = false := metadata.exhausted
  unfold Tensor.numbers at numbers
  rw [List.append_assoc] at numbers
  obtain ⟨it, taken, remaining⟩ := readNumbers_append numbers
  have count : (RawTensorMetadata.ofTensor t).sizeDim = t.sizes.length := t.sizeDim
  obtain ⟨after, decoded, rest⟩ := decodeStrides_tensor
    (g := { g with tensorMetadataIt := g.tensorMetadataIt.next, tensorSizeStridesIt := it }) t
    { reached with metadata := metadata.next (by decide), numbers := remaining }
  refine ⟨after, ?_, rest⟩
  simp only [decodeTensor, more, read_cons metadata, bind, Except.bind, count, taken]
  exact decoded

/-- What the encoding of one member of a list stands for. -/
theorem decodeList_members (members : List Tensor) {fuel : Nat} (enough : members.length < fuel)
    {last : Tag} (arg : List TensorMetadata) (foundUndefined : Bool)
    (reached : g.At ((members.foldr Tensor.encode (s.tag .terminator)).tag last)) :
    ∃ after, decodeList fuel g arg foundUndefined =
        .ok (arg ++ (members.filter Tensor.recorded).map Tensor.metadata,
          foundUndefined || !members.all Tensor.recorded, after) ∧
      after.At (s.tag .terminator) := by
  induction members generalizing fuel g last arg foundUndefined with
  | nil =>
    obtain ⟨fuel, rfl⟩ := Nat.exists_eq_succ_of_ne_zero (Nat.ne_of_gt enough)
    have ended := reached.nextTag
    refine ⟨g.nextTag, ?_, ended⟩
    simp [decodeList, Generator.At.readTag ended, bind, Except.bind, pure, Except.pure]
  | cons t members ih =>
    obtain ⟨fuel, rfl⟩ := Nat.exists_eq_succ_of_ne_zero (Nat.ne_of_gt (Nat.zero_lt_of_lt enough))
    have enough : members.length < fuel := Nat.lt_of_succ_lt_succ enough
    have member := reached.nextTag
    rw [List.foldr_cons] at member
    unfold Tensor.encode at member
    cases recorded : t.recorded with
    | true =>
      simp only [recorded, if_true] at member
      have tag := read_cons member.tags
      obtain ⟨decodedAt, decoded, remaining⟩ := decodeTensor_recorded
        (s := (members.foldr Tensor.encode (s.tag .terminator)).tag .tensor) t member
      obtain ⟨after, list, reached⟩ := ih enough (arg ++ [t.metadata]) foundUndefined remaining
      refine ⟨after, ?_, reached⟩
      simp [decodeList, tag, bind, Except.bind, decoded, list, recorded]
    | false =>
      simp only [recorded] at member
      obtain ⟨after, list, reached⟩ := ih enough arg true member
      refine ⟨after, ?_, reached⟩
      simp [decodeList, Generator.At.readTag member, bind, Except.bind, recorded, list]

theorem length_tags_members (members : List Tensor) (s : Streams V) :
    (members.foldr Tensor.encode s).tags.length = members.length + s.tags.length := by
  induction members with
  | nil => simp
  | cons t members ih =>
    rw [List.foldr_cons, Tensor.encode]
    cases t.recorded <;> simp [Streams.tag, ih] <;> omega

/-- Every value has a tag. -/
theorem length_tags_lt (recordConcreteInputs : Bool) (value : IValue V) (s : Streams V) :
    s.tags.length < (value.encode recordConcreteInputs s).tags.length := by
  cases value with
  | tensor t =>
    rw [IValue.encode, Tensor.encode]
    cases t.recorded <;> simp [Streams.tag]
  | scalar value => simp [IValue.encode, Streams.tag, Streams.value]
  | tensorList members =>
    simp [IValue.encode, Streams.tag, length_tags_members]
    omega
  | list elements =>
    rw [IValue.encode]
    split <;> simp [Streams.tag, Streams.value]
  | other value => simp [IValue.encode, Streams.tag]

theorem entry_nullopt (ioType : IOType) (tag : Tag) :
    entry ioType tag (.nullopt : OpInput V) = .nullopt := ite_self _

/-- Nothing is put out for a tag without data. -/
theorem decodeValue_nothing (ioType : IOType) (fuel : Nat) {tag : Tag}
    (empty : tag = .undefinedTensor ∨ tag = .other) (reached : g.At (s.tag tag)) :
    decodeValue ioType fuel g = .ok ([.nullopt], false, g) := by
  have read := Generator.At.readTag reached
  rcases empty with rfl | rfl <;>
    simp [decodeValue, read, bind, Except.bind, pure, Except.pure, entry_nullopt]

theorem decodeValue_ivalue (ioType : IOType) (fuel : Nat) {tag : Tag} {value : IValue V}
    (stored : tag = .scalarList ∨ tag = .scalar) (reached : g.At ((s.value value).tag tag)) :
    ∃ after, decodeValue ioType fuel g = .ok ([entry ioType tag (.value value)], false, after) ∧
      after.nextTag.At s := by
  have readTag := Generator.At.readTag reached
  have readValue := read_cons reached.values
  refine ⟨{ g with ivalsIt := g.ivalsIt.next }, ?_,
    { reached.nextTag with values := reached.values.next (by decide) }⟩
  rcases stored with rfl | rfl <;>
    simp [decodeValue, readTag, bind, Except.bind, pure, Except.pure, readValue]

theorem decodeValue_tensor (ioType : IOType) (fuel : Nat) (t : Tensor)
    (reached : g.At (t.encode s)) :
    ∃ after, decodeValue ioType fuel g = .ok ([entry ioType .tensor
        (if t.recorded then .tensor t.metadata else .nullopt)], false, after) ∧
      after.nextTag.At s := by
  unfold Tensor.encode at reached
  cases recorded : t.recorded with
  | true =>
    simp only [recorded, if_true] at reached
    have tag := read_cons reached.tags
    obtain ⟨after, decoded, remaining⟩ := decodeTensor_recorded (s := s.tag .tensor) t reached
    refine ⟨after, ?_, remaining.nextTag⟩
    simp [decodeValue, tag, bind, Except.bind, decoded, pure, Except.pure]
  | false =>
    simp only [recorded] at reached
    refine ⟨g, ?_, Generator.At.nextTag reached⟩
    rw [decodeValue_nothing ioType fuel (.inl rfl) reached]
    simp [entry_nullopt]

/-- An undefined member hides the list, of which no data is left for the next argument. -/
theorem decodeValue_list (ioType : IOType) {fuel : Nat} (members : List Tensor)
    (enough : members.length < fuel)
    (reached : g.At ((members.foldr Tensor.encode (s.tag .terminator)).tag .tensorListBegin)) :
    ∃ after, decodeValue ioType fuel g = .ok ([entry ioType .tensorListBegin
        (if members.all Tensor.recorded then .tensorList (members.map Tensor.metadata)
          else .nullopt)], false, after) ∧ after.nextTag.At s := by
  obtain ⟨after, list, ended⟩ := decodeList_members members enough [] false reached
  have begins := Generator.At.readTag reached
  have ends := Generator.At.readTag ended
  refine ⟨after, ?_, ended.nextTag⟩
  cases all : members.all Tensor.recorded with
  | true =>
    have whole : members.filter Tensor.recorded = members :=
      List.filter_eq_self.mpr (List.all_eq_true.mp all)
    simp [decodeValue, begins, list, all, whole, bind, Except.bind, pure, Except.pure]
  | false =>
    simp [decodeValue, begins, list, all, ends, entry_nullopt, bind, Except.bind, pure,
      Except.pure]

/-- One argument is taken from all streams. -/
theorem decodeValue_returned (ioType : IOType) (recordConcreteInputs : Bool) (value : IValue V)
    {fuel : Nat} (enough : (value.encode recordConcreteInputs s).tags.length ≤ fuel)
    (reached : g.At (value.encode recordConcreteInputs s)) :
    ∃ after, decodeValue ioType fuel g =
        .ok ([value.returned recordConcreteInputs ioType], false, after) ∧ after.nextTag.At s := by
  cases value with
  | tensor t =>
    obtain ⟨after, decoded, remaining⟩ := decodeValue_tensor ioType fuel t reached
    refine ⟨after, decoded.trans ?_, remaining⟩
    cases ioType <;> rfl
  | scalar value =>
    obtain ⟨after, decoded, remaining⟩ := decodeValue_ivalue ioType fuel (.inr rfl) reached
    refine ⟨after, decoded.trans ?_, remaining⟩
    cases ioType <;> rfl
  | tensorList members =>
    have fits : members.length < fuel := by
      rw [IValue.encode] at enough
      simp only [Streams.tag, List.length_cons, length_tags_members] at enough
      omega
    obtain ⟨after, decoded, remaining⟩ := decodeValue_list ioType members fits reached
    refine ⟨after, decoded.trans ?_, remaining⟩
    cases ioType <;> rfl
  | list elements =>
    rw [IValue.encode] at reached
    cases supported : isSupportedScalarList recordConcreteInputs (.list elements) with
    | true =>
      rw [supported] at reached
      obtain ⟨after, decoded, remaining⟩ := decodeValue_ivalue ioType fuel (.inl rfl) reached
      refine ⟨after, decoded.trans ?_, remaining⟩
      cases ioType <;>
        simp [IValue.returned, IValue.shape, IValue.concrete, supported, entry, tagToIOType]
    | false =>
      rw [supported] at reached
      refine ⟨g, (decodeValue_nothing ioType fuel (.inr rfl) reached).trans ?_,
        Generator.At.nextTag reached⟩
      cases ioType <;> simp [IValue.returned, IValue.shape, IValue.concrete, supported]
  | other value =>
    refine ⟨g, (decodeValue_nothing ioType fuel (.inr rfl) reached).trans ?_,
      Generator.At.nextTag reached⟩
    cases ioType <;> rfl

theorem decodeOperator_returned (ioType : IOType) (recordConcreteInputs : Bool)
    (inputs : List (IValue V)) {fuel : Nat} (out : List (OpInput V))
    (enough : (inputs.foldr (IValue.encode recordConcreteInputs) (s.tag .terminator)).tags.length
      < fuel)
    (reached : g.At (inputs.foldr (IValue.encode recordConcreteInputs) (s.tag .terminator))) :
    ∃ after, decodeOperator ioType fuel g out =
        .ok (out ++ inputs.map (IValue.returned recordConcreteInputs · ioType), after) ∧
      after.At s := by
  induction inputs generalizing fuel g out with
  | nil =>
    obtain ⟨fuel, rfl⟩ := Nat.exists_eq_succ_of_ne_zero (Nat.ne_of_gt (Nat.zero_lt_of_lt enough))
    have more : g.tagIt.exhausted = false := reached.tags.exhausted
    have tag := Generator.At.readTag reached
    refine ⟨g.nextTag, ?_, Generator.At.nextTag reached⟩
    simp [decodeOperator, more, decodeValue, tag, bind, Except.bind, pure, Except.pure]
  | cons value inputs ih =>
    rw [List.foldr_cons] at reached enough
    obtain ⟨fuel, rfl⟩ := Nat.exists_eq_succ_of_ne_zero (Nat.ne_of_gt (Nat.zero_lt_of_lt enough))
    have tagged := length_tags_lt recordConcreteInputs value
      (inputs.foldr (IValue.encode recordConcreteInputs) (s.tag .terminator))
    have more : g.tagIt.exhausted = false := by
      rw [reached.tags.exhausted, List.isEmpty_eq_false_iff]
      exact List.ne_nil_of_length_pos (Nat.zero_lt_of_lt tagged)
    obtain ⟨next, one, remaining⟩ := decodeValue_returned ioType recordConcreteInputs value
      (Nat.le_of_lt_succ enough) reached
    obtain ⟨after, rest, reached⟩ := ih (out ++ [value.returned recordConcreteInputs ioType])
      (Nat.lt_of_lt_of_le tagged (Nat.le_of_lt_succ enough)) remaining
    refine ⟨after, ?_, reached⟩
    simp [decodeOperator, more, one, bind, Except.bind, rest]

/-- A call returns the inputs of one operator. -/
theorem Generator.At.call (ioType : IOType) (op : Operator V) (reached : g.At (op.encode s)) :
    ∃ after, g.call ioType = .ok (op.returned ioType, after) ∧ after.At s := by
  have enough : (op.encode s).tags.length < g.tagIt.size + 1 := by
    rw [reached.tags.counted]
    omega
  exact decodeOperator_returned ioType op.recordConcreteInputs op.inputs [] enough reached

/-- A call after the last operator returns nothing. -/
theorem Generator.At.call_nil (ioType : IOType) (reached : g.At .nil) :
    g.call ioType = .ok ([], g) := by
  have ended : g.tagIt.exhausted = true := reached.tags.exhausted
  simp [Generator.call, decodeOperator, ended]

theorem Generator.At.calls (ioType : IOType) (ops : List (Operator V)) (count : Nat)
    (reached : g.At (ops.foldr Operator.encode .nil)) :
    g.calls ioType count = .ok ((ops.take count).map (Operator.returned ioType) ++
      List.replicate (count - ops.length) []) := by
  induction count generalizing g ops with
  | zero => simp [Generator.calls]
  | succ count ih =>
    cases ops with
    | nil =>
      have none := ih [] reached
      simp at none
      simp [Generator.calls, reached.call_nil, bind, Except.bind, none, pure, Except.pure,
        List.replicate_succ]
    | cons op ops =>
      obtain ⟨after, one, remaining⟩ := Generator.At.call ioType op reached
      simp [Generator.calls, one, bind, Except.bind, ih ops remaining, pure, Except.pure]

/-- The generators of an encoder into which operators were pushed. -/
theorem calls_pushed (ioType : IOType) (ops : List (Operator V)) (count : Nat) :
    (ops.foldl push empty).getIValueGenerator.calls ioType count =
      .ok ((ops.take count).map (Operator.returned ioType) ++
        List.replicate (count - ops.length) []) := by
  have filled : (empty : InputOutputEncoder V).Filled := ⟨.nil, .nil, .nil, .nil⟩
  obtain ⟨filled, held⟩ := Appends.foldl push_appends ops empty filled
  have generator := filled.generator
  rw [held .nil] at generator
  exact Generator.At.calls ioType ops count generator

/-- The calls return the arguments of one operator after another, and no iterator is dereferenced
past its end. -/
theorem generators_return (ops : List (Operator V)) (count : Nat) :
    (ops.foldl push empty).getInputShapeGenerator count =
        .ok ((ops.take count).map (fun op => op.inputs.map IValue.shape) ++
          List.replicate (count - ops.length) []) ∧
      (ops.foldl push empty).getConcreteInputGenerator count =
        .ok ((ops.take count).map
            (fun op => op.inputs.map (IValue.concrete op.recordConcreteInputs)) ++
          List.replicate (count - ops.length) []) :=
  ⟨calls_pushed .shapes ops count, calls_pushed .concreteInputs ops count⟩

/-- A scalar list of 31 elements. -/
def longList : IValue Nat := .list (List.replicate 31 (.scalar 0))

def nestedTensor : Tensor where
  defined := true
  isNested := true
  hasSymbolicSizesStrides := false
  impl := 1
  storage := some 1
  dtype := .float
  layout := .strided
  device := ⟨cpu, 0⟩
  sizes := []
  strides := []
  rank := Nat.zero_le _
  matching := fun _ => rfl

/-- Neither of them is returned. -/
theorem unrecorded_inputs :
    (push (empty : InputOutputEncoder Nat) ⟨true, [longList]⟩).getConcreteInputGenerator 1 =
        .ok [[.nullopt]] ∧
      (push (empty : InputOutputEncoder Nat) ⟨true, [.tensor nestedTensor]⟩).getInputShapeGenerator
        1 = .ok [[.nullopt]] :=
  ⟨calls_pushed .concreteInputs [⟨true, [longList]⟩] 1,
    calls_pushed .shapes [⟨true, [.tensor nestedTensor]⟩] 1⟩

end TorchGcu.InputOutputEncoder

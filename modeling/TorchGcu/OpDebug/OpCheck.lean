import TorchGcu.CachingAllocator.State
import TorchGcu.Tensor.ScalarType

/-! The accuracy check of operators: what the device returned against what the CPU returned. -/
namespace TorchGcu.OpCheck
open GCUCachingAllocator (Err)

/-! ### The lower of two types -/

def isFloatingType : ScalarType → Bool
  | .double | .float | .half | .bfloat16 | .float8e5m2 | .float8e4m3fn | .float8e5m2fnuz
  | .float8e4m3fnuz => true
  | _ => false

/-- `at::isIntegralType`, with the types of truth values. -/
def isIntegralType : ScalarType → Bool
  | .byte | .char | .int | .long | .short | .uint16 | .uint32 | .uint64 | .bool => true
  | _ => false

def index2dtype : List ScalarType :=
  [.half, .float, .double, .complexHalf, .complexFloat, .complexDouble, .bfloat16]

/-- The place of a type in the table, where the source has -1 for the others. -/
def dtype2index (dtype : ScalarType) : Option Nat := index2dtype.idxOf? dtype

def lowerTypesLookup : List (List ScalarType) :=
  let f2 := ScalarType.half
  let f4 := ScalarType.float
  let f8 := ScalarType.double
  let c2 := ScalarType.complexHalf
  let c4 := ScalarType.complexFloat
  let c8 := ScalarType.complexDouble
  let bf := ScalarType.bfloat16
  [[f2, f2, f2, f2, f2, f2, bf],
   [f2, f4, f4, c2, f4, f4, bf],
   [f2, f4, f8, c2, c4, f8, bf],
   [f2, c2, c2, c2, c2, c2, bf],
   [f2, f4, c4, c2, c4, c4, bf],
   [f2, f4, f8, c2, c4, c8, bf],
   [bf, bf, bf, bf, bf, bf, bf]]

def getLowerScalarType (typeA typeB : ScalarType) : Except Err ScalarType :=
  if isFloatingType typeA || isFloatingType typeB then
    match dtype2index typeA, dtype2index typeB with
    | none, _ => .error (.internalAssert "ix_a != -1")
    | some _, none => .error (.internalAssert "ix_b != -1")
    | some ixA, some ixB => .ok ((lowerTypesLookup.getD ixA []).getD ixB .undefined)
  else .ok typeA

/-! ### Tensors -/

/-- A tensor whose elements are read at an index in each dimension. -/
structure Tensor (α : Type) where
  dtype : ScalarType
  sizes : List Nat
  read : List Nat → α

/-- The indices of the elements. -/
def indices : List Nat → List (List Nat)
  | [] => [[]]
  | size :: sizes => (List.range size).flatMap fun i => (indices sizes).map (i :: ·)

/-! ### The check -/

/-- Which tolerances of `OpDebugConfig` are used. -/
inductive Precision where
  | bf16
  | fp16
  | fp32
deriving DecidableEq

/-- The functions of the framework: the sizes that two sizes are broadcast to, and the index in a
tensor of some sizes that an index is broadcast from; on elements, conversion to a type, `isclose`
with tolerances and with `equal_nan`, and `eq`; which types it implements them for; and how
differences read, where it can write them. -/
structure Framework (α : Type) where
  inferSize : List Nat → List Nat → Option (List Nat)
  project : List Nat → List Nat → List Nat
  convert : ScalarType → α → α
  isclose : Precision → Bool → α → α → Bool
  eq : α → α → Bool
  supports : ScalarType → ScalarType → Bool
  describe : Tensor α → Tensor α → Option String

/-- Equal sizes are not broadcast. -/
structure Framework.Lawful {α : Type} (framework : Framework α) : Prop where
  inferSize_self (sizes : List Nat) : framework.inferSize sizes sizes = some sizes
  project_self (sizes : List Nat) : ∀ index ∈ indices sizes, framework.project sizes index = index

structure OpCheckResult where
  accPass : Bool
  checkInfo : String

/-- What an operator returns, or a part of it. A symbolic integer has no value. -/
inductive Value (α : Type) where
  | tensor (tensor : Option (Tensor α))
  | int (v : Int)
  | symInt (v : Option Int)

variable {α : Type} (framework : Framework α)

/-- The comparison for a type. -/
def comparison : ScalarType → α → α → Bool
  | .double | .float => framework.isclose .fp32 true
  | .half => framework.isclose .fp16 true
  | .bfloat16 => framework.isclose .bf16 true
  | .bool | .byte | .char | .int | .long | .short => framework.eq
  -- the types that are not supported are checked as fp32, and there a NaN equals nothing
  | _ => framework.isclose .fp32 false

def Tensor.convert (tensor : Tensor α) (dtype : ScalarType) : Tensor α :=
  { tensor with dtype, read := fun index => framework.convert dtype (tensor.read index) }

/-- The type to compare by, and the output of the CPU in the type of the device's. -/
def alignTypes (gcuOut cpuOut : Tensor α) : Except Err (ScalarType × Tensor α) :=
  if gcuOut.dtype = cpuOut.dtype then .ok (gcuOut.dtype, cpuOut)
  else do
    let dtype ← getLowerScalarType gcuOut.dtype cpuOut.dtype
    pure (dtype, cpuOut.convert framework gcuOut.dtype)

/-- The elements of the mask. -/
def mask (compare : α → α → Bool) (a b : Tensor α) (sizes : List Nat) : List Bool :=
  (indices sizes).map fun index =>
    compare (a.read (framework.project a.sizes index)) (b.read (framework.project b.sizes index))

def acceptMask (opName : String) (gcuOut cpuOut : Tensor α) (mask : List Bool) :
    Except Err OpCheckResult :=
  if mask.all id then .ok ⟨true, opName ++ " acc check pass.\n"⟩
  else
    match framework.describe gcuOut cpuOut with
    | some info => .ok ⟨false, opName ++ " acc check failed.\n" ++ info⟩
    | none => .error (.torchCheck "value cannot be converted without overflow")

def compareTensors (opName : String) (gcuOut cpuOut : Tensor α) : Except Err OpCheckResult :=
  match alignTypes framework gcuOut cpuOut with
  | .error error => .error error
  | .ok (dtype, converted) =>
    if framework.supports gcuOut.dtype cpuOut.dtype then
      match framework.inferSize gcuOut.sizes converted.sizes with
      | some sizes => acceptMask framework opName gcuOut converted
          (mask framework (comparison framework dtype) gcuOut converted sizes)
      | none => .error (.torchCheck "The size of tensor a must match the size of tensor b")
    else .error (.torchCheck "not implemented for this type")

def resultCheckTensors (opName : String) :
    Option (Tensor α) → Option (Tensor α) → Except Err OpCheckResult
  | none, none => .ok ⟨true, opName ++ " acc check pass.\n"⟩
  | some gcuOut, some cpuOut => compareTensors framework opName gcuOut cpuOut
  | _, _ => .ok ⟨false, opName ++
      " acc check failed. \nOne of cpu or gcu contains undefined tensor\n"⟩

def resultCheckInts (opName : String) (v1 v2 : Int) : OpCheckResult where
  accPass := true
  checkInfo :=
    if v1 ≠ v2 then
      opName ++ " acc check failed.\nwith acc info: \x7b\nresult is " ++ toString v1 ++
        " but expect " ++ toString v2 ++ "\n\x7d\n"
    else opName ++ " acc check pass.\n"

/-- `result_check_func`. No overload takes values of two kinds. -/
def resultCheckFunc (opName : String) : Value α → Value α → Except Err OpCheckResult
  | .tensor out1, .tensor out2 => resultCheckTensors framework opName out1 out2
  | .int v1, .int v2 => .ok (resultCheckInts opName v1 v2)
  | .symInt (some v1), .symInt (some v2) => .ok (resultCheckInts opName v1 v2)
  | .symInt _, .symInt _ => .error (.torchCheck "when expecting an int, got a symbolic one")
  | _, _ => .error (.internalAssert "no matching function")

/-- What `gcu_out_check` is called with. -/
inductive Outputs (α : Type) where
  | tensor (gcuOut xdeviceOut : Option (Tensor α))
  | vector (gcuOuts xdeviceOuts : List (Option (Tensor α)))
  | tuple (gcuOuts xdeviceOuts : List (Value α))

def countsDiffer (opName : String) (gcuOutNum xdeviceOutNum : Nat) : OpCheckResult where
  accPass := false
  checkInfo := opName ++ " check failed.\ngcu out num must equal to xdevice out, but gcu has " ++
    toString gcuOutNum ++ " results, and xdevice has " ++ toString xdeviceOutNum ++ " results!\n"

/-- The loop over the outputs of a vector: later ones are not compared after a failure. -/
def checkVector (opName : String) :
    List (Option (Tensor α) × Option (Tensor α)) → Except Err OpCheckResult
  | [] => .ok ⟨true, opName ++ " acc check pass.\n"⟩
  | (gcuOut, xpuOut) :: outs =>
    match resultCheckTensors framework opName gcuOut xpuOut with
    | .error error => .error error
    | .ok result => if result.accPass then checkVector opName outs else .ok result

/-- The results of all parts of a tuple. -/
def tupleResults (opName : String) : List (Value α × Value α) → Except Err (List OpCheckResult)
  | [] => .ok []
  | (t1, t2) :: parts =>
    match resultCheckFunc framework opName t1 t2 with
    | .error error => .error error
    | .ok result => (result :: ·) <$> tupleResults opName parts

/-- `tuple_result_check`: all parts are compared before the first failure is looked for. -/
def tupleResultCheck (opName : String) (parts : List (Value α × Value α)) :
    Except Err OpCheckResult :=
  match tupleResults framework opName parts with
  | .error error => .error error
  | .ok results =>
    match results.find? (!·.accPass) with
    | some result => .ok result
    | none => .ok ⟨true, opName ++ " acc check pass.\n"⟩

def gcuOutCheck (opName : String) : Outputs α → Except Err OpCheckResult
  | .tensor gcuOut xdeviceOut => resultCheckTensors framework opName gcuOut xdeviceOut
  | .vector gcuOuts xdeviceOuts =>
    if gcuOuts.length ≠ xdeviceOuts.length then
      .ok (countsDiffer opName gcuOuts.length xdeviceOuts.length)
    else checkVector framework opName (gcuOuts.zip xdeviceOuts)
  | .tuple gcuOuts xdeviceOuts =>
    if gcuOuts.length ≠ xdeviceOuts.length then
      .ok (countsDiffer opName gcuOuts.length xdeviceOuts.length)
    else tupleResultCheck framework opName (gcuOuts.zip xdeviceOuts)

/-! ### What agrees -/

/-- The tolerances of the lower precision of two types. -/
def precision (typeA typeB : ScalarType) : Precision :=
  if typeA = .bfloat16 ∨ typeB = .bfloat16 then .bf16
  else if typeA ∈ [.half, .complexHalf] ∨ typeB ∈ [.half, .complexHalf] then .fp16
  else .fp32

/-- Two elements agree: integers and truth values are equal, and others are close, where a NaN is
close to a NaN. -/
def elementsAgree (typeA typeB : ScalarType) : α → α → Bool :=
  if isIntegralType typeA && isIntegralType typeB then framework.eq
  else framework.isclose (precision typeA typeB) true

def TensorsAgree (a b : Tensor α) : Prop :=
  a.sizes = b.sizes ∧ ∀ index ∈ indices a.sizes,
    elementsAgree framework a.dtype b.dtype (a.read index) (b.read index) = true

def ValuesAgree : Value α → Value α → Prop
  | .tensor none, .tensor none => True
  | .tensor (some a), .tensor (some b) => TensorsAgree framework a b
  | .int v1, .int v2 => v1 = v2
  | .symInt (some v1), .symInt (some v2) => v1 = v2
  | _, _ => False

/-- The parts of the two sides. -/
def Outputs.parts : Outputs α → List (Value α) × List (Value α)
  | .tensor gcuOut xdeviceOut => ([.tensor gcuOut], [.tensor xdeviceOut])
  | .vector gcuOuts xdeviceOuts => (gcuOuts.map .tensor, xdeviceOuts.map .tensor)
  | .tuple gcuOuts xdeviceOuts => (gcuOuts, xdeviceOuts)

def Outputs.pairs (outs : Outputs α) : List (Value α × Value α) := outs.parts.1.zip outs.parts.2

/-- The two sides have as many parts, and every part agrees. -/
def OutputsAgree (outs : Outputs α) : Prop :=
  outs.parts.1.length = outs.parts.2.length ∧
    ∀ pair ∈ outs.pairs, ValuesAgree framework pair.1 pair.2

/-- A check that returns accepts exactly the outputs that agree. -/
def Truthful (opName : String) (outs : Outputs α) : Prop :=
  ∀ result, gcuOutCheck framework opName outs = .ok result →
    (result.accPass = true ↔ OutputsAgree framework outs)

/-! ### What passes -/

/-- The type that two types are compared by. -/
def comparedBy (typeA typeB : ScalarType) : ScalarType :=
  if typeA = typeB then typeA
  else
    match getLowerScalarType typeA typeB with
    | .ok dtype => dtype
    | .error _ => .undefined

/-- The output of the CPU as it is compared. -/
def converted (a b : Tensor α) : Tensor α :=
  if a.dtype = b.dtype then b else b.convert framework a.dtype

/-- Every element passes the comparison with the element that is broadcast to it. -/
def TensorsPass (a b : Tensor α) : Prop :=
  ∃ sizes ∈ framework.inferSize a.sizes b.sizes, ∀ index ∈ indices sizes,
    comparison framework (comparedBy a.dtype b.dtype) (a.read (framework.project a.sizes index))
      ((converted framework a b).read (framework.project b.sizes index)) = true

def TensorsRaise (a b : Tensor α) : Prop :=
  (a.dtype ≠ b.dtype ∧ (isFloatingType a.dtype = true ∨ isFloatingType b.dtype = true) ∧
      (dtype2index a.dtype = none ∨ dtype2index b.dtype = none)) ∨
    framework.supports a.dtype b.dtype = false ∨
    framework.inferSize a.sizes b.sizes = none ∨
    (¬ TensorsPass framework a b ∧ framework.describe a (converted framework a b) = none)

def ValuesPass : Value α → Value α → Prop
  | .tensor none, .tensor none => True
  | .tensor (some a), .tensor (some b) => TensorsPass framework a b
  | .int _, .int _ => True
  | .symInt (some _), .symInt (some _) => True
  | _, _ => False

def ValuesRaise : Value α → Value α → Prop
  | .tensor (some a), .tensor (some b) => TensorsRaise framework a b
  | .tensor _, .tensor _ => False
  | .int _, .int _ => False
  | .symInt (some _), .symInt (some _) => False
  | _, _ => True

/-- A comparison raises before any other one failed. -/
def VectorRaises : List (Value α × Value α) → Prop
  | [] => False
  | pair :: pairs => ValuesRaise framework pair.1 pair.2 ∨
      (ValuesPass framework pair.1 pair.2 ∧ VectorRaises pairs)

def OutputsRaise (outs : Outputs α) : Prop :=
  outs.parts.1.length = outs.parts.2.length ∧
    match outs with
    | .tuple _ _ => ∃ pair ∈ outs.pairs, ValuesRaise framework pair.1 pair.2
    | _ => VectorRaises framework outs.pairs

/-- The types for which the comparison is made as it should be. -/
def Supported (dtype : ScalarType) : Prop :=
  dtype ∈ [.double, .float, .half, .bfloat16, .bool, .byte, .char, .int, .long, .short]

/-- Tensors, if both are defined, have equal sizes and one type for which the comparison is made as it
should be. -/
def TensorsAlike : Value α → Value α → Prop
  | .tensor (some a), .tensor (some b) =>
    a.sizes = b.sizes ∧ a.dtype = b.dtype ∧ Supported a.dtype
  | _, _ => True

def IntsEqual : Value α → Value α → Prop
  | .int v1, .int v2 => v1 = v2
  | .symInt (some v1), .symInt (some v2) => v1 = v2
  | _, _ => True

/-- Parts that the check compares as it should: tensors that are alike, or equal integers. -/
def Plain (v w : Value α) : Prop := TensorsAlike v w ∧ IntsEqual v w

/-- The sides have different numbers of parts, or all parts are plain, or a plain part does not
agree. -/
def Judgeable (outs : Outputs α) : Prop :=
  outs.parts.1.length ≠ outs.parts.2.length ∨ (∀ pair ∈ outs.pairs, Plain pair.1 pair.2) ∨
    ∃ pair ∈ outs.pairs, Plain pair.1 pair.2 ∧ ¬ ValuesAgree framework pair.1 pair.2

/-! ### The verdict of the check -/

variable {framework}

/-- What a check says: it raises, or its verdict is whether the parts pass. -/
def Judges (raises passes : Prop) (check : Except Err OpCheckResult) : Prop :=
  (raises ∧ ∃ error, check = .error error) ∨
    ¬ raises ∧ ∃ result, check = .ok result ∧ (result.accPass = true ↔ passes)

theorem Judges.ok {raises passes : Prop} {result : OpCheckResult} (returns : ¬ raises)
    (verdict : result.accPass = true ↔ passes) : Judges raises passes (.ok result) :=
  .inr ⟨returns, result, rfl, verdict⟩

theorem Judges.error {raises passes : Prop} (raised : raises) (error : Err) :
    Judges raises passes (.error error) := .inl ⟨raised, error, rfl⟩

theorem Judges.truthful {raises passes agree : Prop} {check : Except Err OpCheckResult}
    (judges : Judges raises passes check) :
    (∀ result, check = .ok result → (result.accPass = true ↔ agree)) ↔
      raises ∨ (passes ↔ agree) := by
  rcases judges with ⟨raised, error, rfl⟩ | ⟨returns, result, rfl, verdict⟩
  · exact ⟨fun _ => .inl raised, fun _ _ never => by cases never⟩
  · refine ⟨fun truthful => .inr (verdict.symm.trans (truthful result rfl)), fun right _ same => ?_⟩
    cases same
    exact verdict.trans (right.resolve_left returns)

theorem alignTypes_eq (a b : Tensor α) :
    alignTypes framework a b =
      if a.dtype ≠ b.dtype ∧ (isFloatingType a.dtype = true ∨ isFloatingType b.dtype = true) ∧
        (dtype2index a.dtype = none ∨ dtype2index b.dtype = none) then
        .error (.internalAssert (if dtype2index a.dtype = none then "ix_a != -1" else "ix_b != -1"))
      else .ok (comparedBy a.dtype b.dtype, converted framework a b) := by
  by_cases same : a.dtype = b.dtype
  · simp [alignTypes, same, comparedBy, converted]
  · by_cases floats : (isFloatingType a.dtype || isFloatingType b.dtype) = true
    · have floats' : isFloatingType a.dtype = true ∨ isFloatingType b.dtype = true := by
        simpa using floats
      cases isA : dtype2index a.dtype with
      | none => simp [alignTypes, same, getLowerScalarType, floats, floats', isA, bind, Except.bind]
      | some ixA =>
        cases isB : dtype2index b.dtype with
        | none =>
          simp [alignTypes, same, getLowerScalarType, floats, floats', isA, isB, bind, Except.bind]
        | some ixB =>
          simp [alignTypes, same, getLowerScalarType, floats, isA, isB, bind, Except.bind, pure,
            Except.pure, comparedBy, converted]
    · have floats' : ¬ (isFloatingType a.dtype = true ∨ isFloatingType b.dtype = true) := by
        simpa using floats
      simp [alignTypes, same, getLowerScalarType, floats, floats', bind, Except.bind, pure,
        Except.pure, comparedBy, converted]

theorem converted_sizes (a b : Tensor α) : (converted framework a b).sizes = b.sizes := by
  unfold converted
  split <;> rfl

theorem compareTensors_judges (opName : String) (a b : Tensor α) :
    Judges (TensorsRaise framework a b) (TensorsPass framework a b)
      (compareTensors framework opName a b) := by
  simp only [compareTensors, alignTypes_eq]
  split
  · rename_i error raised
    split at raised
    · rename_i unaligned
      exact .error (.inl unaligned) error
    · cases raised
  · rename_i dtype other aligned
    split at aligned
    · cases aligned
    · rename_i alignable
      cases aligned
      split
      · rename_i supported
        rw [converted_sizes]
        cases inferred : framework.inferSize a.sizes b.sizes with
        | none => exact .error (.inr (.inr (.inl inferred))) _
        | some sizes =>
          have passes : (mask framework (comparison framework (comparedBy a.dtype b.dtype)) a
              (converted framework a b) sizes).all id = true ↔ TensorsPass framework a b := by
            simp [mask, TensorsPass, inferred, converted_sizes]
          simp only [acceptMask]
          split
          · rename_i all
            refine .ok ?_ (by simpa using passes.mp all)
            rintro (unaligned | unsupported | unbroadcast | ⟨refused, _⟩)
            · exact alignable unaligned
            · simp [supported] at unsupported
            · cases inferred.symm.trans unbroadcast
            · exact refused (passes.mp all)
          · rename_i some
            have refused : ¬ TensorsPass framework a b := fun pass => some (passes.mpr pass)
            cases described : framework.describe a (converted framework a b) with
            | none => exact .error (.inr (.inr (.inr ⟨refused, described⟩))) _
            | some info =>
              refine .ok ?_ (by simpa using refused)
              rintro (unaligned | unsupported | unbroadcast | ⟨_, undescribed⟩)
              · exact alignable unaligned
              · simp [supported] at unsupported
              · cases inferred.symm.trans unbroadcast
              · cases described.symm.trans undescribed
      · rename_i unsupported
        exact .error (.inr (.inl (by simpa using unsupported))) _

theorem resultCheckFunc_judges (opName : String) (v w : Value α) :
    Judges (ValuesRaise framework v w) (ValuesPass framework v w)
      (resultCheckFunc framework opName v w) := by
  cases v with
  | tensor a =>
    cases w with
    | tensor b =>
      cases a with
      | none =>
        cases b with
        | none => exact .ok (fun never => never) (by simp [ValuesPass])
        | some b => exact .ok (fun never => never) (by simp [ValuesPass])
      | some a =>
        cases b with
        | none => exact .ok (fun never => never) (by simp [ValuesPass])
        | some b => exact compareTensors_judges opName a b
    | int v => cases a <;> exact .error trivial _
    | symInt v => cases a <;> exact .error trivial _
  | int v =>
    cases w with
    | tensor b => exact .error trivial _
    | int w => exact .ok (fun never => never) (by simp [resultCheckInts, ValuesPass])
    | symInt w => exact .error trivial _
  | symInt v =>
    cases w with
    | tensor b => cases v <;> exact .error trivial _
    | int w => cases v <;> exact .error trivial _
    | symInt w =>
      cases v with
      | none => cases w <;> exact .error trivial _
      | some v =>
        cases w with
        | none => exact .error trivial _
        | some w => exact .ok (fun never => never) (by simp [resultCheckInts, ValuesPass])

theorem checkVector_judges (opName : String) (outs : List (Option (Tensor α) × Option (Tensor α))) :
    Judges (VectorRaises framework (outs.map fun pair => (.tensor pair.1, .tensor pair.2)))
      (∀ pair ∈ outs, ValuesPass framework (.tensor pair.1) (.tensor pair.2))
      (checkVector framework opName outs) := by
  induction outs with
  | nil => exact .ok (fun never => never) (by simp)
  | cons pair outs ih =>
    obtain ⟨gcuOut, xpuOut⟩ := pair
    simp only [checkVector, List.map_cons, VectorRaises, List.forall_mem_cons]
    rcases @resultCheckFunc_judges α framework opName (.tensor gcuOut) (.tensor xpuOut)
      with ⟨raised, error, fails⟩ | ⟨returns, result, returned, verdict⟩
    · simp only [resultCheckFunc] at fails
      rw [fails]
      exact .error (.inl raised) error
    · simp only [resultCheckFunc] at returned
      rw [returned]
      cases passed : result.accPass with
      | false =>
        have refused : ¬ ValuesPass framework (.tensor gcuOut) (.tensor xpuOut) := by
          simp [← verdict, passed]
        simp only [passed]
        exact .ok (fun raises => raises.elim returns fun both => refused both.1)
          ⟨fun passes => by simp [passed] at passes, fun all => absurd all.1 refused⟩
      | true =>
        have passes := verdict.mp passed
        simpa [returns, passes, passed] using ih

theorem tupleResults_spec (opName : String) (parts : List (Value α × Value α)) :
    ((∃ pair ∈ parts, ValuesRaise framework pair.1 pair.2) ∧
        ∃ error, tupleResults framework opName parts = .error error) ∨
      (∀ pair ∈ parts, ¬ ValuesRaise framework pair.1 pair.2) ∧
        ∃ results, tupleResults framework opName parts = .ok results ∧
          ((∀ result ∈ results, result.accPass = true) ↔
            ∀ pair ∈ parts, ValuesPass framework pair.1 pair.2) := by
  induction parts with
  | nil => exact .inr ⟨by simp, [], rfl, by simp⟩
  | cons pair parts ih =>
    obtain ⟨t1, t2⟩ := pair
    simp only [tupleResults, List.forall_mem_cons, List.exists_mem_cons_iff]
    rcases @resultCheckFunc_judges α framework opName t1 t2
      with ⟨raised, error, fails⟩ | ⟨returns, result, returned, verdict⟩
    · rw [fails]
      exact .inl ⟨.inl raised, error, rfl⟩
    · rw [returned]
      rcases ih with ⟨raised, error, fails⟩ | ⟨allReturn, results, returned, verdicts⟩
      · rw [fails]
        exact .inl ⟨.inr raised, error, rfl⟩
      · rw [returned]
        exact .inr ⟨⟨returns, allReturn⟩, result :: results, rfl, by simp [verdict, verdicts]⟩

theorem tupleResultCheck_judges (opName : String) (parts : List (Value α × Value α)) :
    Judges (∃ pair ∈ parts, ValuesRaise framework pair.1 pair.2)
      (∀ pair ∈ parts, ValuesPass framework pair.1 pair.2)
      (tupleResultCheck framework opName parts) := by
  rcases @tupleResults_spec α framework opName parts
    with ⟨raised, error, fails⟩ | ⟨returns, results, returned, verdicts⟩
  · simp only [tupleResultCheck, fails]
    exact .error raised error
  · have returns : ¬ ∃ pair ∈ parts, ValuesRaise framework pair.1 pair.2 := by simpa using returns
    simp only [tupleResultCheck, returned]
    cases failed : results.find? (!·.accPass) with
    | none =>
      have passed : ∀ result ∈ results, result.accPass = true := by simpa using failed
      exact .ok returns (by simpa using verdicts.mp passed)
    | some result =>
      have refused : result.accPass = false := by simpa using List.find?_some failed
      refine .ok returns ⟨fun passed => by simp [refused] at passed, fun pass => ?_⟩
      exact verdicts.mpr pass result (List.mem_of_find?_eq_some failed)

/-- The check of outputs that have as many parts on both sides. -/
theorem gcuOutCheck_judges (opName : String) (outs : Outputs α)
    (counts : outs.parts.1.length = outs.parts.2.length) :
    Judges (OutputsRaise framework outs) (∀ pair ∈ outs.pairs, ValuesPass framework pair.1 pair.2)
      (gcuOutCheck framework opName outs) := by
  cases outs with
  | tensor gcuOut xdeviceOut =>
    have judges := @resultCheckFunc_judges α framework opName (.tensor gcuOut)
      (.tensor xdeviceOut)
    simpa [OutputsRaise, Outputs.pairs, Outputs.parts, VectorRaises, resultCheckFunc, gcuOutCheck]
      using judges
  | vector gcuOuts xdeviceOuts =>
    have lengths : gcuOuts.length = xdeviceOuts.length := by simpa [Outputs.parts] using counts
    have judges := @checkVector_judges α framework opName (gcuOuts.zip xdeviceOuts)
    have pairs : (Outputs.vector gcuOuts xdeviceOuts).pairs =
        (gcuOuts.zip xdeviceOuts).map fun pair => (.tensor pair.1, .tensor pair.2) :=
      List.zip_map
    simp only [OutputsRaise, counts, true_and, pairs, gcuOutCheck, lengths, ne_eq,
      not_true_eq_false, if_false]
    rw [List.forall_mem_map]
    exact judges
  | tuple gcuOuts xdeviceOuts =>
    have lengths : gcuOuts.length = xdeviceOuts.length := counts
    have judges := @tupleResultCheck_judges α framework opName
      (gcuOuts.zip xdeviceOuts)
    simpa [OutputsRaise, Outputs.pairs, Outputs.parts, gcuOutCheck, lengths] using judges

/-! ### Where the verdict is right -/

theorem comparison_supported {dtype : ScalarType} (supported : Supported dtype) :
    comparison framework dtype = elementsAgree framework dtype dtype := by
  cases dtype <;> first
    | rfl
    | simp [Supported] at supported

/-- Tensors of one supported type and of equal sizes pass exactly if they agree. -/
theorem supported_pass (lawful : framework.Lawful) {a b : Tensor α} (sizes : a.sizes = b.sizes)
    (dtype : a.dtype = b.dtype) (supported : Supported a.dtype) :
    TensorsPass framework a b ↔ TensorsAgree framework a b := by
  have elements : ∀ index ∈ indices a.sizes,
      (comparison framework (comparedBy a.dtype b.dtype) (a.read (framework.project a.sizes index))
        ((converted framework a b).read (framework.project b.sizes index)) = true ↔
      elementsAgree framework a.dtype b.dtype (a.read index) (b.read index) = true) := by
    intro index inside
    rw [← sizes, lawful.project_self _ index inside, ← dtype, comparedBy, if_pos rfl, converted,
      if_pos dtype, comparison_supported supported]
  simp only [TensorsPass, TensorsAgree]
  constructor
  · rintro ⟨_, same, all⟩
    rw [← sizes, lawful.inferSize_self] at same
    cases same
    exact ⟨sizes, fun index inside => (elements index inside).mp (all index inside)⟩
  · rintro ⟨_, all⟩
    refine ⟨a.sizes, by rw [← sizes, lawful.inferSize_self]; rfl, fun index inside => ?_⟩
    exact (elements index inside).mpr (all index inside)

theorem plain_pass (lawful : framework.Lawful) {v w : Value α} (plain : Plain v w) :
    ValuesPass framework v w ↔ ValuesAgree framework v w := by
  obtain ⟨alike, equal⟩ := plain
  rcases v with (_ | a) | v | (_ | v) <;> rcases w with (_ | b) | w | (_ | w)
  case tensor.some.tensor.some => exact supported_pass lawful alike.1 alike.2.1 alike.2.2
  case int.int => exact ⟨fun _ => equal, fun _ => trivial⟩
  case symInt.some.symInt.some => exact ⟨fun _ => equal, fun _ => trivial⟩
  all_goals exact Iff.rfl

/-- Integers always pass. -/
theorem pass_of_alike (lawful : framework.Lawful) {v w : Value α} (alike : TensorsAlike v w)
    (agrees : Plain v w → ValuesAgree framework v w) : ValuesPass framework v w := by
  by_cases equal : IntsEqual v w
  · exact (plain_pass lawful ⟨alike, equal⟩).mpr (agrees ⟨alike, equal⟩)
  · rcases v with (_ | a) | v | (_ | v) <;> rcases w with (_ | b) | w | (_ | w)
    case int.int => trivial
    case symInt.some.symInt.some => trivial
    all_goals exact absurd trivial equal

/-- The verdict is right about outputs that can be judged. Where all tensors are alike it is wrong
about the others, unless a comparison raises. -/
theorem verdict_truthful (framework : Framework α) (lawful : framework.Lawful) (opName : String)
    (outs : Outputs α) :
    (Judgeable framework outs → Truthful framework opName outs) ∧
      ((∀ pair ∈ outs.pairs, TensorsAlike pair.1 pair.2) → Truthful framework opName outs →
        OutputsRaise framework outs ∨ Judgeable framework outs) := by
  by_cases counts : outs.parts.1.length = outs.parts.2.length
  · rw [Truthful, (gcuOutCheck_judges opName outs counts).truthful]
    simp only [OutputsAgree, counts, true_and]
    constructor
    · rintro (differ | plain | ⟨pair, isPair, plain, differ⟩)
      · exact absurd counts differ
      · exact .inr (forall₂_congr fun pair isPair => plain_pass lawful (plain pair isPair))
      · exact .inr (iff_of_false
          (fun pass => differ ((plain_pass lawful plain).mp (pass pair isPair)))
          fun agree => differ (agree pair isPair))
    · rintro alike (raises | same)
      · exact .inl raises
      refine .inr (.inr ?_)
      by_cases differ : ∃ pair ∈ outs.pairs, Plain pair.1 pair.2 ∧
          ¬ ValuesAgree framework pair.1 pair.2
      · exact .inr differ
      · have agree := same.mp fun pair isPair => pass_of_alike lawful (alike pair isPair) fun plain =>
          Classical.byContradiction fun not => differ ⟨pair, isPair, plain, not⟩
        refine .inl fun pair isPair => ⟨alike pair isPair, ?_⟩
        have agrees := agree pair isPair
        rcases pair with ⟨(_ | a) | v | (_ | v), (_ | b) | w | (_ | w)⟩
        case int.int => exact agrees
        case symInt.some.symInt.some => exact agrees
        all_goals trivial
  · refine ⟨fun _ result returned => ?_, fun _ _ => .inr (.inl counts)⟩
    have refused : result.accPass = false := by
      cases outs with
      | tensor gcuOut xdeviceOut => exact absurd rfl counts
      | vector gcuOuts xdeviceOuts =>
        have lengths : gcuOuts.length ≠ xdeviceOuts.length := by simpa [Outputs.parts] using counts
        simp only [gcuOutCheck, lengths, ne_eq, not_false_eq_true, if_true, Except.ok.injEq]
          at returned
        rw [← returned]
        rfl
      | tuple gcuOuts xdeviceOuts =>
        have lengths : gcuOuts.length ≠ xdeviceOuts.length := counts
        simp only [gcuOutCheck, lengths, ne_eq, not_false_eq_true, if_true, Except.ok.injEq]
          at returned
        rw [← returned]
        rfl
    simp [refused, OutputsAgree, counts]

/-- Elements that are integers, and comparisons that ask for equality, of equal sizes. -/
def exact : Framework Int where
  inferSize a b := if a = b then some a else none
  project _ index := index
  convert _ x := x
  isclose _ _ x y := x == y
  eq x y := x == y
  supports _ _ := true
  describe _ _ := some ""

theorem exact_lawful : exact.Lawful := ⟨fun _ => if_pos rfl, fun _ _ _ => rfl⟩

def square (scale : Int) : Value Int :=
  .tensor (some ⟨.int, [2, 2], fun index => index.sum * scale⟩)

/-- A tensor and a number: all is equal, the tensor differs, or only the number does. -/
theorem verdict_truthful_tuple :
    Truthful exact "max" (.tuple [square 1, .int 3] [square 1, .int 3]) ∧
      Truthful exact "max" (.tuple [square 1, .int 3] [square 2, .int 4]) ∧
      ¬ Truthful exact "max" (.tuple [square 1, .int 3] [square 1, .int 4]) := by
  have alike : ∀ scale, Plain (square 1) (square scale) := fun _ =>
    ⟨⟨rfl, rfl, by simp [Supported]⟩, trivial⟩
  have agree : TensorsAgree exact (α := Int) ⟨.int, [2, 2], fun index => index.sum * 1⟩
      ⟨.int, [2, 2], fun index => index.sum * 1⟩ := ⟨rfl, by decide⟩
  have differ : ¬ ValuesAgree exact (square 1) (square 2) := fun agree =>
    absurd (agree.2 [0, 1] (by decide)) (by decide)
  refine ⟨(verdict_truthful exact exact_lawful "max" _).1 (.inr (.inl ?_)),
    (verdict_truthful exact exact_lawful "max" _).1
      (.inr (.inr ⟨(square 1, square 2), by simp [Outputs.pairs, Outputs.parts], alike 2, differ⟩)),
    fun truthful => ?_⟩
  · simpa [Outputs.pairs, Outputs.parts, Plain, TensorsAlike, IntsEqual] using alike 1
  · have pairs : (Outputs.tuple [square 1, .int 3] [square 1, .int 4]).pairs =
        [(square 1, square 1), (.int 3, .int 4)] := rfl
    rcases (verdict_truthful exact exact_lawful "max" _).2
      (by simpa [pairs, TensorsAlike] using (alike 1).1) truthful with raises | judgeable
    · obtain ⟨-, pair, member, raises⟩ := raises
      rw [pairs] at member
      rcases List.mem_cons.mp member with rfl | other
      · rcases raises with ⟨unequal, _⟩ | unsupported | unbroadcast | ⟨_, undescribed⟩
        · exact unequal rfl
        · cases unsupported
        · cases unbroadcast
        · cases undescribed
      · cases List.mem_singleton.mp other
        exact raises
    · have unequal : ¬ IntsEqual (.int 3 : Value Int) (.int 4) := fun same =>
        absurd (show (3 : Int) = 4 from same) (by decide)
      rcases judgeable with counts | plain | ⟨pair, member, plain, not⟩
      · exact counts rfl
      · exact unequal (plain (.int 3, .int 4) (by simp [pairs])).2
      · rw [pairs] at member
        rcases List.mem_cons.mp member with rfl | other
        · exact not agree
        · cases List.mem_singleton.mp other
          exact unequal plain.2

/-- Two integers that differ pass. -/
theorem verdict_untruthful : ¬ ∀ (α : Type) (framework : Framework α) (opName : String)
    (outs : Outputs α), framework.Lawful → Truthful framework opName outs := by
  intro truthful
  have agree := (truthful Int exact "max" (.tuple [.int 3] [.int 4]) exact_lawful _ rfl).mp rfl
  have same : (3 : Int) = 4 := agree.2 (.int 3, .int 4) (by simp [Outputs.pairs, Outputs.parts])
  exact absurd same (by decide)

end TorchGcu.OpCheck

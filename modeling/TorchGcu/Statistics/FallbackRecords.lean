import TorchGcu.Logic.Wp
import TorchGcu.Statistics.Params

/-! What the statistics record of an operator that falls back to the CPU, how the record is
printed, and what the operator ends with. -/
namespace TorchGcu.FallbackStatistics
open ProgramLogic
open Statistics (IValue MetaIValue Params)
variable {Val V σ : Type}

/-! ### Operators and their calls -/

/-- An error of torch, which the statistics catch, or another exception. -/
inductive Error where
  | c10 (message : String)
  | other (message : String)
deriving DecidableEq

/-- The types of arguments that are printed in their own ways, and others by their text. -/
inductive ArgType where
  | number
  | listOfNumbers
  | other (reprStr : String)
deriving DecidableEq

structure Argument where
  name : String
  type : ArgType
  isWrite : Bool
deriving DecidableEq

structure Schema where
  fullname : String
  arguments : List Argument
  returns : List Argument
deriving DecidableEq

/-- The operators with outputs whose shape the inputs do not determine. -/
def dynamicOp : List String :=
  ["aten::argwhere", "aten::bincount", "aten::bincount.out", "aten::_ctc_loss",
    "aten::_ctc_loss.out", "aten::_ctc_loss.Tensor", "aten::_ctc_loss.Tensor_out",
    "aten::index.Tensor", "aten::index.Tensor_out", "aten::linalg_lstsq",
    "aten::linalg_lstsq.out", "aten::masked_select.out", "aten::masked_select",
    "aten::nonzero.out", "aten::nonzero", "aten::one_hot", "aten::repeat_interleave.Tensor",
    "aten::repeat_interleave.Tensor_out", "aten::repeat_interleave.self_Tensor",
    "aten::unique_dim", "aten::unique_dim.out", "aten::unique_consecutive",
    "aten::unique_consecutive.out", "aten::unique_dim_consecutive",
    "aten::unique_dim_consecutive.out", "aten::_unique", "aten::_unique.out",
    "aten::_unique2", "aten::_unique2.out"]

def Schema.isDynamic (schema : Schema) : Bool := dynamicOp.contains schema.fullname

/-- The number of outputs that a record of the operator has. -/
def Schema.returnNum (schema : Schema) : Nat :=
  if schema.isDynamic then 0 else schema.returns.length

/-- The values of torch: what is recorded of one, unless it cannot be copied; a string; the exception
of hashing parameters, if they have no hash; and how values are printed. -/
structure Torch (Val V : Type) where
  metaIValue : Val → Option (MetaIValue V)
  ofString : String → V
  hashError : Params V → Option Error
  isScalar : IValue V → Bool
  reprStr : IValue V → String
  toString : MetaIValue V → String
  toJson : MetaIValue V → String

variable (torch : Torch Val V)

/-- A recorded value that can be printed as a value of a type. -/
def Prints (arg : Argument) (param : MetaIValue V) : Prop :=
  match arg.type with
  | .number => ∃ value, param = .ivalue value
  | .listOfNumbers => ∃ header elements, param = .ivalue (.list header elements) ∧
      ∀ element ∈ elements, torch.isScalar element = true
  | .other _ => True

/-- A value of the type of an argument. -/
def Conforms (arg : Argument) (value : Val) : Prop :=
  ∀ param, torch.metaIValue value = some param → Prints torch arg param

/-- An operator: its fallback to the CPU, on the stack and the rest of the world, which leaves the
values that the schema returns on top of the stack. -/
structure Operator (σ : Type) where
  schema : Schema
  fallback : EStateM Error (List Val × σ) Unit
  leaves : ∀ before after, fallback.run before = .ok () after → ∃ rest returned,
    after.1 = rest ++ returned ∧ List.Forall₂ (Conforms torch) schema.returns returned

structure State (Val V σ : Type) where
  stack : List Val
  world : σ
  records : List (Schema × Params V)

abbrev M (Val V σ : Type) := EStateM Error (State Val V σ)

/-- A call of an operator, whose arguments are on top of the stack. -/
structure Call (schema : Schema) (σ : Type) where
  rest : List Val
  arguments : List Val
  conform : List.Forall₂ (Conforms torch) schema.arguments arguments
  world : σ
  records : List (Schema × Params V)

def Call.state {schema : Schema} (call : Call torch schema σ) : State Val V σ :=
  ⟨call.rest ++ call.arguments, call.world, call.records⟩

/-! ### Records -/

/-- `torch::jit::last`. -/
def last (stack : List Val) (n : Nat) : List Val := stack.drop (stack.length - n)

/-- `try` with a handler for errors of torch only. -/
def tryCatch (m : M Val V σ Unit) (handler : String → M Val V σ Unit) : M Val V σ Unit := fun s =>
  match m.run s with
  | .ok _ t => .ok () t
  | .error (.c10 message) t => (handler message).run t
  | .error (.other message) t => .error (.other message) t

def copies (values : List (Option (MetaIValue V))) : M Val V σ (Params V) :=
  match values.mapM id with
  | some params => pure params
  | none => throw (.c10 "Can't deepcopy IValue")

def opRecordInput (arguments : List Val) : M Val V σ (Params V) :=
  copies (arguments.map torch.metaIValue)

/-- `OpStatistics::record`. -/
def record (schema : Schema) (params : Params V) : M Val V σ Unit :=
  match torch.hashError params with
  | none => modify fun s => { s with records := s.records ++ [(schema, params)] }
  | some error => throw error

/-- The loop of `op_record_output`: each output is inserted at its index. -/
def insertReturns : Nat → Params V → Params V → Params V
  | _, [], params => params
  | idx, ivalue :: returns, params => insertReturns (idx + 1) returns (params.insertIdx idx ivalue)

def opRecordOutput (schema : Schema) (returnArguments : List (Option (MetaIValue V)))
    (params : Params V) : M Val V σ Unit :=
  if schema.isDynamic then record torch schema params
  else do
    let returns ← copies returnArguments
    record torch schema (insertReturns 0 returns params)

/-- What is recorded for the outputs of an operator that failed. -/
def noValue : MetaIValue V := .ivalue (.other (torch.ofString "cpu fallback fail NoValue."))

def gcuCpuFallback (op : Operator torch σ) : M Val V σ Unit :=
  zoom (fun s => (s.stack, s.world)) (fun t s => { s with stack := t.1, world := t.2 }) op.fallback

def opRecordMutable (op : Operator torch σ) : M Val V σ Unit := do
  let s ← get
  let params ← opRecordInput torch (last s.stack op.schema.arguments.length)
  tryCatch (gcuCpuFallback torch op) fun error => do
    opRecordOutput torch op.schema [some (noValue torch)] params
    throw (.c10 error)
  let t ← get
  opRecordOutput torch op.schema
    ((last t.stack op.schema.returns.length).map torch.metaIValue) params

/-- `gcu_cpu_fallback_and_statistics`. -/
def gcuCpuFallbackAndStatistics (enableStatistics : Bool) (op : Operator torch σ) :
    M Val V σ Unit :=
  if enableStatistics then tryCatch (opRecordMutable torch op) fun _ => gcuCpuFallback torch op
  else gcuCpuFallback torch op

/-! ### What is printed -/

/-- A line of a dump. -/
structure Line where
  idx : Nat
  name : String
  isWrite : Bool
  argsType : String
  value : String
deriving DecidableEq

def ptcheck (condition : Bool) (message : String) : Except Error Unit :=
  if condition then .ok () else .error (.other message)

def getArgsTypeStr (arg : Argument) (val : MetaIValue V) : Except Error String :=
  match arg.type with
  | .number =>
    match val with
    | .ivalue value => .ok ("Scalar(" ++ torch.reprStr value ++ ")")
    | _ => .error (.other "Output is not IVlaue")
  | .listOfNumbers => .ok "List[Scalar]"
  | .other reprStr => .ok reprStr

def listScalarToString (val : MetaIValue V) : Except Error String :=
  match val with
  | .ivalue (.list _ elements) => do
    ptcheck (elements.all torch.isScalar) "Input of listScalarToString is not Scalar"
    pure (torch.toString val)
  | .ivalue _ => .error (.other "Input of listScalarToString is not List")
  | _ => .error (.other "Input of listScalarToString is not kIValue")

/-- `toString` of an argument. -/
def toString (arg : Argument) (val : MetaIValue V) : Except Error String :=
  match arg.type with
  | .listOfNumbers => listScalarToString torch val
  | _ => .ok (torch.toString val)

def updateJsonValue (arg : Argument) (val : MetaIValue V) : Except Error String :=
  match val with
  | .ivalue (.list _ elements) => do
    ptcheck (arg.type ≠ .listOfNumbers || elements.all torch.isScalar)
      "Input of listScalarToString is not Scalar"
    pure (torch.toJson val)
  | _ => .ok (torch.toJson val)

/-- How the values of a dump are printed: as `dumpToStr` does it, or `dumpToJson`. -/
abbrev Render (V : Type) := Argument → MetaIValue V → Except Error String

def lineOf (render : Render V) (idx : Nat) (name : String) (arg : Argument)
    (param : MetaIValue V) : Except Error Line := do
  let type ← getArgsTypeStr torch arg param
  let value ← render arg param
  pure ⟨idx, name, arg.isWrite, type, value⟩

/-- The name of an output. -/
def outName (i : Nat) (ret : Argument) : String :=
  if ret.name = "" then "out" ++ ToString.toString i else ret.name

/-- The loop over the outputs, or over the inputs, which are `offset` further on. An index past
the end of the parameters has no defined outcome, and is an error here. -/
def linesFrom (render : Render V) (name : Nat → Argument → String) (params : Params V)
    (offset : Nat) : Nat → List Argument → Except Error (List Line)
  | _, [] => .ok []
  | i, arg :: args =>
    match params[i + offset]? with
    | none => .error (.other "index out of range")
    | some param => do
      let line ← lineOf torch render i (name i arg) arg param
      let lines ← linesFrom render name params offset (i + 1) args
      pure (line :: lines)

/-- The outputs and the inputs of one record. -/
def dumpParams (render : Render V) (schema : Schema) (params : Params V) :
    Except Error (List Line × List Line) := do
  let returnNum := schema.returnNum
  let outputs ← linesFrom torch render outName params 0 0 (schema.returns.take returnNum)
  let inputs ← linesFrom torch render (fun _ arg => arg.name) params returnNum 0 schema.arguments
  pure (outputs, inputs)

/-- The records of a schema, in the order they are printed. -/
def dumpRecords (render : Render V) (records : List (Schema × Params V)) :
    Except Error (List (List Line × List Line)) :=
  records.mapM fun record => dumpParams torch render record.1 record.2

/-- The lines of arguments, each with its own type and value. -/
def ownLines (render : Render V) : Nat → List Argument → Params V → Except Error (List Line)
  | i, arg :: args, param :: params => do
    let line ← lineOf torch render i arg.name arg param
    let lines ← ownLines render (i + 1) args params
    pure (line :: lines)
  | _, _, _ => .ok []

/-! ### What should hold of a call -/

variable {torch} {op : Operator torch σ} {call : Call torch op.schema σ}

/-- The stack and the world at the start of a call. -/
def Call.start {schema : Schema} (call : Call torch schema σ) : List Val × σ :=
  (call.rest ++ call.arguments, call.world)

/-- What is recorded of the arguments, unless one of them cannot be copied. -/
def Call.inputs {schema : Schema} (call : Call torch schema σ) : Option (Params V) :=
  call.arguments.mapM torch.metaIValue

/-- A record has an entry for every output and every argument, and both dumps print every argument
with its own type and value. -/
def LinesUp (call : Call torch op.schema σ) (params : Params V) : Prop :=
  params.length = op.schema.returnNum + op.schema.arguments.length ∧
    ∀ render ∈ [toString torch, updateJsonValue torch], ∃ outputs inputs, ∃ own ∈ call.inputs,
      dumpParams torch render op.schema params = .ok (outputs, inputs) ∧
        ownLines torch render 0 op.schema.arguments own = .ok inputs

/-- Every record that a call adds lines up with the schema. -/
def RecordsLineUp (op : Operator torch σ) (call : Call torch op.schema σ) : Prop :=
  let lineUp := fun t : State Val V σ => ∀ record ∈ t.records.drop call.records.length,
    record.1 = op.schema ∧ LinesUp call record.2
  wp (opRecordMutable torch op) (fun _ => lineUp) (fun _ => lineUp) call.state

/-- What a call ends with: a stack, or an error. -/
def ends (m : M Val V σ Unit) (s : State Val V σ) : Except Error (List Val) :=
  match m.run s with
  | .ok _ t => .ok t.stack
  | .error e _ => .error e

/-- The statistics do not change what a call ends with. -/
def Transparent (op : Operator torch σ) (call : Call torch op.schema σ) : Prop :=
  ends (gcuCpuFallbackAndStatistics torch true op) call.state =
    ends (gcuCpuFallbackAndStatistics torch false op) call.state

/-! ### When it does -/

/-- The outputs that are recorded, unless one of them cannot be copied. -/
def Operator.outputs (op : Operator torch σ) (stack : List Val) : Option (Params V) :=
  if op.schema.isDynamic then some []
  else (last stack op.schema.returns.length).mapM torch.metaIValue

/-- The operator fails with one output recorded, and it has another number of outputs, or one that
an error text is no value of. -/
def RecordsFailure (op : Operator torch σ) (call : Call torch op.schema σ) : Prop :=
  op.schema.isDynamic = false ∧
    (∃ message left, op.fallback.run call.start = .error (.c10 message) left) ∧
    (∃ params ∈ call.inputs, torch.hashError (noValue torch :: params) = none) ∧
    ¬ ∃ ret, op.schema.returns = [ret] ∧ ret.type ≠ .listOfNumbers

/-- The operator is run again, on what the first run left: it failed, or it cannot be recorded. -/
def RunsAgain (op : Operator torch σ) (call : Call torch op.schema σ) (left : List Val × σ) : Prop :=
  ∃ params ∈ call.inputs,
    (∃ message, op.fallback.run call.start = .error (.c10 message) left) ∨
      op.fallback.run call.start = .ok () left ∧
        ¬ ∃ outputs ∈ op.outputs left.1, torch.hashError (outputs ++ params) = none

/-- What is recorded for the outputs when the operator fails. -/
def Schema.noValues (torch : Torch Val V) (schema : Schema) : Params V :=
  if schema.isDynamic then [] else [noValue torch]

/-- Hashing what is to be recorded raises an exception that is no error of torch. -/
def Escapes (op : Operator torch σ) (call : Call torch op.schema σ) : Prop :=
  ∃ params ∈ call.inputs, ∃ message left,
    (∃ error, op.fallback.run call.start = .error (.c10 error) left ∧
      torch.hashError (op.schema.noValues torch ++ params) = some (.other message)) ∨
    op.fallback.run call.start = .ok () left ∧
      ∃ outputs ∈ op.outputs left.1, torch.hashError (outputs ++ params) = some (.other message)

/-- What a run of the fallback ends with. -/
def Operator.endsWith (op : Operator torch σ) (start : List Val × σ) : Except Error (List Val) :=
  match op.fallback.run start with
  | .ok _ left => .ok left.1
  | .error e _ => .error e

/-! ### The record of a call -/

theorem last_append (rest values : List Val) (n : Nat) (length : values.length = n) :
    last (rest ++ values) n = values := by
  simp [last, ← length]

theorem insertReturns_append (before returns params : Params V) :
    insertReturns before.length returns (before ++ params) = before ++ returns ++ params := by
  induction returns generalizing before with
  | nil => simp [insertReturns]
  | cons ivalue returns ih =>
    have inserted : (before ++ params).insertIdx before.length ivalue =
        (before ++ [ivalue]) ++ params := by
      induction before with
      | nil => rfl
      | cons b before ih => simp [ih]
    rw [insertReturns, inserted]
    have next := ih (before ++ [ivalue])
    simp only [List.length_append, List.length_singleton] at next
    rw [next]
    simp

theorem mapM_copies (values : List Val) :
    (values.map torch.metaIValue).mapM id = values.mapM torch.metaIValue := by
  induction values with
  | nil => rfl
  | cons value values ih => simp [List.mapM_cons, ih]

theorem copies_run (values : List (Option (MetaIValue V))) (s : State Val V σ) :
    (copies values).run s =
      match values.mapM id with
      | some params => .ok params s
      | none => .error (.c10 "Can't deepcopy IValue") s := by
  unfold copies
  cases values.mapM id <;> rfl

/-- The outputs are recorded before the inputs, or nothing is. -/
theorem opRecordOutput_run (torch : Torch Val V) (schema : Schema)
    (values : List (Option (MetaIValue V))) (params : Params V) (s : State Val V σ)
    (outs : Option (Params V)) : (if schema.isDynamic then some [] else values.mapM id) = outs →
    (opRecordOutput torch schema values params).run s =
      match outs with
      | none => .error (.c10 "Can't deepcopy IValue") s
      | some outs =>
        match torch.hashError (outs ++ params) with
        | none => .ok () { s with records := s.records ++ [(schema, outs ++ params)] }
        | some error => .error error s := by
  have recorded : ∀ params : Params V, (record torch schema params).run s =
      match torch.hashError params with
      | none => .ok () { s with records := s.records ++ [(schema, params)] }
      | some error => .error error s := by
    intro params
    unfold record
    cases torch.hashError params <;> rfl
  rintro rfl
  unfold opRecordOutput
  split
  · exact recorded params
  · have copied := copies_run values s
    cases outputs : values.mapM id with
    | none =>
      simp only [outputs] at copied
      simp only [EStateM.run, bind, EStateM.bind] at copied ⊢
      rw [copied]
    | some outs =>
      simp only [outputs] at copied
      have inserted : insertReturns 0 outs params = outs ++ params :=
        insertReturns_append [] outs params
      simp only [EStateM.run, bind, EStateM.bind] at copied ⊢
      rw [copied]
      simp only [inserted]
      exact recorded _

/-- The state after a run of the fallback. -/
def Call.after (call : Call torch op.schema σ) (left : List Val × σ) : State Val V σ :=
  ⟨left.1, left.2, call.records⟩

/-- How recording a call ends, with what it records. -/
inductive Recorded (op : Operator torch σ) (call : Call torch op.schema σ) :
    EStateM.Result Error (State Val V σ) Unit → Prop where
  | noInputs (message : String) (missing : call.inputs = none) :
    Recorded op call (.error (.c10 message) call.state)
  | success (params outs : Params V) (left : List Val × σ) (inputs : call.inputs = some params)
    (ran : op.fallback.run call.start = .ok () left) (outputs : op.outputs left.1 = some outs)
    (hashed : torch.hashError (outs ++ params) = none) :
    Recorded op call (.ok () { call.after left with
      records := call.records ++ [(op.schema, outs ++ params)] })
  | uncopied (message : String) (params : Params V) (left : List Val × σ)
    (inputs : call.inputs = some params) (ran : op.fallback.run call.start = .ok () left)
    (missing : op.outputs left.1 = none) :
    Recorded op call (.error (.c10 message) (call.after left))
  | unhashed (error : Error) (params outs : Params V) (left : List Val × σ)
    (inputs : call.inputs = some params) (ran : op.fallback.run call.start = .ok () left)
    (outputs : op.outputs left.1 = some outs)
    (raised : torch.hashError (outs ++ params) = some error) :
    Recorded op call (.error error (call.after left))
  | failure (message : String) (params : Params V) (left : List Val × σ)
    (inputs : call.inputs = some params)
    (ran : op.fallback.run call.start = .error (.c10 message) left)
    (hashed : torch.hashError (op.schema.noValues torch ++ params) = none) :
    Recorded op call (.error (.c10 message) { call.after left with
      records := call.records ++ [(op.schema, op.schema.noValues torch ++ params)] })
  | failureUnhashed (message : String) (error : Error) (params : Params V) (left : List Val × σ)
    (inputs : call.inputs = some params)
    (ran : op.fallback.run call.start = .error (.c10 message) left)
    (raised : torch.hashError (op.schema.noValues torch ++ params) = some error) :
    Recorded op call (.error error (call.after left))
  | exception (message : String) (params : Params V) (left : List Val × σ)
    (inputs : call.inputs = some params)
    (ran : op.fallback.run call.start = .error (.other message) left) :
    Recorded op call (.error (.other message) (call.after left))

theorem opRecordMutable_recorded (op : Operator torch σ) (call : Call torch op.schema σ) :
    Recorded op call ((opRecordMutable torch op).run call.state) := by
  have arity : call.arguments.length = op.schema.arguments.length := call.conform.length_eq.symm
  have recordsInput : (opRecordInput torch (last call.state.stack op.schema.arguments.length) :
      M Val V σ (Params V)).run call.state =
        match call.inputs with
        | some params => .ok params call.state
        | none => .error (.c10 "Can't deepcopy IValue") call.state := by
    rw [opRecordInput, Call.state, last_append _ _ _ arity, copies_run, mapM_copies]
    rfl
  simp only [EStateM.run] at recordsInput
  simp only [opRecordMutable, EStateM.run, bind, EStateM.bind, get_apply, recordsInput]
  cases inputs : call.inputs with
  | none => exact .noInputs _ inputs
  | some params =>
    have falls : (gcuCpuFallback torch op) call.state =
        match op.fallback.run call.start with
        | .ok a left => .ok a (call.after left)
        | .error e left => .error e (call.after left) := by
      simp only [gcuCpuFallback, zoom]
      have start : ((Call.state torch call).stack, (Call.state torch call).world) = call.start := rfl
      rw [start]
      cases op.fallback.run call.start <;> rfl
    simp only [tryCatch, EStateM.run, falls]
    cases ran : op.fallback call.start with
    | ok a left =>
      have outputs : (if op.schema.isDynamic then some []
          else ((last left.1 op.schema.returns.length).map torch.metaIValue).mapM id) =
            op.outputs left.1 := by
        rw [mapM_copies]
        rfl
      have run := opRecordOutput_run torch op.schema
        ((last left.1 op.schema.returns.length).map torch.metaIValue) params (call.after left) _ outputs
      simp only [EStateM.run] at run
      simp only [Call.after] at run ⊢
      rw [run]
      cases isOuts : op.outputs left.1 with
      | none => exact .uncopied _ params left inputs ran isOuts
      | some outs =>
        simp only
        cases raised : torch.hashError (outs ++ params) with
        | none => exact .success params outs left inputs ran isOuts raised
        | some error => exact .unhashed error params outs left inputs ran isOuts raised
    | error error left =>
      cases error with
      | other message => exact .exception message params left inputs ran
      | c10 message =>
        have outputs : (if op.schema.isDynamic then some [] else [some (noValue torch)].mapM id) =
            some (op.schema.noValues torch) := by
          unfold Schema.noValues
          split <;> rfl
        have run := opRecordOutput_run torch op.schema [some (noValue torch)] params (call.after left)
          _ outputs
        simp only [EStateM.run] at run
        simp only [EStateM.bind]
        rw [run]
        cases raised : torch.hashError (op.schema.noValues torch ++ params) with
        | none => exact .failure message params left inputs ran raised
        | some error => exact .failureUnhashed message error params left inputs ran raised

/-! ### The dumps of a record -/

section
variable {render : Render V} {arg : Argument} {param : MetaIValue V}

/-- A value of the type of an argument can be printed. -/
theorem lineOf_prints (isRender : render ∈ [toString torch, updateJsonValue torch])
    (prints : Prints torch arg param) (idx : Nat) (name : String) :
    ∃ line, lineOf torch render idx name arg param = .ok line := by
  have typed : ∃ type, getArgsTypeStr torch arg param = .ok type := by
    cases type : arg.type with
    | number =>
      simp only [Prints, type] at prints
      obtain ⟨value, rfl⟩ := prints
      exact ⟨_, by simp only [getArgsTypeStr, type]; rfl⟩
    | listOfNumbers => exact ⟨_, by simp only [getArgsTypeStr, type]; rfl⟩
    | other reprStr => exact ⟨_, by simp only [getArgsTypeStr, type]; rfl⟩
  have rendered : ∃ value, render arg param = .ok value := by
    simp only [List.mem_cons, List.not_mem_nil, or_false] at isRender
    by_cases list : arg.type = .listOfNumbers
    · simp only [Prints, list] at prints
      obtain ⟨header, elements, rfl, scalars⟩ := prints
      have all : elements.all torch.isScalar = true := by simpa using scalars
      rcases isRender with rfl | rfl
      · exact ⟨_, by simp only [toString, list, listScalarToString, ptcheck, all]; rfl⟩
      · exact ⟨_, by simp only [updateJsonValue, ptcheck, all, Bool.or_true]; rfl⟩
    · rcases isRender with rfl | rfl
      · refine ⟨torch.toString param, ?_⟩
        unfold toString
        split
        · contradiction
        · rfl
      · refine ⟨torch.toJson param, ?_⟩
        unfold updateJsonValue
        split
        · simp only [ptcheck, ne_eq, list, not_false_eq_true, decide_true, Bool.true_or, if_true]
          rfl
        · rfl
  obtain ⟨type, typed⟩ := typed
  obtain ⟨value, rendered⟩ := rendered
  exact ⟨_, by simp only [lineOf, typed, rendered]; rfl⟩

/-- The loop of a dump prints values that stand where it looks for them. -/
theorem linesFrom_prints (isRender : render ∈ [toString torch, updateJsonValue torch])
    (name : Nat → Argument → String) {args : List Argument} {params : Params V}
    (print : List.Forall₂ (Prints torch) args params) (before rest : Params V) (offset i : Nat)
    (place : before.length = i + offset) :
    ∃ lines, linesFrom torch render name (before ++ params ++ rest) offset i args = .ok lines := by
  induction print generalizing before i with
  | nil => exact ⟨[], rfl⟩
  | @cons arg param args params prints _ ih =>
    have found : (before ++ param :: params ++ rest)[i + offset]? = some param := by
      simp [← place]
    obtain ⟨line, isLine⟩ := lineOf_prints isRender prints i (name i arg)
    have next := ih (before ++ [param]) (i + 1) (by simp [place]; omega)
    rw [List.append_assoc before, List.singleton_append] at next
    obtain ⟨lines, areLines⟩ := next
    refine ⟨line :: lines, ?_⟩
    simp only [linesFrom, found, isLine, areLines]
    rfl

/-- The lines of the inputs are those of the arguments when their values stand at the offset. -/
theorem linesFrom_own (args : List Argument) (before params : Params V) (offset i : Nat)
    (place : before.length = i + offset) (lengths : args.length = params.length) :
    linesFrom torch render (fun _ arg => arg.name) (before ++ params) offset i args =
      ownLines torch render i args params := by
  induction args generalizing before params i with
  | nil => cases params <;> rfl
  | cons arg args ih =>
    cases params with
    | nil => simp at lengths
    | cons param params =>
      have found : (before ++ param :: params)[i + offset]? = some param := by
        simp [← place]
      have next := ih (before ++ [param]) params (i + 1) (by simp [place]; omega)
        (by simpa using lengths)
      rw [List.append_assoc, List.singleton_append] at next
      simp only [linesFrom, found, ownLines, next]

end

/-- The values that are recorded of a list conform to the types of the list. -/
theorem mapM_prints {args : List Argument} {values : List Val} {params : Params V}
    (conform : List.Forall₂ (Conforms torch) args values)
    (recorded : values.mapM torch.metaIValue = some params) :
    List.Forall₂ (Prints torch) args params := by
  induction conform generalizing params with
  | nil =>
    cases recorded
    exact .nil
  | @cons arg value args values conforms _ ih =>
    simp only [List.mapM_cons, Option.bind_eq_bind, Option.bind_eq_some_iff, Option.pure_def,
      Option.some.injEq] at recorded
    obtain ⟨param, isParam, rest, isRest, rfl⟩ := recorded
    exact .cons (conforms param isParam) (ih isRest)

/-- A record whose outputs can be printed lines up with the schema. -/
theorem linesUp_of_prints {outs params : Params V} (inputs : call.inputs = some params)
    (print : List.Forall₂ (Prints torch) (op.schema.returns.take op.schema.returnNum) outs) :
    LinesUp call (outs ++ params) := by
  have printed : List.Forall₂ (Prints torch) op.schema.arguments params :=
    mapM_prints call.conform inputs
  have outsLength : outs.length = op.schema.returnNum := by
    rw [← print.length_eq, Schema.returnNum]
    split <;> simp
  refine ⟨by simp [outsLength, ← printed.length_eq], fun render isRender => ?_⟩
  obtain ⟨outputs, areOutputs⟩ := linesFrom_prints isRender outName print [] params 0 0 rfl
  obtain ⟨inputLines, areInputs⟩ := linesFrom_prints isRender (fun _ arg => arg.name) printed outs []
    op.schema.returnNum 0 (by simp [outsLength])
  rw [List.append_nil] at areInputs
  refine ⟨outputs, inputLines, params, inputs, ?_, ?_⟩
  · rw [List.nil_append] at areOutputs
    simp only [dumpParams, areOutputs, areInputs]
    rfl
  · rw [← areInputs]
    exact (linesFrom_own op.schema.arguments outs params _ 0 (by simp [outsLength])
      printed.length_eq).symm

/-- The record of a failure with one text for its outputs lines up exactly if there is one output,
which may be a text. -/
theorem failure_linesUp {params : Params V} (inputs : call.inputs = some params)
    (static : op.schema.isDynamic = false) : LinesUp call (noValue torch :: params) ↔
      ∃ ret, op.schema.returns = [ret] ∧ ret.type ≠ .listOfNumbers := by
  have returnNum : op.schema.returnNum = op.schema.returns.length := by
    simp [Schema.returnNum, static]
  constructor
  · rintro ⟨length, dumps⟩
    have printed : List.Forall₂ (Prints torch) op.schema.arguments params :=
      mapM_prints call.conform inputs
    have one : op.schema.returns.length = 1 := by
      have := printed.length_eq
      simp only [List.length_cons] at length
      omega
    obtain ⟨ret, returns⟩ := List.length_eq_one_iff.mp one
    refine ⟨ret, returns, fun list => ?_⟩
    obtain ⟨outputs, inputLines, _, _, dumped, _⟩ := dumps (toString torch) (by simp)
    have fails : lineOf torch (toString torch) 0 (outName 0 ret) ret (noValue torch) =
        .error (.other "Input of listScalarToString is not List") := by
      simp only [lineOf, getArgsTypeStr, toString, list, listScalarToString, noValue]
      rfl
    have outputFails : linesFrom torch (toString torch) outName (noValue torch :: params) 0 0 [ret] =
        .error (.other "Input of listScalarToString is not List") := by
      simp only [linesFrom, Nat.add_zero, List.getElem?_cons_zero, fails]
      rfl
    simp only [dumpParams, returnNum, returns, List.length_singleton, List.take_succ_cons,
      List.take_zero, outputFails] at dumped
    cases dumped
  · rintro ⟨ret, returns, other⟩
    refine @linesUp_of_prints _ _ _ _ _ _ [noValue torch] _ inputs ?_
    rw [returnNum, returns]
    refine .cons ?_ .nil
    unfold Prints
    split
    · exact ⟨_, rfl⟩
    · exact absurd ‹_› other
    · trivial

/-! ### Records and outcomes -/

/-- All records of a call line up unless it is recorded that the operator failed. -/
theorem recordsLineUp_iff (op : Operator torch σ) (call : Call torch op.schema σ) :
    RecordsLineUp op call ↔ ¬ RecordsFailure op call := by
  have recorded := opRecordMutable_recorded op call
  have none : ∀ record ∈ call.records.drop call.records.length,
      record.1 = op.schema ∧ LinesUp call record.2 := by simp
  have one : ∀ params, (∀ record ∈ (call.records ++ [(op.schema, params)]).drop call.records.length,
      record.1 = op.schema ∧ LinesUp call record.2) ↔ LinesUp call params := by simp
  unfold RecordsLineUp wp
  generalize (opRecordMutable torch op).run call.state = result at recorded
  cases recorded with
  | noInputs message missing =>
    refine iff_of_true none ?_
    rintro ⟨_, _, ⟨_, inputs, _⟩, _⟩
    cases missing.symm.trans inputs
  | success params outs left inputs ran outputs hashed =>
    refine iff_of_true ((one _).mpr (linesUp_of_prints inputs ?_)) ?_
    · cases dynamic : op.schema.isDynamic with
      | true =>
        simp only [Operator.outputs, dynamic, if_true, Option.some.injEq] at outputs
        simp [Schema.returnNum, dynamic, ← outputs]
      | false =>
        simp only [Operator.outputs, dynamic, Bool.false_eq_true, if_false] at outputs
        obtain ⟨rest, returned, stack, conform⟩ := op.leaves _ _ ran
        rw [stack, last_append _ _ _ conform.length_eq.symm] at outputs
        simpa [Schema.returnNum, dynamic] using mapM_prints conform outputs
    · rintro ⟨_, ⟨_, _, fails⟩, _⟩
      cases ran.symm.trans fails
  | uncopied message params left inputs ran missing =>
    refine iff_of_true none ?_
    rintro ⟨_, ⟨_, _, fails⟩, _⟩
    cases ran.symm.trans fails
  | unhashed error params outs left inputs ran outputs raised =>
    refine iff_of_true none ?_
    rintro ⟨_, ⟨_, _, fails⟩, _⟩
    cases ran.symm.trans fails
  | failure message params left inputs ran hashed =>
    refine (one _).trans ?_
    unfold Schema.noValues at hashed ⊢
    cases dynamic : op.schema.isDynamic with
    | true =>
      refine iff_of_true (linesUp_of_prints inputs ?_) ?_
      · simp [Schema.returnNum, dynamic]
      · rintro ⟨static, _⟩
        cases dynamic.symm.trans static
    | false =>
      simp only [dynamic, Bool.false_eq_true, if_false, List.singleton_append] at hashed ⊢
      rw [failure_linesUp inputs dynamic, RecordsFailure]
      constructor
      · exact fun printable failed => failed.2.2.2 printable
      · exact fun kept => Classical.byContradiction fun unprintable =>
          kept ⟨dynamic, ⟨message, left, ran⟩, ⟨params, inputs, hashed⟩, unprintable⟩
  | failureUnhashed message error params left inputs ran raised =>
    refine iff_of_true none ?_
    rintro ⟨static, _, ⟨_, isInputs, hashed⟩, _⟩
    cases inputs.symm.trans isInputs
    simp only [Schema.noValues, static, Bool.false_eq_true, if_false, List.singleton_append,
      hashed] at raised
    cases raised
  | exception message params left inputs ran =>
    refine iff_of_true none ?_
    rintro ⟨_, ⟨_, _, fails⟩, _⟩
    cases ran.symm.trans fails

theorem ends_gcuCpuFallback (op : Operator torch σ) (s : State Val V σ) :
    ends (gcuCpuFallback torch op) s = op.endsWith (s.stack, s.world) := by
  simp only [ends, gcuCpuFallback, zoom, Operator.endsWith, EStateM.run]
  cases op.fallback (s.stack, s.world) <;> rfl

/-- The statistics do not change what a call ends with unless hashing escapes, or the operator is run
again and that ends otherwise. -/
theorem transparent_iff (op : Operator torch σ) (call : Call torch op.schema σ) :
    Transparent op call ↔ ¬ Escapes op call ∧
      ∀ left, RunsAgain op call left → op.endsWith left = op.endsWith call.start := by
  have recorded := opRecordMutable_recorded op call
  have disabled : ends (gcuCpuFallbackAndStatistics torch false op) call.state =
      op.endsWith call.start := ends_gcuCpuFallback op call.state
  have enabled : ends (gcuCpuFallbackAndStatistics torch true op) call.state =
      match (opRecordMutable torch op).run call.state with
      | .ok _ t => .ok t.stack
      | .error (.c10 _) t => op.endsWith (t.stack, t.world)
      | .error (.other message) _ => .error (.other message) := by
    simp only [ends, gcuCpuFallbackAndStatistics, if_true, tryCatch, EStateM.run]
    cases ran : opRecordMutable torch op call.state with
    | ok a t => rfl
    | error e t =>
      cases e with
      | c10 message => exact ends_gcuCpuFallback op t
      | other message => rfl
  -- a call whose operator is run again on what a first run left
  have again : ∀ {left}, ¬ Escapes op call → RunsAgain op call left →
      (∀ other, RunsAgain op call other → other = left) →
      (op.endsWith left = op.endsWith call.start ↔ ¬ Escapes op call ∧
        ∀ left, RunsAgain op call left → op.endsWith left = op.endsWith call.start) := by
    intro left caught runs only
    refine ⟨fun same => ⟨caught, fun other isOther => ?_⟩, fun all => all.2 left runs⟩
    rw [only other isOther]
    exact same
  -- the first run ended with a stack
  have returned : ∀ {params left}, call.inputs = some params →
      op.fallback.run call.start = .ok () left →
      (∀ outs message, op.outputs left.1 = some outs →
        torch.hashError (outs ++ params) ≠ some (.other message)) → ¬ Escapes op call := by
    rintro params left inputs ran caught ⟨_, isInputs, message, _, ⟨_, fails, _⟩ |
      ⟨same, outs, outputs, raised⟩⟩
    · cases ran.symm.trans fails
    · cases ran.symm.trans same
      cases inputs.symm.trans isInputs
      exact caught outs message outputs raised
  -- or with an error of torch
  have failed : ∀ {params left error}, call.inputs = some params →
      op.fallback.run call.start = .error (.c10 error) left →
      (∀ message, torch.hashError (op.schema.noValues torch ++ params) ≠ some (.other message)) →
      ¬ Escapes op call := by
    rintro params left error inputs ran caught ⟨_, isInputs, message, _, ⟨_, fails, raised⟩ |
      ⟨same, _⟩⟩
    · cases inputs.symm.trans isInputs
      exact caught message raised
    · cases ran.symm.trans same
  have onlyReturned : ∀ {left}, op.fallback.run call.start = .ok () left →
      ∀ other, RunsAgain op call other → other = left := by
    rintro left ran other ⟨_, _, ⟨_, fails⟩ | ⟨same, _⟩⟩
    · cases ran.symm.trans fails
    · cases ran.symm.trans same
      rfl
  have onlyFailed : ∀ {left error}, op.fallback.run call.start = .error (.c10 error) left →
      ∀ other, RunsAgain op call other → other = left := by
    rintro left error ran other ⟨_, _, ⟨_, same⟩ | ⟨returned, _⟩⟩
    · cases ran.symm.trans same
      rfl
    · cases ran.symm.trans returned
  rw [Transparent, disabled, enabled]
  generalize (opRecordMutable torch op).run call.state = result at recorded
  cases recorded with
  | noInputs message missing =>
    refine iff_of_true rfl ⟨?_, ?_⟩
    · rintro ⟨_, inputs, _⟩
      cases missing.symm.trans inputs
    · rintro left ⟨_, inputs, _⟩
      cases missing.symm.trans inputs
  | success params outs left inputs ran outputs hashed =>
    refine iff_of_true (by simp only [Operator.endsWith, ran, Call.after]) ⟨?_, ?_⟩
    · refine returned inputs ran fun other message isOther raised => ?_
      cases outputs.symm.trans isOther
      cases hashed.symm.trans raised
    · rintro other ⟨_, isInputs, ⟨_, fails⟩ | ⟨same, refused⟩⟩
      · cases ran.symm.trans fails
      · cases ran.symm.trans same
        cases inputs.symm.trans isInputs
        exact absurd ⟨outs, outputs, hashed⟩ refused
  | uncopied message params left inputs ran missing =>
    refine again (returned inputs ran fun outs _ outputs => ?_) ⟨params, inputs, .inr ⟨ran, ?_⟩⟩
      (onlyReturned ran)
    · cases missing.symm.trans outputs
    · rintro ⟨_, outputs, _⟩
      cases missing.symm.trans outputs
  | unhashed error params outs left inputs ran outputs raised =>
    cases error with
    | c10 message =>
      refine again (returned inputs ran fun other _ isOther escapes => ?_)
        ⟨params, inputs, .inr ⟨ran, ?_⟩⟩ (onlyReturned ran)
      · cases outputs.symm.trans isOther
        cases raised.symm.trans escapes
      · rintro ⟨_, isOther, hashed⟩
        cases outputs.symm.trans isOther
        cases raised.symm.trans hashed
    | other message =>
      refine iff_of_false (by simp [Operator.endsWith, ran]) fun all => all.1 ?_
      exact ⟨params, inputs, message, left, .inr ⟨ran, outs, outputs, raised⟩⟩
  | failure message params left inputs ran hashed =>
    refine again (failed inputs ran fun _ raised => ?_) ⟨params, inputs, .inl ⟨message, ran⟩⟩
      (onlyFailed ran)
    cases hashed.symm.trans raised
  | failureUnhashed message error params left inputs ran raised =>
    cases error with
    | c10 other =>
      refine again (failed inputs ran fun _ escapes => ?_) ⟨params, inputs, .inl ⟨message, ran⟩⟩
        (onlyFailed ran)
      cases raised.symm.trans escapes
    | other escaped =>
      refine iff_of_false (by simp [Operator.endsWith, ran]) fun all => all.1 ?_
      exact ⟨params, inputs, escaped, left, .inl ⟨message, ran, raised⟩⟩
  | exception message params left inputs ran =>
    refine iff_of_true (by simp only [Operator.endsWith, ran]) ⟨?_, ?_⟩
    · rintro ⟨_, _, _, _, ⟨_, fails, _⟩ | ⟨same, _⟩⟩
      · cases ran.symm.trans fails
      · cases ran.symm.trans same
    · rintro other ⟨_, _, ⟨_, fails⟩ | ⟨same, _⟩⟩
      · cases ran.symm.trans fails
      · cases ran.symm.trans same

/-- The records of a call line up and the statistics do not change what it ends with, exactly if no
failure is recorded for another number of outputs than one, hashing raises errors of torch only, and
a second run of the operator ends as the first one. -/
theorem statistics_exact (torch : Torch Val V) (op : Operator torch σ)
    (call : Call torch op.schema σ) : RecordsLineUp op call ∧ Transparent op call ↔
      ¬ RecordsFailure op call ∧ ¬ Escapes op call ∧
        ∀ left, RunsAgain op call left → op.endsWith left = op.endsWith call.start := by
  rw [recordsLineUp_iff, transparent_iff]

/-! ### The dumps of all records -/

/-- Records that line up with the calls of their operators are printed, all of them. -/
theorem dumpRecords_returns {render : Render V}
    (isRender : render ∈ [toString torch, updateJsonValue torch])
    {records : List (Schema × Params V)}
    (lineUp : ∀ record ∈ records, ∃ (op : Operator torch σ) (call : Call torch op.schema σ),
      record.1 = op.schema ∧ LinesUp call record.2) :
    ∃ lines, dumpRecords torch render records = .ok lines := by
  induction records with
  | nil => exact ⟨[], rfl⟩
  | cons record records ih =>
    obtain ⟨op, call, schema, _, dumps⟩ := lineUp record (by simp)
    obtain ⟨outputs, inputs, _, _, dumped, _⟩ := dumps render isRender
    obtain ⟨lines, areLines⟩ := ih fun other isOther => lineUp other (by simp [isOther])
    refine ⟨(outputs, inputs) :: lines, ?_⟩
    simp only [dumpRecords] at areLines
    simp only [dumpRecords, List.mapM_cons, schema, dumped, areLines]
    rfl

/-! ### An operator that fails -/

/-- Values that are numbers. -/
def numbers : Torch Nat Nat where
  metaIValue value := some (.ivalue (.other value))
  ofString _ := 0
  hashError _ := none
  isScalar _ := true
  reprStr _ := "int"
  toString _ := ""
  toJson _ := ""

/-- An operator without results. -/
def copySchema : Schema where
  fullname := "aten::_foreach_copy_"
  arguments := [⟨"self", .other "Tensor[]", true⟩]
  returns := []

/-- A fallback that fails and leaves the stack as it is. -/
def fails : EStateM Error (List Nat × Unit) Unit := throw (.c10 "not implemented")

/-- An operator without results that fails: its one argument is printed with the text that was
recorded for its outputs. -/
theorem statistics_shifted : ¬ ∀ (Val V σ : Type) (torch : Torch Val V) (op : Operator torch σ)
    (call : Call torch op.schema σ), RecordsLineUp op call ∧ Transparent op call := by
  intro holds
  have conform : List.Forall₂ (Conforms numbers) copySchema.arguments [7] :=
    .cons (fun _ _ => trivial) .nil
  have kept := (recordsLineUp_iff _ _).mp (holds Nat Nat Unit numbers
    ⟨copySchema, fails, fun _ _ never => by cases never⟩ ⟨[], [7], conform, (), []⟩).1
  refine kept ⟨by decide, ⟨_, _, rfl⟩, ⟨[.ivalue (.other 7)], rfl, rfl⟩, ?_⟩
  rintro ⟨_, never, _⟩
  cases never

end TorchGcu.FallbackStatistics

import TorchGcu.Logic.Wp
import Mathlib.Logic.Function.Basic

/-! The execution trace observer: the callbacks that keep a stack of operators for each thread,
and the threads that call them. What the nodes say about values is left out. -/
namespace TorchGcu.ExecutionTrace
open ProgramLogic

abbrev ID := Nat
abbrev ThreadId := Nat
abbrev Pointer := Nat

def kUninitializedId : ID := 0

inductive RunState where
  | uninitialized
  | disabled
  | enabled
deriving DecidableEq, Repr

/-- What `writeJsonNode` is called for: the root of a thread, or an operator. -/
inductive Node where
  | thread (id : ID) (tid : ThreadId)
  | operator (name : String) (id parent fwParent : ID) (tid fwTid : ThreadId)
deriving DecidableEq, Repr

structure ExecutionTraceObserver where
  opStack : ThreadId → List ID := fun _ => []
  objectId : Pointer → Option ID := fun _ => none
  state : RunState := .uninitialized
  out : List Node := []
  -- 0 is uninitialized and 1 the root
  nextId : ID := 2

/-- What `convertIValue` finds in a value: the objects that are given ids, and whether it raises
once it has them. -/
structure Value where
  objects : List Pointer := []
  raises : Bool := false
deriving DecidableEq, Repr

/-- A value of `kwinputs`. -/
inductive KernelInput where
  | string (value : String)
  | int (value : Int)
  | other
deriving DecidableEq, Repr

/-- The members of `kwinputs` that are looked up. -/
structure KernelInputs where
  kernelBackend : Option KernelInput := none
  kernelFile : Option KernelInput := none
  grid : Option KernelInput := none
  stream : Option KernelInput := none
deriving DecidableEq, Repr

structure RecordFunction where
  name : String := ""
  inputs : List Value := []
  numInputs : Nat := 0
  kwinputs : KernelInputs := {}
  forwardThreadId : ThreadId := 0
deriving DecidableEq, Repr

/-- What a function has when it exits; the schema and the attributes of a collective can raise. -/
structure Outputs where
  outputs : List Value := []
  numOutputs : Nat := 0
  attributesRaise : Bool := false
deriving DecidableEq, Repr

structure FunctionCallContext where
  name : String := ""
  opId : ID := kUninitializedId
  parentId : ID := kUninitializedId
  fwParentId : ID := kUninitializedId
deriving DecidableEq, Repr

/-- An exception, which the callbacks catch; or `top` or `pop` of an empty stack. -/
inductive Failure where
  | exception
  | undefinedBehaviour
deriving DecidableEq, Repr

abbrev ObserverM := EStateM Failure ExecutionTraceObserver

/-! ### The observer -/

def getNewID : ObserverM ID := do
  let ob ← get
  set { ob with nextId := ob.nextId + 1 }
  return ob.nextId

def top (tid : ThreadId) : ObserverM ID := do
  match (← get).opStack tid with
  | [] => throw .undefinedBehaviour
  | id :: _ => return id

def push (tid : ThreadId) (id : ID) : ObserverM Unit :=
  modify fun ob => { ob with opStack := Function.update ob.opStack tid (id :: ob.opStack tid) }

def pop (tid : ThreadId) : ObserverM Unit := do
  let ob ← get
  match ob.opStack tid with
  | [] => throw .undefinedBehaviour
  | _ :: rest => set { ob with opStack := Function.update ob.opStack tid rest }

def writeJsonNode (node : Node) : ObserverM Unit :=
  modify fun ob => { ob with out := ob.out ++ [node] }

def getObjectID (t : Pointer) : ObserverM ID := do
  match (← get).objectId t with
  | some id => return id
  | none =>
    let objectId ← getNewID
    modify fun ob => { ob with objectId := Function.update ob.objectId t (some objectId) }
    return objectId

def getObjectIDs : List Pointer → ObserverM Unit
  | [] => return
  | t :: objects => do
    let _ ← getObjectID t
    getObjectIDs objects

def appendValueInfo (val : Value) : ObserverM Unit := do
  getObjectIDs val.objects
  if val.raises then throw .exception

def appendValueInfos : List Value → ObserverM Unit
  | [] => return
  | val :: values => do
    appendValueInfo val
    appendValueInfos values

/-- The arguments stand at the end of the stack, above what earlier operators have left. -/
def arguments (stack : List Value) (count : Nat) : List Value := stack.drop (stack.length - count)

/-- `at` and `toStringRef`, which raise. -/
def toStringRef : Option KernelInput → ObserverM String
  | some (.string value) => return value
  | _ => throw .exception

/-- `at` and `toInt`. -/
def toInt : Option KernelInput → ObserverM Int
  | some (.int value) => return value
  | _ => throw .exception

def handleKernelBackendInfo (kwinputs : KernelInputs) : ObserverM Unit := do
  if kwinputs.kernelBackend.isSome then
    if (← toStringRef kwinputs.kernelBackend) = "triton" then
      let _ ← toStringRef kwinputs.kernelFile
      let _ ← toStringRef kwinputs.grid
      let _ ← toInt kwinputs.stream

/-! ### The callbacks -/

/-- `catch (const std::exception& e)`. -/
def catching {σ : Type} (body : EStateM Failure σ Unit) : EStateM Failure σ Unit := fun s =>
  match body s with
  | .error .exception t => .ok () t
  | result => result

/-- The state of `recordOperatorStart`, which fills a context. -/
structure Recording where
  ob : ExecutionTraceObserver
  fc : FunctionCallContext := {}

abbrev RecordingM := EStateM Failure Recording

def onObserver {α : Type} (m : ObserverM α) : RecordingM α :=
  zoom Recording.ob (fun ob s => { s with ob }) m

def modifyContext (f : FunctionCallContext → FunctionCallContext) : RecordingM Unit :=
  modify fun s => { s with fc := f s.fc }

/-- If the stack of the thread is empty, the root node is pushed first. -/
def pushThreadNode (tid : ThreadId) : ObserverM Unit := do
  if ((← get).opStack tid).isEmpty then
    let threadNodeId ← getNewID
    push tid threadNodeId
    writeJsonNode (.thread threadNodeId tid)

def pushOperator (tid : ThreadId) (fn : RecordFunction) : RecordingM Unit := do
  let parentId ← onObserver (top tid)
  modifyContext fun fc => { fc with parentId }
  if fn.forwardThreadId ≠ 0 then
    let fwParentId ← onObserver (top fn.forwardThreadId)
    modifyContext fun fc => { fc with fwParentId }
  -- all input nodes should have id > opId
  let opId ← onObserver getNewID
  modifyContext fun fc => { fc with opId }
  onObserver (push tid opId)

def recordOperatorStart (tid : ThreadId) (fn : RecordFunction) : RecordingM Unit :=
  catching do
    onObserver (pushThreadNode tid)
    modifyContext fun fc => { fc with name := fn.name }
    if fn.inputs.length < fn.numInputs then return
    onObserver (appendValueInfos (arguments fn.inputs fn.numInputs))
    onObserver (handleKernelBackendInfo fn.kwinputs)
    pushOperator tid fn

/-- What `onFunctionExit` does under the lock. -/
def recordOperatorEnd (tid : ThreadId) (fn : RecordFunction) (fc : FunctionCallContext)
    (outputs : Outputs) : ObserverM Unit :=
  catching do
    -- remove current op id from stack
    pop tid
    appendValueInfos (arguments outputs.outputs outputs.numOutputs)
    if outputs.attributesRaise then throw .exception
    writeJsonNode (.operator fc.name fc.opId fc.parentId fc.fwParentId tid fn.forwardThreadId)

/-! ### Threads -/

/-- A recorded function that has been entered; it has no context if the observer was not enabled. -/
structure Frame where
  fn : RecordFunction
  context : Option FunctionCallContext
deriving DecidableEq, Repr

/-- A callback looks at the state of the observer before it takes the lock. -/
inductive Phase where
  | running
  | entering (fn : RecordFunction)
  | exiting (outputs : Outputs)
deriving DecidableEq, Repr

/-- The functions that a thread has entered and not left, innermost first. -/
structure Thread where
  frames : List Frame := []
  phase : Phase := .running
deriving DecidableEq, Repr

structure Process where
  ob : ExecutionTraceObserver := {}
  threads : ThreadId → Thread := fun _ => {}

inductive Event where
  | enableExecutionTraceObserver
  | disableExecutionTraceObserver
  | onFunctionEnter (tid : ThreadId) (fn : RecordFunction)
  | recordOperatorStart (tid : ThreadId)
  | onFunctionExit (tid : ThreadId) (outputs : Outputs)
  | recordOperatorEnd (tid : ThreadId)
deriving DecidableEq, Repr

def Process.setThread (p : Process) (tid : ThreadId) (thread : Thread) : Process :=
  { p with threads := Function.update p.threads tid thread }

def Process.setState (p : Process) (state : RunState) : Process :=
  { p with ob := { p.ob with state } }

/-- Functions are entered and left in a nested way on every thread. -/
def Process.Possible (p : Process) : Event → Prop
  | .enableExecutionTraceObserver | .disableExecutionTraceObserver => True
  | .onFunctionEnter tid _ => (p.threads tid).phase = .running
  | .recordOperatorStart tid => ∃ fn, (p.threads tid).phase = .entering fn
  | .onFunctionExit tid _ => (p.threads tid).phase = .running ∧ (p.threads tid).frames ≠ []
  | .recordOperatorEnd tid => ∃ outputs, (p.threads tid).phase = .exiting outputs

/-- The exit callback returns before it comes to the stack. -/
def Process.returnsEarly (p : Process) (frame : Frame) (outputs : Outputs) : Bool :=
  frame.context.isNone || p.ob.state != .enabled ||
    decide (outputs.outputs.length < outputs.numOutputs)

/-- An event of a process, unless its behaviour is undefined. -/
def step (p : Process) : Event → Option Process
  | .enableExecutionTraceObserver => some (p.setState .enabled)
  | .disableExecutionTraceObserver => some (p.setState .disabled)
  | .onFunctionEnter tid fn =>
    let thread := p.threads tid
    if p.ob.state = .enabled then some (p.setThread tid { thread with phase := .entering fn })
    else some (p.setThread tid { thread with frames := ⟨fn, none⟩ :: thread.frames })
  | .recordOperatorStart tid =>
    let thread := p.threads tid
    match thread.phase with
    | .entering fn =>
      match (recordOperatorStart tid fn).run { ob := p.ob } with
      | .ok () s =>
        some ({ p with ob := s.ob }.setThread tid { frames := ⟨fn, some s.fc⟩ :: thread.frames })
      | .error _ _ => none
    | _ => some p
  | .onFunctionExit tid outputs =>
    match (p.threads tid).frames with
    | [] => some p
    | frame :: rest =>
      if p.returnsEarly frame outputs then some (p.setThread tid { frames := rest })
      else some (p.setThread tid { frames := frame :: rest, phase := .exiting outputs })
  | .recordOperatorEnd tid =>
    match (p.threads tid).phase, (p.threads tid).frames with
    | .exiting outputs, ⟨fn, some fc⟩ :: rest =>
      match (recordOperatorEnd tid fn fc outputs).run p.ob with
      | .ok () ob => some ({ p with ob }.setThread tid { frames := rest })
      | .error _ _ => none
    | _, _ => some p

/-- `addExecutionTraceObserver`. -/
def added : Process := { ob := { state := .disabled } }

/-! ### What the callbacks do -/

def KernelInput.IsString : Option KernelInput → Prop
  | some (.string _) => True
  | _ => False

def KernelInput.IsInt : Option KernelInput → Prop
  | some (.int _) => True
  | _ => False

@[simp] theorem KernelInput.isString_string (value : String) :
    KernelInput.IsString (some (.string value)) := trivial

/-- The backend is a string, and the members that are looked up for a triton kernel are there, of
their types. -/
def KernelInputs.Complete (kwinputs : KernelInputs) : Prop :=
  kwinputs.kernelBackend ≠ none → KernelInput.IsString kwinputs.kernelBackend ∧
    (kwinputs.kernelBackend = some (.string "triton") → KernelInput.IsString kwinputs.kernelFile ∧
      KernelInput.IsString kwinputs.grid ∧ KernelInput.IsInt kwinputs.stream)

/-- The arguments of a function are all there, and nothing about them raises. -/
structure RecordFunction.Records (fn : RecordFunction) : Prop where
  present : fn.numInputs ≤ fn.inputs.length
  convertible : ∀ val ∈ arguments fn.inputs fn.numInputs, val.raises = false
  complete : fn.kwinputs.Complete

variable {ob : ExecutionTraceObserver} {tid : ThreadId}

/-- Only ids have been taken, and objects have been given them. -/
structure SameStacks (ob ob' : ExecutionTraceObserver) : Prop where
  opStack : ob'.opStack = ob.opStack
  out : ob'.out = ob.out
  state : ob'.state = ob.state
  nextId : ob.nextId ≤ ob'.nextId

theorem SameStacks.refl (ob : ExecutionTraceObserver) : SameStacks ob ob :=
  ⟨rfl, rfl, rfl, Nat.le_refl _⟩

theorem getObjectID_same {now : ExecutionTraceObserver} (same : SameStacks ob now) (t : Pointer) :
    wp (getObjectID t) (fun _ => SameStacks ob) (fun _ _ => False) now := by
  simp only [getObjectID, wp_bind, wp_get]
  cases now.objectId t with
  | some id => exact same
  | none =>
    simp only [getNewID, wp_bind, wp_get, wp_set, wp_pure, wp_modify]
    exact ⟨same.opStack, same.out, same.state, Nat.le_succ_of_le same.nextId⟩

theorem getObjectIDs_same {now : ExecutionTraceObserver} (same : SameStacks ob now)
    (objects : List Pointer) :
    wp (getObjectIDs objects) (fun _ => SameStacks ob) (fun _ _ => False) now := by
  induction objects generalizing now with
  | nil => exact same
  | cons t objects ih =>
    simp only [getObjectIDs, wp_bind]
    exact wp_mono (getObjectID_same same t) (fun _ _ same => ih same) fun _ _ never => never

theorem appendValueInfos_same {now : ExecutionTraceObserver} (same : SameStacks ob now)
    (values : List Value) :
    wp (appendValueInfos values)
      (fun _ t => SameStacks ob t ∧ ∀ val ∈ values, val.raises = false)
      (fun e t => SameStacks ob t ∧ e = .exception ∧ ¬ ∀ val ∈ values, val.raises = false) now := by
  induction values generalizing now with
  | nil => exact ⟨same, fun _ member => (List.not_mem_nil member).elim⟩
  | cons val values ih =>
    simp only [appendValueInfos, appendValueInfo, wp_bind]
    refine wp_mono (getObjectIDs_same same _) (fun _ t same => ?_) fun _ _ never => never.elim
    cases raises : val.raises with
    | true =>
      refine ⟨same, rfl, fun none => ?_⟩
      have not := none val List.mem_cons_self
      rw [raises] at not
      cases not
    | false =>
      simp only [Bool.false_eq_true, if_false, wp_pure]
      refine wp_mono (ih same) (fun _ u after => ?_) fun _ u after => ?_
      · exact ⟨after.1, List.forall_mem_cons.mpr ⟨raises, after.2⟩⟩
      · exact ⟨after.1, after.2.1, fun none => after.2.2 (List.forall_mem_cons.mp none).2⟩

theorem toStringRef_same (value : Option KernelInput) :
    wp (toStringRef value) (fun text t => t = ob ∧ value = some (.string text))
      (fun e t => t = ob ∧ e = .exception ∧ ¬ KernelInput.IsString value) ob := by
  rcases value with _ | value | value | _ <;> simp [toStringRef, KernelInput.IsString]

theorem toInt_same (value : Option KernelInput) :
    wp (toInt value) (fun _ t => t = ob ∧ KernelInput.IsInt value)
      (fun e t => t = ob ∧ e = .exception ∧ ¬ KernelInput.IsInt value) ob := by
  rcases value with _ | value | value | _ <;> simp [toInt, KernelInput.IsInt]

theorem handleKernelBackendInfo_same (kwinputs : KernelInputs) :
    wp (handleKernelBackendInfo kwinputs) (fun _ t => t = ob ∧ kwinputs.Complete)
      (fun e t => t = ob ∧ e = .exception ∧ ¬ kwinputs.Complete) ob := by
  obtain ⟨backend, file, grid, stream⟩ := kwinputs
  simp only [handleKernelBackendInfo, KernelInputs.Complete]
  rcases backend with _ | ⟨name | _ | _⟩
  · simp
  · by_cases triton : name = "triton"
    · subst triton
      simp only [Option.isSome_some, if_true, toStringRef, pure_bind, wp_bind]
      refine wp_mono (toStringRef_same file) ?_ ?_
      · rintro _ _ ⟨rfl, rfl⟩
        refine wp_mono (toStringRef_same grid) ?_ ?_
        · rintro _ _ ⟨rfl, rfl⟩
          refine wp_mono (toInt_same stream) ?_ ?_
          · rintro _ _ ⟨rfl, number⟩
            simp [number]
          · rintro _ _ ⟨rfl, rfl, number⟩
            simp [number]
        · rintro _ _ ⟨rfl, rfl, named⟩
          simp [named]
      · rintro _ _ ⟨rfl, rfl, named⟩
        simp [named]
    · simp [toStringRef, triton]
  · simp [toStringRef, KernelInput.IsString]
  · simp [toStringRef, KernelInput.IsString]

/-- The observer once the thread has a root node. -/
def ExecutionTraceObserver.withThreadNode (ob : ExecutionTraceObserver) (tid : ThreadId) :
    ExecutionTraceObserver :=
  if (ob.opStack tid).isEmpty then
    { ob with
      opStack := Function.update ob.opStack tid [ob.nextId]
      out := ob.out ++ [.thread ob.nextId tid]
      nextId := ob.nextId + 1 }
  else ob

theorem pushThreadNode_result :
    wp (pushThreadNode tid) (fun _ t => t = ob.withThreadNode tid) (fun _ _ => False) ob := by
  simp only [pushThreadNode, wp_bind, wp_get, ExecutionTraceObserver.withThreadNode]
  by_cases empty : (ob.opStack tid).isEmpty = true
  · rw [if_pos empty, if_pos empty]
    simp only [getNewID, push, writeJsonNode, wp_bind, wp_get, wp_set, wp_pure, wp_modify]
    rw [List.isEmpty_iff.mp empty]
  · rw [if_neg empty, if_neg empty]
    rfl

theorem wp_catching {σ : Type} {body : EStateM Failure σ Unit} {s : σ} {normal : Unit → σ → Prop}
    {raised : Failure → σ → Prop} :
    wp (catching body) normal raised s ↔
      wp body normal (fun e t => match e with
        | .exception => normal () t
        | .undefinedBehaviour => raised e t) s := by
  simp only [wp, catching, EStateM.run]
  cases body s with
  | ok a t => exact Iff.rfl
  | error e t => cases e <;> exact Iff.rfl

/-- The id of an operator has been pushed above its parent's. -/
structure Pushed (ob : ExecutionTraceObserver) (tid : ThreadId) (s : Recording) : Prop where
  recorded : ob.nextId ≤ s.fc.opId
  parent : ∃ rest, ob.opStack tid = s.fc.parentId :: rest
  opStack : s.ob.opStack = Function.update ob.opStack tid (s.fc.opId :: ob.opStack tid)
  out : s.ob.out = ob.out
  state : s.ob.state = ob.state
  nextId : ob.nextId ≤ s.ob.nextId

theorem wp_top {other : ThreadId} {normal : ID → ExecutionTraceObserver → Prop}
    {raised : Failure → ExecutionTraceObserver → Prop} :
    wp (top other) normal raised ob ↔ (∀ id rest, ob.opStack other = id :: rest → normal id ob) ∧
      (ob.opStack other = [] → raised .undefinedBehaviour ob) := by
  simp only [top, wp_bind, wp_get]
  cases ob.opStack other <;> simp

theorem pushOperator_result {s : Recording} {fn : RecordFunction} {root : ID} {rest : List ID}
    (stack : s.ob.opStack tid = root :: rest) :
    wp (pushOperator tid fn)
      (fun _ t => Pushed s.ob tid t ∧
        (fn.forwardThreadId = 0 ∨ s.ob.opStack fn.forwardThreadId ≠ []))
      (fun e _ => e = .undefinedBehaviour ∧
        ¬ (fn.forwardThreadId = 0 ∨ s.ob.opStack fn.forwardThreadId ≠ [])) s := by
  simp only [pushOperator, onObserver, modifyContext, wp_bind, wp_zoom, wp_top, wp_modify, wp_ite,
    getNewID, push, wp_get, wp_set, wp_pure, stack]
  have pushed (fwParentId : ID) : Pushed s.ob tid ⟨{ s.ob with
      opStack := Function.update s.ob.opStack tid (s.ob.nextId :: root :: rest)
      nextId := s.ob.nextId + 1 }, ⟨s.fc.name, s.ob.nextId, root, fwParentId⟩⟩ :=
    ⟨Nat.le_refl _, ⟨rest, stack⟩, by rw [stack], rfl, rfl, Nat.le_succ _⟩
  refine ⟨?_, fun none => by cases none⟩
  rintro _ _ ⟨⟩
  refine ⟨fun named => ⟨fun id rest there => ⟨pushed id, .inr ?_⟩, fun empty => ⟨trivial, ?_⟩⟩,
    fun unnamed => ⟨pushed _, .inl (not_not.mp unnamed)⟩⟩
  · rw [there]
    exact List.cons_ne_nil _ _
  · rintro (zero | stacked)
    · exact named zero
    · exact stacked empty

theorem SameStacks.pushed {ob' : ExecutionTraceObserver} {s : Recording} (same : SameStacks ob ob')
    (pushed : Pushed ob' tid s) : Pushed ob tid s := by
  obtain ⟨recorded, parent, opStack, out, state, nextId⟩ := pushed
  rw [same.opStack] at parent opStack
  exact ⟨Nat.le_trans same.nextId recorded, parent, opStack, out.trans same.out, state.trans same.state,
    Nat.le_trans same.nextId nextId⟩

theorem withThreadNode_stack : ∃ id rest, (ob.withThreadNode tid).opStack tid = id :: rest := by
  cases stack : ob.opStack tid with
  | nil => exact ⟨ob.nextId, [], by simp [ExecutionTraceObserver.withThreadNode, stack]⟩
  | cons id rest => exact ⟨id, rest, by simp [ExecutionTraceObserver.withThreadNode, stack]⟩

/-- The forward thread of a function, if it names one, has a stack. -/
def RecordFunction.Forwards (fn : RecordFunction) (ob : ExecutionTraceObserver) : Prop :=
  fn.forwardThreadId = 0 ∨ ob.opStack fn.forwardThreadId ≠ []

theorem recordOperatorStart_result {fn : RecordFunction} :
    wp (recordOperatorStart tid fn)
      (fun _ s => fn.Records ∧ Pushed (ob.withThreadNode tid) tid s ∧
          fn.Forwards (ob.withThreadNode tid) ∨
        ¬ fn.Records ∧ SameStacks (ob.withThreadNode tid) s.ob ∧ s.fc.opId = kUninitializedId)
      (fun _ _ => fn.Records ∧ ¬ fn.Forwards (ob.withThreadNode tid)) { ob } := by
  simp only [recordOperatorStart, wp_catching, wp_bind, onObserver, wp_zoom]
  refine wp_mono pushThreadNode_result (fun _ t same => ?_) fun _ _ never => never.elim
  subst same
  simp only [modifyContext, wp_modify, wp_ite, wp_bind, wp_zoom]
  refine ⟨fun fewer => .inr ⟨fun records => ?_, .refl _, rfl⟩, fun present => ?_⟩
  · exact absurd records.present (Nat.not_le.mpr fewer)
  refine wp_mono (appendValueInfos_same (.refl _) _) (fun _ t after => ?_) fun e t after => ?_
  · obtain ⟨same, convertible⟩ := after
    refine wp_mono (handleKernelBackendInfo_same _) (fun _ u after => ?_) fun e u after => ?_
    · obtain ⟨rfl, complete⟩ := after
      have records : fn.Records := ⟨Nat.not_lt.mp present, convertible, complete⟩
      obtain ⟨id, rest, stack⟩ := @withThreadNode_stack ob tid
      rw [← same.opStack] at stack
      refine wp_mono (pushOperator_result stack) (fun _ v after => .inl ?_) fun e v after => ?_
      · rw [RecordFunction.Forwards, ← same.opStack]
        exact ⟨records, same.pushed after.1, after.2⟩
      · obtain ⟨rfl, not⟩ := after
        rw [RecordFunction.Forwards, ← same.opStack]
        exact ⟨records, not⟩
    · obtain ⟨rfl, rfl, incomplete⟩ := after
      exact .inr ⟨fun records => incomplete records.complete, same, trivial⟩
  · obtain ⟨same, rfl, inconvertible⟩ := after
    exact .inr ⟨fun records => inconvertible records.convertible, same, trivial⟩

theorem recordOperatorEnd_result {fn : RecordFunction} {fc : FunctionCallContext}
    {outputs : Outputs} :
    wp (recordOperatorEnd tid fn fc outputs)
      (fun _ t => ∃ id rest, ob.opStack tid = id :: rest ∧
        t.opStack = Function.update ob.opStack tid rest ∧ t.state = ob.state ∧
        ob.nextId ≤ t.nextId ∧ (t.out = ob.out ∨ t.out = ob.out ++
          [.operator fc.name fc.opId fc.parentId fc.fwParentId tid fn.forwardThreadId]))
      (fun _ _ => ob.opStack tid = []) ob := by
  simp only [recordOperatorEnd, wp_catching, wp_bind, pop, wp_get]
  cases stack : ob.opStack tid with
  | nil => exact rfl
  | cons id rest =>
    simp only [wp_set]
    refine wp_mono (appendValueInfos_same (.refl _) _) (fun _ t after => ?_) fun e t after => ?_
    · obtain ⟨⟨opStack, out, state, nextId⟩, -⟩ := after
      cases outputs.attributesRaise with
      | true => exact ⟨id, rest, rfl, opStack, state, nextId, .inl out⟩
      | false => exact ⟨id, rest, rfl, opStack, state, nextId, .inr (congrArg (· ++ _) out)⟩
    · obtain ⟨⟨opStack, out, state, nextId⟩, rfl, -⟩ := after
      exact ⟨id, rest, rfl, opStack, state, nextId, .inl out⟩

end TorchGcu.ExecutionTrace

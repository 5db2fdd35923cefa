import TorchGcu.Graphs.Generator
import TorchGcu.Logic.Wp

/-! The work items of the `ProcessGroupECCL` instances of one process: the calls that count
and enqueue them, the watchdog threads that take them off again, and the counter of pending
event queries that all instances share. -/
namespace TorchGcu.ProcessGroup
open ProgramLogic
open GCUCachingAllocator (Err)
open Graphs (CaptureStatus)

inductive ErrorHandlingMode where
  | noHandling
  | tearDown
  | cleanUpOnly
  | skipCleanUp
deriving DecidableEq, Repr

def shouldCleanUp (mode : ErrorHandlingMode) : Bool := mode ≠ .noHandling && mode ≠ .skipCleanUp

def shouldTearDown (mode : ErrorHandlingMode) : Bool :=
  mode ≠ .noHandling && mode ≠ .cleanUpOnly

structure WorkECCL where
  seq : Nat
  exception : Bool := false
deriving DecidableEq, Repr

/-- The bits of `coalescing_state_`. -/
structure CoalescingState where
  active : Bool := false
  coll : Bool := false
  p2p : Bool := false
deriving DecidableEq, Repr

/-- `coalescing_state_ != 0`. -/
def CoalescingState.on (state : CoalescingState) : Bool := state.active || state.coll || state.p2p

/-- Where a watchdog thread is: at the loop test, in `wait_for`, at a position of
`workMetaList_` with its mutex held, or at its end. -/
inductive Watchdog where
  | testing (done : Bool)
  | waiting
  | visiting (position : Nat)
  | exited
deriving DecidableEq, Repr

structure ProcessGroupECCL where
  terminateProcessGroup : Bool := false
  workMetaList : List WorkECCL := []
  completedWorkList : List WorkECCL := []
  onCompletionHook : Bool := false
  asyncErrorHandling : ErrorHandlingMode := .skipCleanUp
  desyncDebug : Bool := false
  coalescingState : CoalescingState := {}
  /-- `coalescedComms_.size()`. -/
  coalescedComms : Nat := 0
  seq : Nat := 0
  lastEnqueuedSeq : Nat := 0
  lastCompletedSeq : Nat := 0
  watchdog : Watchdog := .testing false
  destroyed : Bool := false
deriving DecidableEq, Repr

/-- The constructor, with what it reads from the environment. -/
def ProcessGroupECCL.construct (blockingWait desyncDebug : Bool)
    (asyncErrorHandling : ErrorHandlingMode) : ProcessGroupECCL :=
  if blockingWait then
    { asyncErrorHandling := .noHandling, desyncDebug := false }
  else
    { asyncErrorHandling :=
        if desyncDebug && asyncErrorHandling = .noHandling then .skipCleanUp
        else asyncErrorHandling
      desyncDebug }

abbrev GroupM := EStateM Err ProcessGroupECCL

/-- A step of which only the failure matters. -/
def attempt {σ : Type} : Option Err → EStateM Err σ Unit
  | none => pure ()
  | some error => throw error

/-! ### The calls that create work -/

/-- What the libraries answer during a call. -/
structure CallRuntime where
  captureStatus : Except Err CaptureStatus := .ok .none
  getECCLComm : Option Err := none
  /-- The launch of the operation, with all that comes before the work is counted. -/
  launch : Option Err := none
  groupStart : Option Err := none
  groupEnd : Option Err := none

/-- A work item that the call has counted, and whether it is going to enqueue it. -/
structure Counted where
  work : WorkECCL
  enqueue : Bool
  /-- Counted by `endCoalescing`, which leaves the coalescing state afterwards. -/
  coalesced : Bool := false

/-- `torch_gcu::currentStreamCaptureStatusMayInitCtx()`. -/
def captureStatus (rt : CallRuntime) : GroupM CaptureStatus :=
  match rt.captureStatus with
  | .ok status => pure status
  | .error error => throw error

def ProcessGroupECCL.bumpSeq (group : ProcessGroupECCL) : ProcessGroupECCL :=
  { group with seq := group.seq + 1 }

/-- A communicator joins the coalesced ones; `mark` sets the bit of the kind of call. -/
def ProcessGroupECCL.coalesce (mark : CoalescingState → CoalescingState)
    (group : ProcessGroupECCL) : ProcessGroupECCL :=
  if group.coalescingState.active then
    { group with
      coalescingState := mark group.coalescingState
      coalescedComms := group.coalescedComms + 1 }
  else
    group

def startCoalescing (rt : CallRuntime) : GroupM Unit := do
  modify fun group =>
    { group with
      coalescedComms := 0
      coalescingState := { group.coalescingState with active := true } }
  attempt rt.groupStart
  modify (·.bumpSeq)

def collective (rt : CallRuntime) : GroupM (Option Counted) := do
  let status ← captureStatus rt
  modify (·.bumpSeq)
  attempt rt.getECCLComm
  modify (·.coalesce ({ · with coll := true }))
  let group ← get
  let enqueue := !group.coalescingState.on && status = .none
  attempt rt.launch
  return some { work := { seq := group.seq }, enqueue }

def collectiveCoalesced (rt : CallRuntime) : GroupM (Option Counted) := do
  let status ← captureStatus rt
  modify (·.bumpSeq)
  attempt rt.getECCLComm
  attempt rt.launch
  let group ← get
  return some
    { work := { seq := group.seq }, enqueue := !group.coalescingState.on && status = .none }

/-- `batchP2P` says that the calling thread has ECCL groups open. -/
def pointToPoint (batchP2P : Bool) (rt : CallRuntime) : GroupM (Option Counted) := do
  modify fun group =>
    if !batchP2P && !group.coalescingState.on then group.bumpSeq else group
  attempt rt.getECCLComm
  modify (·.coalesce ({ · with p2p := true }))
  attempt rt.launch
  let status ← captureStatus rt
  let group ← get
  return some
    { work := { seq := group.seq }, enqueue := !group.coalescingState.on && status = .none }

def endCoalescing (rt : CallRuntime) : GroupM (Option Counted) := do
  let group ← get
  if group.coalescedComms = 0 then
    attempt rt.groupEnd
    modify ({ · with coalescingState := {} })
    return none
  else
    let status ← captureStatus rt
    let enqueue := group.coalescingState.on && status = .none
    attempt rt.launch
    attempt rt.groupEnd
    return some { work := { seq := group.seq }, enqueue, coalesced := true }

/-! ### The watchdog -/

/-- What the watchdog finds and meets at one work item. -/
structure VisitRuntime where
  /-- `checkForECCLErrors`, in the loop, in `isStarted` and in `isCompleted`. -/
  ecclError : Except Err Bool := .ok false
  ecclErrorStarted : Except Err Bool := .ok false
  ecclErrorCompleted : Except Err Bool := .ok false
  timedOut : Bool := false
  workAbort : Option Err := none
  abort : Option Err := none
  /-- The exception that the work carries. -/
  carried : Err := .torchCheck "Watchdog caught collective operation timeout"
  logging : Option Err := none
  /-- `ecclEndEvent_->query()`. -/
  query : Except Err Bool := .ok false

def ProcessGroupECCL.setException (group : ProcessGroupECCL) (position : Nat) (work : WorkECCL) :
    ProcessGroupECCL :=
  { group with workMetaList := group.workMetaList.set position { work with exception := true } }

/-- `WorkECCL::checkAndSetException`: whether the work carries an exception now. -/
def checkAndSetException (position : Nat) (work : WorkECCL) (found : Except Err Bool) :
    GroupM Bool := do
  if work.exception then
    return true
  else
    match found with
    | .error error => throw error
    | .ok false => return false
    | .ok true =>
      modify (·.setException position work)
      return true

/-- A check that is made under a condition only. -/
def checkWhen (condition : Bool) (position : Nat) (work : WorkECCL) (found : Except Err Bool) :
    GroupM Bool :=
  if condition then checkAndSetException position work found else pure work.exception

/-- `WorkECCL::checkTimeout`, which does not override an exception. -/
def checkTimeout (position : Nat) (work : WorkECCL) (timedOut : Bool) : GroupM Bool := do
  modify fun group =>
    if timedOut && !work.exception then group.setException position work else group
  return work.exception || timedOut

def handleException (mode : ErrorHandlingMode) (carried : Err) : GroupM Unit :=
  if shouldTearDown mode then throw carried else pure ()

/-- `WorkECCL::isCompleted`. -/
def isCompleted (rt : VisitRuntime) (position : Nat) (work : WorkECCL) : GroupM Bool := do
  let exception ← checkAndSetException position work rt.ecclErrorCompleted
  if exception then
    return true
  else
    match rt.query with
    | .error error => throw error
    | .ok finished => return finished

/-- What the loop does about a work item that carries an exception. -/
def reactToException (rt : VisitRuntime) (mode : ErrorHandlingMode) (exception : Bool) :
    GroupM Unit :=
  if exception then do
    attempt (if shouldCleanUp mode then rt.workAbort else none)
    attempt (if shouldCleanUp mode then rt.abort else none)
    handleException mode rt.carried
  else
    pure ()

/-- The work item at a position leaves the list, for the hook where there is one. -/
def ProcessGroupECCL.retire (group : ProcessGroupECCL) (position : Nat) (work : WorkECCL) :
    ProcessGroupECCL :=
  { group with
    lastCompletedSeq := work.seq
    workMetaList := group.workMetaList.eraseIdx position
    completedWorkList :=
      if group.onCompletionHook then
        group.completedWorkList ++ group.workMetaList[position]?.toList
      else
        group.completedWorkList }

/-- The body of the loop over `workMetaList_`, up to the decrement: whether the work has
left the list. -/
def visitWork (rt : VisitRuntime) (position : Nat) (work : WorkECCL) : GroupM Bool := do
  let group ← get
  let exception ← checkWhen (!group.terminateProcessGroup) position work rt.ecclError
  let exception ← checkTimeout position { work with exception } rt.timedOut
  reactToException rt group.asyncErrorHandling exception
  let exception ←
    checkWhen group.desyncDebug position { work with exception } rt.ecclErrorStarted
  attempt (if group.desyncDebug then rt.logging else none)
  let completed ← isCompleted rt position { work with exception }
  modify fun group =>
    if completed then group.retire position work
    else { group with watchdog := .visiting (position + 1) }
  return completed

/-! ### The process -/

/-- How far a call is that has counted its work item. -/
inductive CallPhase where
  | counted
  /-- Has found `terminateProcessGroup_` unset and waits for the mutex. -/
  | admitted
  | enqueued
  | declined
  | discounted
deriving DecidableEq, Repr

structure Call where
  group : Nat
  counted : Counted
  phase : CallPhase := .counted

/-- Work that a call has in its hands. -/
def Call.holds (call : Call) : Nat :=
  match call.phase with
  | .counted | .admitted => 1
  | _ => 0

/-- The calls stay listed when they have returned; an instance that is destroyed keeps its
place. -/
structure Process where
  pendingEventQueries : Int := 0
  groups : List ProcessGroupECCL := []
  calls : List Call := []

abbrev ProcessM := EStateM Err Process

def incPendingEventQueries : ProcessM Unit :=
  modify fun p => { p with pendingEventQueries := p.pendingEventQueries + 1 }

def notPending : Err := .internalAssert
  "Attempted to decrement the number of outstanding events to be queried, but it was <= 0."

def decPendingEventQueries : ProcessM Unit := do
  if 0 < (← get).pendingEventQueries then
    modify fun p => { p with pendingEventQueries := p.pendingEventQueries - 1 }
  else
    throw notPending

namespace Process

def setGroup (p : Process) (i : Nat) (group : ProcessGroupECCL) : Process :=
  { p with groups := p.groups.set i group }

def setCall (p : Process) (c : Nat) (call : Call) : Process :=
  { p with calls := p.calls.set c call }

end Process

/-- A method of an instance. -/
def onGroup {α : Type} (i : Nat) (group : ProcessGroupECCL) (m : GroupM α) : ProcessM α :=
  zoom (fun _ => group) (fun group p => p.setGroup i group) m

/-- A call up to the point where its work item has been counted. -/
def issue (i : Nat) (group : ProcessGroupECCL) (m : GroupM (Option Counted)) : ProcessM Unit := do
  match ← onGroup i group m with
  | none => return
  | some counted =>
    incPendingEventQueries
    modify fun p => { p with calls := p.calls ++ [{ group := i, counted }] }

/-- `endCoalescing` resets the coalescing state as it returns. -/
def Counted.leave (counted : Counted) (group : ProcessGroupECCL) : ProcessGroupECCL :=
  if counted.coalesced then { group with coalescingState := {} } else group

/-- The work item of a call that does not enqueue it. -/
def discount (c : Nat) (call : Call) (group : ProcessGroupECCL) : ProcessM Unit := do
  decPendingEventQueries
  modify fun p => (p.setCall c { call with phase := .discounted }).setGroup call.group
    (call.counted.leave group)

/-- The test of `terminateProcessGroup_` in `workEnqueue`. -/
def workEnqueue (c : Nat) (call : Call) (group : ProcessGroupECCL) : ProcessM Unit :=
  if group.terminateProcessGroup then
    modify fun p => (p.setCall c { call with phase := .declined }).setGroup call.group
      (call.counted.leave group)
  else
    modify (·.setCall c { call with phase := .admitted })

/-- The section of `workEnqueue`. -/
def workEnqueueLocked (c : Nat) (call : Call) (group : ProcessGroupECCL) : ProcessM Unit :=
  modify fun p => (p.setCall c { call with phase := .enqueued }).setGroup call.group
    (call.counted.leave
      { group with
        workMetaList := group.workMetaList ++ [call.counted.work]
        lastEnqueuedSeq := call.counted.work.seq })

/-- The watchdog at one work item. -/
def visit (rt : VisitRuntime) (i : Nat) (group : ProcessGroupECCL) (position : Nat)
    (work : WorkECCL) : ProcessM Unit := do
  let left ← onGroup i group (visitWork rt position work)
  if left then
    decPendingEventQueries

/-- The state a call ends in. -/
def Process.after : EStateM.Result Err Process Unit → Process
  | .ok _ p => p
  | .error _ p => p

/-- An exception ends the watchdog, and lets the mutex go. -/
def Process.afterVisit (i : Nat) : EStateM.Result Err Process Unit → Process
  | .ok _ p => p
  | .error _ p =>
    match p.groups[i]? with
    | none => p
    | some group => p.setGroup i { group with watchdog := .exited }

inductive ProcessAction where
  | construct (blockingWait desyncDebug : Bool) (asyncErrorHandling : ErrorHandlingMode)
  | registerOnCompletionHook (i : Nat)
  | startCoalescing (i : Nat) (rt : CallRuntime)
  | collective (i : Nat) (rt : CallRuntime)
  | collectiveCoalesced (i : Nat) (rt : CallRuntime)
  | pointToPoint (i : Nat) (batchP2P : Bool) (rt : CallRuntime)
  | endCoalescing (i : Nat) (rt : CallRuntime)
  | discount (c : Nat)
  | workEnqueue (c : Nat)
  | workEnqueueLocked (c : Nat)
  | testLoop (i : Nat)
  | wake (i : Nat)
  | visit (i : Nat) (rt : VisitRuntime)
  | endPass (i : Nat)
  | shutdown (i : Nat)
  | destroy (i : Nat)

/-- The watchdog holds `workMetaListMutex_`. -/
def Watchdog.Holds : Watchdog → Prop
  | .visiting _ => True
  | _ => False

/-- Steps of the threads of one process. -/
inductive ProcessStep (p : Process) : ProcessAction → Process → Prop where
  | construct (blockingWait desyncDebug : Bool) (asyncErrorHandling : ErrorHandlingMode) :
      ProcessStep p (.construct blockingWait desyncDebug asyncErrorHandling)
        { p with
          groups := p.groups ++ [.construct blockingWait desyncDebug asyncErrorHandling] }
  | registerOnCompletionHook {i : Nat} {group : ProcessGroupECCL}
      (found : p.groups[i]? = some group) :
      ProcessStep p (.registerOnCompletionHook i)
        (p.setGroup i { group with onCompletionHook := true })
  | startCoalescing {i : Nat} {group : ProcessGroupECCL} (rt : CallRuntime)
      (found : p.groups[i]? = some group) (alive : group.destroyed = false) :
      ProcessStep p (.startCoalescing i rt)
        (.after ((onGroup i group (startCoalescing rt)).run p))
  | collective {i : Nat} {group : ProcessGroupECCL} (rt : CallRuntime)
      (found : p.groups[i]? = some group) (alive : group.destroyed = false) :
      ProcessStep p (.collective i rt) (.after ((issue i group (collective rt)).run p))
  | collectiveCoalesced {i : Nat} {group : ProcessGroupECCL} (rt : CallRuntime)
      (found : p.groups[i]? = some group) (alive : group.destroyed = false) :
      ProcessStep p (.collectiveCoalesced i rt)
        (.after ((issue i group (collectiveCoalesced rt)).run p))
  | pointToPoint {i : Nat} {group : ProcessGroupECCL} (batchP2P : Bool) (rt : CallRuntime)
      (found : p.groups[i]? = some group) (alive : group.destroyed = false) :
      ProcessStep p (.pointToPoint i batchP2P rt)
        (.after ((issue i group (pointToPoint batchP2P rt)).run p))
  | endCoalescing {i : Nat} {group : ProcessGroupECCL} (rt : CallRuntime)
      (found : p.groups[i]? = some group) (alive : group.destroyed = false) :
      ProcessStep p (.endCoalescing i rt) (.after ((issue i group (endCoalescing rt)).run p))
  | discount {c : Nat} {call : Call} {group : ProcessGroupECCL} (called : p.calls[c]? = some call)
      (found : p.groups[call.group]? = some group) (alive : group.destroyed = false)
      (phase : call.phase = .counted) (enqueue : call.counted.enqueue = false) :
      ProcessStep p (.discount c) (.after ((discount c call group).run p))
  | workEnqueue {c : Nat} {call : Call} {group : ProcessGroupECCL}
      (called : p.calls[c]? = some call) (found : p.groups[call.group]? = some group)
      (alive : group.destroyed = false) (phase : call.phase = .counted)
      (enqueue : call.counted.enqueue = true) :
      ProcessStep p (.workEnqueue c) (.after ((workEnqueue c call group).run p))
  | workEnqueueLocked {c : Nat} {call : Call} {group : ProcessGroupECCL}
      (called : p.calls[c]? = some call) (found : p.groups[call.group]? = some group)
      (alive : group.destroyed = false) (phase : call.phase = .admitted)
      (free : ¬ group.watchdog.Holds) :
      ProcessStep p (.workEnqueueLocked c) (.after ((workEnqueueLocked c call group).run p))
  | testLoop {i : Nat} {group : ProcessGroupECCL} {done : Bool}
      (found : p.groups[i]? = some group) (at_ : group.watchdog = .testing done) :
      ProcessStep p (.testLoop i) (p.setGroup i
        { group with
          watchdog := if !done || !group.terminateProcessGroup then .waiting else .exited })
  | wake {i : Nat} {group : ProcessGroupECCL} (found : p.groups[i]? = some group)
      (at_ : group.watchdog = .waiting) :
      ProcessStep p (.wake i) (p.setGroup i { group with watchdog := .visiting 0 })
  | visit {i : Nat} {group : ProcessGroupECCL} {position : Nat} {work : WorkECCL}
      (rt : VisitRuntime) (found : p.groups[i]? = some group) (alive : group.destroyed = false)
      (at_ : group.watchdog = .visiting position)
      (listed : group.workMetaList[position]? = some work) :
      ProcessStep p (.visit i rt) (.afterVisit i ((visit rt i group position work).run p))
  | endPass {i : Nat} {group : ProcessGroupECCL} {position : Nat}
      (found : p.groups[i]? = some group) (at_ : group.watchdog = .visiting position)
      (passed : group.workMetaList.length ≤ position) :
      ProcessStep p (.endPass i)
        (p.setGroup i { group with watchdog := .testing group.workMetaList.isEmpty })
  | shutdown {i : Nat} {group : ProcessGroupECCL} (found : p.groups[i]? = some group) :
      ProcessStep p (.shutdown i) (p.setGroup i { group with terminateProcessGroup := true })
  /-- The destructor has shut the instance down and joined the watchdog. -/
  | destroy {i : Nat} {group : ProcessGroupECCL} (found : p.groups[i]? = some group)
      (alive : group.destroyed = false) (terminated : group.terminateProcessGroup = true)
      (joined : group.watchdog = .exited)
      (idle : ∀ call ∈ p.calls, call.group = i → call.holds = 0) :
      ProcessStep p (.destroy i) (p.setGroup i { group with destroyed := true })

end TorchGcu.ProcessGroup

import Mathlib.Logic.Function.Basic

/-! The tree of the events of a profile: a replay of the stacks of all threads over the events in
the order of their start times. -/
namespace TorchGcu.EventTree

/-! ### Results -/

/-- `c10::time_t`. -/
abbrev Time := Int64

/-- `std::numeric_limits<c10::time_t>::min()`, which stands for a missing end. -/
def minTime : Time := Int64.minValue

/-- What is read of the fields of the types of events. -/
inductive ExtraFields where
  | torchOp (forwardTid : Nat) (endTimeNs : Time)
  | backend (endTimeUs : Time)
  | vulkan (durationNs : Time) (inTreeBuilding : Bool)
  | allocation
  | outOfMemory
  | pyCall (endTimeNs : Time)
  | pyCCall (endTimeNs : Time)
  | kineto (durationNs : Time)

/-- An event, with the positions of its parent and its children among the events. -/
structure Result where
  startTimeNs : Time
  startTid : Nat
  extraFields : ExtraFields
  parent : Option Nat := none
  children : List Nat := []
  finished : Bool := false

namespace Result

/-- The end that the fields of the event tell. -/
def endTime (r : Result) : Time :=
  match r.extraFields with
  | .torchOp _ endTimeNs => endTimeNs
  | .backend endTimeUs => endTimeUs * 1000
  | .vulkan durationNs inTreeBuilding => r.startTimeNs + if inTreeBuilding then 0 else durationNs
  | .allocation | .outOfMemory => r.startTimeNs
  | .pyCall endTimeNs | .pyCCall endTimeNs => endTimeNs
  | .kineto durationNs => r.startTimeNs + durationNs

def isTorchOp (r : Result) : Bool :=
  match r.extraFields with
  | .torchOp _ _ => true
  | _ => false

def isKineto (r : Result) : Bool :=
  match r.extraFields with
  | .kineto _ => true
  | _ => false

def forwardTid (r : Result) : Nat :=
  match r.extraFields with
  | .torchOp forwardTid _ => forwardTid
  | _ => 0

/-- A finished operator without an end, in `torchOpEndNS`. -/
def borrows (r : Result) : Bool := r.isTorchOp && r.finished && r.endTime == minTime

/-- An end of a finished event before its start fails a soft assertion, which only warns. -/
def validEnd (r : Result) (endTime : Time) : Time :=
  if !r.finished || r.startTimeNs ≤ endTime then endTime else r.startTimeNs

def setInTreeBuilding (value : Bool) (r : Result) : Result :=
  match r.extraFields with
  | .vulkan durationNs _ => { r with extraFields := .vulkan durationNs value }
  | _ => r

end Result

/-- Where the code stops. -/
inductive Failure where
  | finishedBefore | endsBeforeStart | hasParent | unfinishedChild
  /-- `stacks.at` has no frame. -/
  | noFrame
  | nullFrame
  /-- The fuel of the model is spent. -/
  | unfinished
deriving DecidableEq, Repr

/-- `endTimeNS`. The end of the parent is borrowed as its own `endTimeNS`. -/
def endTimeNS : Nat → (Nat → Result) → Nat → Except Failure Time
  | 0, _, _ => .error .unfinished
  | fuel + 1, results, event =>
    let r := results event
    match r.parent with
    | some parent =>
      if r.borrows then (endTimeNS fuel results parent).map r.validEnd
      else .ok (r.validEnd r.endTime)
    | none => .ok (r.validEnd r.endTime)

/-! ### The replay -/

structure State where
  results : Nat → Result
  /-- `stacks`: the last frame of a thread. -/
  stackOf : Nat → Option Nat
  /-- `end_events_`, in no order. -/
  endEvents : List Nat
  /-- The event that the loop is at. -/
  next : Nat
  /-- The events that were marked finished, one for each time. -/
  marks : List Nat
  building : Bool

namespace State

def setResult (s : State) (event : Nat) (r : Result) : State :=
  { s with results := Function.update s.results event r }

/-- `mark_finished`, without its assertions. -/
def mark (s : State) (event : Nat) : State :=
  { s.setResult event { s.results event with finished := true } with marks := s.marks ++ [event] }

def markFinished (fuel : Nat) (s : State) (event : Nat) : Except Failure State :=
  if (s.results event).finished then .error .finishedBefore
  else do
    let endTime ← endTimeNS fuel (s.mark event).results event
    if (s.results event).startTimeNs ≤ endTime then return s.mark event
    else throw .endsBeforeStart

/-- The frame of the thread of an event, or else of its forward thread. -/
def parentFrame (s : State) (event : Nat) : Option Nat :=
  let r := s.results event
  match s.stackOf r.startTid with
  | some frame => some frame
  | none => if r.forwardTid ≠ 0 then s.stackOf r.forwardTid else none

def attach (s : State) (event : Nat) : State :=
  match s.parentFrame event with
  | none => s
  | some parent =>
    let s := s.setResult event { s.results event with parent := some parent }
    s.setResult parent
      { s.results parent with children := (s.results parent).children ++ [event] }

def setFrame (s : State) (tid : Nat) (frame : Option Nat) : State :=
  { s with stackOf := Function.update s.stackOf tid frame }

/-- What is done with an event that has its parent. -/
def enter (fuel : Nat) (s : State) (event : Nat) : Except Failure State := do
  let r := s.results event
  let endTime ← endTimeNS fuel s.results event
  if endTime > r.startTimeNs then
    return { s.setFrame r.startTid (some event) with endEvents := event :: s.endEvents }
  else if endTime = minTime then return s.setFrame r.startTid (some event)
  else s.markFinished fuel event

/-- `push_event`. -/
def pushEvent (fuel : Nat) (s : State) (event : Nat) : Except Failure State :=
  let r := s.results event
  if r.isKineto && r.finished then .ok s
  else if r.parent.isSome then .error .hasParent
  else if r.children.any (fun child => !(s.results child).finished) then .error .unfinishedChild
  else if r.finished then .error .finishedBefore
  else (s.attach event).enter fuel event

/-- The frames above an event on its stack are finished first. -/
def unwind (fuel : Nat) : Nat → State → Nat → Nat → Except Failure State
  | 0, _, _, _ => .error .unfinished
  | steps + 1, s, frame, event =>
    if frame = event then .ok s
    else do
      let s ← s.markFinished fuel frame
      match (s.results frame).parent with
      | none => throw .nullFrame
      | some parent => unwind fuel steps s parent event

/-- `pop_event`. -/
def popEvent (fuel : Nat) (s : State) (event : Nat) : Except Failure State :=
  let r := s.results event
  if r.finished then .ok s
  else match s.stackOf r.startTid with
    | none => .error .noFrame
    | some frame => do
      let s ← unwind fuel fuel s frame event
      let s ← s.markFinished fuel event
      return s.setFrame r.startTid (s.results event).parent

/-- `ResultGreater`. -/
def resultGreater (fuel : Nat) (s : State) (a b : Nat) : Bool :=
  match endTimeNS fuel s.results a, endTimeNS fuel s.results b with
  | .ok endA, .ok endB => endA > endB
  | _, _ => false

/-- What `end_events_.top()` may be: of equal ends any one comes first. -/
def IsTop (fuel : Nat) (s : State) (event : Nat) : Prop :=
  event ∈ s.endEvents ∧ ∀ other ∈ s.endEvents, s.resultGreater fuel event other = false

def endsBefore (fuel : Nat) (s : State) (event : Nat) (time : Time) : Bool :=
  match endTimeNS fuel s.results event with
  | .ok endTime => endTime < time
  | .error _ => false

end State

/-- `set_in_tree_building`. -/
def setInTreeBuilding (count : Nat) (results : Nat → Result) (value : Bool) (event : Nat) : Result :=
  if event < count then (results event).setInTreeBuilding value else results event

/-- So much is needed to follow the parents of an event. -/
def enoughFuel (count : Nat) : Nat := count + 2

def begin (count : Nat) (results : Nat → Result) : State where
  results := setInTreeBuilding count results true
  stackOf := fun _ => none
  endEvents := []
  next := 0
  marks := []
  building := true

inductive Action where
  | pop (event : Nat)
  | push (event : Nat)
  | finish
deriving DecidableEq

/-- The loop takes this action: ends before the next event starts come first. -/
def Takes (count : Nat) (s : State) : Action → Prop
  | .pop event => s.building = true ∧ s.IsTop (enoughFuel count) event ∧
      (s.next < count →
        s.endsBefore (enoughFuel count) event (s.results s.next).startTimeNs = true)
  | .push event => s.building = true ∧ s.next < count ∧ event = s.next ∧
      ∀ top, s.IsTop (enoughFuel count) top →
        s.endsBefore (enoughFuel count) top (s.results event).startTimeNs = false
  | .finish => s.building = true ∧ s.next = count ∧ s.endEvents = []

def act (count : Nat) (s : State) : Action → Except Failure State
  | .pop event => (s.popEvent (enoughFuel count) event).map fun s =>
      { s with endEvents := s.endEvents.erase event }
  | .push event => (s.pushEvent (enoughFuel count) event).map fun s =>
      { s with next := event + 1 }
  | .finish =>
    .ok { s with results := setInTreeBuilding count s.results false, building := false }

/-- The runs of `build_tree` whose actions all meet a condition on the state before them. -/
inductive Run (count : Nat) (results : Nat → Result) (Meets : State → Action → Prop) :
    State → Prop where
  | begin : Run count results Meets (begin count results)
  | next {s s' : State} {action : Action} : Run count results Meets s → Takes count s action →
      Meets s action → act count s action = .ok s' → Run count results Meets s'

end TorchGcu.EventTree

import Mathlib.Algebra.Order.Ring.Int
import TorchGcu.Profiler.EventTree

/-! Durations that are widened to hold the children, and start times that are moved to line the
children up at the end of their parent. -/
namespace TorchGcu.EventTree

namespace Result

/-- `endTimeNS` of an event, with the end of its parent. -/
def endTimeNS (parentEnd : Option Time) (r : Result) : Time :=
  match parentEnd with
  | some parentEnd => if r.borrows then r.validEnd parentEnd else r.validEnd r.endTime
  | none => r.validEnd r.endTime

def isVulkan (r : Result) : Bool :=
  match r.extraFields with
  | .vulkan _ _ => true
  | _ => false

/-- The event with a new duration, in `adjust_durations_dfs`. -/
def setDuration (r : Result) (duration : Time) : Result :=
  match r.extraFields with
  | .torchOp forwardTid _ =>
    { r with extraFields := .torchOp forwardTid (r.startTimeNs + duration) }
  | .vulkan _ inTreeBuilding => { r with extraFields := .vulkan duration inTreeBuilding }
  | _ => r

/-- The event with a new start, in `adjust_timestamps_dfs`. -/
def setStart (r : Result) (newStartTime : Time) : Result :=
  if r.startTimeNs ≠ newStartTime then
    match r.extraFields with
    | .torchOp forwardTid endTimeNs =>
      { r with
        startTimeNs := newStartTime
        extraFields := .torchOp forwardTid (newStartTime + (endTimeNs - r.startTimeNs)) }
    | _ => { r with startTimeNs := newStartTime }
  else r

end Result

/-- An event with its children in the place of the links. -/
inductive Tree where
  | node (result : Result) (children : List Tree)

namespace Tree

def result : Tree → Result
  | .node result _ => result

def startTimeNs (tree : Tree) : Time := tree.result.startTimeNs

def endTimeNS (parentEnd : Option Time) (tree : Tree) : Time := tree.result.endTimeNS parentEnd

end Tree

mutual

/-- `adjust_durations_dfs`: the adjusted event and the duration that is returned. -/
def adjustDurationsDfs (parentEnd : Option Time) : Tree → Tree × Time
  | .node r children =>
    let endTime := r.endTimeNS parentEnd
    let originalDuration := endTime - r.startTimeNs
    let adjusted := adjustDurations (some endTime) 0 children
    let childrenTotalDuration := adjusted.2.toInt64
    if childrenTotalDuration > originalDuration then
      (.node (r.setDuration childrenTotalDuration) adjusted.1, childrenTotalDuration)
    else (.node r adjusted.1, originalDuration)

/-- The `std::accumulate` of it. The initial value `0` is an `int`, and so is the accumulator. -/
def adjustDurations (parentEnd : Option Time) (acc : Int32) : List Tree → List Tree × Int32
  | [] => ([], acc)
  | child :: children =>
    let adjusted := adjustDurationsDfs parentEnd child
    let rest := adjustDurations parentEnd (acc.toInt64 + adjusted.2).toInt32 children
    (adjusted.1 :: rest.1, rest.2)

end

/-- The `std::accumulate` of `adjust_timestamps_dfs`. -/
def childrenDuration (parentEnd : Option Time) (acc : Int32) : List Tree → Int32
  | [] => acc
  | child :: children =>
    childrenDuration parentEnd
      (acc.toInt64 + (child.endTimeNS parentEnd - child.startTimeNs)).toInt32 children

mutual

/-- `adjust_timestamps_dfs`, which returns the end of the event. -/
def adjustTimestampsDfs (parentEnd : Option Time) (newStartTime : Time) : Tree → Tree
  | .node r children =>
    let r := r.setStart newStartTime
    let endTime := r.endTimeNS parentEnd
    let childrenTotalDuration := childrenDuration (some endTime) 0 children
    .node r (adjustChildren (some endTime) (endTime - childrenTotalDuration.toInt64) children)

def adjustChildren (parentEnd : Option Time) (childStartTime : Time) : List Tree → List Tree
  | [] => []
  | child :: children =>
    let child := adjustTimestampsDfs parentEnd childStartTime child
    child :: adjustChildren parentEnd (child.endTimeNS parentEnd) children

end

/-- `adjust_timestamps` of the roots. At first `minStartTime` is the start of `out[0]`. -/
def adjustTimestamps (minStartTime : Time) : List Tree → List Tree
  | [] => []
  | root :: roots =>
    let root := (adjustDurationsDfs none root).1
    let start := if root.result.isVulkan then minTime else root.startTimeNs
    let root := adjustTimestampsDfs none (max start minStartTime) root
    root :: adjustTimestamps (root.endTimeNS none) roots

/-! ### What is promised -/

/-- The own duration of an event. -/
def Result.duration (r : Result) : Int :=
  match r.extraFields with
  | .torchOp _ endTimeNs => endTimeNs.toInt - r.startTimeNs.toInt
  | .vulkan durationNs _ => durationNs.toInt
  | _ => 0

/-- The interval of one event ends before the other one starts. -/
def Apart (parentEnd : Option Time) (a b : Tree) : Prop :=
  a.endTimeNS parentEnd ≤ b.startTimeNs ∨ b.endTimeNS parentEnd ≤ a.startTimeNs

mutual

/-- The intervals of the children lie in the one of their parent, and apart. -/
def Nests (parentEnd : Option Time) : Tree → Prop
  | .node r children =>
    children.Pairwise (Apart (some (r.endTimeNS parentEnd))) ∧
      NestsIn r.startTimeNs (r.endTimeNS parentEnd) children

def NestsIn (startTime endTime : Time) : List Tree → Prop
  | [] => True
  | child :: children =>
    (startTime ≤ child.startTimeNs ∧ child.endTimeNS (some endTime) ≤ endTime) ∧
      Nests (some endTime) child ∧ NestsIn startTime endTime children

end

mutual

/-- The second tree has the events of the first one, with durations that have not decreased. -/
def Keeps (parentEnd : Option Time) : Tree → Tree → Prop
  | .node r children, .node r' children' =>
    r.duration ≤ (r'.endTimeNS parentEnd).toInt - r'.startTimeNs.toInt ∧
      KeepsAll (some (r'.endTimeNS parentEnd)) children children'

def KeepsAll (parentEnd : Option Time) : List Tree → List Tree → Prop
  | [], [] => True
  | child :: children, child' :: children' =>
    Keeps parentEnd child child' ∧ KeepsAll parentEnd children children'
  | _, _ => False

end

/-- The comment of `adjust_timestamps`. -/
structure Adjusted (roots adjusted : List Tree) : Prop where
  nests : ∀ root ∈ adjusted, Nests none root
  apart : adjusted.Pairwise (Apart none)
  keeps : KeepsAll none roots adjusted

/-! ### When it holds -/

mutual

/-- The time that an event needs: its own duration, or the times that its children need. -/
def Tree.width : Tree → Int
  | .node r children => max r.duration (widths children)

def widths : List Tree → Int
  | [] => 0
  | child :: children => child.width + widths children

end

def Result.isAllocation (r : Result) : Bool :=
  match r.extraFields with
  | .allocation => true
  | _ => false

mutual

/-- The children of each event need less than 2³¹ ns together, those of an allocation none. -/
def Tree.Fits : Tree → Prop
  | .node r children =>
    widths children < 2 ^ 31 ∧ (r.isAllocation = true → widths children = 0) ∧ AllFit children

def AllFit : List Tree → Prop
  | [] => True
  | child :: children => child.Fits ∧ AllFit children

end

mutual

/-- The events of a tree. -/
def Tree.events : Tree → List Result
  | .node r children => r :: events children

def events : List Tree → List Result
  | [] => []
  | child :: children => child.events ++ events children

end

def total (results : List Result) : Int := (results.map Result.duration).sum

/-- An event of one of the three kinds, after `build_tree` and with a duration. -/
structure Timed (r : Result) : Prop where
  kind : r.isTorchOp = true ∨ r.isVulkan = true ∨ r.isAllocation = true
  built : r.setInTreeBuilding false = r
  duration : 0 ≤ r.duration
  start : -2 ^ 62 ≤ r.startTimeNs.toInt

/-- The events of a forest, with times that the adjusted times do not take out of `int64_t`. -/
structure Measured (roots : List Tree) : Prop where
  timed : ∀ event ∈ events roots, Timed event
  total : total (events roots) < 2 ^ 62
  room : ∀ event ∈ events roots,
    event.startTimeNs.toInt + EventTree.total (events roots) < 2 ^ 63 - 2 ^ 31

end TorchGcu.EventTree

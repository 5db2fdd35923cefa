import Mathlib.Data.List.SplitBy
import Mathlib.Data.Prod.Lex
import Mathlib.Order.OrderDual
import TorchGcu.Logic.StableSort

/-! The list of function events and the building of its tree. An event is named by its position in
the list; what the building writes into an event is apart from what it only reads. -/
namespace TorchGcu.EventList

/-- What the building reads of an event. -/
structure FunctionEvent (τ : Type) where
  name : String
  thread : Int
  nodeId : Int
  start : τ
  stop : τ
  isAsync : Bool
  /-- `device_type` is `DeviceType.CPU`. -/
  onCpu : Bool

structure Links (κ : Type) where
  kernels : List κ
  cpuChildren : List Nat
  cpuParent : Option Nat

abbrev Heap (κ : Type) := Nat → Links κ

variable {τ κ : Type} [LinearOrder τ] (events : Nat → FunctionEvent τ)

/-! ### `_populate_cpu_children` -/

def syncEvents (self : List Nat) : List Nat :=
  self.filter fun i => !(events i).isAsync && (events i).onCpu

def byThread (a b : Nat) : Prop := (events a).thread ≤ (events b).thread

instance : DecidableRel (byThread events) := fun _ _ => inferInstanceAs (Decidable (_ ≤ _))

def threadNode (i : Nat) : Int × Int := ((events i).thread, (events i).nodeId)

/-- `groupby`, which begins a group wherever the key changes. -/
def threadGroups (self : List Nat) : List (List Nat) :=
  ((syncEvents events self).insertionSort (byThread events)).splitBy fun a b =>
    threadNode events a == threadNode events b

/-- `[start, -end]`. -/
def timeKey (i : Nat) : τ ×ₗ τᵒᵈ := toLex ((events i).start, OrderDual.toDual (events i).stop)

def byTime (a b : Nat) : Prop := timeKey events a ≤ timeKey events b

instance : DecidableRel (byTime events) := fun _ _ => inferInstanceAs (Decidable (_ ≤ _))

def appendCpuChild (heap : Heap κ) (parent child : Nat) : Except String (Heap κ) :=
  if (events parent).onCpu && (events child).onCpu then
    .ok (Function.update heap parent
      { heap parent with cpuChildren := (heap parent).cpuChildren ++ [child] })
  else .error "AssertionError"

def setCpuParent (heap : Heap κ) (event parent : Nat) : Except String (Heap κ) :=
  if (events event).onCpu && (events parent).onCpu then
    .ok (Function.update heap event { heap event with cpuParent := some parent })
  else .error "AssertionError"

/-- The stack of current parents has its top first. -/
def attach (heap : Heap κ) (event : Nat) : List Nat → Except String (Heap κ × List Nat)
  | [] => .ok (heap, [event])
  | parent :: current =>
    if (events event).start ≥ (events parent).stop ∨ (events event).stop > (events parent).stop then
      attach heap event current
    else do
      let heap ← appendCpuChild events heap parent event
      if (heap event).cpuParent.isSome then
        .error "There is already a CPU parent event for "
      else
        let heap ← setCpuParent events heap event parent
        return (heap, event :: parent :: current)

def attachAll (heap : Heap κ) (current : List Nat) : List Nat → Except String (Heap κ)
  | [] => .ok heap
  | event :: rest => do
    let (heap, current) ← attach events heap event current
    attachAll heap current rest

def populateCpuChildren (heap : Heap κ) (self : List Nat) : Except String (Heap κ) :=
  (threadGroups events self).foldlM
    (fun heap group => attachAll events heap [] (group.insertionSort (byTime events))) heap

/-! ### `_remove_dup_nodes` -/

/-- The only child of an event of its own name. -/
def isDup (heap : Heap κ) (event : Nat) : Bool :=
  match (heap event).cpuParent with
  | none => false
  | some parent =>
    (events parent).name = (events event).name && (heap parent).cpuChildren.length = 1

/-- The parent takes over the children and the kernels. -/
def liftUp (heap : Heap κ) (event : Nat) : Heap κ :=
  match (heap event).cpuParent with
  | none => heap
  | some parent =>
    let lifted := Function.update heap parent
      { heap parent with
        cpuChildren := (heap event).cpuChildren
        kernels := (heap event).kernels }
    (heap event).cpuChildren.foldl
      (fun heap child => Function.update heap child { heap child with cpuParent := some parent })
      lifted

/-- One pass over the list, with what it is to delete. -/
def removePass (heap : Heap κ) : List Nat → Heap κ × List Nat
  | [] => (heap, [])
  | event :: rest =>
    if isDup events heap event then
      let (heap, toDelete) := removePass (liftUp heap event) rest
      (heap, event :: toDelete)
    else removePass heap rest

/-- The passes, none when the fuel does not reach a pass that deletes nothing. -/
def removeDupNodes : Nat → Heap κ → List Nat → Option (Heap κ × List Nat)
  | 0, _, _ => none
  | fuel + 1, heap, self =>
    let (heap, toDelete) := removePass events heap self
    if toDelete.length = 0 then some (heap, self)
    else removeDupNodes fuel heap (self.filter fun event => event ∉ toDelete)

end TorchGcu.EventList

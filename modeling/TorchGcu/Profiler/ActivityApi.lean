import Mathlib.Data.List.Sort
import Mathlib.Logic.Function.Basic

/-! The trace buffers of `TopsptiActivityApi`. The tracing library asks for buffers and
completes them on threads of its own, between the sections in which `activityBuffers` and
`clearActivities` hold the mutex. The n-th buffer asked for is named n. -/
namespace TorchGcu.TopsptiActivityApi

abbrev Ptr := Nat
abbrev BufferId := Nat
/-- `Topspti_Activity`, whose contents only the library knows. -/
abbrev Record := Nat

/-- `TopsptiActivityBuffer`; the records are those the library has written into it. -/
structure Buffer where
  id : BufferId
  size : Nat
  records : List Record := []
deriving DecidableEq, Repr

/-- `TopsptiActivityBufferMap`. -/
abbrev BufferMap := List (Ptr × Buffer)

def kBufSize : Nat := 4 * 1024 * 1024

/-- What the two operations and the library have done, newest first. -/
inductive Event where
  | completed (buffer : Buffer)
  | handedOver (buffers : Option BufferMap)
  | cleared (buffers : Option BufferMap)
deriving DecidableEq, Repr

/-- Where a thread is between two sections. A forced flush waits for the buffers that
were outstanding when it began. -/
inductive Phase where
  | idle
  | flushing (awaited : List (Ptr × BufferId))
  | taking
  | flushingToClear
  | clearing
deriving DecidableEq, Repr

/-- A forced flush has completed what was outstanding. -/
def Phase.Flushed (outstanding : List (Ptr × BufferId)) : Phase → Prop
  | .flushing awaited => ∀ buffer ∈ awaited, buffer ∉ outstanding
  | _ => False

instance (outstanding : List (Ptr × BufferId)) (phase : Phase) :
    Decidable (phase.Flushed outstanding) := by
  cases phase <;> unfold Phase.Flushed <;> infer_instance

/-- The members of the class, the buffers that the library has not completed yet, the
addresses of those that the callers still own, and the history. -/
structure Api where
  maxGcuBufferCount : Int := 0
  allocatedGcuTraceBuffers : BufferMap := []
  readyGcuTraceBuffers : Option BufferMap := none
  stopCollection : Bool := false
  nextBuffer : BufferId := 0
  outstanding : List (Ptr × BufferId) := []
  callers : List Ptr := []
  threads : Nat → Phase := fun _ => .idle
  history : List Event := []

namespace Api

/-- The addresses at which a buffer lives. -/
def used (api : Api) : List Ptr :=
  api.allocatedGcuTraceBuffers.map (·.1) ++ (api.readyGcuTraceBuffers.getD []).map (·.1) ++
    api.callers

def setPhase (api : Api) (thread : Nat) (phase : Phase) : Api :=
  { api with threads := Function.update api.threads thread phase }

/-- The number of buffers is compared with the limit as a `size_t`. -/
def bufferRequested (api : Api) (ptr : Ptr) : Api :=
  { api with
    stopCollection := api.stopCollection ||
      decide (api.maxGcuBufferCount % 18446744073709551616 ≤ api.allocatedGcuTraceBuffers.length)
    allocatedGcuTraceBuffers :=
      (ptr, { id := api.nextBuffer, size := kBufSize }) ::
        api.allocatedGcuTraceBuffers.filter (·.1 ≠ ptr)
    nextBuffer := api.nextBuffer + 1
    outstanding := (ptr, api.nextBuffer) :: api.outstanding }

/-- An unknown buffer is only logged. -/
def bufferCompleted (api : Api) (ptr : Ptr) (validSize : Nat) (records : List Record) : Api :=
  let api := { api with outstanding := api.outstanding.filter (·.1 ≠ ptr) }
  match api.allocatedGcuTraceBuffers.find? (·.1 = ptr) with
  | none => api
  | some entry =>
    let buffer := { entry.2 with size := validSize, records := records }
    { api with
      readyGcuTraceBuffers :=
        some ((ptr, buffer) :: (api.readyGcuTraceBuffers.getD []).filter (·.1 ≠ ptr))
      allocatedGcuTraceBuffers := api.allocatedGcuTraceBuffers.filter (·.1 ≠ ptr)
      history := .completed buffer :: api.history }

/-- `activityBuffers` up to the flush: without allocated buffers it returns null. -/
def activityBuffersBegin (api : Api) (thread : Nat) : Api :=
  if api.allocatedGcuTraceBuffers.isEmpty then
    { api with history := .handedOver none :: api.history }
  else api.setPhase thread (.flushing api.outstanding)

/-- Ownership of the buffers goes to the caller. -/
def activityBuffersEnd (api : Api) (thread : Nat) : Api :=
  { api.setPhase thread .idle with
    readyGcuTraceBuffers := none
    callers := (api.readyGcuTraceBuffers.getD []).map (·.1) ++ api.callers
    history := .handedOver api.readyGcuTraceBuffers :: api.history }

/-- `clearActivities` up to the flush, which is not forced. -/
def clearActivitiesBegin (api : Api) (thread : Nat) : Api :=
  if api.allocatedGcuTraceBuffers.isEmpty then
    { api with history := .cleared none :: api.history }
  else api.setPhase thread .flushingToClear

/-- Throws away the ready buffers. -/
def clearActivitiesEnd (api : Api) (thread : Nat) : Api :=
  { api.setPhase thread .idle with
    readyGcuTraceBuffers := none
    history := .cleared api.readyGcuTraceBuffers :: api.history }

end Api

def processActivitiesForBuffer (buffer : Buffer) : List Record :=
  if buffer.size = 0 then [] else buffer.records

/-- The records that the handler is given, in the order of the map. -/
def processActivities (buffers : BufferMap) : List Record :=
  (buffers.insertionSort fun a b => a.1 ≤ b.1).flatMap fun entry =>
    processActivitiesForBuffer entry.2

/-- One section of a thread, or one of the library. -/
inductive Action where
  | bufferRequested (ptr : Ptr)
  | bufferCompleted (ptr : Ptr) (validSize : Nat) (records : List Record)
  | activityBuffersBegin (thread : Nat)
  | flushed (thread : Nat)
  | activityBuffersEnd (thread : Nat)
  | clearActivitiesBegin (thread : Nat)
  | flushedToClear (thread : Nat)
  | clearActivitiesEnd (thread : Nat)
  | destroyed (ptr : Ptr)
deriving DecidableEq, Repr

/-- When an action can take place. A new buffer lies where no other one does, the library
completes a buffer it was given, once, and it does not write past a buffer's end or into
one it completes as empty; a forced flush returns when it has completed the buffers that
were outstanding. -/
def Api.Enabled (api : Api) : Action → Prop
  | .bufferRequested ptr => ptr ∉ api.used
  | .bufferCompleted ptr validSize records =>
    ptr ∈ api.outstanding.map (·.1) ∧ validSize ≤ kBufSize ∧ (validSize = 0 → records = [])
  | .activityBuffersBegin thread => api.threads thread = .idle
  | .flushed thread => (api.threads thread).Flushed api.outstanding
  | .activityBuffersEnd thread => api.threads thread = .taking
  | .clearActivitiesBegin thread => api.threads thread = .idle
  | .flushedToClear thread => api.threads thread = .flushingToClear
  | .clearActivitiesEnd thread => api.threads thread = .clearing
  | .destroyed ptr => ptr ∈ api.callers

instance (api : Api) (action : Action) : Decidable (api.Enabled action) := by
  cases action <;> unfold Api.Enabled <;> infer_instance

def Api.next (api : Api) : Action → Api
  | .bufferRequested ptr => api.bufferRequested ptr
  | .bufferCompleted ptr validSize records => api.bufferCompleted ptr validSize records
  | .activityBuffersBegin thread => api.activityBuffersBegin thread
  | .flushed thread => api.setPhase thread .taking
  | .activityBuffersEnd thread => api.activityBuffersEnd thread
  | .clearActivitiesBegin thread => api.clearActivitiesBegin thread
  | .flushedToClear thread => api.setPhase thread .clearing
  | .clearActivitiesEnd thread => api.clearActivitiesEnd thread
  | .destroyed ptr => { api with callers := api.callers.filter (· ≠ ptr) }

/-- One action of any interleaving. -/
def ApiStep (api : Api) (action : Action) (api' : Api) : Prop :=
  api.Enabled action ∧ api' = api.next action

end TorchGcu.TopsptiActivityApi

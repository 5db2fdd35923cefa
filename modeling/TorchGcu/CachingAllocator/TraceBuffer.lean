import TorchGcu.CachingAllocator.State
import Mathlib.Data.List.Rotate
import Mathlib.Data.List.Infix

/-! The trace of a `DeviceCachingAllocator`: the newest entries in a buffer that is used as a ring
once it holds as many as the limit allows. -/
namespace TorchGcu.GCUCachingAllocator

/-- Two pointers that the trace only carries: a gathered context, and a recorder of contexts. -/
abbrev ContextId := Nat
abbrev CreateContextFn := Nat

inductive RecordContext where
  | never
  | state
  | alloc
  | all
deriving DecidableEq, Repr

def RecordContext.toNat : RecordContext → Nat
  | .never => 0
  | .state => 1
  | .alloc => 2
  | .all => 3

inductive TraceAction where
  | alloc
  | freeRequested
  | freeCompleted
  | segmentAlloc
  | segmentFree
  | segmentMap
  | segmentUnmap
  | snapshot
  | oom
deriving DecidableEq, Repr

/-- `time` is a count of ticks in the buffer, and in what `trace` returns a time. -/
structure TraceEntry where
  action : TraceAction
  device : DeviceIndex
  addr : Int
  context : Option ContextId
  stream : StreamId
  size : Int
  time : Int
deriving DecidableEq, Repr

def TraceEntry.at (entry : TraceEntry) (tscToUs : Int → Int) : TraceEntry :=
  { entry with time := tscToUs entry.time }

/-- The arguments of `record_trace`, and the time that it reads. -/
structure TraceCall where
  action : TraceAction
  addr : Int
  size : UInt64
  stream : StreamId
  device : DeviceIndex
  context : Option ContextId
  approximateTime : Int
deriving DecidableEq, Repr

/-- The members of the allocator that the trace uses. -/
structure TraceBuffer where
  recordHistory : Bool := false
  contextRecorder : Option CreateContextFn := none
  allocTraceNext : Nat := 0
  recordContext : RecordContext := .never
  allocTraceMaxEntries : Nat := 1
  allocTrace : List TraceEntry := []
  /-- `trace_trackers_.size()`. -/
  traceTrackers : Nat := 0
deriving DecidableEq, Repr

namespace TraceBuffer

def setHistory (t : TraceBuffer) (enabled : Bool) (contextRecorder : Option CreateContextFn)
    (allocTraceMaxEntries : Nat) (when : RecordContext) : Except Err TraceBuffer :=
  if when ≠ .never ∧ contextRecorder = none then
    .error (.torchCheck "when == RecordContext::NEVER || context_recorder")
  else
    let t :=
      { t with
        recordHistory := enabled
        contextRecorder := if enabled then contextRecorder else none
        allocTraceMaxEntries := max 1 allocTraceMaxEntries
        recordContext := if enabled then when else .never }
    if enabled then .ok t
    else .ok { t with allocTraceNext := 0, allocTrace := [] }

/-- The entry of a call: it has a context only if traces are to have one, and its size is signed. -/
def entryOf (t : TraceBuffer) (call : TraceCall) : TraceEntry where
  action := call.action
  device := call.device
  addr := call.addr
  context := if RecordContext.alloc.toNat ≤ t.recordContext.toNat then call.context else none
  stream := call.stream
  size := call.size.toInt64.toInt
  time := call.approximateTime

/-- `record_trace`. There is no result when an entry would be written behind the end. -/
def recordTrace (t : TraceBuffer) (call : TraceCall) : Option TraceBuffer :=
  if !t.recordHistory && t.traceTrackers == 0 then some t
  else
    let te := t.entryOf call
    if t.recordHistory then
      if t.allocTrace.length < t.allocTraceMaxEntries then
        some { t with allocTrace := t.allocTrace ++ [te] }
      else if t.allocTraceNext < t.allocTrace.length then
        let next := t.allocTraceNext + 1
        some
          { t with
            allocTrace := t.allocTrace.set t.allocTraceNext te
            allocTraceNext := if next = t.allocTraceMaxEntries then 0 else next }
      else none
    else some t

def attachAllocatorTraceTracker (t : TraceBuffer) : TraceBuffer :=
  { t with traceTrackers := t.traceTrackers + 1 }

def trace (t : TraceBuffer) (tscToUs : Int → Int) : List TraceEntry :=
  (t.allocTrace.drop t.allocTraceNext ++ t.allocTrace.take t.allocTraceNext).map (·.at tscToUs)

end TraceBuffer

/-! ### Runs -/

inductive TraceEvent where
  | recordHistory (enabled : Bool) (contextRecorder : Option CreateContextFn)
      (allocTraceMaxEntries : Nat) (when : RecordContext)
  | recordTrace (call : TraceCall)
  | attachTracker

/-- The buffer with what has been recorded since history was switched on, oldest first, and how
much of it since the limit last changed. -/
structure Traced where
  buffer : TraceBuffer := {}
  recorded : List TraceEntry := []
  sinceLimit : Nat := 0

namespace Traced

/-- What a successful `recordHistory` makes of the history. -/
def historySet (s : Traced) (buffer : TraceBuffer) : Traced :=
  if s.buffer.recordHistory ∧ buffer.recordHistory then
    { s with
      buffer
      sinceLimit :=
        if buffer.allocTraceMaxEntries = s.buffer.allocTraceMaxEntries then s.sinceLimit else 0 }
  else { buffer }

/-- An event. There is no state after a write behind the end. -/
def step (s : Traced) : TraceEvent → Option Traced
  | .recordHistory enabled contextRecorder allocTraceMaxEntries when =>
    match s.buffer.setHistory enabled contextRecorder allocTraceMaxEntries when with
    | .error _ => some s
    | .ok buffer => some (s.historySet buffer)
  | .recordTrace call =>
    (s.buffer.recordTrace call).map fun buffer =>
      if s.buffer.recordHistory then
        { buffer
          recorded := s.recorded ++ [s.buffer.entryOf call]
          sinceLimit := s.sinceLimit + 1 }
      else { s with buffer }
  | .attachTracker => some { s with buffer := s.buffer.attachAllocatorTraceTracker }

def run (s : Traced) : List TraceEvent → Option Traced
  | [] => some s
  | event :: events => (s.step event).bind fun t => t.run events

/-- `trace` shows the newest entries in order, at most as many as the limit allows, and no fewer
than have been recorded under this limit if there is room for them. -/
structure Sound (s : Traced) : Prop where
  next : s.buffer.allocTraceNext ≤ s.buffer.allocTrace.length
  newest : ∃ shown, shown <:+ s.recorded ∧
    (∀ tscToUs, s.buffer.trace tscToUs = shown.map (·.at tscToUs)) ∧
    shown.length ≤ s.buffer.allocTraceMaxEntries ∧
    min s.sinceLimit s.buffer.allocTraceMaxEntries ≤ shown.length

/-- The condition on an event: the limit is not set below the number of entries kept, and nothing
is added to a ring that has wrapped. -/
def Meets (s : Traced) : TraceEvent → Prop
  | .recordHistory enabled _ allocTraceMaxEntries _ =>
    enabled = true → s.buffer.allocTrace.length ≤ max 1 allocTraceMaxEntries
  | .recordTrace _ =>
    s.buffer.recordHistory = true → s.buffer.allocTrace.length < s.buffer.allocTraceMaxEntries →
      s.buffer.allocTraceNext = 0
  | .attachTracker => True

/-- Every event of a run meets the condition when it happens. -/
def AllMeet : Traced → List TraceEvent → Prop
  | _, [] => True
  | s, event :: events => s.Meets event ∧
    match s.step event with
    | none => True
    | some t => t.AllMeet events

/-! ### The ring -/

/-- Writing over the oldest element of a ring and going on behind it. -/
theorem rotate_set {α : Type} {cells : List α} {next : Nat} (bound : next < cells.length)
    (element : α) : (cells.set next element).rotate (next + 1) =
      (cells.rotate next).tail ++ [element] := by
  have length : next + 1 ≤ (cells.set next element).length := by
    rw [List.length_set]
    exact bound
  have kept : (cells.set next element).take (next + 1) = cells.take next ++ [element] := by
    rw [List.take_succ_eq_append_getElem ((List.length_set ..).symm ▸ bound), List.getElem_set_self,
      List.take_set_of_le le_rfl]
  rw [List.rotate_eq_drop_append_take length, List.rotate_eq_drop_append_take bound.le, kept,
    List.drop_set_of_lt (Nat.lt_succ_self next), List.drop_eq_getElem_cons bound,
    List.cons_append, List.tail_cons, List.append_assoc]

theorem suffix_concat {α : Type} {kept recorded : List α} (newest : kept <:+ recorded)
    (element : α) : kept ++ [element] <:+ recorded ++ [element] := by
  obtain ⟨before, rfl⟩ := newest
  exact ⟨before, (List.append_assoc ..).symm⟩

/-- What every event keeps. The entries are kept from the index on, and then from the start. -/
structure Kept (s : Traced) : Prop where
  off : s.buffer.recordHistory = false → s.buffer.allocTrace = [] ∧ s.buffer.allocTraceNext = 0
  limit : 0 < s.buffer.allocTraceMaxEntries
  room : s.buffer.allocTrace.length ≤ s.buffer.allocTraceMaxEntries
  next : s.buffer.allocTraceNext = 0 ∨ s.buffer.allocTraceNext < s.buffer.allocTrace.length
  newest : s.buffer.allocTrace.rotate s.buffer.allocTraceNext <:+ s.recorded
  enough : min s.sinceLimit s.buffer.allocTraceMaxEntries ≤ s.buffer.allocTrace.length

theorem Kept.sound {s : Traced} (kept : s.Kept) : s.Sound := by
  have next : s.buffer.allocTraceNext ≤ s.buffer.allocTrace.length := by
    rcases kept.next with zero | inside <;> omega
  refine ⟨next, s.buffer.allocTrace.rotate s.buffer.allocTraceNext, kept.newest, fun tscToUs => ?_,
    ?_, ?_⟩
  · rw [TraceBuffer.trace, List.rotate_eq_drop_append_take next]
  · simpa using kept.room
  · simpa using kept.enough

theorem kept_initial : Kept {} := by
  constructor <;> simp

theorem Kept.setHistory {s : Traced} {enabled : Bool} {contextRecorder : Option CreateContextFn}
    {allocTraceMaxEntries : Nat} {when : RecordContext} {buffer : TraceBuffer} (kept : s.Kept)
    (meets : enabled = true → s.buffer.allocTrace.length ≤ max 1 allocTraceMaxEntries)
    (done : s.buffer.setHistory enabled contextRecorder allocTraceMaxEntries when = .ok buffer) :
    (s.historySet buffer).Kept := by
  simp only [TraceBuffer.setHistory] at done
  split at done
  · cases done
  cases enabled with
  | false =>
    simp only [Bool.false_eq_true, if_false, Except.ok.injEq] at done
    subst done
    constructor <;> simp [historySet]
  | true =>
    have room := meets rfl
    simp only [if_true, Except.ok.injEq] at done
    subst done
    by_cases before : s.buffer.recordHistory = true
    · simp only [historySet, before, and_self, if_true]
      refine ⟨by simp, by simp, room, kept.next, kept.newest, ?_⟩
      have enough := kept.enough
      split <;> simp_all
    · obtain ⟨empty, zero⟩ := kept.off (Bool.eq_false_iff.mpr before)
      constructor <;> simp [historySet, before, empty, zero]

theorem step_recordTrace {s : Traced} {call : TraceCall} {buffer : TraceBuffer}
    (history : s.buffer.recordHistory = true) (done : s.buffer.recordTrace call = some buffer) :
    s.step (.recordTrace call) = some
      ⟨buffer, s.recorded ++ [s.buffer.entryOf call], s.sinceLimit + 1⟩ := by
  simp only [step, done, Option.map_some, history, if_true]

theorem Kept.recordTrace {s : Traced} {call : TraceCall} (kept : s.Kept)
    (meets : s.Meets (.recordTrace call)) : ∃ t, s.step (.recordTrace call) = some t ∧ t.Kept := by
  cases history : s.buffer.recordHistory with
  | false =>
    have unchanged : s.buffer.recordTrace call = some s.buffer := by
      simp [TraceBuffer.recordTrace, history]
    exact ⟨s, by simp [step, unchanged, history], kept⟩
  | true =>
    by_cases room : s.buffer.allocTrace.length < s.buffer.allocTraceMaxEntries
    · -- There is room: the ring has not wrapped, and the entry is added at the end.
      have zero := meets history room
      have added : s.buffer.recordTrace call =
          some { s.buffer with allocTrace := s.buffer.allocTrace ++ [s.buffer.entryOf call] } := by
        simp [TraceBuffer.recordTrace, history, room]
      refine ⟨_, step_recordTrace history added, ?_⟩
      have enough := kept.enough
      have newest := suffix_concat kept.newest (s.buffer.entryOf call)
      rw [zero, List.rotate_zero] at newest
      constructor
      · simp [history]
      · exact kept.limit
      · rw [List.length_append]
        exact room
      · exact .inl zero
      · simpa [zero] using newest
      · simp
        omega
    · -- The ring is full: the entry goes over the oldest one.
      have full : s.buffer.allocTrace.length = s.buffer.allocTraceMaxEntries :=
        Nat.le_antisymm kept.room (Nat.le_of_not_lt room)
      have inside : s.buffer.allocTraceNext < s.buffer.allocTrace.length := by
        have limit := kept.limit
        rcases kept.next with zero | inside <;> omega
      have overwritten : s.buffer.recordTrace call = some
          { s.buffer with
            allocTrace := s.buffer.allocTrace.set s.buffer.allocTraceNext (s.buffer.entryOf call)
            allocTraceNext :=
              if s.buffer.allocTraceNext + 1 = s.buffer.allocTraceMaxEntries then 0
              else s.buffer.allocTraceNext + 1 } := by
        simp [TraceBuffer.recordTrace, history, room, inside]
      refine ⟨_, step_recordTrace history overwritten, ?_⟩
      have rotated := rotate_set inside (s.buffer.entryOf call)
      have newest := suffix_concat ((List.tail_suffix _).trans kept.newest) (s.buffer.entryOf call)
      rw [← rotated] at newest
      constructor
      · simp [history]
      · exact kept.limit
      · simpa using kept.room
      · simp only [List.length_set]
        split <;> omega
      · simp only
        split
        · next wrapped =>
          -- The index wraps, which does not move the start of the ring.
          rw [wrapped, ← full, ← List.length_set (a := s.buffer.entryOf call), List.rotate_length] at newest
          rwa [List.rotate_zero]
        · exact newest
      · simp only [List.length_set]
        omega

theorem Kept.step {s : Traced} {event : TraceEvent} (kept : s.Kept) (meets : s.Meets event) :
    ∃ t, s.step event = some t ∧ t.Kept := by
  cases event with
  | recordHistory enabled contextRecorder allocTraceMaxEntries when =>
    cases done : s.buffer.setHistory enabled contextRecorder allocTraceMaxEntries when with
    | error error => exact ⟨s, by simp only [Traced.step, done], kept⟩
    | ok buffer =>
      exact ⟨s.historySet buffer, by simp only [Traced.step, done], kept.setHistory meets done⟩
  | recordTrace call => exact kept.recordTrace meets
  | attachTracker =>
    exact ⟨_, rfl, kept.off, kept.limit, kept.room, kept.next, kept.newest, kept.enough⟩

/-- As long as the limit is not set below the number of entries kept, and a ring that has wrapped
does not grow, every entry is written in bounds and `trace` shows the newest entries in order. -/
theorem newest_entries_in_order (events : List TraceEvent) (meets : AllMeet {} events) :
    ∃ s, run {} events = some s ∧ s.Sound := by
  suffices general : ∀ s : Traced, s.Kept → s.AllMeet events → ∃ t, s.run events = some t ∧ t.Kept by
    obtain ⟨s, ran, kept⟩ := general {} kept_initial meets
    exact ⟨s, ran, kept.sound⟩
  clear meets
  induction events with
  | nil => exact fun s kept _ => ⟨s, rfl, kept⟩
  | cons event events ih =>
    intro s kept meets
    obtain ⟨here, later⟩ := meets
    obtain ⟨t, stepped, keptT⟩ := kept.step here
    rw [stepped] at later
    obtain ⟨u, ran, keptU⟩ := ih t keptT later
    exact ⟨u, by rw [run, stepped, Option.bind_some, ran], keptU⟩

def callAt (time : Int) : TraceEvent := .recordTrace ⟨.alloc, 0, 512, 0, 0, none, time⟩

/-- A full ring, a larger limit once the index is back at the start, and a smaller one later. -/
theorem newest_entries_in_order_resized : ∃ s,
    run {} [.recordHistory true none 2 .never, callAt 0, callAt 1, callAt 2, callAt 3,
      .recordHistory true none 4 .never, callAt 4, .recordHistory true none 3 .never, callAt 5] =
      some s ∧ s.Sound := by
  have full : ¬ 2 < 2 := Nat.lt_irrefl 2
  refine newest_entries_in_order _ ⟨fun _ => by decide, fun _ _ => rfl, fun _ _ => rfl,
    fun _ _ => rfl, fun _ room => absurd room full, fun _ => by decide, fun _ _ => rfl,
    fun _ => by decide, fun _ _ => rfl, trivial⟩

/-- A limit below the number of entries kept: the index passes the limit, and the entry after the
last one is written. -/
theorem shrunk_limit_out_of_bounds : ¬ ∃ s,
    run {} [.recordHistory true none 3 .never, callAt 0, callAt 1, callAt 2, callAt 3, callAt 4,
      .recordHistory true none 1 .never, callAt 5, callAt 6] = some s ∧ s.Sound := by
  rintro ⟨s, ran, -⟩
  have fault : run {} [.recordHistory true none 3 .never, callAt 0, callAt 1, callAt 2, callAt 3,
    callAt 4, .recordHistory true none 1 .never, callAt 5, callAt 6] = none := by decide
  rw [fault] at ran
  cases ran

-- A ring that has wrapped and then grows shows the entry with time 3 before the one with time 2.
example : (run {} [.recordHistory true none 2 .never, callAt 0, callAt 1, callAt 2,
    .recordHistory true none 3 .never, callAt 3]).map (fun s => (s.buffer.trace id).map (·.time)) =
      some [1, 3, 2] := by decide

end Traced
end TorchGcu.GCUCachingAllocator

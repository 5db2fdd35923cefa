import TorchGcu.Logic.Runs
import TorchGcu.Profiler.ActivityApi

/-! Where the trace buffers go. A buffer is allocated, ready, handed to the caller of
`activityBuffers` or discarded by `clearActivities`; and what is handed over or discarded
at once is what has been completed since the last time. -/
namespace TorchGcu.TopsptiActivityApi
open ProgramLogic

/-- The buffers that an operation has given to its caller. -/
def Event.handed : Event → List Buffer
  | .handedOver buffers => (buffers.getD []).map (·.2)
  | _ => []

/-- The buffers that an operation has thrown away. -/
def Event.discarded : Event → List Buffer
  | .cleared buffers => (buffers.getD []).map (·.2)
  | _ => []

namespace Api

def allocated (api : Api) : List Buffer := api.allocatedGcuTraceBuffers.map (·.2)

def ready (api : Api) : List Buffer := (api.readyGcuTraceBuffers.getD []).map (·.2)

def handed (api : Api) : List Buffer := api.history.flatMap Event.handed

def discarded (api : Api) : List Buffer := api.history.flatMap Event.discarded

/-- How many of the four places a buffer is in. -/
def places (api : Api) (id : BufferId) : Nat :=
  api.allocated.countP (·.id = id) + api.ready.countP (·.id = id) +
    api.handed.countP (·.id = id) + api.discarded.countP (·.id = id)

end Api

/-- The buffers completed since the last hand-over or clear. -/
def completedSince : List Event → List Buffer
  | .completed buffer :: history => buffer :: completedSince history
  | _ => []

/-- A session's buffers, and the records that are processed when they are handed over. -/
def Complete (buffers : Option BufferMap) (history : List Event) : Prop :=
  (buffers.getD []).map (·.2) = completedSince history ∧
    (processActivities (buffers.getD [])).Perm ((completedSince history).flatMap (·.records))

/-- Every hand-over and every clear took exactly what had been completed since the last. -/
def Sessions : List Event → Prop
  | [] => True
  | .completed _ :: history => Sessions history
  | .handedOver buffers :: history => Complete buffers history ∧ Sessions history
  | .cleared buffers :: history => Complete buffers history ∧ Sessions history

/-- An operation that finds no allocated buffer finds no ready one either. -/
def Settled (api : Api) : Action → Prop
  | .activityBuffersBegin _ | .clearActivitiesBegin _ =>
    api.allocatedGcuTraceBuffers = [] → api.readyGcuTraceBuffers = none
  | _ => True

/-! ### What every action keeps -/

structure Inv (api : Api) : Prop where
  apart : api.used.Nodup
  placed : ∀ id, api.places id = if id < api.nextBuffer then 1 else 0
  completed : api.ready = completedSince api.history
  empty : ∀ buffer ∈ api.ready, buffer.size = 0 → buffer.records = []
  sessions : Sessions api.history

variable {api : Api}

theorem Inv.complete (inv : Inv api) : Complete api.readyGcuTraceBuffers api.history := by
  refine ⟨inv.completed, ?_⟩
  have whole : ∀ entry ∈ api.readyGcuTraceBuffers.getD [],
      processActivitiesForBuffer entry.2 = entry.2.records := fun entry member => by
    unfold processActivitiesForBuffer
    split
    · rename_i none
      exact (inv.empty _ (List.mem_map_of_mem member) none).symm
    · rfl
  rw [← inv.completed, Api.ready, List.flatMap_map, processActivities]
  refine ((List.perm_insertionSort _ _).flatMap_right _).trans ?_
  rw [List.flatMap_congr whole]

theorem Inv.request (inv : Inv api) {ptr : Ptr} (fresh : ptr ∉ api.used) :
    Inv (api.bufferRequested ptr) := by
  obtain ⟨apart, placed, completed, empty, sessions⟩ := inv
  have unused : api.allocatedGcuTraceBuffers.filter (·.1 ≠ ptr) = api.allocatedGcuTraceBuffers := by
    refine List.filter_eq_self.mpr fun entry member => ?_
    have other : entry.1 ≠ ptr := by
      rintro rfl
      exact fresh (by simp [Api.used, List.mem_map_of_mem member])
    simpa using other
  refine ⟨?_, fun id => ?_, completed, empty, sessions⟩
  · simp only [Api.used, Api.bufferRequested, unused, List.map_cons, List.cons_append]
    exact List.nodup_cons.mpr ⟨fresh, apart⟩
  · have added : (api.bufferRequested ptr).allocated
        = { id := api.nextBuffer, size := kBufSize } :: api.allocated := by
      simp only [Api.allocated, Api.bufferRequested, unused, List.map_cons]
    have before := placed id
    have places : (api.bufferRequested ptr).places id
        = api.places id + if api.nextBuffer = id then 1 else 0 := by
      simp only [Api.places, added, List.countP_cons, decide_eq_true_eq]
      show _ + _ + api.ready.countP _ + api.handed.countP _ + api.discarded.countP _ = _
      omega
    rw [places, before]
    show _ = if id < api.nextBuffer + 1 then 1 else 0
    rcases Nat.lt_trichotomy id api.nextBuffer with older | rfl | newer
    · simp [older, older.ne', Nat.lt_succ_of_lt older]
    · simp
    · have later : ¬ id < api.nextBuffer + 1 := Nat.not_lt.mpr newer
      rw [if_neg newer.not_gt, if_neg newer.ne, if_neg later]

/-- A buffer that is completed goes from the allocated ones to the ready ones. -/
theorem Inv.complete_buffer (inv : Inv api) {ptr : Ptr} {validSize : Nat} {records : List Record}
    (bounded : validSize = 0 → records = []) : Inv (api.bufferCompleted ptr validSize records) := by
  have ⟨apart, placed, completed, empty, sessions⟩ := inv
  simp only [Api.bufferCompleted]
  split
  · exact ⟨apart, placed, completed, empty, sessions⟩
  rename_i entry found
  obtain ⟨isPtr, first, rest, split, -⟩ := List.find?_eq_some_iff_append.mp found
  obtain rfl : entry.1 = ptr := by simpa using isPtr
  have taken : (entry.1 :: ((first ++ rest).map (·.1) ++
      ((api.readyGcuTraceBuffers.getD []).map (·.1) ++ api.callers))).Nodup := by
    refine (List.Perm.nodup_iff ?_).mp apart
    simp only [Api.used, split, List.map_append, List.map_cons, List.append_assoc, List.cons_append]
    exact List.perm_middle
  obtain ⟨single, distinct⟩ := List.nodup_cons.mp taken
  simp only [List.mem_append, List.mem_map, not_or, not_exists, not_and] at single
  have kept : api.allocatedGcuTraceBuffers.filter (·.1 ≠ entry.1) = first ++ rest := by
    rw [split, List.filter_append, List.filter_cons_of_neg (by simp), ← List.filter_append]
    exact List.filter_eq_self.mpr fun other member =>
      decide_eq_true (single.1 other (List.mem_append.mp member))
  have others : (api.readyGcuTraceBuffers.getD []).filter (·.1 ≠ entry.1)
      = api.readyGcuTraceBuffers.getD [] :=
    List.filter_eq_self.mpr fun other member => decide_eq_true (single.2.1 other member)
  rw [kept, others]
  refine ⟨?_, fun id => ?_, ?_, ?_, sessions⟩
  · refine (List.Perm.nodup_iff ?_).mp taken
    simp only [Api.used, Option.getD_some, List.map_cons, List.append_assoc, List.cons_append]
    exact List.perm_middle.symm
  · refine Eq.trans ?_ (placed id)
    simp [Api.places, Api.allocated, Api.ready, Api.handed, Api.discarded, Event.handed,
      Event.discarded, split, List.countP_cons]
    omega
  · exact congrArg _ completed
  · intro buffer member
    rcases List.mem_cons.mp member with rfl | old
    · exact bounded
    · exact empty buffer old

/-- What is ready leaves for the callers or for nowhere. -/
theorem Inv.empty_ready (inv : Inv api) (thread : Nat) :
    Inv (api.activityBuffersEnd thread) ∧ Inv (api.clearActivitiesEnd thread) := by
  have ⟨apart, placed, completed, empty, sessions⟩ := inv
  refine ⟨⟨?_, fun id => ?_, rfl, by simp [Api.ready, Api.activityBuffersEnd],
      ⟨inv.complete, sessions⟩⟩,
    ⟨?_, fun id => ?_, rfl, by simp [Api.ready, Api.clearActivitiesEnd],
      ⟨inv.complete, sessions⟩⟩⟩
  · simpa only [Api.used, Api.activityBuffersEnd, Api.setPhase, Option.getD_none, List.map_nil,
      List.append_nil, List.append_assoc] using apart
  · refine Eq.trans ?_ (placed id)
    simp [Api.places, Api.allocated, Api.ready, Api.handed, Api.discarded, Api.activityBuffersEnd,
      Event.handed, Event.discarded, Api.setPhase]
    omega
  · refine apart.sublist ?_
    simp only [Api.used, Api.clearActivitiesEnd, Api.setPhase, Option.getD_none, List.map_nil,
      List.append_nil]
    exact (List.sublist_append_left _ _).append_right _
  · refine Eq.trans ?_ (placed id)
    simp [Api.places, Api.allocated, Api.ready, Api.handed, Api.discarded, Api.clearActivitiesEnd,
      Event.handed, Event.discarded, Api.setPhase]
    omega

/-- An operation may return early when nothing is ready. -/
theorem Inv.return_early (inv : Inv api) (unready : api.readyGcuTraceBuffers = none) :
    Inv { api with history := .handedOver none :: api.history } ∧
      Inv { api with history := .cleared none :: api.history } := by
  have nothing : Complete none api.history := unready ▸ inv.complete
  have ⟨apart, placed, completed, empty, sessions⟩ := inv
  have none_ready : api.ready = [] := by simp [Api.ready, unready]
  refine ⟨⟨apart, fun id => ?_, none_ready, empty, nothing, sessions⟩,
    ⟨apart, fun id => ?_, none_ready, empty, nothing, sessions⟩⟩
  · exact placed id
  · exact placed id

theorem Inv.next (inv : Inv api) {action : Action} (settled : Settled api action)
    (enabled : api.Enabled action) : Inv (api.next action) := by
  have ⟨apart, placed, completed, empty, sessions⟩ := inv
  cases action with
  | bufferRequested ptr => exact inv.request enabled
  | bufferCompleted ptr validSize records => exact inv.complete_buffer enabled.2.2
  | activityBuffersBegin thread =>
    simp only [Api.next, Api.activityBuffersBegin]
    split
    · rename_i allocated
      exact (inv.return_early (settled (List.isEmpty_iff.mp allocated))).1
    · exact ⟨apart, placed, completed, empty, sessions⟩
  | flushed thread => exact ⟨apart, placed, completed, empty, sessions⟩
  | activityBuffersEnd thread => exact (inv.empty_ready thread).1
  | clearActivitiesBegin thread =>
    simp only [Api.next, Api.clearActivitiesBegin]
    split
    · rename_i allocated
      exact (inv.return_early (settled (List.isEmpty_iff.mp allocated))).2
    · exact ⟨apart, placed, completed, empty, sessions⟩
  | flushedToClear thread => exact ⟨apart, placed, completed, empty, sessions⟩
  | clearActivitiesEnd thread => exact (inv.empty_ready thread).2
  | destroyed ptr =>
    refine ⟨apart.sublist ?_, placed, completed, empty, sessions⟩
    exact List.filter_sublist.append_left _

theorem Inv.start (maxGcuBufferCount : Int) : Inv { maxGcuBufferCount } :=
  ⟨by simp [Api.used], fun _ => by simp [Api.places, Api.allocated, Api.ready, Api.handed,
    Api.discarded], rfl, by simp [Api.ready], trivial⟩

/-- In every interleaving in which no operation returns early over ready buffers, each
buffer that was requested is in exactly one place, every hand-over and every clear takes
exactly the buffers completed since the last one, and each of their records once. -/
theorem trace_buffers_sound {maxGcuBufferCount : Int} {api : Api}
    (run : Reaches (Meeting Settled ApiStep) { maxGcuBufferCount } api) :
    (∀ id, api.places id = if id < api.nextBuffer then 1 else 0) ∧ Sessions api.history := by
  have inv : Inv api := by
    refine run.invariant (fun inv taken => ?_) (.start maxGcuBufferCount)
    obtain ⟨settled, enabled, rfl⟩ := taken
    exact inv.next settled enabled
  exact ⟨inv.placed, inv.sessions⟩

instance (api : Api) : DecidablePred (Settled api)
  | .activityBuffersBegin _ | .clearActivitiesBegin _ =>
    inferInstanceAs (Decidable (api.allocatedGcuTraceBuffers = [] → _))
  | .bufferRequested _ | .bufferCompleted _ _ _ | .flushed _ | .activityBuffersEnd _
  | .flushedToClear _ | .clearActivitiesEnd _ | .destroyed _ => .isTrue trivial

/-- One session of two buffers, of which the first is completed before the flush. -/
theorem trace_buffers_sound_session :
    let api := runAll Api.next {} [.bufferRequested 1, .bufferRequested 2,
      .bufferCompleted 1 64 [7], .activityBuffersBegin 0, .bufferCompleted 2 32 [8], .flushed 0,
      .activityBuffersEnd 0]
    ((∀ id, api.places id = if id < api.nextBuffer then 1 else 0) ∧ Sessions api.history) ∧
      api.handed.map (·.records) = [[8], [7]] := by
  have reaches (actions : List Action)
      (allowed : Allowed (fun api action => Settled api action ∧ api.Enabled action) Api.next {}
        actions) :
      Reaches (Meeting Settled ApiStep) {} (runAll Api.next {} actions) :=
    allowed.reaches fun _ _ may => ⟨may.1, may.2, rfl⟩
  exact ⟨@trace_buffers_sound 0 _ (reaches _ (by decide)), by decide⟩

/-- A buffer that is completed while no other is allocated stays behind. -/
theorem completed_buffer_stays_behind :
    let api := runAll Api.next {} [.bufferRequested 1, .bufferCompleted 1 64 [7],
      .activityBuffersBegin 0]
    Reaches ApiStep {} api ∧ ¬ Sessions api.history := by
  constructor
  · refine @Allowed.reaches _ _ Api.Enabled _ _ (fun _ _ enabled => ⟨enabled, rfl⟩) _ _ ?_
    decide
  · rintro ⟨⟨missed, _⟩, _⟩
    exact absurd missed (by decide)

end TorchGcu.TopsptiActivityApi

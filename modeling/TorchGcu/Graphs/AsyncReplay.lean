import TorchGcu.Graphs.GCUGraph

/-! Replays on a stream whose device lags behind the host. The copies of a replay read pinned
buffers of the graph when they execute, and the next replay writes these buffers again. -/
namespace TorchGcu.Graphs
open ProgramLogic
open GCUCachingAllocator (Err)

namespace Async

/-- A pinned host buffer of one 64-bit value. -/
abbrev BufferId := Nat

/-- A generator of a captured graph, with the tensors that its kernels read, and the buffers from
which `replay` fills them. -/
structure ReplayEntry where
  gen : GeneratorId
  seedExtragraph : TensorId
  offsetExtragraph : TensorId
  wholegraphIncrement : UInt64
  hostSeed : BufferId
  hostOffset : BufferId

def buffersOf (entries : List ReplayEntry) : List BufferId :=
  entries.flatMap fun e => [e.hostSeed, e.hostOffset]

def tensorsOf (entries : List ReplayEntry) : List TensorId :=
  entries.flatMap fun e => [e.seedExtragraph, e.offsetExtragraph]

/-- A captured graph, the entry of the default generator first. Every tensor and every buffer was
allocated for one entry. -/
structure CapturedGraph where
  entries : List ReplayEntry
  hasPyHostFunctions : Bool
  tensors : (tensorsOf entries).Nodup
  buffers : (buffersOf entries).Nodup

/-- What `replay` has read for a tensor. -/
abbrev Reading := TensorId × UInt64

/-- The work on a stream. A launch carries what its `replay` has read, which is history. -/
inductive Work where
  | copy (dst : TensorId) (src : BufferId)
  | launch (read : List Reading)
deriving DecidableEq

/-- The host and the device. The launches that have executed are kept with what they found in
memory, newest first. -/
structure Stream where
  generators : GeneratorId → GCUGeneratorImpl
  host : BufferId → UInt64 := fun _ => 0
  memory : TensorId → UInt64 := fun _ => 0
  fifo : List Work := []
  launches : List (List Reading × (TensorId → UInt64)) := []

abbrev StreamM := EStateM Err Stream

/-! ### The device -/

/-- The oldest work executes. -/
def Stream.execute (s : Stream) : Stream :=
  match s.fifo with
  | [] => s
  | .copy dst src :: rest =>
    { s with memory := Function.update s.memory dst (s.host src), fifo := rest }
  | .launch read :: rest => { s with launches := (read, s.memory) :: s.launches, fifo := rest }

/-- All of some work executes. -/
def Stream.drain : Nat → Stream → Stream
  | 0, s => s
  | count + 1, s => Stream.drain count s.execute

/-- `topsStreamSynchronize`. -/
def Stream.synchronize (s : Stream) : Stream := s.drain s.fifo.length

/-! ### The host -/

def onGenerator {β : Type} (gen : GeneratorId) (m : EStateM Err GCUGeneratorImpl β) : StreamM β :=
  zoom (fun s => s.generators gen)
    (fun state s => { s with generators := Function.update s.generators gen state }) m

/-- `gen->philox_gcu_state(increment)` while the stream is not capturing: the offset. -/
def philoxOffset (gen : GeneratorId) (increment : UInt64) : StreamM UInt64 := do
  match ← onGenerator gen (GCUGeneratorImpl.philoxGcuState .none increment) with
  | .values _ offset => return offset
  | .captured .. => return 0

/-- `memcpy` into a pinned buffer. -/
def writeHost (buffer : BufferId) (value : UInt64) : StreamM Unit :=
  modify fun s => { s with host := Function.update s.host buffer value }

/-- `topsMemcpyAsync`. -/
def copyAsync (rt : GraphRuntime) (dst : TensorId) (src : BufferId) : StreamM Unit := do
  gcuCheck (rt.topsMemcpy dst)
  modify fun s => { s with fifo := s.fifo ++ [.copy dst src] }

/-- The part of `replay` for one generator. -/
def refill (rt : GraphRuntime) (e : ReplayEntry) : StreamM (List Reading) := do
  let offset ← philoxOffset e.gen e.wholegraphIncrement
  let s ← get
  let seed := (s.generators e.gen).seed
  writeHost e.hostSeed seed
  writeHost e.hostOffset offset
  copyAsync rt e.seedExtragraph e.hostSeed
  copyAsync rt e.offsetExtragraph e.hostOffset
  return [(e.seedExtragraph, seed), (e.offsetExtragraph, offset)]

def refillAll (rt : GraphRuntime) : List ReplayEntry → StreamM (List Reading)
  | [] => return []
  | e :: entries => do
    let read ← refill rt e
    let others ← refillAll rt entries
    return read ++ others

def replay (rt : GraphRuntime) (graph : CapturedGraph) : StreamM Unit := do
  let read ← refillAll rt graph.entries
  gcuCheck rt.topsGraphLaunch
  modify fun s => { s with fifo := s.fifo ++ [.launch read] }
  if graph.hasPyHostFunctions then
    gcuCheck rt.topsStreamSynchronize
    modify Stream.synchronize
  gcuCheck rt.topsDriverGetVersion

/-! ### Runs -/

/-- What can happen next: the host replays the graph, calls a random operator eagerly or waits for
the stream, or the device goes on. -/
inductive Event where
  | replay (rt : GraphRuntime)
  | eager (gen : GeneratorId) (increment : UInt64)
  | synchronize
  | execute

/-- The state that is left, also when a call raises. -/
def stateOf {β : Type} : EStateM.Result Err Stream β → Stream
  | .ok _ s => s
  | .error _ s => s

def Stream.step (graph : CapturedGraph) (s : Stream) : Event → Stream
  | .replay rt => stateOf ((Async.replay rt graph).run s)
  | .eager gen increment => stateOf ((philoxOffset gen increment).run s)
  | .synchronize => s.synchronize
  | .execute => s.execute

def Stream.run (graph : CapturedGraph) (s : Stream) (events : List Event) : Stream :=
  events.foldl (Stream.step graph) s

/-- Every launch that has executed has found in memory what its `replay` had read. -/
def Stream.Faithful (s : Stream) : Prop :=
  ∀ launch ∈ s.launches, ∀ reading ∈ launch.1, launch.2 reading.1 = reading.2

/-! ### The condition -/

/-- A copy from the buffer is still to be executed. -/
def Stream.Queued (s : Stream) (buffer : BufferId) : Prop := ∃ dst, .copy dst buffer ∈ s.fifo

/-- The generators after the part of `replay` for one of them. -/
def advanced (generators : GeneratorId → GCUGeneratorImpl) (e : ReplayEntry) :
    GeneratorId → GCUGeneratorImpl :=
  Function.update generators e.gen
    { generators e.gen with
      philoxOffsetPerThread := (generators e.gen).philoxOffsetPerThread +
        GCUGeneratorImpl.roundIncrement e.wholegraphIncrement }

/-- No buffer that a copy is still to read gets another value. -/
def Stream.Undisturbed (s : Stream) :
    (GeneratorId → GCUGeneratorImpl) → List ReplayEntry → Prop
  | _, [] => True
  | generators, e :: entries =>
    (s.Queued e.hostSeed → s.host e.hostSeed = (generators e.gen).seed) ∧
    (s.Queued e.hostOffset → s.host e.hostOffset = (generators e.gen).philoxOffsetPerThread) ∧
    s.Undisturbed (advanced generators e) entries

/-- The condition on a step: a replay is called when the copies of earlier replays have executed,
or puts the same values into the buffers that they are still to read. -/
def Stream.Meets (graph : CapturedGraph) (s : Stream) : Event → Prop
  | .replay _ => s.Undisturbed s.generators graph.entries
  | _ => True

/-- Every step of a run meets the condition in the state in which it is taken. -/
def Stream.AllMeet (graph : CapturedGraph) : Stream → List Event → Prop
  | _, [] => True
  | s, event :: events => s.Meets graph event ∧ (s.step graph event).AllMeet graph events

/-! ### The pending work -/

variable {graph : CapturedGraph} {rt : GraphRuntime} {s : Stream}

/-- The memory when some work has executed, if the buffers stay as they are. -/
def settled (host : BufferId → UInt64) : List Work → (TensorId → UInt64) → TensorId → UInt64
  | [], memory => memory
  | .copy dst src :: rest, memory => settled host rest (Function.update memory dst (host src))
  | .launch _ :: rest, memory => settled host rest memory

/-- Every launch in some work will find what its `replay` has read. -/
def Fulfils (host : BufferId → UInt64) : List Work → (TensorId → UInt64) → Prop
  | [], _ => True
  | .copy dst src :: rest, memory => Fulfils host rest (Function.update memory dst (host src))
  | .launch read :: rest, memory =>
    (∀ reading ∈ read, memory reading.1 = reading.2) ∧ Fulfils host rest memory

theorem settled_append (host : BufferId → UInt64) (first second : List Work)
    (memory : TensorId → UInt64) :
    settled host (first ++ second) memory = settled host second (settled host first memory) := by
  induction first generalizing memory with
  | nil => rfl
  | cons work rest ih => cases work <;> exact ih _

theorem fulfils_append (host : BufferId → UInt64) (first second : List Work)
    (memory : TensorId → UInt64) : Fulfils host (first ++ second) memory ↔
      Fulfils host first memory ∧ Fulfils host second (settled host first memory) := by
  induction first generalizing memory with
  | nil => simp [Fulfils, settled]
  | cons work rest ih =>
    cases work with
    | copy dst src => exact ih _
    | launch read => simp only [List.cons_append, Fulfils, settled, ih, and_assoc]

/-- Only the buffers that are still to be read matter. -/
theorem settled_of_host {host host' : BufferId → UInt64} {fifo : List Work}
    (same : ∀ dst src, Work.copy dst src ∈ fifo → host' src = host src)
    (memory : TensorId → UInt64) : settled host' fifo memory = settled host fifo memory := by
  induction fifo generalizing memory with
  | nil => rfl
  | cons work rest ih =>
    have later := ih fun dst src member => same dst src (List.mem_cons_of_mem _ member)
    cases work with
    | copy dst src =>
      have read := same dst src List.mem_cons_self
      simp only [settled, read, later]
    | launch read => exact later memory

theorem fulfils_of_host {host host' : BufferId → UInt64} {fifo : List Work}
    (same : ∀ dst src, Work.copy dst src ∈ fifo → host' src = host src)
    (memory : TensorId → UInt64) : Fulfils host' fifo memory ↔ Fulfils host fifo memory := by
  induction fifo generalizing memory with
  | nil => rfl
  | cons work rest ih =>
    have later := ih fun dst src member => same dst src (List.mem_cons_of_mem _ member)
    cases work with
    | copy dst src =>
      have read := same dst src List.mem_cons_self
      simp only [Fulfils, read, later]
    | launch read => simp only [Fulfils, later]

/-- What every step keeps: the launches were faithful, and those that are queued will be. -/
structure Stream.Kept (s : Stream) : Prop where
  faithful : s.Faithful
  fulfils : Fulfils s.host s.fifo s.memory

def Stream.settled (s : Stream) : TensorId → UInt64 := Async.settled s.host s.fifo s.memory

/-! ### The device keeps it -/

theorem Stream.Kept.execute (kept : s.Kept) : s.execute.Kept := by
  obtain ⟨faithful, fulfils⟩ := kept
  unfold Stream.execute
  split
  · exact ⟨faithful, fulfils⟩
  · next queued =>
    rw [queued] at fulfils
    exact ⟨faithful, fulfils⟩
  · next read rest queued =>
    rw [queued] at fulfils
    refine ⟨?_, fulfils.2⟩
    intro launch member
    rcases List.mem_cons.mp member with rfl | member
    · exact fulfils.1
    · exact faithful launch member

theorem Stream.Kept.drain (kept : s.Kept) (count : Nat) : (Stream.drain count s).Kept := by
  induction count generalizing s with
  | zero => exact kept
  | succ count ih => exact ih kept.execute

theorem drain_fifo (count : Nat) : (Stream.drain count s).fifo = s.fifo.drop count := by
  induction count generalizing s with
  | zero => rfl
  | succ count ih =>
    have first : s.execute.fifo = s.fifo.tail := by
      unfold Stream.execute
      split <;> simp [*]
    rw [Stream.drain, ih, first, List.drop_tail]

theorem synchronize_fifo (s : Stream) : s.synchronize.fifo = [] := by
  rw [Stream.synchronize, drain_fifo, List.drop_length]

/-- On a stream that has been waited for, a replay disturbs nothing. -/
theorem undisturbed_of_idle (idle : s.fifo = []) (generators : GeneratorId → GCUGeneratorImpl)
    (entries : List ReplayEntry) : s.Undisturbed generators entries := by
  induction entries generalizing generators with
  | nil => trivial
  | cons e entries ih => exact ⟨by simp [Stream.Queued, idle], by simp [Stream.Queued, idle], ih _⟩

/-! ### The host keeps it -/

theorem Stream.Kept.copy (kept : s.Kept) (dst : TensorId) (src : BufferId) :
    Stream.Kept { s with fifo := s.fifo ++ [.copy dst src] } :=
  ⟨kept.faithful, (fulfils_append ..).mpr ⟨kept.fulfils, trivial⟩⟩

theorem Stream.settled_copy (dst : TensorId) (src : BufferId) :
    Stream.settled { s with fifo := s.fifo ++ [.copy dst src] } =
      Function.update s.settled dst (s.host src) := by
  simp only [Stream.settled, settled_append, Async.settled]

theorem Stream.Kept.launch {read : List Reading} (kept : s.Kept)
    (found : ∀ reading ∈ read, s.settled reading.1 = reading.2) :
    Stream.Kept { s with fifo := s.fifo ++ [.launch read] } :=
  ⟨kept.faithful, (fulfils_append ..).mpr ⟨kept.fulfils, found, trivial⟩⟩

/-- What an eager call of a random operator leaves behind. -/
def Stream.advance (s : Stream) (gen : GeneratorId) (increment : UInt64) : Stream :=
  { s with
    generators := Function.update s.generators gen
      { s.generators gen with
        philoxOffsetPerThread := (s.generators gen).philoxOffsetPerThread +
          GCUGeneratorImpl.roundIncrement increment } }

theorem philoxOffset_result (gen : GeneratorId) (increment : UInt64) :
    wp (philoxOffset gen increment)
      (fun offset t => offset = (s.generators gen).philoxOffsetPerThread ∧
        t = s.advance gen increment)
      (fun _ t => t = s) s := by
  simp [philoxOffset, onGenerator, GCUGeneratorImpl.philoxGcuState, wp_torchCheck,
    wp_internalAssert, Stream.advance]

/-- What `replay` reads for an entry. -/
def Stream.readings (s : Stream) (e : ReplayEntry) : List Reading :=
  [(e.seedExtragraph, (s.generators e.gen).seed),
    (e.offsetExtragraph, (s.generators e.gen).philoxOffsetPerThread)]

/-- What it then puts into the buffers. -/
def Stream.written (s : Stream) (e : ReplayEntry) : BufferId → UInt64 :=
  Function.update (Function.update s.host e.hostSeed (s.generators e.gen).seed) e.hostOffset
    (s.generators e.gen).philoxOffsetPerThread

/-- An entry has a tensor and a buffer for the seed and others for the offset. -/
def ReplayEntry.Apart (e : ReplayEntry) : Prop :=
  e.seedExtragraph ≠ e.offsetExtragraph ∧ e.hostSeed ≠ e.hostOffset

/-- No copy is still to read another value from a buffer of the entry. -/
def Stream.Free (s : Stream) (e : ReplayEntry) : Prop :=
  (s.Queued e.hostSeed → s.host e.hostSeed = (s.generators e.gen).seed) ∧
    (s.Queued e.hostOffset → s.host e.hostOffset = (s.generators e.gen).philoxOffsetPerThread)

theorem Stream.written_queued {e : ReplayEntry} (free : s.Free e) (dst : TensorId) (src : BufferId)
    (member : .copy dst src ∈ s.fifo) : s.written e src = s.host src := by
  unfold Stream.written
  by_cases offset : src = e.hostOffset
  · subst offset
    rw [Function.update_self, free.2 ⟨dst, member⟩]
  rw [Function.update_of_ne offset]
  by_cases seed : src = e.hostSeed
  · subst seed
    rw [Function.update_self, free.1 ⟨dst, member⟩]
  · exact Function.update_of_ne seed ..

/-- The part of `replay` for one generator. -/
theorem refill_result {e : ReplayEntry} (kept : s.Kept) (apart : e.Apart) (free : s.Free e) :
    wp (refill rt e)
      (fun read t => read = s.readings e ∧ t.Kept ∧ t.generators = advanced s.generators e ∧
        t.host = s.written e ∧
        t.fifo = s.fifo ++ [.copy e.seedExtragraph e.hostSeed, .copy e.offsetExtragraph e.hostOffset] ∧
        t.settled = Function.update (Function.update s.settled e.seedExtragraph
          (s.generators e.gen).seed) e.offsetExtragraph (s.generators e.gen).philoxOffsetPerThread)
      (fun _ t => t.Kept) s := by
  simp only [refill, wp_bind]
  refine wp_mono (philoxOffset_result _ _) (fun offset t after => ?_) fun _ t after => after ▸ kept
  obtain ⟨rfl, rfl⟩ := after
  have same := Stream.written_queued free
  let u : Stream := { s.advance e.gen e.wholegraphIncrement with host := s.written e }
  have keptWritten : u.Kept := ⟨kept.faithful, (fulfils_of_host same _).mpr kept.fulfils⟩
  have settledWritten : u.settled = s.settled := settled_of_host same _
  have keptSeed := keptWritten.copy e.seedExtragraph e.hostSeed
  have keptBoth := keptSeed.copy e.offsetExtragraph e.hostOffset
  have seed : ((s.advance e.gen e.wholegraphIncrement).generators e.gen).seed =
      (s.generators e.gen).seed := by simp [Stream.advance]
  have settledSeed := Stream.settled_copy (s := u) e.seedExtragraph e.hostSeed
  have settledBoth := Stream.settled_copy
    (s := { u with fifo := u.fifo ++ [.copy e.seedExtragraph e.hostSeed] }) e.offsetExtragraph e.hostOffset
  simp only [writeHost, copyAsync, wp_bind, wp_get, wp_modify, wp_gcuCheck, wp_pure, seed]
  refine ⟨fun _ => ⟨fun _ => ⟨rfl, keptBoth, rfl, rfl, List.append_assoc .., ?_⟩, fun _ _ => keptSeed⟩,
    fun _ _ => keptWritten⟩
  refine settledBoth.trans ?_
  rw [settledSeed, settledWritten]
  simp [u, Stream.written, apart.2]

@[simp] theorem tensorsOf_cons (e : ReplayEntry) (entries : List ReplayEntry) :
    tensorsOf (e :: entries) = e.seedExtragraph :: e.offsetExtragraph :: tensorsOf entries := rfl

@[simp] theorem buffersOf_cons (e : ReplayEntry) (entries : List ReplayEntry) :
    buffersOf (e :: entries) = e.hostSeed :: e.hostOffset :: buffersOf entries := rfl

/-- The condition on a replay is about the buffers of the graph. -/
theorem Stream.Undisturbed.transfer {t : Stream} {entries : List ReplayEntry}
    {generators : GeneratorId → GCUGeneratorImpl} (undisturbed : s.Undisturbed generators entries)
    (queued : ∀ buffer ∈ buffersOf entries, t.Queued buffer → s.Queued buffer)
    (host : ∀ buffer ∈ buffersOf entries, t.host buffer = s.host buffer) :
    t.Undisturbed generators entries := by
  induction entries generalizing generators with
  | nil => trivial
  | cons e entries ih =>
    obtain ⟨seed, offset, rest⟩ := undisturbed
    have hereSeed : e.hostSeed ∈ buffersOf (e :: entries) := List.mem_cons_self
    have hereOffset : e.hostOffset ∈ buffersOf (e :: entries) := .tail _ List.mem_cons_self
    have later : ∀ buffer ∈ buffersOf entries, buffer ∈ buffersOf (e :: entries) :=
      fun _ member => .tail _ (.tail _ member)
    refine ⟨fun found => ?_, fun found => ?_, ih rest ?_ ?_⟩
    · rw [host _ hereSeed]
      exact seed (queued _ hereSeed found)
    · rw [host _ hereOffset]
      exact offset (queued _ hereOffset found)
    · exact fun buffer member => queued buffer (later buffer member)
    · exact fun buffer member => host buffer (later buffer member)

/-- What `replay` leaves behind before the launch: the memory will hold all that it has read. -/
theorem refillAll_result {entries : List ReplayEntry} (kept : s.Kept)
    (tensors : (tensorsOf entries).Nodup) (buffers : (buffersOf entries).Nodup)
    (undisturbed : s.Undisturbed s.generators entries) :
    wp (refillAll rt entries)
      (fun read t => t.Kept ∧ (∀ reading ∈ read, t.settled reading.1 = reading.2) ∧
        ∀ tensor, tensor ∉ tensorsOf entries → t.settled tensor = s.settled tensor)
      (fun _ t => t.Kept) s := by
  induction entries generalizing s with
  | nil => exact ⟨kept, by simp, fun _ _ => rfl⟩
  | cons e entries ih =>
    simp only [tensorsOf_cons, List.nodup_cons, List.mem_cons, not_or] at tensors
    simp only [buffersOf_cons, List.nodup_cons, List.mem_cons, not_or] at buffers
    obtain ⟨⟨tensorApart, seedTensor⟩, offsetTensor, tensors⟩ := tensors
    obtain ⟨⟨bufferApart, seedBuffer⟩, offsetBuffer, buffers⟩ := buffers
    obtain ⟨freeSeed, freeOffset, undisturbed⟩ := undisturbed
    simp only [refillAll, wp_bind]
    refine wp_mono (refill_result kept ⟨tensorApart, bufferApart⟩ ⟨freeSeed, freeOffset⟩)
      (fun read t after => ?_) fun _ _ failed => failed
    obtain ⟨rfl, keptT, generators, host, fifo, settledT⟩ := after
    have undisturbedT : t.Undisturbed t.generators entries := by
      rw [generators]
      refine undisturbed.transfer (fun buffer member => ?_) fun buffer member => ?_
      · rintro ⟨dst, found⟩
        simp only [fifo, List.mem_append, List.mem_cons, Work.copy.injEq, List.not_mem_nil,
          or_false] at found
        rcases found with found | ⟨-, rfl⟩ | ⟨-, rfl⟩
        · exact ⟨dst, found⟩
        · exact absurd member seedBuffer
        · exact absurd member offsetBuffer
      · have notSeed : buffer ≠ e.hostSeed := fun same => seedBuffer (same ▸ member)
        have notOffset : buffer ≠ e.hostOffset := fun same => offsetBuffer (same ▸ member)
        rw [host, Stream.written, Function.update_of_ne notOffset, Function.update_of_ne notSeed]
    refine wp_mono (ih keptT tensors buffers undisturbedT) (fun others u after => ?_) fun _ _ failed => failed
    obtain ⟨keptU, found, elsewhere⟩ := after
    refine ⟨keptU, fun reading member => ?_, fun tensor absent => ?_⟩
    · rcases List.mem_append.mp member with member | member
      · simp only [Stream.readings, List.mem_cons, List.not_mem_nil, or_false] at member
        rcases member with rfl | rfl
        · rw [elsewhere _ seedTensor, settledT, Function.update_of_ne tensorApart, Function.update_self]
        · rw [elsewhere _ offsetTensor, settledT, Function.update_self]
      · exact found reading member
    · simp only [tensorsOf_cons, List.mem_cons, not_or] at absent
      rw [elsewhere _ absent.2.2, settledT, Function.update_of_ne absent.2.1,
        Function.update_of_ne absent.1]

theorem replay_kept (kept : s.Kept) (undisturbed : s.Undisturbed s.generators graph.entries) :
    wp (Async.replay rt graph) (fun _ t => t.Kept) (fun _ t => t.Kept) s := by
  simp only [Async.replay, wp_bind]
  refine wp_mono (refillAll_result kept graph.tensors graph.buffers undisturbed)
    (fun read t after => ?_) fun _ _ failed => failed
  obtain ⟨keptT, found, -⟩ := after
  have launched := keptT.launch found
  rw [wp_gcuCheck, wp_modify]
  refine ⟨fun _ => ?_, fun _ _ => keptT⟩
  split
  · simp only [wp_bind, wp_gcuCheck, wp_modify]
    have drained := launched.drain (t.fifo ++ [Work.launch read]).length
    exact ⟨fun _ => (wp_gcuCheck _).mp (gcuCheck_preserves _ _ drained), fun _ _ => launched⟩
  · exact gcuCheck_preserves _ _ launched

/-! ### Runs -/

/-- What holds however a program ends holds of the state that it leaves. -/
theorem stateOf_of_wp {β : Type} {P : Stream → Prop} {m : StreamM β}
    (holds : wp m (fun _ => P) (fun _ => P) s) : P (stateOf (m.run s)) := by
  unfold wp at holds
  cases ran : m.run s <;> simpa only [ran, stateOf] using holds

theorem Stream.Kept.step {event : Event} (kept : s.Kept) (meets : s.Meets graph event) :
    (s.step graph event).Kept := by
  cases event with
  | replay rt => exact stateOf_of_wp (replay_kept kept meets)
  | eager gen increment =>
    refine stateOf_of_wp (wp_mono (philoxOffset_result gen increment) ?_ ?_)
    · rintro _ _ ⟨-, rfl⟩
      exact ⟨kept.faithful, kept.fulfils⟩
    · rintro _ _ rfl
      exact kept
  | synchronize => exact kept.drain _
  | execute => exact kept.execute

theorem Stream.Kept.run {events : List Event} (kept : s.Kept) (meets : s.AllMeet graph events) :
    (s.run graph events).Kept := by
  induction events generalizing s with
  | nil => exact kept
  | cons event events ih => exact ih (kept.step meets.1) meets.2

/-- However far the device lags, every launch has found what its `replay` had read, as long as
no replay puts another value into a buffer that a copy is still to read. -/
theorem undisturbed_replays (graph : CapturedGraph) (s : Stream) (idle : s.fifo = [])
    (fresh : s.launches = []) (events : List Event) (meets : s.AllMeet graph events) :
    (s.run graph events).Faithful := by
  have kept : s.Kept := ⟨by simp [Stream.Faithful, fresh], by simp [Fulfils, idle]⟩
  exact (kept.run meets).faithful

/-- A graph with one random operator on the default generator. -/
def oneOperator : CapturedGraph where
  entries := [⟨0, 0, 1, 4, 0, 1⟩]
  hasPyHostFunctions := false
  tensors := by decide
  buffers := by decide

def idleStream : Stream := { generators := fun _ => {} }

instance (s : Stream) : Decidable s.Faithful :=
  inferInstanceAs (Decidable (∀ launch ∈ s.launches, ∀ reading ∈ launch.1,
    launch.2 reading.1 = reading.2))

/-- Replays that wait for each other. -/
theorem undisturbed_replays_waiting :
    (idleStream.run oneOperator [.replay {}, .synchronize, .replay {}, .synchronize]).Faithful := by
  refine undisturbed_replays oneOperator idleStream rfl rfl _ ?_
  have first := undisturbed_of_idle (s := idleStream) rfl idleStream.generators oneOperator.entries
  exact ⟨first, trivial, undisturbed_of_idle (synchronize_fifo _) .., trivial, trivial⟩

/-- With two replays on their way, the first launch finds the offset of the second. -/
theorem lagging_replay_misread : ¬ (idleStream.run oneOperator
    [.replay {}, .replay {}, .execute, .execute, .execute]).Faithful := by
  decide

end Async
end TorchGcu.Graphs

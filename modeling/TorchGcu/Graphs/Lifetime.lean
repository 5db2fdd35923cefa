import TorchGcu.Graphs.Ownership
import TorchGcu.Logic.Runs

/-! The life of a `GCUGraph`: its methods called in any order, with the rest of the process
running between the calls, up to its destruction. -/
namespace TorchGcu.Graphs
open ProgramLogic Ledger
open GCUCachingAllocator (Err TopsError GCUStream DeviceIndex StreamId MempoolId)

variable {rt : GraphRuntime} {s : Session}

/-! ### Runs -/

inductive GraphOp where
  | registerGeneratorState (gen : GeneratorId)
  | captureBegin (pool : MempoolId)
  | captureEnd
  | replay
  | enableDebugMode
  | debugDump
  | reset
  | destruct

def GraphOp.run (rt : GraphRuntime) : GraphOp → SessionM Unit
  | .registerGeneratorState gen => Graphs.registerGeneratorState rt gen
  | .captureBegin pool => Graphs.captureBegin rt pool
  | .captureEnd => Graphs.captureEnd rt
  | .replay => Graphs.replay rt
  | .enableDebugMode => Graphs.enableDebugMode
  | .debugDump => Graphs.debugDump rt
  | .reset => Graphs.reset rt
  | .destruct => Graphs.destruct rt

/-- An exception cannot leave a destructor: the process ends. -/
inductive Life where
  | alive
  | destroyed
  | terminated
deriving DecidableEq, Repr

structure Lifetime where
  session : Session
  life : Life := .alive

/-- The rest of the process leaves the object's own state alone; handles of others are taken
from the same supply. -/
structure Elsewhere (s t : Session) : Prop where
  this : t.this = s.this
  graphLedger : t.graphLedger = s.graphLedger
  execLedger : t.execLedger = s.execLedger
  poolLog : t.poolLog = s.poolLog
  nextHandle : s.nextHandle ≤ t.nextHandle

def endState {α : Type} : EStateM.Result Err Session α → Session
  | .ok _ t => t
  | .error _ t => t

def GraphOp.lifeAfter (op : GraphOp) (result : EStateM.Result Err Session Unit) : Life :=
  match op with
  | .destruct =>
    match result with
    | .ok _ _ => .destroyed
    | .error _ _ => .terminated
  | _ => .alive

/-- A label is a call of a method, or `none` when the rest of the process runs. -/
inductive LifetimeStep : Lifetime → Option (GraphRuntime × GraphOp) → Lifetime → Prop where
  | elsewhere {s t : Session} (other : Elsewhere s t) : LifetimeStep ⟨s, .alive⟩ none ⟨t, .alive⟩
  | call {s : Session} (rt : GraphRuntime) (op : GraphOp) :
      LifetimeStep ⟨s, .alive⟩ (some (rt, op))
        ⟨endState ((op.run rt).run s), op.lifeAfter ((op.run rt).run s)⟩

/-- Graph handles and executable graphs are destroyed at most once and not used afterwards,
the flags are up exactly while the handles are live, and the pool of a completed capture is
released at most once, and exactly once when the object has been destroyed. -/
structure HandlesOnce (w : Lifetime) : Prop where
  graphDestroyed : ∀ g, w.session.graphLedger.count (.destroyed g) ≤ 1
  execDestroyed : ∀ e, w.session.execLedger.count (.destroyed e) ≤ 1
  graphUnused : ∀ newer older g, w.session.graphLedger = newer ++ .destroyed g :: older →
    .used g ∉ newer
  execUnused : ∀ newer older e, w.session.execLedger = newer ++ .destroyed e :: older →
    .used e ∉ newer
  graphLive : ∀ g, Live w.session.graphLedger g ↔
    w.session.this.hasGraph = true ∧ w.session.this.graph = some g
  execLive : ∀ e, Live w.session.execLedger e ↔
    w.session.this.hasGraphExec = true ∧ w.session.this.graphExec = some e
  flagged : (w.session.this.hasGraph = true → w.session.this.graph.isSome = true) ∧
    (w.session.this.hasGraphExec = true → w.session.this.graphExec.isSome = true)
  released : ∀ e device pool, .captureCompleted e device pool ∈ w.session.poolLog →
    w.session.poolLog.count (.poolReleased (some e) device pool) ≤ 1 ∧
      (w.life = .destroyed →
        w.session.poolLog.count (.poolReleased (some e) device pool) = 1)

/-- The steps on which the books stay in order: no dump of a graph kept for debugging, a
capture that ends safely, and a pool that can be released when the object lets go of it. -/
def HandlesSafe (w : Lifetime) : Option (GraphRuntime × GraphOp) → Prop
  | some (_, .debugDump) => ¬ (w.session.gcuGraphsDebug = true ∧ w.session.this.hasGraph = true)
  | some (rt, .captureEnd) => CaptureEndSafe rt w.session
  | some (_, .reset) | some (_, .destruct) =>
    (w.session.this.hasGraph || w.session.this.hasGraphExec) = true → w.session.PoolReleasable
  | _ => True

/-- A process in which the object has just been constructed. -/
def Session.New (s : Session) : Prop :=
  ∃ before rt, (construct rt).run before = .ok () s ∧ before.graphLedger = [] ∧
    before.execLedger = [] ∧ before.poolLog = []

/-- What a run keeps: tidy books, and after the destructor nothing is held. -/
structure Lifetime.Tidy (w : Lifetime) : Prop where
  books : w.session.books.Tidy
  empty : w.life = .destroyed → w.session.this.hasGraphExec = false

theorem Books.reset_empty (books : Books) : books.reset.exec.held = false := by
  unfold Books.reset
  cases held : books.exec.held with
  | true => simp [Slot.destroy]
  | false => cases books.graph.held <;> simp [held, Books.logRelease]

theorem Slot.tidy_empty (next : Handle) : (⟨none, false, []⟩ : Slot).Tidy next := by
  constructor <;> simp

theorem Session.New.tidy (new : s.New) : s.books.Tidy := by
  obtain ⟨before, rt, built, graphs, execs, pools⟩ := new
  have books : wp (construct rt) (fun _ t => t.books.Tidy) (fun _ _ => True) before := by
    simp only [construct, wp_bind, wp_modify, wp_gcuCheck, implies_true, and_true]
    intro _ _
    constructor
    · simpa [Session.books, Session.setThis, graphs] using Slot.tidy_empty before.nextHandle
    · simpa [Session.books, Session.setThis, execs] using Slot.tidy_empty before.nextHandle
    · simp [Session.books, Session.setThis, pools]
    · simp [Session.books, Session.setThis, pools]
  exact wp_ok books built

theorem wp_endState {m : SessionM Unit} {R : Session → Prop}
    (ends : wp m (fun _ t => R t) (fun _ t => R t) s) : R (endState (m.run s)) := by
  unfold wp at ends
  cases ran : m.run s <;> simpa only [ran, endState] using ends

/-- What the destructor has done when it returns. -/
theorem destruct_books (releasable : (s.this.hasGraph || s.this.hasGraphExec) = true →
      s.PoolReleasable) (tidy : s.books.Tidy) :
    wp (destruct rt) (fun _ t => t.books.Tidy ∧ t.this.hasGraphExec = false)
      (fun _ t => t.books.Tidy) s := by
  simp only [destruct, wp_bind, wp_gcuCheck]
  refine ⟨fun _ => ⟨fun _ => ?_, fun _ _ => tidy⟩, fun _ _ => tidy⟩
  refine wp_mono (reset_books releasable) (fun _ t after => ?_) fun _ _ never => never.elim
  have empty : t.books.exec.held = false := after ▸ s.books.reset_empty
  exact ⟨after ▸ tidy.reset, empty⟩

theorem GraphOp.run_tidy (op : GraphOp) (safe : HandlesSafe ⟨s, .alive⟩ (some (rt, op)))
    (tidy : s.books.Tidy) :
    wp (op.run rt) (fun _ t => t.books.Tidy) (fun _ t => t.books.Tidy) s := by
  cases op with
  | registerGeneratorState gen => exact registerGeneratorState_books gen s tidy
  | captureBegin pool => exact captureBegin_tidy pool s tidy
  | captureEnd => exact captureEnd_tidy safe tidy
  | replay => exact replay_tidy s tidy
  | enableDebugMode =>
    exact ⟨tidy.graph, tidy.exec, tidy.released, tidy.completed⟩
  | debugDump =>
    exact wp_mono (debugDump_tidy safe) (fun _ _ same => same ▸ tidy) fun _ _ never => never.elim
  | reset =>
    exact wp_mono (reset_books safe) (fun _ _ after => after ▸ tidy.reset)
      fun _ _ never => never.elim
  | destruct =>
    exact wp_mono (destruct_books safe tidy) (fun _ _ after => after.1) fun _ _ after => after

theorem LifetimeStep.tidy {w w' : Lifetime} {label : Option (GraphRuntime × GraphOp)}
    (tidy : w.Tidy) (taken : Meeting HandlesSafe LifetimeStep w label w') : w'.Tidy := by
  obtain ⟨safe, step⟩ := taken
  cases step with
  | @elsewhere s t other =>
    refine ⟨?_, fun destroyed => by cases destroyed⟩
    have before := tidy.books
    constructor
    · have graph := before.graph.later other.nextHandle
      simpa [Session.books, other.this, other.graphLedger] using graph
    · have exec := before.exec.later other.nextHandle
      simpa [Session.books, other.this, other.execLedger] using exec
    · simpa [Session.books, other.this, other.execLedger, other.poolLog] using before.released
    · simpa [Session.books, other.this, other.execLedger, other.poolLog] using before.completed
  | @call s rt op =>
    refine ⟨wp_endState (op.run_tidy safe tidy.books), fun destroyed => ?_⟩
    cases op with
    | destruct =>
      have ends : wp (destruct rt) _ _ s := destruct_books safe tidy.books
      unfold wp at ends
      simp only [GraphOp.lifeAfter, GraphOp.run] at destroyed ⊢
      cases ran : (destruct rt).run s with
      | ok a t =>
        simp only [ran] at ends
        exact ends.2
      | error e t => simp [ran] at destroyed
    | _ => cases destroyed

theorem Lifetime.Tidy.handlesOnce {w : Lifetime} (tidy : w.Tidy) : HandlesOnce w := by
  have graph := tidy.books.graph
  have exec := tidy.books.exec
  constructor
  · exact graph.destroyed_le
  · exact exec.destroyed_le
  · exact fun _ _ _ split => graph.used_not_mem split
  · exact fun _ _ _ split => exec.used_not_mem split
  · exact graph.live
  · exact exec.live
  · exact ⟨graph.named, exec.named⟩
  · intro e device pool completed
    rcases tidy.books.completed e device pool completed with ⟨live, -, -⟩ | once
    · have none := tidy.books.unreleased live device pool
      refine ⟨Nat.le_of_eq none |>.trans (Nat.zero_le _), fun destroyed => ?_⟩
      exact absurd live (exec.dead_of_empty (tidy.empty destroyed) e)
    · exact ⟨Nat.le_of_eq once, fun _ => once⟩

/-- Graph handles are destroyed and pools released once in every life of an object whose
steps are safe. -/
theorem handles_destroyed_once {s : Session} {w : Lifetime} (new : s.New)
    (run : Reaches (Meeting HandlesSafe LifetimeStep) ⟨s, .alive⟩ w) : HandlesOnce w :=
  (run.invariant (P := Lifetime.Tidy) LifetimeStep.tidy ⟨new.tidy, fun destroyed => by cases destroyed⟩).handlesOnce

theorem reaches_call {w : Lifetime} (run : Reaches (Meeting HandlesSafe LifetimeStep) w ⟨s, .alive⟩)
    (rt : GraphRuntime) (op : GraphOp) (safe : HandlesSafe ⟨s, .alive⟩ (some (rt, op))) :
    Reaches (Meeting HandlesSafe LifetimeStep) w
      ⟨endState ((op.run rt).run s), op.lifeAfter ((op.run rt).run s)⟩ :=
  run.next ⟨safe, .call rt op⟩

/-- A process whose current stream is not the default one, with a new object. -/
def newSession : Session := { this := { captureStream := ⟨0, 1⟩ }, currentStreams := fun _ => 1 }

theorem newSession_new : newSession.New :=
  ⟨{ currentStreams := fun _ => 1 }, {}, rfl, rfl, rfl, rfl⟩

/-- A capture, a replay and the destruction of the object. -/
theorem handles_destroyed_once_run :
    ∃ w, HandlesOnce w ∧ w.life = .destroyed ∧
      w.session.poolLog = [.poolReleased (some 1) 0 (1, 0), .captureCompleted 1 0 (1, 0)] := by
  have begun := reaches_call (s := newSession) .refl {} (.captureBegin (0, 0)) trivial
  have ended := reaches_call begun {} .captureEnd fun _ _ _ => by decide +kernel
  have replayed := reaches_call ended {} .replay trivial
  have destroyed := reaches_call replayed {} .destruct fun _ =>
    ⟨by decide +kernel, 0, { useCount := 1 }, by decide +kernel, by decide +kernel, by decide,
      fun _ => by decide +kernel⟩
  exact ⟨_, handles_destroyed_once newSession_new destroyed, by decide +kernel, by decide +kernel⟩

/-- A dump of a graph kept for debugging destroys it, and `reset` destroys it again. -/
theorem debug_dump_then_reset_destroys_twice :
    ¬ ∀ s w, Session.New s → Reaches LifetimeStep ⟨s, .alive⟩ w → HandlesOnce w := by
  intro once
  have dumped : Reaches LifetimeStep ⟨newSession, .alive⟩ _ :=
    ((Reaches.refl.next (.call {} .enableDebugMode)).next
      (.call {} (.captureBegin (0, 0)))).next (.call {} .captureEnd) |>.next (.call {} .debugDump)
  have reset := dumped.next (.call {} .reset)
  have twice := (once _ _ newSession_new reset).graphDestroyed 0
  revert twice
  decide +kernel

end TorchGcu.Graphs

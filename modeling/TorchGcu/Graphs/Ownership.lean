import TorchGcu.Graphs.Handles

/-! What each method of a `GCUGraph` does to the handles and the pool that it owns. -/
namespace TorchGcu.Graphs
open ProgramLogic Ledger
open GCUCachingAllocator (Err TopsError GCUStream DeviceIndex StreamId MempoolId)

variable {rt : GraphRuntime} {s : Session} {Q : Books → Prop}

/-! ### What has nothing to do with the books -/

theorem currentStreamCaptureStatus_books (gen : GeneratorId) :
    Preserves (fun s => Q s.books) (currentStreamCaptureStatus rt gen) :=
  .bind (gcuCheck_preserves _) fun _ => .bind .get fun _ => .pure _

theorem currentSeed_books (gen : GeneratorId) :
    Preserves (fun s => Q s.books) (currentSeed rt gen) :=
  .bind (currentStreamCaptureStatus_books gen) fun _ =>
    .bind (torchCheck_preserves _ _) fun _ => .bind .get fun _ => .pure _

theorem onGenerator_books {α : Type} (gen : GeneratorId) (m : EStateM Err GCUGeneratorImpl α) :
    Preserves (fun s => Q s.books) (onGenerator gen m) := .zoom fun _ _ holds => holds

theorem onAllocator_books {α : Type} (device : DeviceIndex) (m : GCUCachingAllocator.M α) :
    Preserves (fun s => Q s.books) (onAllocator device m) :=
  .bind .get fun _ => .bind (torchCheck_preserves _ _) fun _ => .zoom fun _ _ holds => holds

theorem philoxState_books (gen : GeneratorId) (increment : UInt64) :
    Preserves (fun s => Q s.books) (philoxState rt gen increment) :=
  .bind (currentStreamCaptureStatus_books gen) fun _ => onGenerator_books _ _

theorem emptyTensor_books : Preserves (fun s => Q s.books) (emptyTensor rt) := by
  intro s holds
  simp only [emptyTensor, wp_bind, wp_get, wp_gcuCheck, wp_set, wp_pure]
  exact ⟨fun _ => holds, fun _ _ => holds⟩

theorem copyToDevice_books (tensor : TensorId) (value : UInt64) :
    Preserves (fun s => Q s.books) (copyToDevice rt tensor value) :=
  .bind (gcuCheck_preserves _) fun _ => .modify fun _ holds => holds

theorem registerGeneratorState_books (gen : GeneratorId) :
    Preserves (fun s => Q s.books) (registerGeneratorState rt gen) := by
  apply Preserves.bind
  · exact currentStreamCaptureStatus_books gen
  intro _
  apply Preserves.bind
  · exact torchCheck_preserves _ _
  intro _
  apply Preserves.bind
  · exact emptyTensor_books
  intro _
  apply Preserves.bind
  · exact emptyTensor_books
  intro _
  apply Preserves.bind
  · exact gcuCheck_preserves _
  intro _
  apply Preserves.bind
  · exact gcuCheck_preserves _
  intro _
  exact .modify fun _ holds => holds

theorem beginExtras_books (extras : Extras) :
    Preserves (fun s => Q s.books) (beginExtras rt extras) := by
  induction extras with
  | nil => exact .pure _
  | cons extra rest ih =>
    exact .bind (currentSeed_books _) fun _ => .bind (copyToDevice_books _ _) fun _ =>
      .bind (onGenerator_books _ _) fun _ => ih

theorem beginGenerators_books (gen : GeneratorId) :
    Preserves (fun s => Q s.books) (beginGenerators rt gen) := by
  apply Preserves.bind
  · exact emptyTensor_books
  intro _
  apply Preserves.bind
  · exact .modify fun _ holds => holds
  intro _
  apply Preserves.bind
  · exact emptyTensor_books
  intro _
  apply Preserves.bind
  · exact .modify fun _ holds => holds
  intro _
  apply Preserves.bind
  · exact currentSeed_books gen
  intro _
  apply Preserves.bind
  · exact copyToDevice_books _ _
  intro _
  apply Preserves.bind
  · exact onGenerator_books _ _
  intro _
  exact .bind .get fun _ => beginExtras_books _

theorem beginStream_books (stream : GCUStream) :
    Preserves (fun s => Q s.books) (beginStream rt stream) := by
  apply Preserves.bind
  · exact .get
  intro _
  apply Preserves.bind
  · exact onAllocator_books _ _
  intro _
  apply Preserves.bind
  · exact .modify fun _ holds => holds
  intro _
  apply Preserves.bind
  · exact gcuCheck_preserves _
  intro _
  apply Preserves.bind
  · exact .modify fun _ holds => holds
  intro _
  have check : Preserves (fun s => Q s.books) (do
      internalAssert (decide (0 < (← get).this.id)) "id_ > 0" : SessionM Unit) :=
    .bind .get fun _ => internalAssert_preserves _ _
  cases rt.topsStreamGetCaptureInfo with
  | error error => exact .throw _
  | ok status => exact .bind (internalAssert_preserves _ _) fun _ => check

theorem endExtras_books (extras : Extras) :
    Preserves (fun s => Q s.books) (endExtras extras) := by
  induction extras with
  | nil => exact .pure _
  | cons extra rest ih =>
    exact .bind (onGenerator_books _ _) fun _ => .bind ih fun _ => .pure _

theorem refill_books (gen : GeneratorId) (increment : UInt64) (seed offset : TensorId) :
    Preserves (fun s => Q s.books) (refill rt gen increment seed offset) :=
  .bind (philoxState_books _ _) fun _ => .bind (currentSeed_books _) fun _ =>
    .bind (copyToDevice_books _ _) fun _ => copyToDevice_books _ _

theorem refillExtras_books (extras : Extras) :
    Preserves (fun s => Q s.books) (refillExtras rt extras) := by
  induction extras with
  | nil => exact .pure _
  | cons extra rest ih => exact .bind (refill_books _ _ _ _) fun _ => ih

/-! ### The methods -/

/-- A new capture changes which pool the object releases, so it is refused while an
executable graph is held. -/
def Books.Unowned (books : Books) : Prop := books.Tidy ∧ books.exec.held = false

theorem relabel_unowned {f : GCUGraph → GCUGraph}
    (same : ∀ this, (f this).graph = this.graph ∧ (f this).graphExec = this.graphExec ∧
      (f this).hasGraph = this.hasGraph ∧ (f this).hasGraphExec = this.hasGraphExec) :
    Preserves (fun s => s.books.Unowned) (modifyThis f) := by
  apply Preserves.modify
  intro s unowned
  obtain ⟨graph, graphExec, hasGraph, hasGraphExec⟩ := same s.this
  have moved : (s.setThis (f s.this)).books =
      { s.books with captureDev := (f s.this).captureDev, mempoolId := (f s.this).mempoolId } := by
    simp [Session.books, Session.setThis, graph, graphExec, hasGraph, hasGraphExec]
  rw [moved]
  exact ⟨unowned.1.relabel unowned.2 _ _, unowned.2⟩

theorem captureSequenceId_books : Preserves (fun s => Q s.books) captureSequenceId := by
  intro s holds
  simp only [captureSequenceId, wp_bind, wp_get, wp_set, wp_pure]
  exact holds

theorem captureBegin_unowned (pool : MempoolId) :
    Preserves (fun s => s.books.Unowned) (captureBegin rt pool) := by
  apply Preserves.bind
  · exact .get
  intro _
  apply Preserves.bind
  · exact torchCheck_preserves _ _
  intro _
  apply Preserves.bind
  · exact .get
  intro _
  apply Preserves.bind
  · exact beginGenerators_books _
  intro _
  apply Preserves.bind
  · exact .get
  intro _
  apply Preserves.bind
  · exact .get
  intro _
  apply Preserves.bind
  · exact torchCheck_preserves _ _
  intro _
  apply Preserves.bind
  · exact .get
  intro _
  apply Preserves.bind
  · exact relabel_unowned fun _ => ⟨rfl, rfl, rfl, rfl⟩
  intro _
  apply Preserves.bind
  · exact captureSequenceId_books
  intro _
  apply Preserves.bind
  · exact relabel_unowned fun _ => ⟨rfl, rfl, rfl, rfl⟩
  intro _
  have shared : ∀ pool, Preserves (fun s => s.books.Unowned)
      (modifyThis fun this => { this with mempoolId := pool }) := fun _ =>
    relabel_unowned fun _ => ⟨rfl, rfl, rfl, rfl⟩
  apply Preserves.ite
  · exact .bind (internalAssert_preserves _ _) fun _ => .bind (shared _) fun _ =>
      beginStream_books _
  · exact .bind (shared _) fun _ => beginStream_books _

theorem captureBegin_tidy (pool : MempoolId) :
    Preserves (fun s => s.books.Tidy) (captureBegin rt pool) := by
  intro s tidy
  cases held : s.this.hasGraphExec with
  | true => simp [captureBegin, wp_torchCheck, held, tidy]
  | false =>
    exact wp_mono (captureBegin_unowned pool s ⟨tidy, held⟩) (fun _ _ after => after.1)
      fun _ _ after => after.1

/-- The object holds an executable graph, in order. -/
def Books.Replayable (books : Books) : Prop := books.Tidy ∧ books.exec.held = true

theorem graphLaunch_replayable : Preserves (fun s => s.books.Replayable) (graphLaunch rt) := by
  intro s holds
  have used := holds.1.useExec holds.2
  simp only [graphLaunch, wp_bind, wp_get]
  cases handle : s.this.graphExec with
  | none => exact gcuCheck_preserves _ _ holds
  | some exec =>
    simp only [wp_bind, wp_modify, wp_gcuCheck]
    simp only [Slot.log, Session.books, handle] at used
    have after : (s.logExec (.used exec)).books.Replayable := by
      refine ⟨?_, holds.2⟩
      simpa only [Session.books, Session.logExec, handle] using used
    exact ⟨fun _ => after, fun _ _ => after⟩

theorem replay_tidy : Preserves (fun s => s.books.Tidy) (replay rt) := by
  intro s tidy
  simp only [replay, wp_bind, wp_get, wp_torchCheck]
  refine ⟨fun held => ?_, fun _ => tidy⟩
  have body : Preserves (fun s => s.books.Replayable) (withDevice s.this.captureStream.deviceIndex
      (do
        let s ← get
        refill rt s.defaultGenerator s.this.wholegraphIncrement s.this.seedExtragraph
          s.this.offsetExtragraph
        refillExtras rt (rt.extraOrder s.this.extraGenerators)
        graphLaunch rt
        if s.this.hasPyHostFunctions then gcuCheck rt.topsStreamSynchronize
        gcuCheck rt.topsDriverGetVersion)) := by
    apply Preserves.within (R := fun s => s.books.Replayable)
    · apply Preserves.bind .get
      intro s
      apply Preserves.bind
      · exact refill_books _ _ _ _
      intro _
      apply Preserves.bind
      · exact refillExtras_books _
      intro _
      apply Preserves.bind
      · exact graphLaunch_replayable
      intro _
      exact .ite (.bind (gcuCheck_preserves _) fun _ => gcuCheck_preserves _)
        (gcuCheck_preserves _)
    · exact fun _ holds => holds
    · exact fun _ _ holds => holds
  exact wp_mono (body s ⟨tidy, held⟩) (fun _ _ after => after.1) fun _ _ after => after.1

/-- The allocator knows the pool and counts a use of it, the last one if it has not yet
been made freeable. -/
def Releasable (st : GCUCachingAllocator.State) (id : MempoolId) : Prop :=
  ∃ pool p, GCUCachingAllocator.State.findPool st.graphPools id = some pool ∧
    st.privatePools pool = some p ∧ 0 < p.useCount ∧
    (p.useCount = 1 → GCUCachingAllocator.State.findPool st.graphPoolsFreeable id = none)

theorem releasePool_returns {st : GCUCachingAllocator.State} {id : MempoolId}
    (releasable : Releasable st id) :
    wp (GCUCachingAllocator.releasePool id) (fun _ _ => True) (fun _ _ => False) st := by
  obtain ⟨pool, p, found, at_, used, last⟩ := releasable
  simp only [GCUCachingAllocator.releasePool, wp_bind, wp_get, found, wp_modify,
    GCUCachingAllocator.State.modifyPrivatePool, Function.update_self, at_, Option.map_some,
    Option.getD_some]
  have kept : 1 ≤ p.useCount := used
  by_cases zero : p.useCount - 1 = 0
  · have none := last (by omega)
    simp [GCUCachingAllocator.internalAssert, zero, none]
  · simp [GCUCachingAllocator.internalAssert, kept, zero]

/-- The pool that the object would release can be released. -/
def Session.PoolReleasable (s : Session) : Prop :=
  s.this.captureDev < s.deviceCount ∧ Releasable (s.allocators s.this.captureDev) s.this.mempoolId

/-- The allocator is recording the capture of the object. -/
def Session.Recording (s : Session) : Prop :=
  s.this.captureDev < s.deviceCount ∧
    ∃ entry ∈ (s.allocators s.this.captureDev).capturesUnderway, entry.1 = s.this.mempoolId

instance (s : Session) : Decidable s.Recording := inferInstanceAs (Decidable (_ ∧ _))

theorem endAllocateToPool_returns {st : GCUCachingAllocator.State} {id : MempoolId}
    (recording : ∃ entry ∈ st.capturesUnderway, entry.1 = id) :
    wp (GCUCachingAllocator.endAllocateToPool id) (fun _ _ => True) (fun _ _ => False) st := by
  have found : (st.capturesUnderway.any fun entry => decide (entry.1 = id)) = true := by
    simpa [List.any_eq_true] using recording
  simp [GCUCachingAllocator.endAllocateToPool, found]

/-- A call of the allocator that returns touches the allocator only. -/
theorem onAllocator_returns {device : DeviceIndex} {m : GCUCachingAllocator.M Unit}
    (valid : device < s.deviceCount)
    (returns : wp m (fun _ _ => True) (fun _ _ => False) (s.allocators device))
    {normal : Unit → Session → Prop} {raised : Err → Session → Prop}
    (after : ∀ st, normal () (s.setAllocator device st)) :
    wp (onAllocator device m) normal raised s := by
  simp only [onAllocator, wp_bind, wp_get, wp_torchCheck, wp_zoom]
  refine ⟨fun _ => wp_mono returns (fun _ st _ => after st) fun _ _ never => never.elim, fun invalid => ?_⟩
  simp [valid] at invalid

theorem graphDestroy_result {normal : Option TopsError → Session → Prop}
    {raised : Err → Session → Prop} :
    wp (graphDestroy rt) normal raised s ↔
      normal rt.topsGraphDestroy (match s.this.graph with
        | some graph => s.logGraph (.destroyed graph)
        | none => s) := by
  simp only [graphDestroy, wp_bind, wp_get]
  cases s.this.graph <;> simp

theorem reset_books (releasable : (s.this.hasGraph || s.this.hasGraphExec) = true →
      s.PoolReleasable) :
    wp (reset rt) (fun _ t => t.books = s.books.reset) (fun _ _ => False) s := by
  cases graph : s.this.hasGraph <;> cases exec : s.this.hasGraphExec
  · simp [reset, graph, exec, Books.reset, Session.books]
  all_goals
    obtain ⟨valid, releases⟩ := releasable (by simp [graph, exec])
    simp only [reset, wp_bind, wp_get, wp_modify, graph, exec, Bool.or_true,
      Bool.or_false, if_true, Bool.false_eq_true, if_false]
    apply onAllocator_returns (s := s.logPool _) valid (releasePool_returns releases)
    intro st
    cases handle : s.this.graph <;> cases execHandle : s.this.graphExec <;>
      simp [graphDestroy_result, modifyThis, Session.logPool, Session.setAllocator, Session.setThis,
        Session.logGraph, Session.logExec, Session.books, Books.reset, Books.logRelease,
        Slot.destroy, Slot.log, graph, exec, handle, execHandle]

/-- The captured graph is held, and the rest is as it was before the capture ended. -/
structure Books.Captured (graph : Handle) (before books : Books) : Prop where
  tidy : books.Tidy
  held : books.graph.held = true
  handle : books.graph.handle = some graph
  device : books.captureDev = before.captureDev
  pool : books.mempoolId = before.mempoolId
  debug : books.debug = before.debug

/-- And it has been instantiated. -/
structure Books.Instantiated (graph : Handle) (before books : Books) : Prop extends
    before.Captured graph books where
  instantiated : books.exec.held = true

theorem useGraph_books {graph : Handle} (handle : s.this.graph = some graph) :
    (s.logGraph (.used graph)).books = { s.books with graph := s.books.graph.log .used } := by
  simp [Session.books, Session.logGraph, Slot.log, handle]

theorem Books.Captured.use {graph : Handle} {before : Books}
    (captured : before.Captured graph s.books) :
    before.Captured graph (s.logGraph (.used graph)).books := by
  rw [useGraph_books captured.handle]
  exact { captured with tidy := captured.tidy.useGraph captured.held }

theorem graphInstantiate_books {graph : Handle} {before : Books}
    (captured : before.Captured graph s.books) (empty : s.this.hasGraphExec = false) :
    wp (do graphInstantiate rt graph; modifyThis fun this => { this with hasGraphExec := true })
      (fun _ t => before.Instantiated graph t.books) (fun _ t => t.books.Tidy) s := by
  have used := captured.use
  simp only [graphInstantiate, wp_bind, wp_modify, wp_gcuCheck, wp_get, modifyThis]
  refine ⟨fun _ => ?_, fun _ _ => used.tidy⟩
  have new : (s.logGraph (.used graph)).books.obtainExec.Tidy := used.tidy.obtainExec empty
  exact ⟨{ used with tidy := new }, rfl⟩

theorem endGenerators_books {graph : Handle} {before : Books}
    (instantiated : before.Instantiated graph s.books)
    (destroys : before.debug = false → rt.topsGraphDestroy = none) :
    wp (endGenerators rt graph) (fun _ t => t.books.Tidy ∧ t.books.exec.held = true ∧
        t.books.captureDev = before.captureDev ∧ t.books.mempoolId = before.mempoolId)
      (fun _ t => t.books.Tidy) s := by
  have fails : ∀ (e : Err) (t : Session), before.Instantiated graph t.books → t.books.Tidy :=
    fun _ _ holds => holds.tidy
  refine Preserves.seq .get instantiated fails fun _ s instantiated => ?_
  refine Preserves.seq .get instantiated fails fun _ s instantiated => ?_
  refine Preserves.seq (torchCheck_preserves _ _) instantiated fails fun _ s instantiated => ?_
  refine Preserves.seq (onGenerator_books _ _) instantiated fails fun _ s instantiated => ?_
  refine Preserves.seq (.modify fun _ holds => holds) instantiated fails fun _ s instantiated => ?_
  refine Preserves.seq .get instantiated fails fun _ s instantiated => ?_
  refine Preserves.seq (endExtras_books _) instantiated fails fun _ s instantiated => ?_
  refine Preserves.seq (.modify fun _ holds => holds) instantiated fails fun _ s instantiated => ?_
  have logged : Preserves (fun s => before.Instantiated graph s.books)
      (modify (·.logGraph (.used graph)) : SessionM Unit) :=
    .modify fun _ holds => ⟨holds.toCaptured.use, holds.instantiated⟩
  refine Preserves.seq logged instantiated fails fun _ s instantiated => ?_
  refine Preserves.seq (gcuCheck_preserves _) instantiated fails fun _ s instantiated => ?_
  simp only [wp_bind, wp_get]
  cases debugging : s.gcuGraphsDebug with
  | true =>
    simpa using ⟨instantiated.tidy, instantiated.instantiated, instantiated.device,
      instantiated.pool⟩
  | false =>
    have off : before.debug = false := instantiated.debug.symm.trans debugging
    have destroyed := instantiated.tidy.destroyGraph instantiated.held
    have handle : s.this.graph = some graph := instantiated.handle
    simp only [Bool.not_false, if_true, wp_bind, graphDestroy_result, handle, destroys off,
      wp_gcuCheck, modifyThis, wp_modify, reduceCtorEq, forall_const, false_imp_iff, implies_true,
      and_true]
    constructor
    · simpa [Session.books, Session.logGraph, Session.setThis, Slot.destroy, Slot.log, handle]
        using destroyed
    · exact ⟨instantiated.instantiated, instantiated.device, instantiated.pool⟩

/-- When a capture ends with a graph, the object holds none from before, the allocator is
recording the capture, and a graph that is not kept for debugging can be destroyed. -/
def CaptureEndSafe (rt : GraphRuntime) (s : Session) : Prop :=
  s.currentStream = s.this.captureStream → ∀ captured, rt.topsStreamEndCapture = .ok captured →
    s.this.hasGraph = false ∧ s.this.hasGraphExec = false ∧ s.Recording ∧
      (s.gcuGraphsDebug = false → rt.topsGraphDestroy = none)

/-- The graph that ends a capture is not flagged yet; flagging it makes the books tidy. -/
def Session.Unflagged (s : Session) : Prop :=
  match s.this.graph with
  | none => s.books.Tidy
  | some _ => ({ s.books with graph := { s.books.graph with held := true } } : Books).Tidy

theorem streamEndCapture_books (tidy : s.books.Tidy)
    (empty : ∀ captured, rt.topsStreamEndCapture = .ok captured → s.this.hasGraph = false) :
    wp (streamEndCapture rt) (fun _ t => (∃ captured, rt.topsStreamEndCapture = .ok captured) ∧
        t.Unflagged ∧ t.this.captureDev = s.this.captureDev ∧
        t.this.mempoolId = s.this.mempoolId ∧ t.allocators = s.allocators ∧
        t.deviceCount = s.deviceCount ∧ t.this.hasGraphExec = s.this.hasGraphExec ∧
        t.gcuGraphsDebug = s.gcuGraphsDebug)
      (fun _ t => t = s) s := by
  simp only [streamEndCapture]
  cases ended : rt.topsStreamEndCapture with
  | error error => rfl
  | ok captured =>
    have noGraph := empty captured ended
    cases captured with
    | false => exact ⟨⟨_, rfl⟩, tidy.replaceGraph noGraph none, rfl, rfl, rfl, rfl, rfl, rfl⟩
    | true => exact ⟨⟨_, rfl⟩, tidy.obtainGraph noGraph, rfl, rfl, rfl, rfl, rfl, rfl⟩

/-- `capture_end` once the graph is flagged. -/
theorem captured_tidy {graph : Handle} {before : Books} (captured : before.Captured graph s.books)
    (empty : s.this.hasGraphExec = false)
    (destroys : before.debug = false → rt.topsGraphDestroy = none) :
    wp (do
        graphInstantiate rt graph
        modifyThis fun this => { this with hasGraphExec := true }
        endGenerators rt graph
        if let some exec := (← get).this.graphExec then
          modify (·.logPool (.captureCompleted exec before.captureDev before.mempoolId)))
      (fun _ t => t.books.Tidy) (fun _ t => t.books.Tidy) s := by
  rw [wp_bind]
  refine wp_mono ((wp_bind ..).mp (graphInstantiate_books captured empty)) (fun _ t after => ?_) fun _ _ tidy => tidy
  rw [wp_bind]
  refine wp_mono after (fun _ t instantiated => ?_) fun _ _ tidy => tidy
  rw [wp_bind]
  refine wp_mono (endGenerators_books instantiated destroys) (fun _ t after => ?_)
    fun _ _ tidy => tidy
  obtain ⟨tidy, held, device, pool⟩ := after
  have completed := tidy.complete held
  simp only [wp_bind, wp_get]
  have handle : t.books.exec.handle = t.this.graphExec := rfl
  cases exec : t.this.graphExec with
  | none => exact tidy
  | some exec' =>
    simp only [Books.complete, handle, exec] at completed
    rw [← device, ← pool]
    exact completed

theorem captureEnd_tidy (safe : CaptureEndSafe rt s) (tidy : s.books.Tidy) :
    wp (captureEnd rt) (fun _ t => t.books.Tidy) (fun _ t => t.books.Tidy) s := by
  simp only [captureEnd, wp_bind, wp_get, wp_torchCheck, decide_eq_true_eq]
  refine ⟨fun same => ?_, fun _ => tidy⟩
  refine wp_mono (streamEndCapture_books tidy fun captured ended => (safe same captured ended).1)
    (fun _ t after => ?_) fun _ t unchanged => unchanged ▸ tidy
  obtain ⟨⟨captured, ok⟩, unflagged, device, pool, allocators, count, exec, debug⟩ := after
  obtain ⟨-, noExec, ⟨valid, recording⟩, destroys⟩ := safe same captured ok
  have returns : wp (GCUCachingAllocator.endAllocateToPool t.this.mempoolId) (fun _ _ => True)
      (fun _ _ => False) (t.allocators t.this.captureDev) := by
    rw [device, pool, allocators]
    exact endAllocateToPool_returns recording
  apply onAllocator_returns (by rw [device, count]; exact valid) returns
  intro st
  simp only [Session.Unflagged] at unflagged
  have graph : (t.setAllocator t.this.captureDev st).this.graph = t.this.graph := rfl
  rw [graph]
  cases handle : t.this.graph with
  | none =>
    simp only [handle] at unflagged
    exact unflagged
  | some graph =>
    simp only [handle] at unflagged
    let flagged : Session :=
      (t.setAllocator t.this.captureDev st).setThis { t.this with hasGraph := true }
    have holds : t.books.Captured graph flagged.books := ⟨unflagged, rfl, handle, rfl, rfl, rfl⟩
    have rest := captured_tidy (s := flagged) holds (exec.trans noExec) fun off =>
      destroys (debug.symm.trans off)
    simp only [wp_bind, modifyThis, wp_modify] at rest ⊢
    exact rest

theorem debugDump_tidy (safe : ¬ (s.gcuGraphsDebug = true ∧ s.this.hasGraph = true)) :
    wp (debugDump rt) (fun _ t => t = s) (fun _ _ => False) s := by
  simp only [debugDump, wp_bind, wp_get]
  cases debugging : s.gcuGraphsDebug with
  | false => simp
  | true =>
    have empty : s.this.hasGraph = false := by simpa [debugging] using safe
    simp [empty]

end TorchGcu.Graphs

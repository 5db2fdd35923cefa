import TorchGcu.Graphs.Offsets

/-! What a capture leaves with the generators and with the object: the tensors that captured
kernels will read, and by how much each generator has been advanced. -/
namespace TorchGcu.Graphs
open ProgramLogic GCUGeneratorImpl
open GCUCachingAllocator (Err TopsError GCUStream DeviceIndex StreamId MempoolId)

variable {rt : GraphRuntime} {s : Session} {gens : List GeneratorId}

/-! ### Registered generators and their tensors -/

def Extras.keys (extras : Extras) : List GeneratorId := extras.map (·.1)

def Extras.tensors (extras : Extras) : List TensorId :=
  extras.flatMap fun extra => [extra.2.seedExtragraph, extra.2.offsetExtragraph]

@[simp] theorem Extras.keys_cons (gen : GeneratorId) (data : ExtraGenData) (rest : Extras) :
    Extras.keys ((gen, data) :: rest) = gen :: Extras.keys rest := rfl

@[simp] theorem Extras.tensors_cons (gen : GeneratorId) (data : ExtraGenData) (rest : Extras) :
    Extras.tensors ((gen, data) :: rest) =
      data.seedExtragraph :: data.offsetExtragraph :: Extras.tensors rest := rfl

/-- Every generator is registered once, and all tensors are different. -/
structure Apart (extras : Extras) (next : TensorId) : Prop where
  keys : extras.keys.Nodup
  tensors : extras.tensors.Nodup
  allocated : ∀ tensor ∈ extras.tensors, tensor < next

def registerGenerators (rt : GraphRuntime) : List GeneratorId → SessionM Unit
  | [] => pure ()
  | gen :: rest => do
    registerGeneratorState rt gen
    registerGenerators rt rest

theorem registerGeneratorState_apart {gen : GeneratorId}
    (apart : Apart s.this.extraGenerators s.nextTensor)
    (new : gen ∉ s.this.extraGenerators.keys) :
    wp (registerGeneratorState rt gen)
      (fun _ t => Apart t.this.extraGenerators t.nextTensor ∧
        t.this.extraGenerators.keys = gen :: s.this.extraGenerators.keys)
      (fun _ _ => True) s := by
  have kept : s.this.extraGenerators.filter (fun extra => decide (extra.1 ≠ gen)) =
      s.this.extraGenerators := by
    apply List.filter_eq_self.mpr
    intro extra member
    have other : extra.1 ≠ gen := by
      rintro rfl
      exact new (List.mem_map_of_mem member)
    simpa using other
  have fresh : ∀ tensor, s.nextTensor ≤ tensor → tensor ∉ s.this.extraGenerators.tensors :=
    fun tensor le member => absurd (apart.allocated tensor member) (Nat.not_lt.mpr le)
  simp only [registerGeneratorState, currentStreamCaptureStatus, wp_bind, wp_gcuCheck, wp_get,
    wp_pure, wp_torchCheck, emptyTensor, wp_set, modifyThis, wp_modify, implies_true, and_true]
  intro _ _ _ _ _ _
  simp only [Session.setThis, GCUGraph.assignExtra, kept]
  have first := fresh s.nextTensor (Nat.le_refl _)
  have second := fresh (s.nextTensor + 1) (Nat.le_succ _)
  refine ⟨⟨?_, ?_, ?_⟩, rfl⟩
  · exact List.nodup_cons.mpr ⟨new, apart.keys⟩
  · simp only [Extras.tensors_cons, List.nodup_cons, List.mem_cons, not_or]
    exact ⟨⟨(Nat.lt_succ_self _).ne, first⟩, second, apart.tensors⟩
  · intro tensor member
    simp only [Extras.tensors_cons, List.mem_cons] at member
    rcases member with rfl | rfl | old
    · exact Nat.lt_succ_of_lt (Nat.lt_succ_self _)
    · exact Nat.lt_succ_self _
    · exact Nat.lt_succ_of_lt (Nat.lt_succ_of_lt (apart.allocated tensor old))

theorem registerGenerators_apart (apart : Apart s.this.extraGenerators s.nextTensor)
    (nodup : gens.Nodup) (new : ∀ gen ∈ gens, gen ∉ s.this.extraGenerators.keys) :
    wp (registerGenerators rt gens)
      (fun _ t => Apart t.this.extraGenerators t.nextTensor ∧
        ∀ gen, gen ∈ t.this.extraGenerators.keys ↔ gen ∈ gens ∨ gen ∈ s.this.extraGenerators.keys)
      (fun _ _ => True) s := by
  induction gens generalizing s with
  | nil => exact ⟨apart, fun gen => by simp⟩
  | cons first rest ih =>
    simp only [registerGenerators, wp_bind]
    have head := new first List.mem_cons_self
    refine wp_mono (registerGeneratorState_apart apart head) (fun _ t after => ?_)
      fun _ _ _ => trivial
    obtain ⟨apart', keys⟩ := after
    obtain ⟨notAgain, nodup'⟩ := List.nodup_cons.mp nodup
    have new' : ∀ gen ∈ rest, gen ∉ t.this.extraGenerators.keys := by
      intro gen member
      rw [keys, List.mem_cons, not_or]
      exact ⟨fun same => notAgain (same ▸ member), new gen (List.mem_cons_of_mem _ member)⟩
    refine wp_mono (ih apart' nodup' new') (fun _ u after => ?_) fun _ _ _ => trivial
    refine ⟨after.1, fun gen => ?_⟩
    rw [after.2 gen, keys, List.mem_cons, List.mem_cons]
    tauto

/-! ### The beginning of a capture -/

/-- The generator has been prepared for a capture with these tensors. -/
def Prepared (s : Session) (gen : GeneratorId) (seed offset : TensorId) : Prop :=
  (s.generators gen).seedExtragraph = some seed ∧
    (s.generators gen).offsetExtragraph = some offset ∧ (s.generators gen).offsetIntragraph = 0

theorem beginExtras_prepares {extras : Extras} (nodup : extras.keys.Nodup) :
    wp (beginExtras rt extras)
      (fun _ t => (∀ extra ∈ extras,
          Prepared t extra.1 extra.2.seedExtragraph extra.2.offsetExtragraph) ∧
        (∀ gen, gen ∉ extras.keys → t.generators gen = s.generators gen) ∧
        t = { s with generators := t.generators, memory := t.memory })
      (fun _ _ => True) s := by
  induction extras generalizing s with
  | nil => exact ⟨fun _ member => (by cases member), fun _ _ => rfl, rfl⟩
  | cons extra rest ih =>
    obtain ⟨gen, data⟩ := extra
    simp only [Extras.keys_cons, List.nodup_cons] at nodup
    obtain ⟨notAgain, nodup'⟩ := nodup
    simp only [beginExtras, currentSeed, currentStreamCaptureStatus, wp_bind, wp_gcuCheck, wp_get,
      wp_pure, wp_torchCheck, copyToDevice, wp_modify, prologue, onGenerator, wp_zoom,
      implies_true, and_true]
    intro _ _ _
    refine wp_mono (ih nodup') (fun _ t after => ?_) fun _ _ _ => trivial
    obtain ⟨prepared, others, unchanged⟩ := after
    refine ⟨fun extra member => ?_, fun other absent => ?_, ?_⟩
    · rcases List.mem_cons.mp member with rfl | later
      · have here := others gen notAgain
        simp only [Prepared, here]
        simp [Session.setGenerator, capturePrologue]
      · exact prepared extra later
    · simp only [Extras.keys_cons, List.mem_cons, not_or] at absent
      obtain ⟨differs, absent'⟩ := absent
      rw [others other absent']
      simp [Session.setGenerator, Session.writeTensor, Function.update_of_ne differs]
    · rw [unchanged]
      rfl

/-- The tensors that a generator's captured kernels read: those registered for it, or those
of the graph itself, which are made for the default generator. -/
def Pointers (extras : Extras) (default : GeneratorId) (seed offset : TensorId)
    (pointers : GeneratorId → TensorId × TensorId) : Prop :=
  (∀ extra ∈ extras, pointers extra.1 = (extra.2.seedExtragraph, extra.2.offsetExtragraph)) ∧
    (default ∉ extras.keys → pointers default = (seed, offset))

theorem beginGenerators_prepares {pointers : GeneratorId → TensorId × TensorId}
    (nodup : s.this.extraGenerators.keys.Nodup) (default : GeneratorId)
    (points : Pointers s.this.extraGenerators default s.nextTensor (s.nextTensor + 1) pointers) :
    wp (beginGenerators rt default)
      (fun _ t => CapturingFrom (default :: s.this.extraGenerators.keys) pointers [] t ∧
        t.this = { s.this with
          seedExtragraph := s.nextTensor, offsetExtragraph := s.nextTensor + 1 } ∧
        t.defaultGenerators = s.defaultGenerators ∧ t.currentDevice = s.currentDevice ∧
        t.currentStreams = s.currentStreams)
      (fun _ _ => True) s := by
  simp only [beginGenerators, emptyTensor, wp_bind, wp_get, wp_gcuCheck, wp_set, wp_pure, modifyThis,
    wp_modify, Session.setThis, currentSeed, currentStreamCaptureStatus, wp_torchCheck, copyToDevice,
    prologue, onGenerator, wp_zoom, implies_true, and_true]
  intro _ _ _ _ _
  have perm := rt.extraOrder_perm s.this.extraGenerators
  have keys : (rt.extraOrder s.this.extraGenerators).keys.Perm s.this.extraGenerators.keys :=
    perm.map _
  refine wp_mono (beginExtras_prepares (keys.nodup_iff.mpr nodup)) (fun _ t after => ?_)
    fun _ _ _ => trivial
  obtain ⟨prepared, others, unchanged⟩ := after
  have registered : ∀ gen ∈ s.this.extraGenerators.keys,
      Prepared t gen (pointers gen).1 (pointers gen).2 := by
    intro gen member
    obtain ⟨extra, member', rfl⟩ := List.mem_map.mp member
    rw [points.1 extra member']
    exact prepared extra (perm.mem_iff.mpr member')
  refine ⟨fun gen member => ?_, by rw [unchanged]; rfl, by rw [unchanged]; rfl,
    by rw [unchanged]; rfl, by rw [unchanged]; rfl⟩
  by_cases extra : gen ∈ s.this.extraGenerators.keys
  · obtain ⟨seed, offset, intragraph⟩ := registered gen extra
    exact ⟨seed, offset, intragraph⟩
  · rcases List.mem_cons.mp member with rfl | member
    · have here := others gen fun member => extra (keys.mem_iff.mp member)
      rw [here, points.2 extra]
      simp [Session.setGenerator, Session.writeTensor, capturePrologue]
    · exact absurd member extra

theorem beginStream_result (stream : GCUStream) :
    wp (beginStream rt stream)
      (fun _ t => t.this = s.this ∧ t.generators = s.generators ∧
        t.defaultGenerators = s.defaultGenerators ∧ t.currentDevice = s.currentDevice ∧
        t.currentStreams = s.currentStreams ∧ t.captureStatus stream = .active)
      (fun _ _ => True) s := by
  simp only [beginStream, wp_bind, wp_get, onAllocator, wp_torchCheck, wp_zoom]
  refine ⟨fun _ => wp_intro (fun _ st => ?_) fun _ _ => trivial, fun _ => trivial⟩
  simp only [wp_modify, wp_gcuCheck]
  refine ⟨fun _ => ?_, fun _ _ => trivial⟩
  cases rt.topsStreamGetCaptureInfo with
  | error error => trivial
  | ok status =>
    simp only [wp_bind, wp_internalAssert, wp_get]
    refine ⟨fun _ => ⟨fun _ => ?_, fun _ => trivial⟩, fun _ => trivial⟩
    simp [Session.setAllocator]

/-- What a capture begun in `s` is to rely on. -/
structure Begun (s : Session) (pointers : GeneratorId → TensorId × TensorId) (t : Session) :
    Prop where
  capturing : CapturingFrom (s.defaultGenerator :: s.this.extraGenerators.keys) pointers [] t
  extras : t.this.extraGenerators = s.this.extraGenerators
  seed : t.this.seedExtragraph = s.nextTensor
  offset : t.this.offsetExtragraph = s.nextTensor + 1
  stream : t.this.captureStream = s.currentStream
  gen : t.this.captureGen = s.defaultGenerator
  defaults : t.defaultGenerators = s.defaultGenerators
  device : t.currentDevice = s.currentDevice
  status : t.captureStatus t.currentStream = .active

theorem captureBegin_result {pointers : GeneratorId → TensorId × TensorId} (pool : MempoolId)
    (nodup : s.this.extraGenerators.keys.Nodup)
    (points : Pointers s.this.extraGenerators s.defaultGenerator s.nextTensor (s.nextTensor + 1)
      pointers) :
    wp (captureBegin rt pool) (fun _ t => Begun s pointers t) (fun _ _ => True) s := by
  simp only [captureBegin, wp_bind, wp_get, wp_torchCheck]
  refine ⟨fun _ => ?_, fun _ => trivial⟩
  refine wp_mono (beginGenerators_prepares nodup s.defaultGenerator points) (fun _ t after => ?_)
    fun _ _ _ => trivial
  obtain ⟨capturing, this, defaults, device, streams⟩ := after
  have stream : t.currentStream = s.currentStream := by
    simp only [Session.currentStream, device, streams]
  have begun : ∀ u : Session, u.generators = t.generators →
      u.defaultGenerators = t.defaultGenerators → u.currentDevice = t.currentDevice →
      u.currentStreams = t.currentStreams →
      (∃ id mempoolId captureDev, u.this = { t.this with
        captureStream := t.currentStream, captureGen := s.defaultGenerator, id, mempoolId,
        captureDev }) →
      wp (beginStream rt t.currentStream) (fun _ t => Begun s pointers t) (fun _ _ => True) u := by
    rintro u generators defaults' device' streams' ⟨id, mempoolId, captureDev, members⟩
    refine wp_mono (beginStream_result _) (fun _ v after => ?_) fun _ _ _ => trivial
    obtain ⟨this', generators', defaults'', device'', streams'', status⟩ := after
    have same : v.this = u.this := this'
    have current : v.currentStream = t.currentStream := by
      simp only [Session.currentStream, device'', device', streams'', streams']
    constructor
    · intro gen member
      rw [generators', generators]
      exact capturing gen member
    · rw [same, members, this]
    · rw [same, members, this]
    · rw [same, members, this]
    · rw [same, members, stream]
    · rw [same, members]
    · rw [defaults'', defaults', defaults]
    · rw [device'', device', device]
    · rw [current, status]
  refine ⟨fun _ => ?_, fun _ => trivial⟩
  simp only [modifyThis, wp_modify, captureSequenceId, wp_bind, wp_get, wp_set, wp_pure, wp_ite,
    wp_internalAssert]
  exact ⟨fun _ => ⟨fun _ => begun _ rfl rfl rfl rfl ⟨_, _, _, rfl⟩, fun _ => trivial⟩,
    fun _ => begun _ rfl rfl rfl rfl ⟨_, _, _, rfl⟩⟩

/-! ### The end of a capture -/

/-- An entry with what the capture has advanced its generator by. -/
def closed (intragraph : GeneratorId → UInt32) (extra : GeneratorId × ExtraGenData) :
    GeneratorId × ExtraGenData :=
  (extra.1, { extra.2 with wholegraphIncrement := (intragraph extra.1).toUInt64 })

def Session.intragraph (s : Session) (gen : GeneratorId) : UInt32 :=
  (s.generators gen).offsetIntragraph

theorem captureEpilogue_result (gen : GeneratorId) :
    wp (onGenerator gen captureEpilogue)
      (fun whole t => whole = (s.intragraph gen).toUInt64 ∧ t.intragraph = s.intragraph ∧
        t = { s with generators := t.generators })
      (fun _ _ => True) s := by
  simp only [onGenerator, wp_zoom, captureEpilogue, wp_bind, wp_modify, wp_get, wp_pure]
  refine ⟨rfl, ?_, rfl⟩
  funext other
  by_cases same : other = gen
  · subst same
    simp [Session.intragraph, Session.setGenerator]
  · simp [Session.intragraph, Session.setGenerator, Function.update_of_ne same]

theorem endExtras_result (extras : Extras) :
    wp (endExtras extras)
      (fun result t => result = extras.map (closed s.intragraph) ∧ t.intragraph = s.intragraph ∧
        t = { s with generators := t.generators })
      (fun _ _ => True) s := by
  induction extras generalizing s with
  | nil => exact ⟨rfl, rfl, rfl⟩
  | cons extra rest ih =>
    simp only [endExtras, wp_bind, wp_pure]
    refine wp_mono (captureEpilogue_result extra.1) (fun _ t after => ?_) fun _ _ _ => trivial
    obtain ⟨rfl, same, unchanged⟩ := after
    refine wp_mono ih (fun result u after => ?_) fun _ _ _ => trivial
    obtain ⟨rfl, same', unchanged'⟩ := after
    refine ⟨by rw [same]; rfl, by rw [same', same], ?_⟩
    rw [unchanged', unchanged]

theorem closed_keys (intragraph : GeneratorId → UInt32) (extras : Extras) :
    Extras.keys (extras.map (closed intragraph)) = extras.keys := by
  simp [Extras.keys, closed, Function.comp_def]

theorem closed_tensors (intragraph : GeneratorId → UInt32) (extras : Extras) :
    Extras.tensors (extras.map (closed intragraph)) = extras.tensors := by
  simp [Extras.tensors, closed, List.flatMap_map]

/-- What a replay is to rely on. -/
structure Ended (s t : Session) : Prop where
  whole : t.this.wholegraphIncrement = (s.intragraph s.this.captureGen).toUInt64
  extras : ∃ order : Extras, order.Perm s.this.extraGenerators ∧
    t.this.extraGenerators = order.map (closed s.intragraph)
  seed : t.this.seedExtragraph = s.this.seedExtragraph
  offset : t.this.offsetExtragraph = s.this.offsetExtragraph
  stream : t.this.captureStream = s.this.captureStream

/-- Letting go of the graph changes nothing that a replay relies on. -/
theorem dropGraph_ended (graph : Handle) : Preserves (fun t => Ended s t) (do
    modify (·.logGraph (.used graph))
    gcuCheck rt.topsGraphGetNodes
    if !(← get).gcuGraphsDebug then
      gcuCheck (← graphDestroy rt)
      modifyThis fun this => { this with hasGraph := false }
    modify fun s => { s with currentGcuGraph := none } : SessionM Unit) := by
  have same : ∀ {t u : Session}, Ended s t → (∃ hasGraph, u.this = { t.this with hasGraph }) →
      Ended s u := by
    rintro t u ended ⟨hasGraph, this⟩
    exact ⟨by rw [this]; exact ended.whole, by rw [this]; exact ended.extras,
      by rw [this]; exact ended.seed, by rw [this]; exact ended.offset,
      by rw [this]; exact ended.stream⟩
  apply Preserves.bind
  · exact .modify fun t ended => same ended ⟨_, rfl⟩
  intro _
  apply Preserves.bind
  · exact gcuCheck_preserves _
  intro _
  apply Preserves.bind .get
  intro _
  have last : Preserves (fun t => Ended s t)
      (modify fun s => { s with currentGcuGraph := none } : SessionM Unit) :=
    .modify fun t ended => same ended ⟨_, rfl⟩
  apply Preserves.ite
  · apply Preserves.bind
    · intro t ended
      simp only [graphDestroy, wp_bind, wp_get]
      cases t.this.graph with
      | none => exact ended
      | some graph => exact same ended ⟨_, rfl⟩
    intro _
    apply Preserves.bind
    · exact gcuCheck_preserves _
    intro _
    apply Preserves.bind
    · exact .modify fun t ended => same ended ⟨_, rfl⟩
    intro _
    exact last
  · exact last

theorem endGenerators_result (graph : Handle) :
    wp (endGenerators rt graph) (fun _ t => Ended s t) (fun _ _ => True) s := by
  simp only [endGenerators]
  rw [wp_bind, wp_get, wp_bind, wp_get, wp_bind, wp_torchCheck]
  refine ⟨fun same => ?_, fun _ => trivial⟩
  rw [wp_bind]
  refine wp_mono (captureEpilogue_result _) (fun _ t after => ?_) fun _ _ _ => trivial
  obtain ⟨rfl, intragraph, unchanged⟩ := after
  rw [wp_bind, modifyThis, wp_modify, wp_bind, wp_get, wp_bind]
  refine wp_mono (endExtras_result _) (fun _ u after => ?_) fun _ _ _ => trivial
  obtain ⟨rfl, -, unchanged'⟩ := after
  rw [wp_bind, modifyThis, wp_modify]
  have this : t.this = s.this := by rw [unchanged]
  have counted : (t.setThis { t.this with
      wholegraphIncrement := (s.intragraph s.defaultGenerator).toUInt64 }).intragraph =
      s.intragraph := intragraph
  refine wp_mono (dropGraph_ended graph _ ?_) (fun _ _ ended => ended) fun _ _ _ => trivial
  rw [unchanged']
  constructor
  · simp [Session.setThis, of_decide_eq_true same]
  · exact ⟨_, rt.extraOrder_perm _, by rw [← this, ← counted]; rfl⟩
  · simp [Session.setThis, this]
  · simp [Session.setThis, this]
  · simp [Session.setThis, this]

/-- The same generators, and the same object up to the handles it holds. -/
def SameCapture (s t : Session) : Prop :=
  t.generators = s.generators ∧ ∃ graph graphExec hasGraph hasGraphExec,
    t.this = { s.this with graph, graphExec, hasGraph, hasGraphExec }

theorem SameCapture.step {s t u : Session} (same : SameCapture s t)
    (generators : u.generators = t.generators) (this : ∃ graph graphExec hasGraph hasGraphExec,
      u.this = { t.this with graph, graphExec, hasGraph, hasGraphExec }) : SameCapture s u := by
  obtain ⟨generators', graph, graphExec, hasGraph, hasGraphExec, this'⟩ := same
  obtain ⟨graph', graphExec', hasGraph', hasGraphExec', this⟩ := this
  exact ⟨generators.trans generators', graph', graphExec', hasGraph', hasGraphExec', by
    rw [this, this']⟩

theorem Ended.of_same {t u : Session} (same : SameCapture s t) (ended : Ended t u) : Ended s u := by
  obtain ⟨generators, graph, graphExec, hasGraph, hasGraphExec, this⟩ := same
  have counted : t.intragraph = s.intragraph := by
    funext gen
    rw [Session.intragraph, generators, Session.intragraph]
  obtain ⟨whole, extras, seed, offset, stream⟩ := ended
  simp only [this, counted] at whole extras seed offset stream
  exact ⟨whole, extras, seed, offset, stream⟩

theorem streamEndCapture_same : Preserves (fun t => SameCapture s t) (streamEndCapture rt) := by
  intro t same
  simp only [streamEndCapture]
  cases rt.topsStreamEndCapture with
  | error error => exact same
  | ok captured =>
    cases captured with
    | false => exact same.step rfl ⟨_, _, _, _, rfl⟩
    | true => exact same.step rfl ⟨_, _, _, _, rfl⟩

theorem graphInstantiate_same (graph : Handle) :
    Preserves (fun t => SameCapture s t) (graphInstantiate rt graph) := by
  apply Preserves.bind
  · exact .modify fun t same => same.step rfl ⟨_, _, _, _, rfl⟩
  intro _
  apply Preserves.bind
  · exact gcuCheck_preserves _
  intro _
  apply Preserves.bind .get
  intro _
  apply Preserves.bind
  · exact .modify fun t same => same.step rfl ⟨_, _, _, _, rfl⟩
  intro _
  exact .modify fun t same => same.step rfl ⟨_, _, _, _, rfl⟩

theorem captureEnd_result : wp (captureEnd rt) (fun _ t => Ended s t) (fun _ _ => True) s := by
  have start : SameCapture s s := ⟨rfl, _, _, _, _, rfl⟩
  have flag : ∀ f : GCUGraph → GCUGraph, (∀ this, ∃ graph graphExec hasGraph hasGraphExec,
      f this = { this with graph, graphExec, hasGraph, hasGraphExec }) →
      Preserves (fun t => SameCapture s t) (modifyThis f) := fun f keeps =>
    .modify fun t same => same.step rfl (keeps t.this)
  simp only [captureEnd]
  rw [wp_bind, wp_get, wp_bind, wp_get, wp_bind, wp_torchCheck]
  refine ⟨fun _ => ?_, fun _ => trivial⟩
  refine Preserves.seq streamEndCapture_same start (fun _ _ _ => trivial) fun _ t same => ?_
  rw [wp_bind, wp_get]
  have recorded : Preserves (fun t => SameCapture s t) (onAllocator t.this.captureDev
      (GCUCachingAllocator.endAllocateToPool t.this.mempoolId)) :=
    .bind .get fun _ => .bind (torchCheck_preserves _ _) fun _ =>
      .zoom fun _ _ same => same.step rfl ⟨_, _, _, _, rfl⟩
  refine Preserves.seq recorded same (fun _ _ _ => trivial) fun _ t same => ?_
  rw [wp_bind, wp_get]
  cases t.this.graph with
  | none => trivial
  | some graph =>
    refine Preserves.seq (flag _ fun _ => ⟨_, _, _, _, rfl⟩) same (fun _ _ _ => trivial)
      fun _ t same => ?_
    refine Preserves.seq (graphInstantiate_same graph) same (fun _ _ _ => trivial)
      fun _ t same => ?_
    refine Preserves.seq (flag _ fun _ => ⟨_, _, _, _, rfl⟩) same (fun _ _ _ => trivial)
      fun _ t same => ?_
    rw [wp_bind]
    refine wp_mono (endGenerators_result graph) (fun _ u ended => ?_) fun _ _ _ => trivial
    rw [wp_bind, wp_get]
    have done := ended.of_same same
    cases u.this.graphExec with
    | none => exact done
    | some exec => exact ⟨done.whole, done.extras, done.seed, done.offset, done.stream⟩

end TorchGcu.Graphs

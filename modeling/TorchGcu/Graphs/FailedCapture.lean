import TorchGcu.Graphs.Capture
import TorchGcu.Graphs.Lifetime

/-! What is left behind by a `capture_begin` or `capture_end` that raises, with the
generators, the allocator and the current stream. -/
namespace TorchGcu.Graphs
open ProgramLogic GCUGeneratorImpl
open GCUCachingAllocator (Err TopsError GCUStream DeviceIndex StreamId MempoolId)

variable {rt : GraphRuntime} {s : Session}

/-! ### The checks of `capture_begin` -/

def alreadyCaptured : Err := .torchCheck "This GCUGraph instance already owns a captured graph. "

def onDefaultStream : Err := .torchCheck "GCU graphs must be captured on a non-default stream. "

def bothPoolIds : Err := .internalAssert "!(pool.first && pool.second)"

def alreadyRecording : Err := .torchCheck "beginAllocateToPool: already recording to mempool_id"

/-- The checks made after the generators have been prepared. -/
def LateCheck (e : Err) : Prop := e = onDefaultStream ∨ e = bothPoolIds ∨ e = alreadyRecording

def OwnCheck (e : Err) : Prop := e = alreadyCaptured ∨ LateCheck e

theorem not_ownCheck_gcuError (error : TopsError) : ¬ OwnCheck (.gcuError error) := by
  simp [OwnCheck, LateCheck, alreadyCaptured, onDefaultStream, bothPoolIds, alreadyRecording]

/-- The generators that a capture begun now prepares. -/
def Session.captureGenerators (s : Session) : List GeneratorId :=
  s.defaultGenerator :: s.this.extraGenerators.keys

/-- The pool that a capture begun now records to. -/
def Session.poolFor (s : Session) (pool : MempoolId) : MempoolId :=
  if pool.1 ≠ 0 ∨ pool.2 ≠ 0 then pool else (s.nextCaptureId, 0)

/-- One of the checks of the stream and of the pool's id does not pass. -/
def Session.Unfit (s : Session) (pool : MempoolId) : Prop :=
  s.currentStream = s.defaultStream ∨ pool.1 ≠ 0 ∧ pool.2 ≠ 0

/-- The generators are prepared, and nothing else of the process has changed. -/
structure Readied (s t : Session) : Prop where
  expects : ∀ gen ∈ s.captureGenerators, (t.generators gen).graphExpectsThisGen = true
  others : ∀ gen, gen ∉ s.captureGenerators → t.generators gen = s.generators gen
  allocators : t.allocators = s.allocators
  current : t.currentGcuGraph = s.currentGcuGraph
  device : t.currentDevice = s.currentDevice
  streams : t.currentStreams = s.currentStreams

theorem Readied.stream {t : Session} (readied : Readied s t) : t.currentStream = s.currentStream := by
  rw [Session.currentStream, readied.device, readied.streams, Session.currentStream]

theorem beginExtras_readies (extras : Extras) :
    wp (beginExtras rt extras)
      (fun _ t => (∀ gen ∈ extras.keys, (t.generators gen).graphExpectsThisGen = true) ∧
        (∀ gen, gen ∉ extras.keys → t.generators gen = s.generators gen) ∧
        t = { s with generators := t.generators, memory := t.memory })
      (fun e _ => ¬ OwnCheck e) s := by
  induction extras generalizing s with
  | nil => exact ⟨fun _ member => (by cases member), fun _ _ => rfl, rfl⟩
  | cons extra rest ih =>
    obtain ⟨gen, data⟩ := extra
    simp only [beginExtras, currentSeed, currentStreamCaptureStatus, wp_bind, wp_gcuCheck, wp_get,
      wp_pure, wp_torchCheck, copyToDevice, wp_modify, prologue, onGenerator, wp_zoom]
    refine ⟨fun _ => ⟨fun _ => ⟨fun _ => ?_, fun _ _ => not_ownCheck_gcuError _⟩, fun _ => ?_⟩,
      fun _ _ => not_ownCheck_gcuError _⟩
    · refine wp_mono ih (fun _ t after => ?_) fun _ _ other => other
      obtain ⟨expects, others, unchanged⟩ := after
      have here : gen ∉ Extras.keys rest → (t.generators gen).graphExpectsThisGen = true :=
        fun absent => by
          rw [others gen absent]
          simp [Session.setGenerator, capturePrologue]
      refine ⟨fun other member => ?_, fun other absent => ?_, by rw [unchanged]; rfl⟩
      · by_cases again : other ∈ Extras.keys rest
        · exact expects other again
        · rcases List.mem_cons.mp member with rfl | later
          · exact here again
          · exact absurd later again
      · simp only [Extras.keys_cons, List.mem_cons, not_or] at absent
        rw [others other absent.2]
        simp [Session.setGenerator, Session.writeTensor, Function.update_of_ne absent.1]
    · simp [OwnCheck, LateCheck, alreadyCaptured, onDefaultStream, bothPoolIds, alreadyRecording]

theorem beginGenerators_readies :
    wp (beginGenerators rt s.defaultGenerator)
      (fun _ t => Readied s t ∧ t.nextCaptureId = s.nextCaptureId) (fun e _ => ¬ OwnCheck e) s := by
  simp only [beginGenerators, emptyTensor, wp_bind, wp_get, wp_gcuCheck, wp_set, wp_pure, modifyThis,
    wp_modify, Session.setThis, currentSeed, currentStreamCaptureStatus, wp_torchCheck, copyToDevice,
    prologue, onGenerator, wp_zoom]
  refine ⟨fun _ => ⟨fun _ => ⟨fun _ => ⟨fun _ => ⟨fun _ => ?_, fun _ _ => not_ownCheck_gcuError _⟩,
    fun _ => ?_⟩, fun _ _ => not_ownCheck_gcuError _⟩, fun _ _ => not_ownCheck_gcuError _⟩,
    fun _ _ => not_ownCheck_gcuError _⟩
  · have keys : ∀ gen, gen ∈ (rt.extraOrder s.this.extraGenerators).keys ↔
        gen ∈ s.this.extraGenerators.keys := fun gen =>
      ((rt.extraOrder_perm _).map _).mem_iff
    refine wp_mono (beginExtras_readies _) (fun _ t after => ?_) fun _ _ other => other
    obtain ⟨expects, others, unchanged⟩ := after
    refine ⟨⟨fun gen member => ?_, fun gen absent => ?_, by rw [unchanged]; rfl,
      by rw [unchanged]; rfl, by rw [unchanged]; rfl, by rw [unchanged]; rfl⟩,
      by rw [unchanged]; rfl⟩
    · by_cases extra : gen ∈ s.this.extraGenerators.keys
      · exact expects gen ((keys gen).mpr extra)
      · rcases List.mem_cons.mp member with rfl | member
        · rw [others _ fun member => extra ((keys _).mp member)]
          simp [Session.setGenerator, capturePrologue]
        · exact absurd member extra
    · obtain ⟨differs, notExtra⟩ := not_or.mp fun member => absent (List.mem_cons.mpr member)
      rw [others gen fun member => notExtra ((keys gen).mp member)]
      simp [Session.setGenerator, Session.writeTensor, Function.update_of_ne differs]
  · simp [OwnCheck, LateCheck, alreadyCaptured, onDefaultStream, bothPoolIds, alreadyRecording]

/-- The allocator once it has counted a use of the pool, or made one. -/
def poolTaken (st : GCUCachingAllocator.State) (id : MempoolId) : GCUCachingAllocator.State :=
  match GCUCachingAllocator.State.findPool st.graphPools id with
  | some pool => st.modifyPrivatePool pool fun p => { p with useCount := p.useCount + 1 }
  | none =>
    { st with
      graphPools := st.graphPools ++ [(id, st.nextPrivatePool)]
      privatePools := Function.update st.privatePools st.nextPrivatePool (some {})
      nextPrivatePool := st.nextPrivatePool + 1 }

/-- The use is counted before the check that nobody is recording to the pool. -/
theorem beginAllocateToPool_raises (st : GCUCachingAllocator.State) (id : MempoolId)
    (filter : StreamId → Bool) :
    wp (GCUCachingAllocator.beginAllocateToPool id filter) (fun _ _ => True)
      (fun e st' => OwnCheck e → e = alreadyRecording ∧ st' = poolTaken st id) st := by
  simp only [GCUCachingAllocator.beginAllocateToPool, wp_bind, wp_get, allocator_torchCheck,
    allocator_internalAssert]
  cases found : GCUCachingAllocator.State.findPool st.graphPools id with
  | none =>
    simp only [wp_bind, wp_set, wp_pure, wp_get, wp_torchCheck, wp_modify, poolTaken, found]
    exact ⟨fun _ => trivial, fun _ _ => ⟨rfl, trivial⟩⟩
  | some pool =>
    simp only [wp_bind, wp_set, wp_pure, wp_get, wp_torchCheck, wp_internalAssert, wp_modify,
      poolTaken, found]
    refine ⟨fun _ => ⟨fun _ => trivial, fun _ _ => ⟨rfl, trivial⟩⟩, fun _ own => ?_⟩
    simp [OwnCheck, LateCheck, alreadyCaptured, onDefaultStream, bothPoolIds, alreadyRecording] at own

theorem poolTaken_capturesUnderway (st : GCUCachingAllocator.State) (id : MempoolId) :
    (poolTaken st id).capturesUnderway = st.capturesUnderway := by
  unfold poolTaken
  split <;> rfl

/-- A generator that expects a capture refuses eager calls. -/
theorem eager_refused {gen : GCUGeneratorImpl} (expects : gen.graphExpectsThisGen = true)
    (increment : UInt64) :
    wp (philoxGcuState .none increment) (fun _ _ => False) (fun _ gen' => gen' = gen) gen := by
  simp only [philoxGcuState, wp_bind, wp_get, ne_eq, not_true_eq_false, if_false, wp_torchCheck,
    expects]
  exact ⟨fun never => (by cases never), fun _ => trivial⟩

/-- What a `capture_begin` that raises one of its own checks leaves behind. -/
structure BeginFailure (s : Session) (pool : MempoolId) (e : Err) (t : Session) : Prop where
  early : OwnCheck e → (e = alreadyCaptured ↔ s.this.hasGraphExec = true)
  late : LateCheck e → (e = alreadyRecording ↔ ¬ s.Unfit pool)
  unchanged : e = alreadyCaptured → t = s
  expects : LateCheck e → ∀ gen ∈ s.captureGenerators,
    (t.generators gen).graphExpectsThisGen = true
  refused : LateCheck e → ∀ gen ∈ s.captureGenerators, ∀ increment,
    wp (philoxGcuState .none increment) (fun _ _ => False) (fun _ _ => True) (t.generators gen)
  others : LateCheck e → ∀ gen, gen ∉ s.captureGenerators → t.generators gen = s.generators gen
  current : LateCheck e →
    t.currentGcuGraph = s.currentGcuGraph ∧ t.currentStream = s.currentStream
  underway : LateCheck e → ∀ device,
    (t.allocators device).capturesUnderway = (s.allocators device).capturesUnderway
  unrecorded : e = onDefaultStream ∨ e = bothPoolIds → t.allocators = s.allocators
  recorded : e = alreadyRecording → t.allocators = Function.update s.allocators s.currentDevice
    (poolTaken (s.allocators s.currentDevice) (s.poolFor pool))

variable {pool : MempoolId} {e : Err} {t u : Session}

theorem BeginFailure.of_other (other : ¬ OwnCheck e) : BeginFailure s pool e t := by
  have late : ¬ LateCheck e := fun late => other (.inr late)
  exact ⟨fun own => absurd own other, fun l => absurd l late,
    fun early => absurd (.inl early) other, fun l => absurd l late, fun l => absurd l late,
    fun l => absurd l late, fun l => absurd l late, fun l => absurd l late,
    fun l => absurd (l.elim .inl fun both => .inr (.inl both)) late,
    fun l => absurd (.inr (.inr l)) late⟩

theorem BeginFailure.of_readied (readied : Readied s t) (notEarly : e ≠ alreadyCaptured)
    (notCaptured : s.this.hasGraphExec = false) (late : e = alreadyRecording ↔ ¬ s.Unfit pool)
    (unrecorded : e = onDefaultStream ∨ e = bothPoolIds → u.allocators = t.allocators)
    (recorded : e = alreadyRecording → u.allocators = Function.update t.allocators s.currentDevice
      (poolTaken (t.allocators s.currentDevice) (s.poolFor pool)))
    (generators : u.generators = t.generators)
    (current : u.currentGcuGraph = t.currentGcuGraph ∧ u.currentStream = t.currentStream) :
    BeginFailure s pool e u where
  early _ := ⟨fun early => absurd early notEarly, fun captured => by simp [notCaptured] at captured⟩
  late _ := late
  unchanged early := absurd early notEarly
  expects _ gen member := by
    rw [generators]
    exact readied.expects gen member
  refused _ gen member increment := by
    rw [generators]
    exact wp_mono (eager_refused (readied.expects gen member) increment) (fun _ _ never => never)
      fun _ _ _ => trivial
  others _ gen absent := by
    rw [generators]
    exact readied.others gen absent
  current _ := ⟨current.1.trans readied.current, current.2.trans readied.stream⟩
  underway late device := by
    rcases late with first | second | third
    · rw [unrecorded (.inl first), readied.allocators]
    · rw [unrecorded (.inr second), readied.allocators]
    · rw [recorded third, readied.allocators]
      by_cases same : device = s.currentDevice
      · subst same
        rw [Function.update_self, poolTaken_capturesUnderway]
      · rw [Function.update_of_ne same]
  unrecorded early := (unrecorded early).trans readied.allocators
  recorded late := by rw [recorded late, readied.allocators]

theorem beginStream_raises (stream : GCUStream) :
    wp (beginStream rt stream) (fun _ _ => True)
      (fun e t => OwnCheck e → e = alreadyRecording ∧ t = s.setAllocator s.this.captureDev
        (poolTaken (s.allocators s.this.captureDev) s.this.mempoolId)) s := by
  simp only [beginStream, wp_bind, wp_get, onAllocator, wp_torchCheck, wp_zoom]
  refine ⟨fun _ => ?_, fun _ own => ?_⟩
  · refine wp_mono (beginAllocateToPool_raises _ _ _) (fun _ st _ => ?_) fun e st raised own => ?_
    · simp only [wp_modify, wp_gcuCheck]
      refine ⟨fun _ => ?_, fun error _ own => absurd own (not_ownCheck_gcuError error)⟩
      cases rt.topsStreamGetCaptureInfo with
      | error error => exact fun own => absurd own (not_ownCheck_gcuError error)
      | ok status =>
        simp only [wp_bind, wp_internalAssert, wp_get, implies_true, true_and]
        constructor <;>
          simp [OwnCheck, LateCheck, alreadyCaptured, onDefaultStream, bothPoolIds,
            alreadyRecording]
    · obtain ⟨recording, rfl⟩ := raised own
      exact ⟨recording, rfl⟩
  · simp [OwnCheck, LateCheck, alreadyCaptured, onDefaultStream, bothPoolIds, alreadyRecording] at own

theorem captureBegin_raises (pool : MempoolId) :
    wp (captureBegin rt pool) (fun _ _ => True) (BeginFailure s pool) s := by
  simp only [captureBegin, wp_bind, wp_get, wp_torchCheck]
  refine ⟨fun new => ?_, fun captured => ?_⟩
  · have new : s.this.hasGraphExec = false := by simpa using new
    refine wp_mono beginGenerators_readies (fun _ t after => ?_) fun _ _ other => .of_other other
    obtain ⟨readied, nextId⟩ := after
    have default : t.defaultStream = s.defaultStream := by
      rw [Session.defaultStream, readied.device, Session.defaultStream]
    rw [readied.stream, default]
    refine ⟨fun apart => ?_, fun same => ?_⟩
    · have apart : s.currentStream ≠ s.defaultStream := of_decide_eq_true apart
      have rest : ∀ u : Session, u.generators = t.generators → u.allocators = t.allocators →
          u.currentGcuGraph = t.currentGcuGraph → u.currentStream = t.currentStream →
          u.this.captureDev = s.currentDevice → u.this.mempoolId = s.poolFor pool →
          ¬ (pool.1 ≠ 0 ∧ pool.2 ≠ 0) →
          wp (beginStream rt s.currentStream) (fun _ _ => True) (BeginFailure s pool) u := by
        intro u generators allocators current stream device id single
        refine wp_mono (beginStream_raises _) (fun _ _ _ => trivial) fun e v raised => ?_
        by_cases own : OwnCheck e
        · obtain ⟨rfl, rfl⟩ := raised own
          have fit : ¬ s.Unfit pool := not_or.mpr ⟨apart, single⟩
          refine .of_readied readied (by decide) new (iff_of_true rfl fit) (fun early => ?_)
            (fun _ => ?_) generators ⟨current, stream⟩
          · simp [onDefaultStream, bothPoolIds, alreadyRecording] at early
          · simp only [Session.setAllocator, device, id, allocators]
        · exact .of_other own
      simp only [modifyThis, wp_modify, captureSequenceId, wp_bind, wp_get, wp_set, wp_pure, wp_ite,
        wp_internalAssert]
      refine ⟨fun shared => ⟨fun single => rest _ rfl rfl rfl rfl readied.device ?_ ?_,
        fun both => ?_⟩, fun own => rest _ rfl rfl rfl rfl readied.device ?_ fun both => own (.inl both.1)⟩
      · simp [Session.setThis, Session.poolFor, shared]
      · simpa [Classical.or_iff_not_imp_left] using single
      · have unfit : s.Unfit pool := .inr (by simpa using both)
        exact .of_readied readied (by decide) new (iff_of_false (by decide) (not_not.mpr unfit))
          (fun _ => rfl) (fun late => by cases late) rfl ⟨rfl, readied.stream ▸ rfl⟩
      · simp [Session.setThis, Session.poolFor, own, nextId]
    · have unfit : s.Unfit pool := .inl (by simpa using same)
      exact .of_readied readied (by decide) new
        (iff_of_false (by simp [alreadyRecording]) (not_not.mpr unfit))
        (fun _ => rfl) (fun late => by simp [alreadyRecording] at late) rfl ⟨rfl, rfl⟩
  · refine ⟨fun _ => iff_of_true rfl (by simpa using captured), ?_, fun _ => rfl, ?_, ?_, ?_, ?_, ?_,
      ?_, ?_⟩ <;> simp [LateCheck, onDefaultStream, bothPoolIds, alreadyRecording]

/-! ### The end of a capture -/

def invalidCapture : Err := .torchCheck "Invalid capture."

def otherGenerator : Err :=
  .torchCheck "Default GCU RNG generator on current device at capture end "

/-- What `capture_end` raises when the stream capture has ended: an invalid capture, a failed
instantiation, or another default generator. -/
def AfterEnd (rt : GraphRuntime) (e : Err) : Prop :=
  e = invalidCapture ∨ e = otherGenerator ∨
    (∃ captured, rt.topsStreamEndCapture = .ok captured) ∧
      ∃ error, rt.topsGraphInstantiate = some error ∧ e = .gcuError error

def captureUnlisted (st : GCUCachingAllocator.State) (id : MempoolId) :
    GCUCachingAllocator.State :=
  { st with capturesUnderway := st.capturesUnderway.eraseP fun entry => decide (entry.1 = id) }

/-- What is left behind then: the allocator no longer lists the capture, and the generators,
the current stream and the graph said to be current are as before the call. -/
structure EndFailure (rt : GraphRuntime) (s : Session) (e : Err) (t : Session) : Prop where
  generators : AfterEnd rt e → t.generators = s.generators
  current : AfterEnd rt e →
    t.currentGcuGraph = s.currentGcuGraph ∧ t.currentStream = s.currentStream
  released : AfterEnd rt e → t.allocators = Function.update s.allocators s.this.captureDev
    (captureUnlisted (s.allocators s.this.captureDev) s.this.mempoolId)
  unlisted : AfterEnd rt e →
    ((s.allocators s.this.captureDev).capturesUnderway.map (·.1)).Nodup →
    ∀ entry ∈ (t.allocators s.this.captureDev).capturesUnderway, entry.1 ≠ s.this.mempoolId

theorem captureUnlisted_absent {st : GCUCachingAllocator.State} {id : MempoolId}
    (nodup : (st.capturesUnderway.map (·.1)).Nodup) :
    ∀ entry ∈ (captureUnlisted st id).capturesUnderway, entry.1 ≠ id := by
  simp only [captureUnlisted]
  generalize st.capturesUnderway = underway at nodup ⊢
  induction underway with
  | nil => exact fun _ member => (by cases member)
  | cons first rest ih =>
    simp only [List.map_cons, List.nodup_cons] at nodup
    intro entry member
    by_cases same : first.1 = id
    · rw [List.eraseP_cons_of_pos (by simpa using same)] at member
      rintro rfl
      exact nodup.1 (same ▸ List.mem_map_of_mem member)
    · rw [List.eraseP_cons_of_neg (by simpa using same)] at member
      rcases List.mem_cons.mp member with rfl | later
      · exact same
      · exact ih nodup.2 entry later

/-- The stream capture has ended and the allocator has been told; nothing else has changed. -/
structure Unlisted (s t : Session) : Prop where
  generators : t.generators = s.generators
  current : t.currentGcuGraph = s.currentGcuGraph
  stream : t.currentStream = s.currentStream
  allocators : t.allocators = Function.update s.allocators s.this.captureDev
    (captureUnlisted (s.allocators s.this.captureDev) s.this.mempoolId)

theorem Unlisted.failure (unlisted : Unlisted s t) : EndFailure rt s e t where
  generators _ := unlisted.generators
  current _ := ⟨unlisted.current, unlisted.stream⟩
  released _ := unlisted.allocators
  unlisted _ nodup := by
    rw [unlisted.allocators, Function.update_self]
    exact captureUnlisted_absent nodup

theorem EndFailure.of_other (other : ¬ AfterEnd rt e) : EndFailure rt s e t :=
  ⟨fun after => absurd after other, fun after => absurd after other,
    fun after => absurd after other, fun after => absurd after other⟩

/-- `topsStreamEndCapture` and `endAllocateToPool`, when neither raises an error that comes
after the end. -/
theorem streamEnd_raises :
    wp (do
        streamEndCapture rt
        let this := (← get).this
        onAllocator this.captureDev (GCUCachingAllocator.endAllocateToPool this.mempoolId))
      (fun _ t => Unlisted s t ∧ t.defaultGenerator = s.defaultGenerator) (EndFailure rt s) s := by
  have ends : ∀ t : Session, t.generators = s.generators → t.allocators = s.allocators →
      t.currentGcuGraph = s.currentGcuGraph → t.currentStream = s.currentStream →
      t.defaultGenerator = s.defaultGenerator →
      t.this.captureDev = s.this.captureDev → t.this.mempoolId = s.this.mempoolId →
      wp (onAllocator t.this.captureDev (GCUCachingAllocator.endAllocateToPool t.this.mempoolId))
        (fun _ u => Unlisted s u ∧ u.defaultGenerator = s.defaultGenerator)
        (EndFailure rt s) t := by
    intro t generators allocators current stream default device id
    simp only [onAllocator, wp_bind, wp_get, wp_torchCheck, wp_zoom,
      GCUCachingAllocator.endAllocateToPool]
    refine ⟨fun _ => ?_, fun _ => .of_other ?_⟩
    · split
      · simp only [wp_set]
        refine ⟨⟨generators, current, stream, ?_⟩, default⟩
        simp only [Session.setAllocator, captureUnlisted, device, id, allocators]
      · exact .of_other (by simp [AfterEnd, invalidCapture, otherGenerator])
    · simp [AfterEnd, invalidCapture, otherGenerator]
  simp only [streamEndCapture]
  cases ended : rt.topsStreamEndCapture with
  | error error => exact .of_other (by simp [AfterEnd, invalidCapture, otherGenerator, ended])
  | ok captured =>
    cases captured with
    | false =>
      simp only [wp_bind, wp_modify, Bool.false_eq_true, if_false, modifyThis, wp_get]
      exact ends _ rfl rfl rfl rfl rfl rfl rfl
    | true =>
      simp only [wp_bind, wp_modify, if_true, modifyThis, wp_get]
      exact ends _ rfl rfl rfl rfl rfl rfl rfl

def RuntimeError (e : Err) : Prop := ∃ error, e = .gcuError error

theorem gcuCheck_raises (answer : Option TopsError) :
    Raises RuntimeError (gcuCheck answer : SessionM Unit) := fun _ =>
  (wp_gcuCheck answer).mpr ⟨fun _ => trivial, fun error _ => ⟨error, rfl⟩⟩

theorem captureEpilogue_raises (gen : GeneratorId) :
    Raises RuntimeError (onGenerator gen captureEpilogue) := fun s => by
  simp [onGenerator, captureEpilogue]

theorem endExtras_raises (extras : Extras) : Raises RuntimeError (endExtras extras) := by
  induction extras with
  | nil => exact .pure _
  | cons extra rest ih =>
    exact .bind (captureEpilogue_raises _) fun _ => .bind ih fun _ => .pure _

/-- What follows the check of the default generator raises nothing but runtime errors. -/
theorem endGenerators_raises (graph : Handle) (instantiated : rt.topsGraphInstantiate = none)
    (unlisted : Unlisted s t) :
    wp (endGenerators rt graph) (fun _ _ => True) (EndFailure rt s) t := by
  have other : ∀ e, RuntimeError e → ¬ AfterEnd rt e := by
    rintro _ ⟨error, rfl⟩
    simp [AfterEnd, invalidCapture, otherGenerator, instantiated]
  simp only [endGenerators]
  rw [wp_bind, wp_get, wp_bind, wp_get, wp_bind, wp_torchCheck]
  refine ⟨fun _ => ?_, fun _ => unlisted.failure⟩
  refine wp_mono (Raises.bind (captureEpilogue_raises _) (fun _ => ?_) t) (fun _ _ _ => trivial)
    fun e _ raised => .of_other (other e raised)
  apply Raises.bind (.modify _)
  intro _
  apply Raises.bind .get
  intro _
  apply Raises.bind (endExtras_raises _)
  intro _
  apply Raises.bind (.modify _)
  intro _
  apply Raises.bind (.modify _)
  intro _
  apply Raises.bind (gcuCheck_raises _)
  intro _
  apply Raises.bind .get
  intro _
  apply Raises.ite
  · apply Raises.bind
    · intro u
      exact graphDestroy_result.mpr trivial
    intro _
    exact .bind (gcuCheck_raises _) fun _ => .bind (.modify _) fun _ => .modify _
  · exact .modify _

theorem captureEnd_raises :
    wp (captureEnd rt) (fun _ _ => True) (EndFailure rt s) s := by
  simp only [captureEnd]
  rw [wp_bind, wp_get, wp_bind, wp_get, wp_bind, wp_torchCheck]
  refine ⟨fun _ => ?_, fun _ => .of_other (by simp [AfterEnd, invalidCapture, otherGenerator])⟩
  rw [wp_bind]
  refine wp_mono ((wp_bind ..).mp streamEnd_raises) (fun _ t after => ?_) fun _ _ failure => failure
  rw [wp_bind, wp_get] at after ⊢
  rw [wp_bind]
  refine wp_mono after (fun _ t after => ?_) fun _ _ failure => failure
  obtain ⟨unlisted, -⟩ := after
  rw [wp_bind, wp_get]
  cases t.this.graph with
  | none => exact unlisted.failure
  | some graph =>
    have kept : ∀ u : Session, u.generators = t.generators → u.allocators = t.allocators →
        u.currentGcuGraph = t.currentGcuGraph → u.currentStream = t.currentStream →
        Unlisted s u := fun u generators allocators current stream =>
      ⟨generators.trans unlisted.generators, current.trans unlisted.current,
        stream.trans unlisted.stream, allocators.trans unlisted.allocators⟩
    simp only [modifyThis, wp_bind, wp_modify, graphInstantiate, wp_gcuCheck, wp_get]
    refine ⟨fun instantiated => ?_, fun _ _ => ?_⟩
    case refine_2 =>
      apply Unlisted.failure
      exact kept _ rfl rfl rfl rfl
    refine wp_mono (endGenerators_raises graph instantiated (kept _ rfl rfl rfl rfl))
      (fun _ u _ => ?_) fun _ _ failure => failure
    cases u.this.graphExec <;> trivial

/-! ### The context manager -/

/-- The session once `torch.gcu.graph` has entered the stream. -/
def Session.entered (s : Session) (stream : GCUStream) : Session :=
  { s with
    currentDevice := stream.deviceIndex
    currentStreams := Function.update s.currentStreams stream.deviceIndex stream.stream }

@[simp] theorem Session.currentStream_entered (s : Session) (stream : GCUStream) :
    (s.entered stream).currentStream = stream := by
  simp [Session.currentStream, Session.entered]

theorem graphEnter_fails (stream : GCUStream) (pool : MempoolId) :
    wp (graphEnter rt stream pool) (fun _ _ => True) (BeginFailure (s.entered stream) pool) s := by
  simp only [graphEnter, StreamContext.enter, setStream, wp_bind, wp_get, wp_modify, wp_pure]
  exact captureBegin_raises pool

theorem graphExit_fails (ctx : StreamContext) :
    wp (graphExit rt ctx) (fun _ _ => True) (EndFailure rt s) s := by
  simp only [graphExit, wp_bind]
  refine wp_mono captureEnd_raises (fun _ t _ => ?_) fun _ _ failure => failure
  simp only [StreamContext.exit, setStream]
  split <;> simp

theorem BeginFailure.stream (failure : BeginFailure s pool e t) (own : OwnCheck e) :
    t.currentStream = s.currentStream := by
  rcases own with early | late
  · rw [failure.unchanged early]
  · exact (failure.current late).2

/-- When a capture entered through `torch.gcu.graph` fails to begin, its stream stays current. -/
theorem graphEnter_raises (stream : GCUStream) (pool : MempoolId) :
    wp (graphEnter rt stream pool) (fun _ _ => True)
      (fun e t => OwnCheck e → t.currentStream = stream) s :=
  wp_mono (graphEnter_fails stream pool) (fun _ _ _ => trivial) fun _ _ failure own =>
    (failure.stream own).trans (s.currentStream_entered stream)

/-- And when it fails to end, the stream that was current stays so. -/
theorem graphExit_raises (ctx : StreamContext) :
    wp (graphExit rt ctx) (fun _ _ => True)
      (fun e t => AfterEnd rt e → t.currentStream = s.currentStream) s :=
  wp_mono (graphExit_fails ctx) (fun _ _ _ => trivial) fun _ _ failure after =>
    (failure.current after).2

/-- What a failed capture leaves behind: with the generators, the allocator, the current
graph, and the current stream when it was entered through `torch.gcu.graph`. -/
theorem failed_capture_leaves (rt : GraphRuntime) (s : Session) (pool : MempoolId)
    (stream : GCUStream) (ctx : StreamContext) :
    wp (captureBegin rt pool) (fun _ _ => True) (BeginFailure s pool) s ∧
      wp (captureEnd rt) (fun _ _ => True) (EndFailure rt s) s ∧
      wp (graphEnter rt stream pool) (fun _ _ => True)
        (fun e t => OwnCheck e → t.currentStream = stream) s ∧
      wp (graphExit rt ctx) (fun _ _ => True)
        (fun e t => AfterEnd rt e → t.currentStream = s.currentStream) s :=
  ⟨captureBegin_raises pool, captureEnd_raises, graphEnter_raises stream pool,
    graphExit_raises ctx⟩

/-! ### What is undone -/

open GCUCachingAllocator (State)

/-- The `use_count` of the pool of an id. -/
def poolUses (st : State) (id : MempoolId) : Option Int :=
  (State.findPool st.graphPools id).bind fun pool => (st.privatePools pool).map (·.useCount)

/-- `graph_pools` owns its pools. -/
def Session.PoolsOwned (s : Session) : Prop :=
  ∀ device id pool, State.findPool (s.allocators device).graphPools id = some pool →
    (s.allocators device).privatePools pool ≠ none

/-- Taking a pool shows in its count. -/
theorem poolUses_poolTaken {st : State} {id : MempoolId}
    (owned : ∀ pool, State.findPool st.graphPools id = some pool → st.privatePools pool ≠ none) :
    poolUses (poolTaken st id) id ≠ poolUses st id := by
  unfold poolUses poolTaken
  cases found : State.findPool st.graphPools id with
  | none =>
    have absent : st.graphPools.find? (·.1 = id) = none := Option.map_eq_none_iff.mp found
    simp [State.findPool, List.find?_append, absent]
  | some pool =>
    obtain ⟨p, isPool⟩ := Option.ne_none_iff_exists'.mp (owned pool found)
    simp [State.modifyPrivatePool, found, isPool]

/-- What a failed begin is to leave as before the call. -/
structure Undone (s t : Session) : Prop where
  expects : ∀ gen, (t.generators gen).graphExpectsThisGen = (s.generators gen).graphExpectsThisGen
  underway : ∀ device,
    (t.allocators device).capturesUnderway = (s.allocators device).capturesUnderway
  uses : ∀ device id, poolUses (t.allocators device) id = poolUses (s.allocators device) id
  current : t.currentGcuGraph = s.currentGcuGraph

/-- A begin that fails now does so before anything is prepared, or before a pool is taken and when
the generators expect a capture already. -/
def Session.Harmless (s : Session) (pool : MempoolId) : Prop :=
  s.this.hasGraphExec = true ∨
    s.Unfit pool ∧ ∀ gen ∈ s.captureGenerators, (s.generators gen).graphExpectsThisGen = true

theorem BeginFailure.undone_iff (owned : s.PoolsOwned) (failure : BeginFailure s pool e t)
    (own : OwnCheck e) : Undone s t ↔ s.Harmless pool := by
  by_cases captured : s.this.hasGraphExec = true
  · obtain rfl := failure.unchanged ((failure.early own).mpr captured)
    exact iff_of_true ⟨fun _ => rfl, fun _ => rfl, fun _ _ => rfl, rfl⟩ (.inl captured)
  have late : LateCheck e := own.resolve_left fun early => captured ((failure.early own).mp early)
  have checked := failure.late late
  by_cases unfit : s.Unfit pool
  · -- the generators are all that has changed
    have same : t.allocators = s.allocators := by
      refine failure.unrecorded ?_
      rcases late with stream | both | recording
      · exact .inl stream
      · exact .inr both
      · exact absurd unfit (checked.mp recording)
    constructor
    · intro undone
      refine .inr ⟨unfit, fun gen member => ?_⟩
      rw [← undone.expects gen]
      exact failure.expects late gen member
    · rintro (exec | ⟨-, expects⟩)
      · exact absurd exec captured
      · refine ⟨fun gen => ?_, fun _ => by rw [same], fun _ _ => by rw [same],
          (failure.current late).1⟩
        by_cases member : gen ∈ s.captureGenerators
        · rw [failure.expects late gen member, expects gen member]
        · rw [failure.others late gen member]
  · -- the pool has been taken
    have taken := failure.recorded (checked.mpr unfit)
    refine iff_of_false (fun undone => ?_) fun harmless => ?_
    · have uses := undone.uses s.currentDevice (s.poolFor pool)
      rw [taken, Function.update_self] at uses
      exact poolUses_poolTaken (owned _ _) uses
    · exact harmless.elim captured fun both => unfit both.1

def capturing : Err := .torchCheck
  "GCU generator expects graph capture to be underway, but the current stream is not capturing."

/-- What a failed end is to leave: no generator expects a capture, so that eager calls are not
refused for it, and the capture is not listed any more. -/
structure Settled (s t : Session) : Prop where
  expects : ∀ gen, (t.generators gen).graphExpectsThisGen = false
  eager : ∀ gen increment, wp (philoxGcuState .none increment) (fun _ _ => True)
    (fun e _ => e ≠ capturing) (t.generators gen)
  unlisted : ∀ entry ∈ (t.allocators s.this.captureDev).capturesUnderway,
    entry.1 ≠ s.this.mempoolId

/-- No generator expects a capture before the end either, and the capture is listed once. -/
def Session.Idle (s : Session) : Prop :=
  (∀ gen, (s.generators gen).graphExpectsThisGen = false) ∧
    (s.allocators s.this.captureDev).capturesUnderway.countP (·.1 = s.this.mempoolId) ≤ 1

theorem eager_accepted {gen : GCUGeneratorImpl} (free : gen.graphExpectsThisGen = false)
    (increment : UInt64) :
    wp (philoxGcuState .none increment) (fun _ _ => True) (fun e _ => e ≠ capturing) gen := by
  simp only [philoxGcuState, wp_bind, wp_get, ne_eq, not_true_eq_false, if_false, wp_torchCheck,
    wp_internalAssert, free]
  simp [capturing]

theorem forall_eraseP_iff {α : Type} {p : α → Bool} {l : List α} :
    (∀ a ∈ l.eraseP p, p a = false) ↔ l.countP p ≤ 1 := by
  induction l with
  | nil => simp
  | cons a l ih =>
    cases holds : p a with
    | true => simp [List.eraseP_cons_of_pos holds, List.countP_cons_of_pos holds]
    | false =>
      have passes : ¬ p a = true := by simp [holds]
      rw [List.eraseP_cons_of_neg passes, List.countP_cons_of_neg passes, List.forall_mem_cons]
      exact (and_iff_right holds).trans ih

theorem EndFailure.settled_iff (failure : EndFailure rt s e t) (after : AfterEnd rt e) :
    Settled s t ↔ s.Idle := by
  have same := failure.generators after
  have listed : (∀ entry ∈ (t.allocators s.this.captureDev).capturesUnderway,
      entry.1 ≠ s.this.mempoolId) ↔
        (s.allocators s.this.captureDev).capturesUnderway.countP (·.1 = s.this.mempoolId) ≤ 1 := by
    rw [failure.released after, Function.update_self, ← forall_eraseP_iff]
    simp [captureUnlisted]
  constructor
  · intro settled
    exact ⟨fun gen => same ▸ settled.expects gen, listed.mp settled.unlisted⟩
  · rintro ⟨expects, once⟩
    have free : ∀ gen, (t.generators gen).graphExpectsThisGen = false := fun gen =>
      same ▸ expects gen
    exact ⟨free, fun gen => eager_accepted (free gen), listed.mpr once⟩

/-- When a failed capture leaves the session as the call found it, or as a capture that has ended
does. -/
theorem failed_capture_undone_iff (rt : GraphRuntime) (owned : s.PoolsOwned) (pool : MempoolId)
    (stream : GCUStream) (ctx : StreamContext) :
    wp (captureBegin rt pool) (fun _ _ => True)
        (fun e t => OwnCheck e → (Undone s t ↔ s.Harmless pool)) s ∧
      wp (graphEnter rt stream pool) (fun _ _ => True)
        (fun e t => OwnCheck e → (Undone s t ∧ t.currentStream = s.currentStream ↔
          (s.entered stream).Harmless pool ∧ stream = s.currentStream)) s ∧
      wp (captureEnd rt) (fun _ _ => True)
        (fun e t => AfterEnd rt e → (Settled s t ↔ s.Idle)) s ∧
      wp (graphExit rt ctx) (fun _ _ => True)
        (fun e t => AfterEnd rt e → (Settled s t ∧ t.currentStream = ctx.srcPrevStream ↔
          s.Idle ∧ s.currentStream = ctx.srcPrevStream)) s := by
  refine ⟨?_, ?_, ?_, ?_⟩
  · exact wp_mono (captureBegin_raises pool) (fun _ _ _ => trivial) fun _ _ failure own =>
      failure.undone_iff owned own
  · refine wp_mono (graphEnter_fails stream pool) (fun _ _ _ => trivial) fun e t failure own => ?_
    have undone : Undone s t ↔ (s.entered stream).Harmless pool := by
      refine Iff.trans ?_ (failure.undone_iff (s := s.entered stream) owned own)
      exact ⟨fun undone => ⟨undone.expects, undone.underway, undone.uses, undone.current⟩,
        fun undone => ⟨undone.expects, undone.underway, undone.uses, undone.current⟩⟩
    rw [undone, failure.stream own, Session.currentStream_entered]
  · exact wp_mono captureEnd_raises (fun _ _ _ => trivial) fun _ _ failure after =>
      failure.settled_iff after
  · refine wp_mono (graphExit_fails ctx) (fun _ _ _ => trivial) fun _ _ failure after => ?_
    rw [failure.settled_iff after, (failure.current after).2]

def error? {α : Type} : EStateM.Result Err Session α → Option Err
  | .ok _ _ => none
  | .error e _ => some e

theorem run_of_error {α : Type} {m : SessionM α} (raised : error? (m.run s) = some e) :
    m.run s = .error e (endState (m.run s)) := by
  cases ran : m.run s with
  | ok a t => simp [ran, error?] at raised
  | error e' t =>
    simp only [ran, error?, Option.some.injEq] at raised
    rw [raised]
    rfl

/-- A process that records to a shared pool, off the default stream. -/
def recording : Session :=
  { newSession with
    allocators := fun _ =>
      { graphPools := [((0, 1), 0)]
        privatePools := Function.update (fun _ => none) 0 (some {})
        nextPrivatePool := 1
        capturesUnderway := [((0, 1), fun _ => true)] } }

theorem recording_owned : recording.PoolsOwned := by
  intro device id pool found
  simp only [recording, State.findPool, List.find?_singleton, Option.map_eq_some_iff] at found
  obtain ⟨entry, isEntry, rfl⟩ := found
  obtain rfl : entry = ((0, 1), 0) := by
    split at isEntry
    · exact (Option.some.inj isEntry).symm
    · cases isEntry
  simp [recording]

/-- A second capture to the pool does not begin, through either way in. -/
theorem failed_capture_undone_iff_recording :
    (∃ t, (captureBegin {} (0, 1)).run recording = .error alreadyRecording t ∧
      (Undone recording t ↔ recording.Harmless (0, 1))) ∧
    (∃ t, (graphEnter {} ⟨0, 2⟩ (0, 1)).run recording = .error alreadyRecording t ∧
      (Undone recording t ∧ t.currentStream = recording.currentStream ↔
        (recording.entered ⟨0, 2⟩).Harmless (0, 1) ∧ ⟨0, 2⟩ = recording.currentStream)) := by
  have iffs := failed_capture_undone_iff {} recording_owned (0, 1) ⟨0, 2⟩ ⟨⟨0, 1⟩, ⟨0, 0⟩, ⟨0, 0⟩⟩
  have begun := run_of_error (m := captureBegin {} (0, 1)) (s := recording) (e := alreadyRecording)
    (by decide +kernel)
  have entered := run_of_error (m := graphEnter {} ⟨0, 2⟩ (0, 1)) (s := recording)
    (e := alreadyRecording) (by decide +kernel)
  have own : OwnCheck alreadyRecording := .inr (.inr (.inr rfl))
  obtain ⟨first, second, -⟩ := iffs
  rw [wp, begun] at first
  rw [wp, entered] at second
  exact ⟨⟨_, begun, first own⟩, ⟨_, entered, second own⟩⟩

/-- A capture on the default stream leaves the default generator expecting it; a second
recording to a pool leaves it counted; a graph that cannot be instantiated leaves the
generator expecting a capture, and its stream current. -/
theorem failed_capture_not_undone :
    (∃ e t, (captureBegin {} (0, 0)).run {} = .error e t ∧ e = onDefaultStream ∧
      (t.generators 0).graphExpectsThisGen = true ∧ ¬ Undone {} t) ∧
    (∃ e s t, s = endState ((do captureBegin {} (0, 1); setStream ⟨0, 2⟩).run newSession) ∧
      (captureBegin {} (0, 1)).run s = .error e t ∧ e = alreadyRecording ∧
      ((s.allocators 0).privatePools 0).map (·.useCount) = some 1 ∧
      ((t.allocators 0).privatePools 0).map (·.useCount) = some 2 ∧ ¬ Undone s t) ∧
    (∃ e s t, s = endState ((graphEnter {} ⟨0, 1⟩ (0, 0)).run {}) ∧
      (graphExit { topsGraphInstantiate := some (.other 1) } ⟨⟨0, 1⟩, ⟨0, 0⟩, ⟨0, 0⟩⟩).run s =
        .error e t ∧
      (t.generators 0).graphExpectsThisGen = true ∧ t.currentStream = ⟨0, 1⟩ ∧ ¬ Settled s t) := by
  refine ⟨⟨onDefaultStream, _, run_of_error ?_, rfl, ?_, fun undone => absurd (undone.expects 0) ?_⟩,
    ⟨alreadyRecording, _, _, rfl, run_of_error ?_, rfl, ?_, ?_,
      fun undone => absurd (undone.uses 0 (0, 1)) ?_⟩,
    ⟨.gcuError (.other 1), _, _, rfl, run_of_error ?_, ?_, ?_,
      fun settled => absurd (settled.expects 0) ?_⟩⟩ <;> decide +kernel

end TorchGcu.Graphs

import TorchGcu.Graphs.Capture
import TorchGcu.Graphs.Lifetime

/-! Capture and replay of random calls: what the kernels of a replayed graph read, compared
with what the same calls would be given eagerly. -/
namespace TorchGcu.Graphs
open ProgramLogic GCUGeneratorImpl
open GCUCachingAllocator (Err TopsError GCUStream DeviceIndex StreamId MempoolId)

variable {rt : GraphRuntime} {s : Session}

/-! ### Replay -/

/-- A generator that can be used eagerly. -/
def Usable (s : Session) (gen : GeneratorId) : Prop :=
  (s.generators gen).graphExpectsThisGen = false ∧
    (s.generators gen).philoxOffsetPerThread.toNat % 4 = 0

/-- What `refill` leaves behind when it returns. -/
def Session.refilled (s : Session) (gen : GeneratorId) (whole : UInt64) (seed offset : TensorId) :
    Session :=
  ((s.setGenerator gen { s.generators gen with
      philoxOffsetPerThread := (s.generators gen).philoxOffsetPerThread + roundIncrement whole
    }).writeTensor seed (s.generators gen).seed).writeTensor offset
      (s.generators gen).philoxOffsetPerThread

theorem refill_result (gen : GeneratorId) (whole : UInt64) (seed offset : TensorId) :
    wp (refill rt gen whole seed offset)
      (fun _ t => s.currentStatus = .none ∧ Usable s gen ∧ t = s.refilled gen whole seed offset)
      (fun _ _ => True) s := by
  simp only [refill, philoxState, currentSeed, currentStreamCaptureStatus, wp_bind, wp_gcuCheck,
    wp_get, wp_pure, onGenerator, wp_zoom, philoxGcuState, implies_true, and_true]
  intro _
  by_cases status : s.currentStatus = .none
  · rw [if_neg (not_not.mpr status)]
    simp only [wp_bind, wp_torchCheck, wp_internalAssert, wp_set, wp_pure, copyToDevice, wp_gcuCheck,
      wp_modify, implies_true, and_true]
    intro ready aligned _ _ _ _
    refine ⟨status, ⟨by simpa using ready, ?_⟩, ?_⟩
    · have word := congrArg UInt64.toNat (beq_iff_eq.mp aligned)
      simpa [UInt64.toNat_mod] using word
    · simp [Session.refilled, Session.setGenerator]
  · -- The seed is not given out while the stream is capturing.
    rw [if_pos status]
    simp only [wp_bind, wp_torchCheck, wp_internalAssert, wp_set, wp_pure, implies_true, and_true]
    intro _ _ _ _ none
    exact absurd (of_decide_eq_true none) status

/-- What refilling a list of entries leaves behind. -/
structure Refilled (s t : Session) (extras : Extras) : Prop where
  usable : ∀ gen ∈ extras.keys, Usable s gen
  memory : ∀ extra ∈ extras,
    t.memory extra.2.seedExtragraph = (s.generators extra.1).seed ∧
      t.memory extra.2.offsetExtragraph = (s.generators extra.1).philoxOffsetPerThread
  elsewhere : ∀ tensor, tensor ∉ extras.tensors → t.memory tensor = s.memory tensor
  advanced : ∀ extra ∈ extras, (t.generators extra.1).philoxOffsetPerThread =
    (s.generators extra.1).philoxOffsetPerThread + roundIncrement extra.2.wholegraphIncrement
  others : ∀ gen, gen ∉ extras.keys → t.generators gen = s.generators gen

theorem refillExtras_result {extras : Extras} (keys : extras.keys.Nodup)
    (tensors : extras.tensors.Nodup) :
    wp (refillExtras rt extras) (fun _ t => Refilled s t extras) (fun _ _ => True) s := by
  induction extras generalizing s with
  | nil =>
    constructor
    · simp [Extras.keys]
    · simp
    · exact fun _ _ => rfl
    · simp
    · exact fun _ _ => rfl
  | cons extra rest ih =>
    obtain ⟨gen, data⟩ := extra
    simp only [Extras.keys_cons, List.nodup_cons] at keys
    simp only [Extras.tensors_cons, List.nodup_cons, List.mem_cons, not_or] at tensors
    obtain ⟨notAgain, keys'⟩ := keys
    obtain ⟨⟨apart, seedNew⟩, offsetNew, tensors'⟩ := tensors
    simp only [refillExtras, wp_bind]
    refine wp_mono (refill_result _ _ _ _) (fun _ t after => ?_) fun _ _ _ => trivial
    obtain ⟨-, usable, rfl⟩ := after
    refine wp_mono (ih keys' tensors') (fun _ t after => ?_) fun _ _ _ => trivial
    have same : ∀ other ∈ Extras.keys rest, (s.refilled gen data.wholegraphIncrement
        data.seedExtragraph data.offsetExtragraph).generators other = s.generators other := by
      intro other member
      have differs : other ≠ gen := fun same => notAgain (same ▸ member)
      simp [Session.refilled, Session.setGenerator, Session.writeTensor, differs]
    constructor
    · intro other member
      simp only [Extras.keys_cons, List.mem_cons] at member
      rcases member with rfl | member
      · exact usable
      · have later := after.usable other member
        simpa only [Usable, same other member] using later
    · intro extra member
      rcases List.mem_cons.mp member with rfl | member
      · rw [after.elsewhere _ seedNew, after.elsewhere _ offsetNew]
        simp [Session.refilled, Session.setGenerator, Session.writeTensor, apart]
      · have later := after.memory extra member
        rwa [same _ (List.mem_map_of_mem member)] at later
    · intro tensor absent
      simp only [Extras.tensors_cons, List.mem_cons, not_or] at absent
      rw [after.elsewhere _ absent.2.2]
      simp [Session.refilled, Session.setGenerator, Session.writeTensor, absent.1, absent.2.1]
    · intro extra member
      rcases List.mem_cons.mp member with rfl | member
      · rw [after.others gen notAgain]
        simp [Session.refilled, Session.setGenerator, Session.writeTensor]
      · have later := after.advanced extra member
        rwa [same _ (List.mem_map_of_mem member)] at later
    · intro other absent
      simp only [Extras.keys_cons, List.mem_cons, not_or] at absent
      rw [after.others other absent.2]
      simp [Session.refilled, Session.setGenerator, Session.writeTensor, absent.1]

theorem Refilled.perm {t : Session} {extras extras' : Extras} (perm : extras'.Perm extras)
    (refilled : Refilled s t extras') : Refilled s t extras := by
  have keys : extras'.keys.Perm extras.keys := perm.map _
  have tensors : extras'.tensors.Perm extras.tensors := perm.flatMap_right _
  constructor
  · exact fun gen member => refilled.usable gen (keys.mem_iff.mpr member)
  · exact fun extra member => refilled.memory extra (perm.mem_iff.mpr member)
  · exact fun tensor absent => refilled.elsewhere tensor fun member =>
      absent (tensors.mem_iff.mp member)
  · exact fun extra member => refilled.advanced extra (perm.mem_iff.mpr member)
  · exact fun gen absent => refilled.others gen fun member => absent (keys.mem_iff.mp member)

theorem graphLaunch_refilled {u : Session} {extras : Extras} :
    Preserves (fun t => Refilled u t extras) (graphLaunch rt) := by
  intro t refilled
  simp only [graphLaunch, wp_bind, wp_get]
  cases t.this.graphExec with
  | none => exact gcuCheck_preserves _ _ refilled
  | some exec =>
    simp only [wp_bind, wp_modify]
    exact gcuCheck_preserves _ _ ⟨refilled.usable, refilled.memory, refilled.elsewhere,
      refilled.advanced, refilled.others⟩

/-- The default generator of the device on which the graph was captured. -/
def Session.replayGenerator (s : Session) : GeneratorId :=
  s.defaultGenerators s.this.captureStream.deviceIndex

def Session.onCaptureDevice (s : Session) : Session :=
  { s with currentDevice := s.this.captureStream.deviceIndex }

theorem replay_result (keys : s.this.extraGenerators.keys.Nodup)
    (tensors : s.this.extraGenerators.tensors.Nodup) :
    wp (replay rt)
      (fun _ t => s.onCaptureDevice.currentStatus = .none ∧ Usable s s.replayGenerator ∧
        Refilled (s.refilled s.replayGenerator s.this.wholegraphIncrement s.this.seedExtragraph
          s.this.offsetExtragraph) t s.this.extraGenerators)
      (fun _ _ => True) s := by
  simp only [replay]
  rw [wp_bind, wp_get, wp_bind, wp_torchCheck]
  refine ⟨fun _ => ?_, fun _ => trivial⟩
  rw [wp_bind, wp_get, withDevice, wp_zoom]
  have perm := rt.extraOrder_perm s.this.extraGenerators
  have keys' : (rt.extraOrder s.this.extraGenerators).keys.Nodup := (perm.map _).nodup_iff.mpr keys
  have tensors' : (rt.extraOrder s.this.extraGenerators).tensors.Nodup :=
    (perm.flatMap_right _).nodup_iff.mpr tensors
  rw [wp_bind, wp_get, wp_bind]
  refine wp_mono (refill_result _ _ _ _) (fun _ t after => ?_) fun _ _ _ => trivial
  obtain ⟨status, usable, rfl⟩ := after
  rw [wp_bind]
  refine wp_mono (refillExtras_result keys' tensors') (fun _ t refilled => ?_) fun _ _ _ => trivial
  have rest : Preserves (fun t => Refilled (s.refilled s.replayGenerator s.this.wholegraphIncrement
      s.this.seedExtragraph s.this.offsetExtragraph) t s.this.extraGenerators) (do
        graphLaunch rt
        if s.this.hasPyHostFunctions then gcuCheck rt.topsStreamSynchronize
        gcuCheck rt.topsDriverGetVersion) := by
    apply Preserves.bind
    · exact graphLaunch_refilled
    intro _
    exact .ite (.bind (gcuCheck_preserves _) fun _ => gcuCheck_preserves _) (gcuCheck_preserves _)
  have start := refilled.perm perm
  refine wp_mono (rest t ⟨start.usable, start.memory, start.elsewhere, start.advanced, start.others⟩)
    (fun _ u after => ?_) fun _ _ _ => trivial
  exact ⟨status, usable, after.usable, after.memory, after.elsewhere, after.advanced, after.others⟩

/-! ### A capture, and a replay of it in some later state -/

/-- What the registration of generators with a new object leaves to a capture that begins later. -/
theorem registered_apart {new registered start : Session} {gens : List GeneratorId} (isNew : new.New)
    (nodup : gens.Nodup) (registers : ∃ rt, (registerGenerators rt gens).run new = .ok () registered)
    (elsewhere : start.this = registered.this ∧ registered.nextTensor ≤ start.nextTensor) :
    Apart start.this.extraGenerators start.nextTensor ∧
      ∀ gen, gen ∈ start.this.extraGenerators.keys ↔ gen ∈ gens := by
  obtain ⟨before, rt, built, -⟩ := isNew
  have empty : new.this.extraGenerators = [] := by
    have ends : wp (construct rt) (fun _ t => t.this.extraGenerators = []) (fun _ _ => True)
        before := by
      simp [construct, wp_gcuCheck, Session.setThis]
    have this := wp_ok ends built
    exact this
  obtain ⟨rt, registers⟩ := registers
  have none : Apart new.this.extraGenerators new.nextTensor := by
    rw [empty]
    constructor <;> simp [Extras.keys, Extras.tensors]
  obtain ⟨apart, keys⟩ := wp_ok (registerGenerators_apart none nodup
    (by simp [empty, Extras.keys])) registers
  obtain ⟨same, le⟩ := elsewhere
  rw [same]
  refine ⟨⟨apart.keys, apart.tensors, fun tensor member => ?_⟩, fun gen => ?_⟩
  · exact Nat.lt_of_lt_of_le (apart.allocated tensor member) le
  · rw [keys gen, empty]
    simp [Extras.keys]

/-- Generators are registered with a new object, calls are captured, and later, in a state
that differs in anything but the object, the graph is replayed. -/
structure Replayed where
  gens : List GeneratorId
  calls : List PhiloxCall
  inputs : List PhiloxGcuState
  (new registered start begun captured ended eager replayed : Session)
  isNew : new.New
  nodup : gens.Nodup
  registers : ∃ rt, (registerGenerators rt gens).run new = .ok () registered
  elsewhere : start.this = registered.this ∧ registered.nextTensor ≤ start.nextTensor
  begins : ∃ rt pool, (captureBegin rt pool).run start = .ok () begun
  known : ∀ call ∈ calls, call.1 = start.defaultGenerator ∨ call.1 ∈ gens
  captures : ∃ rt, (philoxCalls rt calls).run begun = .ok inputs captured
  ends : ∃ rt, (captureEnd rt).run captured = .ok () ended
  later : eager.this = ended.this ∧ eager.defaultGenerators = start.defaultGenerators
  replays : ∃ rt, (replay rt).run eager = .ok () replayed

/-- What the kernel of a call reads. -/
def seen (memory : TensorId → UInt64) : PhiloxGcuState → PhiloxGcuState
  | .captured (some seed) (some offset) intragraph =>
    .values (memory seed) (memory offset + intragraph.toUInt64)
  | inputs => inputs

namespace Replayed
variable (r : Replayed)

/-- The generators of the capture: the default one and those registered. -/
def Takes (gen : GeneratorId) : Prop := gen = r.start.defaultGenerator ∨ gen ∈ r.gens

/-- Executed eagerly instead of the replay, the calls would be given what their kernels have
read, and leave every generator at the same offset. -/
def MatchesEager : Prop :=
  ∃ values final,
    (philoxCalls {} r.calls).run r.eager.onCaptureDevice = .ok values final ∧
      r.inputs.map (seen r.replayed.memory) = values ∧
      ∀ gen, r.Takes gen → (r.replayed.generators gen).philoxOffsetPerThread =
        (final.generators gen).philoxOffsetPerThread

/-- No generator is ever advanced by 2^32 or more, and the default generator is not also
registered, unless its calls do not advance it. -/
def Fits : Prop :=
  (∀ before, before <+: r.calls → ∀ gen, (advance before gen).toNat < 2 ^ 32) ∧
    (r.start.defaultGenerator ∈ r.gens → advance r.calls r.start.defaultGenerator = 0)

variable {r}

theorem apart : Apart r.start.this.extraGenerators r.start.nextTensor ∧
    ∀ gen, gen ∈ r.start.this.extraGenerators.keys ↔ gen ∈ r.gens :=
  registered_apart r.isNew r.nodup r.registers r.elsewhere

theorem exists_pointers {extras : Extras} (nodup : extras.keys.Nodup) (default : GeneratorId)
    (seed offset : TensorId) : ∃ pointers, Pointers extras default seed offset pointers := by
  induction extras with
  | nil => exact ⟨fun _ => (seed, offset), fun _ member => (by cases member), fun _ => rfl⟩
  | cons extra rest ih =>
    obtain ⟨gen, data⟩ := extra
    simp only [Extras.keys_cons, List.nodup_cons] at nodup
    obtain ⟨pointers, registered, other⟩ := ih nodup.2
    refine ⟨Function.update pointers gen (data.seedExtragraph, data.offsetExtragraph), ?_, ?_⟩
    · intro extra member
      rcases List.mem_cons.mp member with rfl | member
      · simp
      · have differs : extra.1 ≠ gen := fun same =>
          nodup.1 (same ▸ List.mem_map_of_mem member)
        rw [Function.update_of_ne differs]
        exact registered extra member
    · intro absent
      simp only [Extras.keys_cons, List.mem_cons, not_or] at absent
      rw [Function.update_of_ne absent.1]
      exact other absent.2

/-- The offset of a generator when its captured calls are replayed: the default generator has
already been advanced once when it is registered too. -/
def base (r : Replayed) (gen : GeneratorId) : UInt64 :=
  (r.eager.generators gen).philoxOffsetPerThread +
    if gen = r.start.defaultGenerator ∧ gen ∈ r.gens then
      roundIncrement (low (advance r.calls gen)) else 0

/-- What the capture has recorded and the replay has written. -/
theorem reads : ∃ pointers : GeneratorId → TensorId × TensorId,
    r.inputs = (offsetsFrom [] r.calls).map (fun entry =>
      .captured (some (pointers entry.1).1) (some (pointers entry.1).2) entry.2.toUInt32) ∧
    r.eager.onCaptureDevice.currentStatus = .none ∧
    ∀ gen, r.Takes gen → Usable r.eager gen ∧
      r.replayed.memory (pointers gen).1 = (r.eager.generators gen).seed ∧
      r.replayed.memory (pointers gen).2 = r.base gen ∧
      (r.replayed.generators gen).philoxOffsetPerThread =
        r.base gen + roundIncrement (low (advance r.calls gen)) := by
  obtain ⟨apart, keys⟩ := r.apart
  obtain ⟨pointers, points⟩ := exists_pointers apart.keys r.start.defaultGenerator
    r.start.nextTensor (r.start.nextTensor + 1)
  obtain ⟨rtBegin, pool, begins⟩ := r.begins
  have begun := wp_ok (captureBegin_result pool apart.keys points) begins
  have known : ∀ call ∈ r.calls,
      call.1 ∈ r.start.defaultGenerator :: r.start.this.extraGenerators.keys := fun call member => by
    rw [List.mem_cons, keys]
    exact r.known call member
  have capturing : r.begun.currentStatus ≠ .none := by
    rw [Session.currentStatus, begun.status]
    decide
  obtain ⟨rtCalls, captures⟩ := r.captures
  obtain ⟨inputs, from_, unchanged⟩ :=
    wp_ok (philoxCalls_capturing known capturing begun.capturing) captures
  obtain ⟨rtEnd, ends⟩ := r.ends
  have ended := wp_ok captureEnd_result ends
  obtain ⟨whole, ⟨order, perm, extras⟩, seed, offset, stream⟩ := ended
  have members : r.captured.this = r.begun.this := by rw [unchanged]
  simp only [members, begun.gen, begun.extras, begun.seed, begun.offset, begun.stream]
    at whole perm seed offset stream
  have counted : ∀ gen, r.Takes gen → (r.captured.intragraph gen).toUInt64 =
      low (advance r.calls gen) := fun gen takes => by
    have member : gen ∈ r.start.defaultGenerator :: r.start.this.extraGenerators.keys := by
      rw [List.mem_cons, keys]
      exact takes
    rw [Session.intragraph, (from_ gen member).2.2]
    rfl
  -- The object that is replayed is the one that the capture has left.
  obtain ⟨this, defaults⟩ := r.later
  have generator : r.eager.replayGenerator = r.start.defaultGenerator := by
    rw [Session.replayGenerator, this, stream, defaults]
    rfl
  rw [← this] at extras seed offset whole
  have keys' : r.eager.this.extraGenerators.keys.Perm r.start.this.extraGenerators.keys := by
    rw [extras, closed_keys]
    exact perm.map _
  have tensors' : r.eager.this.extraGenerators.tensors.Perm
      r.start.this.extraGenerators.tensors := by
    rw [extras, closed_tensors]
    exact perm.flatMap_right _
  obtain ⟨rtReplay, replays⟩ := r.replays
  obtain ⟨status, usable, refilled⟩ := wp_ok (replay_result
    (keys'.nodup_iff.mpr apart.keys) (tensors'.nodup_iff.mpr apart.tensors)) replays
  rw [generator, seed, offset] at refilled
  rw [generator] at usable
  refine ⟨pointers, inputs, status, fun gen takes => ?_⟩
  have registered : ∀ extra ∈ r.start.this.extraGenerators,
      closed r.captured.intragraph extra ∈ r.eager.this.extraGenerators := fun extra member => by
    rw [extras]
    exact List.mem_map_of_mem (perm.mem_iff.mpr member)
  have others : ∀ other, other ≠ r.start.defaultGenerator →
      (r.eager.refilled r.start.defaultGenerator r.eager.this.wholegraphIncrement r.start.nextTensor
        (r.start.nextTensor + 1)).generators other = r.eager.generators other := fun other differs => by
    simp [Session.refilled, Session.setGenerator, Session.writeTensor, differs]
  have default : (r.eager.refilled r.start.defaultGenerator r.eager.this.wholegraphIncrement
      r.start.nextTensor (r.start.nextTensor + 1)).generators r.start.defaultGenerator =
      { r.eager.generators r.start.defaultGenerator with
        philoxOffsetPerThread :=
          (r.eager.generators r.start.defaultGenerator).philoxOffsetPerThread +
            roundIncrement (low (advance r.calls r.start.defaultGenerator)) } := by
    rw [whole, counted _ (.inl rfl)]
    simp [Session.refilled, Session.setGenerator, Session.writeTensor]
  by_cases isExtra : gen ∈ r.start.this.extraGenerators.keys
  · obtain ⟨extra, member, rfl⟩ := List.mem_map.mp isExtra
    have here := registered extra member
    obtain ⟨seedRead, offsetRead⟩ := refilled.memory _ here
    have advanced := refilled.advanced _ here
    have usable' := refilled.usable extra.1 (keys'.mem_iff.mpr isExtra)
    simp only [closed, counted extra.1 takes] at seedRead offsetRead advanced
    rw [points.1 extra member, Replayed.base]
    by_cases same : extra.1 = r.start.defaultGenerator
    · rw [if_pos ⟨same, (keys _).mp isExtra⟩]
      rw [same] at seedRead offsetRead advanced ⊢
      rw [default] at seedRead offsetRead advanced
      exact ⟨usable, seedRead, offsetRead, advanced⟩
    · rw [if_neg fun both => same both.1, UInt64.add_zero]
      rw [others _ same] at seedRead offsetRead advanced
      rw [Usable, others _ same] at usable'
      exact ⟨usable', seedRead, offsetRead, advanced⟩
  · have same : gen = r.start.defaultGenerator := takes.resolve_right fun member =>
      isExtra ((keys gen).mpr member)
    subst same
    have untouched : ∀ tensor, r.start.nextTensor ≤ tensor →
        tensor ∉ r.eager.this.extraGenerators.tensors := fun tensor le member =>
      absurd (apart.allocated tensor (tensors'.mem_iff.mp member)) (Nat.not_lt.mpr le)
    rw [points.2 isExtra, Replayed.base, if_neg fun both => isExtra ((keys _).mpr both.2),
      UInt64.add_zero, refilled.elsewhere _ (untouched _ (Nat.le_refl _)),
      refilled.elsewhere _ (untouched _ (Nat.le_succ _)),
      refilled.others _ fun member => isExtra (keys'.mem_iff.mp member), default]
    refine ⟨usable, ?_, ?_, rfl⟩
    · simp [Session.refilled, Session.writeTensor]
    · simp [Session.refilled, Session.writeTensor]

/-- What eager calls in the state of the replay are given. -/
theorem eager_values (status : r.eager.onCaptureDevice.currentStatus = .none)
    (usable : ∀ gen, r.Takes gen → Usable r.eager gen) :
    ∃ final, (philoxCalls {} r.calls).run r.eager.onCaptureDevice = .ok
        ((offsetsFrom [] r.calls).map fun entry => .values (r.eager.generators entry.1).seed
          ((r.eager.generators entry.1).philoxOffsetPerThread + entry.2)) final ∧
      ∀ gen, r.Takes gen → (final.generators gen).philoxOffsetPerThread =
        (r.eager.generators gen).philoxOffsetPerThread + advance r.calls gen := by
  have takes : ∀ gen, gen ∈ r.start.defaultGenerator :: r.gens ↔ r.Takes gen := fun gen =>
    List.mem_cons
  have from_ : EagerFrom (r.start.defaultGenerator :: r.gens) r.eager.generators []
      r.eager.onCaptureDevice := fun gen member =>
    ⟨rfl, (UInt64.add_zero _).symm, (usable gen ((takes gen).mp member)).1⟩
  have ran := philoxCalls_eager
    (fun call (member : call ∈ r.calls) => (takes _).mpr (r.known call member))
    (fun gen member => (usable gen ((takes gen).mp member)).2) status from_
  unfold wp at ran
  cases result : (philoxCalls {} r.calls).run r.eager.onCaptureDevice with
  | error e t => simp [result] at ran
  | ok values final =>
    simp only [result] at ran
    obtain ⟨rfl, after, -⟩ := ran
    exact ⟨final, rfl, fun gen member => (after gen ((takes gen).mpr member)).2.1⟩

/-- The captured calls read what eager ones are given exactly where the base of each
generator and the low half of its advance make up its whole advance. -/
theorem matchesEager_iff_sums : r.MatchesEager ↔
    (∀ entry ∈ offsetsFrom [] r.calls,
      r.base entry.1 + low entry.2 =
        (r.eager.generators entry.1).philoxOffsetPerThread + entry.2) ∧
    ∀ gen, r.Takes gen → r.base gen + roundIncrement (low (advance r.calls gen)) =
      (r.eager.generators gen).philoxOffsetPerThread + advance r.calls gen := by
  obtain ⟨pointers, inputs, status, reads⟩ := r.reads
  obtain ⟨final, ran, after⟩ := r.eager_values status fun gen takes => (reads gen takes).1
  have takes : ∀ entry ∈ offsetsFrom [] r.calls, r.Takes entry.1 := by
    have known : ∀ (done calls : List PhiloxCall), (∀ call ∈ calls, r.Takes call.1) →
        ∀ entry ∈ offsetsFrom done calls, r.Takes entry.1 := by
      intro done calls
      induction calls generalizing done with
      | nil => exact fun _ _ member => (by cases member)
      | cons call rest ih =>
        intro known entry member
        rcases List.mem_cons.mp member with rfl | later
        · exact known call List.mem_cons_self
        · exact ih _ (fun call member => known call (List.mem_cons_of_mem _ member)) entry later
    exact known [] r.calls r.known
  have seen_ : r.inputs.map (seen r.replayed.memory) = (offsetsFrom [] r.calls).map fun entry =>
      .values (r.eager.generators entry.1).seed (r.base entry.1 + low entry.2) := by
    rw [inputs, List.map_map]
    apply List.map_congr_left
    intro entry member
    obtain ⟨-, seed, offset, -⟩ := reads entry.1 (takes entry member)
    simp only [Function.comp, seen, seed, offset]
    rfl
  constructor
  · rintro ⟨values, final', ran', same, ends⟩
    rw [ran] at ran'
    cases ran'
    rw [seen_, List.map_inj_left] at same
    refine ⟨fun entry member => ?_, fun gen takes => ?_⟩
    · have both := same entry member
      exact (PhiloxGcuState.values.inj both).2
    · rw [← (reads gen takes).2.2.2, ends gen takes, after gen takes]
  · rintro ⟨offsets, ends⟩
    refine ⟨_, final, ran, ?_, fun gen takes => ?_⟩
    · rw [seen_, List.map_inj_left]
      intro entry member
      rw [offsets entry member]
    · rw [(reads gen takes).2.2.2, ends gen takes, after gen takes]

theorem round_low (calls : List PhiloxCall) (gen : GeneratorId) :
    roundIncrement (low (advance calls gen)) = low (advance calls gen) := by
  apply roundIncrement_of_aligned
  · have aligned := advance_aligned calls gen
    rw [low_toNat]
    omega
  · rw [low_toNat]
    exact Nat.mod_lt _ (by decide)

/-- By how much the replay has advanced a generator before its captured calls read it. -/
def shift (r : Replayed) (gen : GeneratorId) : UInt64 :=
  if gen = r.start.defaultGenerator ∧ gen ∈ r.gens then low (advance r.calls gen) else 0

theorem base_add (gen : GeneratorId) (word offset : UInt64) :
    r.base gen + word = (r.eager.generators gen).philoxOffsetPerThread + offset ↔
      r.shift gen + word = offset := by
  rw [base, shift, round_low, UInt64.add_assoc, UInt64.add_right_inj]

theorem shift_zero (still : r.start.defaultGenerator ∈ r.gens →
      advance r.calls r.start.defaultGenerator = 0) (gen : GeneratorId) : r.shift gen = 0 := by
  rw [shift]
  split
  case isTrue both =>
    obtain ⟨rfl, registered⟩ := both
    rw [still registered]
    rfl
  case isFalse => rfl

theorem advance_of_unknown {gen : GeneratorId} (unknown : ¬ r.Takes gen) {before : List PhiloxCall}
    (isPrefix : before <+: r.calls) : advance before gen = 0 := by
  have none : before.filter (fun call => decide (call.1 = gen)) = [] := by
    apply List.filter_eq_nil_iff.mpr
    intro call member
    have known : r.Takes call.1 := r.known call (isPrefix.subset member)
    have other : call.1 ≠ gen := by
      rintro rfl
      exact unknown known
    simpa using other
  rw [advance, none]
  rfl

theorem matchesEager_iff_fits : r.MatchesEager ↔ r.Fits := by
  rw [matchesEager_iff_sums]
  simp only [base_add, round_low]
  constructor
  · rintro ⟨offsets, ends⟩
    -- The first call of the default generator reads the shift.
    have still : r.start.defaultGenerator ∈ r.gens →
        advance r.calls r.start.defaultGenerator = 0 := by
      intro registered
      have first := @prefixed_advance [] r.calls [] List.nil_prefix r.start.defaultGenerator
      simp only [List.append_nil, List.nil_append, advance_nil] at first
      rcases first with call | all
      · have unshifted := offsets _ call
        have whole := ends _ (.inl rfl)
        have low_zero : low 0 = 0 := rfl
        rw [low_zero, UInt64.add_zero] at unshifted
        rw [unshifted, UInt64.zero_add] at whole
        rw [shift, if_pos ⟨rfl, registered⟩, whole] at unshifted
        exact unshifted
      · exact all.symm
    have unshifted := shift_zero still
    refine ⟨fun before isPrefix gen => ?_, still⟩
    by_cases takes : r.Takes gen
    · rw [← low_eq_iff]
      have found := @prefixed_advance [] r.calls before isPrefix gen
      simp only [List.nil_append] at found
      rcases found with call | all
      · have fits := offsets _ call
        rwa [unshifted, UInt64.zero_add] at fits
      · have fits := ends gen takes
        rw [unshifted, UInt64.zero_add] at fits
        rw [all, fits]
    · rw [advance_of_unknown takes isPrefix]
      decide
  · rintro ⟨fits, still⟩
    have unshifted := shift_zero still
    refine ⟨fun entry member => ?_, fun gen _ => ?_⟩
    · obtain ⟨before, isPrefix, same⟩ := offsetsFrom_mem member
      rw [unshifted, UInt64.zero_add, low_eq_iff, same]
      exact fits before isPrefix entry.1
    · rw [unshifted, UInt64.zero_add, low_eq_iff]
      exact fits r.calls (List.prefix_refl _) gen

/-- A replay reads random offsets exactly as eager execution would, and leaves the
generators where it would, if and only if the advances fit. -/
theorem replay_matches_eager (r : Replayed) : r.MatchesEager ↔ r.Fits := matchesEager_iff_fits

end Replayed

def result? {α : Type} : EStateM.Result Err Session α → Option α
  | .ok a _ => some a
  | .error _ _ => none

theorem run_of_result {α : Type} {m : SessionM α} {a : α} (returned : result? (m.run s) = some a) :
    m.run s = .ok a (endState (m.run s)) := by
  cases ran : m.run s with
  | ok b t =>
    simp only [ran, result?, Option.some.injEq] at returned
    rw [returned]
    rfl
  | error e t => simp [ran, result?] at returned

/-! Registration with a new object, a capture, and its replay right after, with a runtime
that never fails. -/

def sampleStart (gens : List GeneratorId) : Session :=
  endState ((registerGenerators {} gens).run newSession)

def sampleBegun (gens : List GeneratorId) : Session :=
  endState ((captureBegin {} (0, 0)).run (sampleStart gens))

def sampleCaptured (gens : List GeneratorId) (calls : List PhiloxCall) : Session :=
  endState ((philoxCalls {} calls).run (sampleBegun gens))

def sampleEnded (gens : List GeneratorId) (calls : List PhiloxCall) : Session :=
  endState ((captureEnd {}).run (sampleCaptured gens calls))

def sample (gens : List GeneratorId) (calls : List PhiloxCall) (inputs : List PhiloxGcuState)
    (nodup : gens.Nodup)
    (known : ∀ call ∈ calls, call.1 = (sampleStart gens).defaultGenerator ∨ call.1 ∈ gens)
    (later : (sampleEnded gens calls).defaultGenerators = (sampleStart gens).defaultGenerators)
    (registers : result? ((registerGenerators {} gens).run newSession) = some ())
    (begins : result? ((captureBegin {} (0, 0)).run (sampleStart gens)) = some ())
    (captures : result? ((philoxCalls {} calls).run (sampleBegun gens)) = some inputs)
    (ends : result? ((captureEnd {}).run (sampleCaptured gens calls)) = some ())
    (replays : result? ((replay {}).run (sampleEnded gens calls)) = some ()) : Replayed where
  gens := gens
  calls := calls
  inputs := inputs
  new := newSession
  registered := sampleStart gens
  start := sampleStart gens
  begun := sampleBegun gens
  captured := sampleCaptured gens calls
  ended := sampleEnded gens calls
  eager := sampleEnded gens calls
  replayed := endState ((replay {}).run (sampleEnded gens calls))
  isNew := newSession_new
  nodup := nodup
  registers := ⟨{}, run_of_result registers⟩
  elsewhere := ⟨rfl, Nat.le_refl _⟩
  begins := ⟨{}, (0, 0), run_of_result begins⟩
  known := known
  captures := ⟨{}, run_of_result captures⟩
  ends := ⟨{}, run_of_result ends⟩
  later := ⟨rfl, later⟩
  replays := ⟨{}, run_of_result replays⟩

/-- A generator is registered beside the default one, and calls on both are captured. -/
def twoGenerators : Replayed :=
  sample [1] [(0, 4), (1, 7), (0, 3)]
    [.captured (some 2) (some 3) 0, .captured (some 0) (some 1) 0, .captured (some 2) (some 3) 4]
    (by decide) (by decide +kernel) rfl (by decide +kernel) (by decide +kernel) (by decide +kernel)
    (by decide +kernel) (by decide +kernel)

theorem twoGenerators_matchesEager : twoGenerators.MatchesEager := by
  refine twoGenerators.replay_matches_eager.mpr ⟨fun before isPrefix gen => ?_, fun both => ?_⟩
  · have least : ∀ before ∈ twoGenerators.calls.inits, ∀ gen < 2,
        (advance before gen).toNat < 2 ^ 32 := by decide +kernel
    have used : ∀ call ∈ twoGenerators.calls, call.1 < 2 := by decide +kernel
    by_cases known : gen < 2
    · exact least before ((List.mem_inits before _).mpr isPrefix) gen known
    · have none : before.filter (fun call => call.1 = gen) = [] := by
        refine List.filter_eq_nil_iff.mpr fun call member same => known ?_
        exact of_decide_eq_true same ▸ used call (isPrefix.subset member)
      rw [advance, none]
      decide
  · exact absurd both (by decide +kernel)

/-- The default generator of the only device is also registered, and one call is captured. -/
def registeredDefault : Replayed :=
  sample [0] [(0, 4)] [.captured (some 0) (some 1) 0] (by decide) (by decide +kernel) rfl
    (by decide +kernel) (by decide +kernel) (by decide +kernel) (by decide +kernel)
    (by decide +kernel)

/-- Nothing is registered, and the first of two captured calls asks for 2^32 numbers. -/
def hugeIncrement : Replayed :=
  sample [] [(0, 4294967296), (0, 4)]
    [.captured (some 0) (some 1) 0, .captured (some 0) (some 1) 0] (by decide) (by decide +kernel)
    rfl (by decide +kernel) (by decide +kernel) (by decide +kernel) (by decide +kernel)
    (by decide +kernel)

/-- Every call of it succeeds. -/
abbrev GraphRuntime.succeeding : GraphRuntime := {}

/-- A default generator that is registered too is advanced twice, and its kernels read the
second offset; and an increment of 2^32 passes the assertion that is to bound the offsets. -/
theorem replay_mismatches : ¬ registeredDefault.MatchesEager ∧ ¬ hugeIncrement.MatchesEager := by
  constructor
  · rw [Replayed.matchesEager_iff_sums]
    rintro ⟨offsets, -⟩
    have first := offsets (0, 0) (by decide +kernel)
    revert first
    decide +kernel
  · rw [Replayed.matchesEager_iff_sums]
    rintro ⟨offsets, -⟩
    have second := offsets (0, 4294967296) (by decide +kernel)
    revert second
    decide +kernel

end TorchGcu.Graphs

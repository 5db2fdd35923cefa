import TorchGcu.Graphs.Replay

/-! The random operators. They obtain their random state in three ways, and only one of them
minds that a capture is underway. -/
namespace TorchGcu.Graphs
open ProgramLogic GCUGeneratorImpl
open GCUCachingAllocator (Err TopsError GCUStream DeviceIndex StreamId MempoolId)

/-- What an operator gives to topsaten: a state, or a seed and an offset. -/
inductive RandomState where
  | philox (state : PhiloxGcuState)
  | generator (seed offset : UInt64)
deriving DecidableEq, Repr

/-- The random operators, with the answers of topsaten that decide how much they ask for. The last
one is what the code generator emits for all operators of its generator template. -/
inductive RandomOp where
  | random (generator : Option GeneratorId) (randomGetOffset : Except TopsError UInt64)
  | uniform (generator : Option GeneratorId) (numel : UInt64)
      (rngUniformGetOffset : Except TopsError UInt64)
  | nativeDropout (device : DeviceIndex) (numel : UInt64)
  | generated (device : DeviceIndex) (generator : Option GeneratorId) (numel : UInt64)

/-! ### Random states -/

/-- `seed_.val`, whichever member of the union has been set. -/
def PhiloxGcuState.seedVal (address : TensorId → UInt64) : PhiloxGcuState → UInt64
  | .values seed _ => seed
  | .captured seed _ _ => (seed.map address).getD 0

/-- `offset_.val`. -/
def PhiloxGcuState.offsetVal (address : TensorId → UInt64) : PhiloxGcuState → UInt64
  | .values _ offset => offset
  | .captured _ offset _ => (offset.map address).getD 0

/-- `topsatenGenerator_t` has no place for an offset in the graph. -/
def getDefaultTopsatenGenerator (address : TensorId → UInt64) (rt : GraphRuntime)
    (device : DeviceIndex) (numel : UInt64) : SessionM RandomState := do
  let gen := (← get).defaultGenerators device
  let state ← philoxState rt gen numel
  return .generator (state.seedVal address) (state.offsetVal address)

def optionalGeneratorToTopsatenGenerator (device : DeviceIndex) (generator : Option GeneratorId)
    (numel : UInt64) : SessionM RandomState := do
  let gen := generator.getD ((← get).defaultGenerators device)
  let (seed, offset) ← onGenerator gen (philoxEngineInputs numel)
  return .generator seed offset

/-- `CHECK_TOPSATEN_CALL`. -/
def topsatenCall (answer : Except TopsError UInt64) : SessionM UInt64 :=
  match answer with
  | .ok offset => pure offset
  | .error error => throw (.gcuError error)

/-- `philox_gcu_state` of the generator given or of the default one. -/
def optionalPhiloxState (rt : GraphRuntime) (generator : Option GeneratorId)
    (answer : Except TopsError UInt64) : SessionM RandomState := do
  let gen := generator.getD (← get).defaultGenerator
  let offset ← topsatenCall answer
  return .philox (← philoxState rt gen offset)

/-- The random state of an operator; a tensor without elements needs none to be filled. -/
def RandomOp.draw (address : TensorId → UInt64) (rt : GraphRuntime) :
    RandomOp → SessionM (Option RandomState)
  | .random generator answer => return some (← optionalPhiloxState rt generator answer)
  | .uniform generator numel answer => do
    if numel = 0 then return none
    return some (← optionalPhiloxState rt generator answer)
  | .nativeDropout device numel =>
    return some (← getDefaultTopsatenGenerator address rt device numel)
  | .generated device generator numel =>
    return some (← optionalGeneratorToTopsatenGenerator device generator numel)

/-! ### Sequences of operators -/

/-- Operators that are called one after the other, each with the answers of the runtime to it;
what they raise is caught. The result has those that were given a random state. -/
def issue (address : TensorId → UInt64) :
    List (GraphRuntime × RandomOp) → Session → List (RandomOp × RandomState) × Session
  | [], s => ([], s)
  | (rt, op) :: ops, s =>
    match (op.draw address rt).run s with
    | .ok (some state) t => ((op, state) :: (issue address ops t).1, (issue address ops t).2)
    | .ok none t => issue address ops t
    | .error _ t => issue address ops t

/-- The same operators where nothing fails. -/
def eagerly (address : TensorId → UInt64) : List RandomOp → SessionM (List (Option RandomState))
  | [] => return []
  | op :: ops => do
    let state ← op.draw address .succeeding
    return state :: (← eagerly address ops)

/-- The generator that an operator uses and how much it asks for. -/
def RandomOp.call (default : GeneratorId) : RandomOp → PhiloxCall
  | .random generator answer => (generator.getD default, answer.toOption.getD 0)
  | .uniform generator _ answer => (generator.getD default, answer.toOption.getD 0)
  | .nativeDropout _ numel => (default, numel)
  | .generated _ generator numel => (generator.getD default, numel)

/-- What the kernel of an operator reads. -/
def RandomState.seen (memory : TensorId → UInt64) : RandomState → RandomState
  | .philox state => .philox (Graphs.seen memory state)
  | .generator seed offset => .generator seed offset

/-- A call of `philox_gcu_state` in a capture: of one of the given generators for less than 2^32
numbers, or of one that expects no capture, which raises. -/
def Session.AllowsCall (s : Session) (gens : List GeneratorId) (gen : GeneratorId)
    (increment : UInt64) : Prop :=
  (s.generators gen).graphExpectsThisGen = false ∨
    gen ∈ gens ∧ (roundIncrement increment).toNat < 2 ^ 32

/-- An operator that passes its state on as `philox_gcu_state` has given it, or is given none. -/
def Session.Allows (s : Session) (gens : List GeneratorId) : RandomOp → Prop
  | .random generator answer => ∀ increment, answer = .ok increment →
    s.AllowsCall gens (generator.getD s.defaultGenerator) increment
  | .uniform generator numel answer => numel ≠ 0 → ∀ increment, answer = .ok increment →
    s.AllowsCall gens (generator.getD s.defaultGenerator) increment
  | .nativeDropout device _ => (s.generators (s.defaultGenerators device)).graphExpectsThisGen = false
  | .generated .. => False

/-! ### A capture of operators, and a replay of it -/

/-- Generators are registered with a new object, operators are captured, and later, in a state that
differs in anything but the object, the graph is replayed. -/
structure CapturedOps where
  address : TensorId → UInt64
  gens : List GeneratorId
  ops : List (GraphRuntime × RandomOp)
  (new registered start begun ended eager replayed : Session)
  isNew : new.New
  nodup : gens.Nodup
  registers : ∃ rt, (registerGenerators rt gens).run new = .ok () registered
  elsewhere : start.this = registered.this ∧ registered.nextTensor ≤ start.nextTensor
  begins : ∃ rt pool, (captureBegin rt pool).run start = .ok () begun
  ends : ∃ rt, (captureEnd rt).run (issue address ops begun).2 = .ok () ended
  later : eager.this = ended.this ∧ eager.defaultGenerators = start.defaultGenerators
  replays : ∃ rt, (replay rt).run eager = .ok () replayed

namespace CapturedOps
variable (r : CapturedOps)

/-- The operators that were given a random state. -/
def given : List (RandomOp × RandomState) := (issue r.address r.ops r.begun).1

/-- What they have asked for. -/
def calls : List PhiloxCall := r.given.map fun entry => entry.1.call r.start.defaultGenerator

/-- Every operator that has not raised was given the tensors of the graph for its generator, with
the offset in the graph that the operators before it leave. -/
def Recorded : Prop :=
  ∃ pointers, Pointers r.begun.this.extraGenerators r.start.defaultGenerator
      r.begun.this.seedExtragraph r.begun.this.offsetExtragraph pointers ∧
    r.given.map (·.2) = (offsetsFrom [] r.calls).map fun entry => .philox
      (.captured (some (pointers entry.1).1) (some (pointers entry.1).2) entry.2.toUInt32)

/-- The capture has advanced no generator. -/
def OffsetsKept : Prop := ∀ gen,
  (r.ended.generators gen).philoxOffsetPerThread = (r.start.generators gen).philoxOffsetPerThread

/-- Executed eagerly in place of the replay, the operators would be given what their kernels have
read. -/
def SeesEager : Prop :=
  ∃ values final,
    (eagerly r.address (r.given.map (·.1))).run r.eager.onCaptureDevice = .ok values final ∧
      r.given.map (fun entry => some (entry.2.seen r.replayed.memory)) = values

structure ReplaySafe : Prop where
  recorded : r.Recorded
  offsetsKept : r.OffsetsKept
  seesEager : r.SeesEager

/-- The condition on an operator. -/
def Meets (op : RandomOp) : Prop := r.begun.Allows (r.start.defaultGenerator :: r.gens) op

end CapturedOps

/-! ### Operators that mind the capture -/

/-- An operator that goes through `philox_gcu_state`, and does ask for numbers. -/
def RandomOp.Minds : RandomOp → Prop
  | .random _ answer => answer.isOk = true
  | .uniform _ numel answer => numel ≠ 0 ∧ answer.isOk = true
  | .nativeDropout .. => False
  | .generated .. => False

/-- What a captured call leaves behind. -/
def Session.drawn (s : Session) (gen : GeneratorId) (increment : UInt64) : Session :=
  s.setGenerator gen { s.generators gen with
    offsetIntragraph :=
      ((s.generators gen).offsetIntragraph.toUInt64 + roundIncrement increment).toUInt32 }

/-- The checks that a captured call passes. -/
structure Session.Draws (s : Session) (gen : GeneratorId) (increment : UInt64) : Prop where
  expects : (s.generators gen).graphExpectsThisGen = true
  aligned : ((s.generators gen).offsetIntragraph % 4 == 0) = true
  bound : (s.generators gen).offsetIntragraph.toUInt64 ≤ uint32Max - roundIncrement increment

variable {rt : GraphRuntime} {s : Session} {gen : GeneratorId} {increment : UInt64}

theorem setGenerator_same (s : Session) (gen : GeneratorId) :
    s.setGenerator gen (s.generators gen) = s := by
  simp [Session.setGenerator]

theorem philoxState_captured (capturing : s.currentStatus ≠ .none) :
    wp (philoxState rt gen increment)
      (fun inputs t => inputs = .captured (s.generators gen).seedExtragraph
          (s.generators gen).offsetExtragraph (s.generators gen).offsetIntragraph ∧
        t = s.drawn gen increment ∧ s.Draws gen increment)
      (fun _ t => t = s) s := by
  simp only [philoxState, currentStreamCaptureStatus, wp_bind, wp_gcuCheck, wp_get, wp_pure,
    onGenerator, wp_zoom, philoxGcuState, if_pos capturing, wp_torchCheck, wp_internalAssert, wp_set,
    setGenerator_same, implies_true, and_true]
  intro _ expects aligned bound
  exact ⟨trivial, rfl, expects, aligned, of_decide_eq_true bound⟩

theorem philoxState_draws (capturing : s.currentStatus ≠ .none) (draws : s.Draws gen increment) :
    (philoxState {} gen increment).run s = .ok (.captured (s.generators gen).seedExtragraph
      (s.generators gen).offsetExtragraph (s.generators gen).offsetIntragraph)
        (s.drawn gen increment) := by
  have returns : wp (philoxState {} gen increment)
      (fun inputs t => inputs = .captured (s.generators gen).seedExtragraph
          (s.generators gen).offsetExtragraph (s.generators gen).offsetIntragraph ∧
        t = s.drawn gen increment) (fun _ _ => False) s := by
    simp only [philoxState, currentStreamCaptureStatus, wp_bind, wp_gcuCheck, wp_get, wp_pure,
      onGenerator, wp_zoom, philoxGcuState, if_pos capturing, wp_torchCheck, wp_internalAssert, wp_set,
      draws.expects, draws.aligned, draws.bound]
    simp [Session.drawn, draws.expects]
  unfold wp at returns
  cases ran : (philoxState {} gen increment).run s with
  | ok inputs t =>
    rw [ran] at returns
    rw [returns.1, returns.2]
  | error error t =>
    rw [ran] at returns
    exact returns.elim

/-! ### Captured sequences -/

/-- A state in the midst of a capture, when some calls have been made: no generator that takes part
has given out 2^32 numbers. -/
structure InCapture (gens : List GeneratorId) (pointers : GeneratorId → TensorId × TensorId)
    (done : List PhiloxCall) (s : Session) : Prop where
  capturing : s.currentStatus ≠ .none
  from_ : CapturingFrom gens pointers done s
  fits : ∀ gen, (advance done gen).toNat < 2 ^ 32

/-- What a call keeps. -/
structure DrawsOnly (s t : Session) : Prop where
  unchanged : t = { s with generators := t.generators }
  offsets : ∀ gen, (t.generators gen).philoxOffsetPerThread = (s.generators gen).philoxOffsetPerThread
  expects : ∀ gen, (t.generators gen).graphExpectsThisGen = (s.generators gen).graphExpectsThisGen

theorem DrawsOnly.refl (s : Session) : DrawsOnly s s := ⟨rfl, fun _ => rfl, fun _ => rfl⟩

theorem DrawsOnly.trans {t u : Session} (first : DrawsOnly s t) (second : DrawsOnly t u) :
    DrawsOnly s u :=
  ⟨by rw [second.unchanged, first.unchanged], fun gen => (second.offsets gen).trans (first.offsets gen),
    fun gen => (second.expects gen).trans (first.expects gen)⟩

theorem drawsOnly_drawn (s : Session) (gen : GeneratorId) (increment : UInt64) :
    DrawsOnly s (s.drawn gen increment) := by
  refine ⟨rfl, fun other => ?_, fun other => ?_⟩ <;>
  by_cases same : other = gen <;> simp [Session.drawn, Session.setGenerator, same]

/-- An assertion on words that does bound the offset, since the increment is below 2^32. -/
theorem fits_of_bound {offset increment : UInt64} (below : offset.toNat < 2 ^ 32)
    (small : increment.toNat < 2 ^ 32) (bound : offset ≤ uint32Max - increment) :
    (offset + increment).toNat < 2 ^ 32 := by
  have words := UInt64.le_iff_toNat_le.mp bound
  simp only [uint32Max, UInt64.toNat_sub, UInt64.toNat_add, UInt64.toNat_ofNat] at words ⊢
  omega

theorem InCapture.draw {gens : List GeneratorId} {pointers : GeneratorId → TensorId × TensorId}
    {done : List PhiloxCall} (inCapture : InCapture gens pointers done s) (member : gen ∈ gens)
    (small : (roundIncrement increment).toNat < 2 ^ 32) (draws : s.Draws gen increment) :
    InCapture gens pointers (done ++ [(gen, increment)]) (s.drawn gen increment) := by
  have drawn := wp_ok (philoxState_capturing increment member inCapture.capturing inCapture.from_)
    (philoxState_draws inCapture.capturing draws)
  refine ⟨inCapture.capturing, drawn.2.1, fun other => ?_⟩
  rw [advance_append, advance_one]
  split
  · next same =>
    subst same
    refine fits_of_bound (inCapture.fits gen) small ?_
    have counted : (s.generators gen).offsetIntragraph.toUInt64 = low (advance done gen) := by
      rw [(inCapture.from_ gen member).2.2]
      rfl
    have bound := draws.bound
    rwa [counted, (low_eq_iff _).mpr (inCapture.fits gen)] at bound
  · rw [UInt64.add_zero]
    exact inCapture.fits other

/-- What an operator is given in a capture: nothing, or what its call of `philox_gcu_state` gives. -/
structure DrawnState (s : Session) (gens : List GeneratorId) (op : RandomOp) (inputs : PhiloxGcuState)
    (t : Session) : Prop where
  minds : op.Minds
  member : (op.call s.defaultGenerator).1 ∈ gens
  small : (roundIncrement (op.call s.defaultGenerator).2).toNat < 2 ^ 32
  draws : s.Draws (op.call s.defaultGenerator).1 (op.call s.defaultGenerator).2
  after : t = s.drawn (op.call s.defaultGenerator).1 (op.call s.defaultGenerator).2
  ran : (philoxState {} (op.call s.defaultGenerator).1 (op.call s.defaultGenerator).2).run s =
    .ok inputs t

theorem optionalPhiloxState_captured {generator : Option GeneratorId}
    {answer : Except TopsError UInt64} (capturing : s.currentStatus ≠ .none) :
    wp (optionalPhiloxState rt generator answer)
      (fun state t => ∃ increment inputs, answer = .ok increment ∧ state = .philox inputs ∧
        s.Draws (generator.getD s.defaultGenerator) increment ∧
        t = s.drawn (generator.getD s.defaultGenerator) increment ∧
        (philoxState {} (generator.getD s.defaultGenerator) increment).run s = .ok inputs t)
      (fun _ t => t = s) s := by
  simp only [optionalPhiloxState, wp_bind, wp_get]
  cases answer with
  | error error => exact rfl
  | ok increment =>
    simp only [topsatenCall, wp_pure]
    refine wp_mono (philoxState_captured capturing) (fun inputs t after => ?_) fun _ _ same => same
    obtain ⟨rfl, rfl, draws⟩ := after
    exact ⟨increment, _, rfl, rfl, draws, rfl, philoxState_draws capturing draws⟩

theorem draw_captured {address : TensorId → UInt64} {gens : List GeneratorId} {op : RandomOp}
    (capturing : s.currentStatus ≠ .none) (allows : s.Allows gens op) :
    wp (op.draw address rt)
      (fun state t => state = none ∧ t = s ∨
        ∃ inputs, state = some (.philox inputs) ∧ DrawnState s gens op inputs t)
      (fun _ t => t = s) s := by
  have asked {generator : Option GeneratorId} {increment : UInt64}
      (draws : s.Draws (generator.getD s.defaultGenerator) increment)
      (allows : s.AllowsCall gens (generator.getD s.defaultGenerator) increment) :
      generator.getD s.defaultGenerator ∈ gens ∧ (roundIncrement increment).toNat < 2 ^ 32 := by
    refine allows.resolve_left fun unexpected => ?_
    have expects := draws.expects
    rw [unexpected] at expects
    cases expects
  cases op with
  | random generator answer =>
    simp only [RandomOp.draw, wp_bind, wp_pure]
    refine wp_mono (optionalPhiloxState_captured capturing) (fun state t after => ?_)
      fun _ _ same => same
    obtain ⟨increment, inputs, rfl, rfl, draws, same, ran⟩ := after
    obtain ⟨member, small⟩ := asked draws (allows increment rfl)
    exact .inr ⟨inputs, rfl, rfl, member, small, draws, same, ran⟩
  | uniform generator numel answer =>
    simp only [RandomOp.draw, wp_ite, wp_bind, wp_pure]
    refine ⟨fun _ => .inl (by simp), fun some => ?_⟩
    refine wp_mono (optionalPhiloxState_captured capturing) (fun state t after => ?_)
      fun _ _ same => same
    obtain ⟨increment, inputs, rfl, rfl, draws, same, ran⟩ := after
    obtain ⟨member, small⟩ := asked draws (allows some increment rfl)
    exact .inr ⟨inputs, rfl, ⟨some, rfl⟩, member, small, draws, same, ran⟩
  | nativeDropout device numel =>
    simp only [RandomOp.draw, getDefaultTopsatenGenerator, wp_bind, wp_get, wp_pure]
    refine wp_mono (philoxState_captured capturing) (fun inputs t after => ?_) fun _ _ same => same
    have expects := after.2.2.expects
    rw [allows] at expects
    cases expects
  | generated device generator numel => exact allows.elim

theorem DrawsOnly.allows {t : Session} {gens : List GeneratorId} {op : RandomOp}
    (draws : DrawsOnly s t) (allows : s.Allows gens op) : t.Allows gens op := by
  have default : t.defaultGenerator = s.defaultGenerator := by rw [draws.unchanged]; rfl
  have defaults : t.defaultGenerators = s.defaultGenerators := by rw [draws.unchanged]
  cases op with
  | random generator answer =>
    simpa [Session.Allows, Session.AllowsCall, default, draws.expects] using allows
  | uniform generator numel answer =>
    simpa [Session.Allows, Session.AllowsCall, default, draws.expects] using allows
  | nativeDropout device numel =>
    simpa [Session.Allows, defaults, draws.expects] using allows
  | generated device generator numel => exact allows.elim

/-- The operators that were given a state have made calls of `philox_gcu_state`, and the others have
changed nothing. -/
structure Issued (s : Session) (gens : List GeneratorId) (done : List PhiloxCall)
    (given : List (RandomOp × RandomState)) (t : Session) : Prop where
  draws : DrawsOnly s t
  minds : ∀ entry ∈ given, entry.1.Minds ∧ (entry.1.call s.defaultGenerator).1 ∈ gens
  fits : ∀ before, before <+: given.map (fun entry => entry.1.call s.defaultGenerator) →
    ∀ gen, (advance (done ++ before) gen).toNat < 2 ^ 32
  ran : ∃ states, given.map (·.2) = states.map .philox ∧
    (philoxCalls {} (given.map fun entry => entry.1.call s.defaultGenerator)).run s = .ok states t

theorem issue_spec {address : TensorId → UInt64} {gens : List GeneratorId}
    {pointers : GeneratorId → TensorId × TensorId} {done : List PhiloxCall}
    {ops : List (GraphRuntime × RandomOp)} (inCapture : InCapture gens pointers done s)
    (allows : ∀ op ∈ ops, s.Allows gens op.2) :
    Issued s gens done (issue address ops s).1 (issue address ops s).2 := by
  induction ops generalizing s done with
  | nil =>
    refine ⟨.refl s, by simp [issue], fun before isPrefix gen => ?_, [], rfl, rfl⟩
    rw [List.prefix_nil.mp isPrefix, List.append_nil]
    exact inCapture.fits gen
  | cons op ops ih =>
    obtain ⟨rt, op⟩ := op
    have later := fun other member => allows other (List.mem_cons_of_mem _ member)
    have first := @draw_captured rt s address gens op inCapture.capturing
      (allows _ List.mem_cons_self)
    unfold wp at first
    cases ran : (op.draw address rt).run s with
    | error error t =>
      rw [ran] at first
      subst first
      simpa only [issue, ran] using ih inCapture later
    | ok state t =>
      rw [ran] at first
      rcases first with ⟨rfl, rfl⟩ | ⟨inputs, rfl, drawn⟩
      · simpa only [issue, ran] using ih inCapture later
      · obtain ⟨minds, member, small, draws, rfl, returned⟩ := drawn
        have only := drawsOnly_drawn s (op.call s.defaultGenerator).1 (op.call s.defaultGenerator).2
        have rest := ih (inCapture.draw member small draws)
          (fun other here => only.allows (later other here))
        have default : (s.drawn (op.call s.defaultGenerator).1
          (op.call s.defaultGenerator).2).defaultGenerator = s.defaultGenerator := rfl
        obtain ⟨states, given, runs⟩ := rest.ran
        rw [default] at runs
        simp only [issue, ran]
        refine ⟨only.trans rest.draws, ?_, ?_, inputs :: states, ?_, ?_⟩
        · intro entry here
          rcases List.mem_cons.mp here with rfl | here
          · exact ⟨minds, member⟩
          · exact rest.minds entry here
        · intro before isPrefix gen
          rw [List.map_cons] at isPrefix
          rcases before with _ | ⟨call, before⟩
          · rw [List.append_nil]
            exact inCapture.fits gen
          · obtain ⟨rfl, tail⟩ := List.cons_prefix_cons.mp isPrefix
            have fits := rest.fits before tail gen
            rwa [List.append_assoc] at fits
        · rw [List.map_cons, List.map_cons, given]
        · simp only [EStateM.run] at returned runs ⊢
          simp only [List.map_cons, philoxCalls, bind, EStateM.bind, returned, runs]
          rfl

/-! ### Eager sequences -/

/-- An operator that minds captures makes its call in any state. -/
theorem draw_minds {address : TensorId → UInt64} {op : RandomOp} (minds : op.Minds)
    {inputs : PhiloxGcuState} {t : Session}
    (ran : (philoxState {} (op.call s.defaultGenerator).1 (op.call s.defaultGenerator).2).run s =
      .ok inputs t) : (op.draw address {}).run s = .ok (some (.philox inputs)) t := by
  have drawn {generator : Option GeneratorId} {increment : UInt64}
      (ran : (philoxState {} (generator.getD s.defaultGenerator) increment).run s = .ok inputs t) :
      (optionalPhiloxState {} generator (.ok increment)).run s = .ok (.philox inputs) t := by
    simp only [EStateM.run] at ran ⊢
    simp only [optionalPhiloxState, topsatenCall, bind, EStateM.bind, get_apply, pure, EStateM.pure,
      ran]
  cases op with
  | random generator answer =>
    cases answer with
    | error error => cases minds
    | ok increment =>
      have returned := @drawn generator increment ran
      simp only [EStateM.run] at returned ⊢
      simp only [RandomOp.draw, bind, EStateM.bind, returned, pure, EStateM.pure]
  | uniform generator numel answer =>
    cases answer with
    | error error => cases minds.2
    | ok increment =>
      have returned := @drawn generator increment ran
      simp only [EStateM.run] at returned ⊢
      simp only [RandomOp.draw, if_neg minds.1, bind, EStateM.bind, returned, pure, EStateM.pure]
  | _ => exact minds.elim

theorem philoxState_default : Preserves (fun t => t.defaultGenerator = s.defaultGenerator)
    (philoxState rt gen increment) :=
  .bind (.bind (gcuCheck_preserves _) fun _ => .bind .get fun _ => .pure _) fun _ =>
    .zoom fun _ _ same => same

theorem eagerly_minds {address : TensorId → UInt64} {ops : List RandomOp} {default : GeneratorId}
    (minds : ∀ op ∈ ops, op.Minds) {states : List PhiloxGcuState} {t : Session}
    (same : s.defaultGenerator = default)
    (ran : (philoxCalls {} (ops.map fun op => op.call default)).run s = .ok states t) :
    (eagerly address ops).run s = .ok (states.map fun state => some (.philox state)) t := by
  induction ops generalizing s states with
  | nil =>
    cases ran
    rfl
  | cons op ops ih =>
    have here := minds op List.mem_cons_self
    simp only [EStateM.run] at ran ih ⊢
    simp only [List.map_cons, philoxCalls, bind, EStateM.bind] at ran
    cases first : philoxState {} (op.call default).1 (op.call default).2 s with
    | error error u => simp [first] at ran
    | ok inputs u =>
      simp only [first] at ran
      have sameU := @philoxState_default {} s (op.call default).1 (op.call default).2 s rfl
      simp only [wp, EStateM.run, first] at sameU
      cases rest : philoxCalls {} (ops.map fun op => op.call default) u with
      | error error v => simp [rest] at ran
      | ok others v =>
        simp only [rest, pure, EStateM.pure, EStateM.Result.ok.injEq] at ran
        obtain ⟨rfl, rfl⟩ := ran
        have drawn := @draw_minds s address op here inputs u (by rw [same]; exact first)
        have later := ih (fun other member => minds other (List.mem_cons_of_mem _ member))
          (sameU.trans same) rest
        simp only [EStateM.run] at drawn
        simp only [eagerly, bind, EStateM.bind, drawn, later, pure, EStateM.pure, List.map_cons]

/-! ### The beginning and the end of a capture -/

/-- No generator is advanced. -/
def KeepsOffset (gen : GeneratorId) (offset : UInt64) (t : Session) : Prop :=
  (t.generators gen).philoxOffsetPerThread = offset

variable {offset : UInt64}

theorem onGenerator_keeps {β : Type} {other : GeneratorId} {m : EStateM Err GCUGeneratorImpl β}
    (keeps : ∀ x, Preserves (fun state => state.philoxOffsetPerThread = x) m) :
    Preserves (KeepsOffset gen offset) (onGenerator other m) := by
  intro t kept
  rw [onGenerator, wp_zoom]
  have written (state : GCUGeneratorImpl)
      (same : state.philoxOffsetPerThread = (t.generators other).philoxOffsetPerThread) :
      KeepsOffset gen offset (t.setGenerator other state) := by
    by_cases here : gen = other
    · subst here
      simpa [KeepsOffset, Session.setGenerator, same] using kept
    · simpa [KeepsOffset, Session.setGenerator, here] using kept
  exact wp_mono (keeps _ _ rfl) (fun _ state same => written state same)
    fun _ state same => written state same

theorem modifyThis_keeps (f : GCUGraph → GCUGraph) :
    Preserves (KeepsOffset gen offset) (modifyThis f) := .modify fun _ kept => kept

theorem emptyTensor_keeps : Preserves (KeepsOffset gen offset) (emptyTensor rt) := by
  intro t kept
  simp only [emptyTensor, wp_bind, wp_get, wp_gcuCheck, wp_set, wp_pure]
  exact ⟨fun _ => kept, fun _ _ => kept⟩

theorem currentSeed_keeps (other : GeneratorId) :
    Preserves (KeepsOffset gen offset) (currentSeed rt other) :=
  .bind (.bind (gcuCheck_preserves _) fun _ => .bind .get fun _ => .pure _) fun _ =>
    .bind (torchCheck_preserves _ _) fun _ => .bind .get fun _ => .pure _

theorem copyToDevice_keeps (tensor : TensorId) (value : UInt64) :
    Preserves (KeepsOffset gen offset) (copyToDevice rt tensor value) :=
  .bind (gcuCheck_preserves _) fun _ => .modify fun _ kept => kept

theorem prologue_keeps (other : GeneratorId) (seed offset' : TensorId) :
    Preserves (KeepsOffset gen offset) (prologue other seed offset') :=
  onGenerator_keeps fun _ => .modify fun _ same => same

theorem beginExtras_keeps (extras : Extras) :
    Preserves (KeepsOffset gen offset) (beginExtras rt extras) := by
  induction extras with
  | nil => exact .pure _
  | cons extra rest ih =>
    exact .bind (currentSeed_keeps _) fun _ => .bind (copyToDevice_keeps _ _) fun _ =>
      .bind (prologue_keeps _ _ _) fun _ => ih

theorem beginGenerators_keeps (other : GeneratorId) :
    Preserves (KeepsOffset gen offset) (beginGenerators rt other) :=
  .bind emptyTensor_keeps fun _ => .bind (modifyThis_keeps _) fun _ => .bind emptyTensor_keeps fun _ =>
    .bind (modifyThis_keeps _) fun _ => .bind (currentSeed_keeps _) fun _ =>
      .bind (copyToDevice_keeps _ _) fun _ => .bind (prologue_keeps _ _ _) fun _ =>
        .bind .get fun _ => beginExtras_keeps _

theorem onAllocator_keeps {β : Type} (device : DeviceIndex) (m : GCUCachingAllocator.M β) :
    Preserves (KeepsOffset gen offset) (onAllocator device m) :=
  .bind .get fun _ => .bind (torchCheck_preserves _ _) fun _ => .zoom fun _ _ kept => kept

theorem beginStream_keeps (stream : GCUStream) :
    Preserves (KeepsOffset gen offset) (beginStream rt stream) := by
  refine .bind .get fun _ => .bind (onAllocator_keeps _ _) fun _ => .bind (.modify fun _ kept => kept)
    fun _ => .bind (gcuCheck_preserves _) fun _ => .bind (.modify fun _ kept => kept) fun _ => ?_
  have rest : Preserves (KeepsOffset gen offset)
      (do internalAssert (decide (0 < (← get).this.id)) "id_ > 0") :=
    .bind .get fun _ => internalAssert_preserves _ _
  cases rt.topsStreamGetCaptureInfo with
  | error error => exact .bind (.throw _) fun _ => rest
  | ok status => exact .bind (internalAssert_preserves _ _) fun _ => rest

theorem captureSequenceId_keeps : Preserves (KeepsOffset gen offset) captureSequenceId := by
  intro t kept
  simp only [captureSequenceId, wp_bind, wp_get, wp_set, wp_pure]
  exact kept

theorem captureBegin_keeps (pool : MempoolId) :
    Preserves (KeepsOffset gen offset) (captureBegin rt pool) := by
  refine .bind .get fun _ => .bind (torchCheck_preserves _ _) fun _ => .bind .get fun _ =>
    .bind (beginGenerators_keeps _) fun _ => .bind .get fun _ => .bind .get fun _ =>
      .bind (torchCheck_preserves _ _) fun _ => .bind .get fun _ => .bind (modifyThis_keeps _) fun _ =>
        .bind captureSequenceId_keeps fun _ => .bind (modifyThis_keeps _) fun _ => ?_
  refine .ite (.bind (internalAssert_preserves _ _) fun _ => ?_) ?_
  · exact .bind (modifyThis_keeps _) fun _ => beginStream_keeps _
  · exact .bind (modifyThis_keeps _) fun _ => beginStream_keeps _

theorem epilogue_keeps (other : GeneratorId) :
    Preserves (KeepsOffset gen offset) (onGenerator other captureEpilogue) :=
  onGenerator_keeps fun _ => .bind (.modify fun _ same => same) fun _ => .bind .get fun _ => .pure _

theorem endExtras_keeps (extras : Extras) :
    Preserves (KeepsOffset gen offset) (endExtras extras) := by
  induction extras with
  | nil => exact .pure _
  | cons extra rest ih => exact .bind (epilogue_keeps _) fun _ => .bind ih fun _ => .pure _

theorem graphDestroy_keeps : Preserves (KeepsOffset gen offset) (graphDestroy rt) := by
  refine .bind .get fun s => ?_
  cases s.this.graph with
  | none => exact .pure _
  | some graph => exact .bind (.modify fun _ kept => kept) fun _ => .pure _

theorem endGenerators_keeps (graph : Handle) :
    Preserves (KeepsOffset gen offset) (endGenerators rt graph) := by
  refine .bind .get fun _ => .bind .get fun _ => .bind (torchCheck_preserves _ _) fun _ =>
    .bind (epilogue_keeps _) fun _ => .bind (modifyThis_keeps _) fun _ => .bind .get fun _ =>
      .bind (endExtras_keeps _) fun _ => .bind (modifyThis_keeps _) fun _ =>
        .bind (.modify fun _ kept => kept) fun _ => .bind (gcuCheck_preserves _) fun _ =>
          .bind .get fun _ => ?_
  refine .ite (.bind graphDestroy_keeps fun _ => .bind (gcuCheck_preserves _) fun _ => ?_) ?_
  · exact .bind (modifyThis_keeps _) fun _ => .modify fun _ kept => kept
  · exact .modify fun _ kept => kept

theorem streamEndCapture_keeps : Preserves (KeepsOffset gen offset) (streamEndCapture rt) := by
  simp only [streamEndCapture]
  cases rt.topsStreamEndCapture with
  | error error => exact .throw _
  | ok captured =>
    refine .bind (.modify fun _ kept => kept) fun _ => .ite ?_ (modifyThis_keeps _)
    exact .bind .get fun _ => .bind (.modify fun _ kept => kept) fun _ => modifyThis_keeps _

theorem graphInstantiate_keeps (graph : Handle) :
    Preserves (KeepsOffset gen offset) (graphInstantiate rt graph) :=
  .bind (.modify fun _ kept => kept) fun _ => .bind (gcuCheck_preserves _) fun _ =>
    .bind .get fun _ => .bind (.modify fun _ kept => kept) fun _ => modifyThis_keeps _

theorem captureEnd_keeps : Preserves (KeepsOffset gen offset) (captureEnd rt) := by
  refine .bind .get fun _ => .bind .get fun _ => .bind (torchCheck_preserves _ _) fun _ =>
    .bind streamEndCapture_keeps fun _ => .bind .get fun _ => .bind (onAllocator_keeps _ _) fun _ =>
      .bind .get fun s => ?_
  cases s.this.graph with
  | none => exact .throw _
  | some graph =>
    refine .bind (modifyThis_keeps _) fun _ => .bind (graphInstantiate_keeps _) fun _ =>
      .bind (modifyThis_keeps _) fun _ => .bind (endGenerators_keeps _) fun _ => .bind .get fun s => ?_
    cases s.this.graphExec with
    | none => exact .pure _
    | some exec => exact .modify fun _ kept => kept

/-! ### Replay safety -/

namespace CapturedOps
variable {r : CapturedOps}

theorem begun_result : ∃ pointers : GeneratorId → TensorId × TensorId,
    Pointers r.start.this.extraGenerators r.start.defaultGenerator r.start.nextTensor
      (r.start.nextTensor + 1) pointers ∧ Begun r.start pointers r.begun ∧
    ∀ gen, gen ∈ r.start.this.extraGenerators.keys ↔ gen ∈ r.gens := by
  obtain ⟨apart, keys⟩ := registered_apart r.isNew r.nodup r.registers r.elsewhere
  obtain ⟨pointers, points⟩ := Replayed.exists_pointers apart.keys r.start.defaultGenerator
    r.start.nextTensor (r.start.nextTensor + 1)
  obtain ⟨rt, pool, begins⟩ := r.begins
  have begun := wp_ok (captureBegin_result pool apart.keys points) begins
  exact ⟨pointers, points, begun, keys⟩

theorem inCapture : ∃ pointers : GeneratorId → TensorId × TensorId,
    Pointers r.begun.this.extraGenerators r.start.defaultGenerator r.begun.this.seedExtragraph
      r.begun.this.offsetExtragraph pointers ∧
    r.begun.defaultGenerator = r.start.defaultGenerator ∧
    InCapture (r.start.defaultGenerator :: r.gens) pointers [] r.begun := by
  obtain ⟨pointers, points, begun, keys⟩ := r.begun_result
  refine ⟨pointers, by rwa [begun.extras, begun.seed, begun.offset], ?_, ?_⟩
  · rw [Session.defaultGenerator, begun.defaults, begun.device]
    rfl
  · refine ⟨?_, fun gen member => begun.capturing gen ?_, fun _ => Nat.two_pow_pos 32⟩
    · rw [Session.currentStatus, begun.status]
      decide
    · rw [List.mem_cons, keys, ← List.mem_cons]
      exact member

theorem issued (meets : ∀ op ∈ r.ops, r.Meets op.2) : Issued r.begun
    (r.start.defaultGenerator :: r.gens) [] r.given (issue r.address r.ops r.begun).2 := by
  obtain ⟨pointers, -, -, inCapture⟩ := r.inCapture
  exact issue_spec inCapture meets

/-- The calls that the operators make, given that all of them mind the capture. -/
structure Calls (r : CapturedOps) (states : List PhiloxGcuState) : Prop where
  minds : ∀ entry ∈ r.given,
    entry.1.Minds ∧ (entry.1.call r.start.defaultGenerator).1 ∈ r.start.defaultGenerator :: r.gens
  fits : ∀ before, before <+: r.calls → ∀ gen, (advance before gen).toNat < 2 ^ 32
  given : r.given.map (·.2) = states.map .philox
  ran : (philoxCalls {} r.calls).run r.begun = .ok states (issue r.address r.ops r.begun).2

theorem exists_calls (meets : ∀ op ∈ r.ops, r.Meets op.2) : ∃ states, Calls r states := by
  obtain ⟨-, -, default, -⟩ := r.inCapture
  have issued := r.issued meets
  have minds := issued.minds
  have fits := issued.fits
  obtain ⟨states, given, ran⟩ := issued.ran
  rw [default] at minds fits ran
  simp only [List.nil_append] at fits
  exact ⟨states, minds, fits, given, ran⟩

theorem Calls.known {states : List PhiloxGcuState} (made : Calls r states) :
    ∀ call ∈ r.calls, call.1 ∈ r.start.defaultGenerator :: r.gens := by
  intro call member
  obtain ⟨entry, here, rfl⟩ := List.mem_map.mp member
  exact (made.minds entry here).2

/-- The capture of the calls alone. -/
def Calls.replayed {states : List PhiloxGcuState} (made : Calls r states) : Replayed where
  gens := r.gens
  calls := r.calls
  inputs := states
  new := r.new
  registered := r.registered
  start := r.start
  begun := r.begun
  captured := (issue r.address r.ops r.begun).2
  ended := r.ended
  eager := r.eager
  replayed := r.replayed
  isNew := r.isNew
  nodup := r.nodup
  registers := r.registers
  elsewhere := r.elsewhere
  begins := r.begins
  known := fun call member => List.mem_cons.mp (made.known call member)
  captures := ⟨{}, made.ran⟩
  ends := r.ends
  later := r.later
  replays := r.replays

theorem recorded (meets : ∀ op ∈ r.ops, r.Meets op.2) : r.Recorded := by
  obtain ⟨pointers, points, -, inCapture⟩ := r.inCapture
  obtain ⟨states, made⟩ := r.exists_calls meets
  have inputs :=
    (wp_ok (philoxCalls_capturing made.known inCapture.capturing inCapture.from_) made.ran).1
  refine ⟨pointers, points, ?_⟩
  rw [made.given, inputs, List.map_map]
  rfl

theorem offsetsKept (meets : ∀ op ∈ r.ops, r.Meets op.2) : r.OffsetsKept := by
  intro gen
  obtain ⟨rtBegin, pool, begins⟩ := r.begins
  obtain ⟨rtEnd, ends⟩ := r.ends
  have begun := @captureBegin_keeps rtBegin gen (r.start.generators gen).philoxOffsetPerThread pool
    r.start rfl
  have drawn := (r.issued meets).draws.offsets gen
  have captured : KeepsOffset gen (r.start.generators gen).philoxOffsetPerThread
      (issue r.address r.ops r.begun).2 := drawn.trans ((wp_run begins).mp begun)
  exact (wp_run ends).mp (captureEnd_keeps _ captured)

/-- The device of the capture has the same default generator when the graph is replayed. -/
theorem sameDefault (meets : ∀ op ∈ r.ops, r.Meets op.2) :
    r.eager.onCaptureDevice.defaultGenerator = r.start.defaultGenerator := by
  obtain ⟨pointers, -, begun, -⟩ := r.begun_result
  obtain ⟨rt, ends⟩ := r.ends
  obtain ⟨-, -, -, -, stream⟩ := wp_ok captureEnd_result ends
  have kept : (issue r.address r.ops r.begun).2.this = r.begun.this := by
    rw [(r.issued meets).draws.unchanged]
  obtain ⟨this, defaults⟩ := r.later
  rw [Session.onCaptureDevice, Session.defaultGenerator, this, stream, kept, begun.stream, defaults]
  rfl

theorem seesEager (meets : ∀ op ∈ r.ops, r.Meets op.2) (once : r.start.defaultGenerator ∉ r.gens) :
    r.SeesEager := by
  obtain ⟨states, made⟩ := r.exists_calls meets
  have fits : made.replayed.Fits := ⟨made.fits, fun registered => absurd registered once⟩
  obtain ⟨values, final, eager, same, -⟩ := Replayed.matchesEager_iff_fits.mpr fits
  have minds : ∀ op ∈ r.given.map (·.1), op.Minds := by
    intro op member
    obtain ⟨entry, here, rfl⟩ := List.mem_map.mp member
    exact (made.minds entry here).1
  have ran : (philoxCalls {} ((r.given.map (·.1)).map fun op =>
      op.call r.start.defaultGenerator)).run r.eager.onCaptureDevice = .ok values final := by
    rw [List.map_map]
    exact eager
  refine ⟨_, final, eagerly_minds minds (r.sameDefault meets) ran, ?_⟩
  have read : r.given.map (fun entry => some (entry.2.seen r.replayed.memory)) =
      (r.given.map (·.2)).map fun state => some (state.seen r.replayed.memory) := by
    rw [List.map_map]
    rfl
  have kernels : states.map (seen r.replayed.memory) = values := same
  rw [read, made.given, ← kernels, List.map_map, List.map_map]
  rfl

theorem Recorded.noValues (recorded : r.Recorded) (seed offset : UInt64) :
    .generator seed offset ∉ r.given.map (·.2) := by
  intro member
  obtain ⟨pointers, -, same⟩ := recorded
  rw [same] at member
  obtain ⟨entry, -, philox⟩ := List.mem_map.mp member
  cases philox

/-- Random operators are replay-safe where each of them passes its state on as
`philox_gcu_state` has given it, and the default generator is not registered a second time. -/
theorem replay_safe (r : CapturedOps) (meets : ∀ op ∈ r.ops, r.Meets op.2)
    (once : r.start.defaultGenerator ∉ r.gens) : r.ReplaySafe :=
  ⟨r.recorded meets, r.offsetsKept meets, r.seesEager meets once⟩

end CapturedOps

/-! Operators of the default generator, captured and replayed right after. -/

def sampleAddress (tensor : TensorId) : UInt64 := 4096 + 8 * tensor.toUInt64

def sampleIssued (ops : List (GraphRuntime × RandomOp)) : Session :=
  (issue sampleAddress ops (sampleBegun [])).2

theorem sample_registers :
    result? ((registerGenerators .succeeding []).run newSession) = some () := by decide +kernel

theorem sample_begins :
    result? ((captureBegin .succeeding (0, 0)).run (sampleStart [])) = some () := by decide +kernel

def sampleOps (ops : List (GraphRuntime × RandomOp))
    (later : (endState ((captureEnd .succeeding).run (sampleIssued ops))).defaultGenerators =
      (sampleStart []).defaultGenerators)
    (ends : result? ((captureEnd .succeeding).run (sampleIssued ops)) = some ())
    (replays : result? ((replay .succeeding).run (endState ((captureEnd .succeeding).run (sampleIssued ops)))) =
      some ()) : CapturedOps where
  address := sampleAddress
  gens := []
  ops := ops
  new := newSession
  registered := sampleStart []
  start := sampleStart []
  begun := sampleBegun []
  ended := endState ((captureEnd .succeeding).run (sampleIssued ops))
  eager := endState ((captureEnd .succeeding).run (sampleIssued ops))
  replayed := endState ((replay .succeeding).run (endState ((captureEnd .succeeding).run (sampleIssued ops))))
  isNew := newSession_new
  nodup := List.nodup_nil
  registers := ⟨.succeeding, run_of_result sample_registers⟩
  elsewhere := ⟨rfl, Nat.le_refl _⟩
  begins := ⟨.succeeding, (0, 0), run_of_result sample_begins⟩
  ends := ⟨.succeeding, run_of_result ends⟩
  later := ⟨rfl, later⟩
  replays := ⟨.succeeding, run_of_result replays⟩

/-- `random_` and `uniform_` on the default generator. -/
def filled : CapturedOps :=
  sampleOps [(.succeeding, .random none (.ok 4)), (.succeeding, .uniform none 16 (.ok 16))] rfl (by decide +kernel)
    (by decide +kernel)

theorem filled_replay_safe : (filled.start.defaultGenerator ∉ filled.gens) ∧ filled.ReplaySafe :=
  ⟨List.not_mem_nil, CapturedOps.replay_safe filled (by
    intro op member
    rcases List.mem_cons.mp member with rfl | member
    · rintro increment ⟨⟩
      exact .inr ⟨List.mem_cons_self, by decide +kernel⟩
    · rcases List.mem_singleton.mp member with rfl
      rintro - increment ⟨⟩
      exact .inr ⟨List.mem_cons_self, by decide +kernel⟩) List.not_mem_nil⟩

/-- An operator of the generator template, such as `normal_`. -/
def baked : CapturedOps :=
  sampleOps [(.succeeding, .generated 0 none 4)] rfl (by decide +kernel) (by decide +kernel)

/-- `native_dropout`. -/
def droppedOut : CapturedOps :=
  sampleOps [(.succeeding, .nativeDropout 0 4)] rfl (by decide +kernel) (by decide +kernel)

/-- An operator of the generator template is given values, and advances the generator; and
`native_dropout` is given the addresses of the tensors in place of what is in them. -/
theorem replay_unsafe : ¬ baked.Recorded ∧ ¬ baked.OffsetsKept ∧ ¬ droppedOut.Recorded := by
  refine ⟨fun recorded => ?_, fun kept => ?_, fun recorded => ?_⟩
  · exact recorded.noValues 67280421310721 0 (by decide +kernel)
  · have same := kept 0
    revert same
    decide +kernel
  · exact recorded.noValues 4096 4104 (by decide +kernel)

end TorchGcu.Graphs

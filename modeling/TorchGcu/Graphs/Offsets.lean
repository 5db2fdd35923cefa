import Mathlib.Data.UInt
import TorchGcu.Graphs.GCUGraph

/-! A sequence of random calls, captured and eager: the offset that each is given, as a sum
of the rounded increments before it. -/
namespace TorchGcu.Graphs
open ProgramLogic GCUGeneratorImpl
open GCUCachingAllocator (Err TopsError GCUStream DeviceIndex StreamId MempoolId)

/-! ### Words -/

theorem roundIncrement_aligned (increment : UInt64) : (roundIncrement increment).toNat % 4 = 0 := by
  simp only [roundIncrement, UInt64.toNat_mul, UInt64.toNat_ofNat, Nat.reducePow, Nat.reduceMod]
  omega

/-- A word that fits 32 bits and is a multiple of four is not rounded. -/
theorem roundIncrement_of_aligned {word : UInt64} (aligned : word.toNat % 4 = 0)
    (fits : word.toNat < 2 ^ 32) : roundIncrement word = word := by
  apply UInt64.toNat.inj
  simp only [roundIncrement, UInt64.toNat_mul, UInt64.toNat_div, UInt64.toNat_add,
    UInt64.toNat_ofNat, Nat.reducePow, Nat.reduceMod]
  omega

/-- The low half of a word, as a word again. -/
def low (word : UInt64) : UInt64 := word.toUInt32.toUInt64

theorem low_toNat (word : UInt64) : (low word).toNat = word.toNat % 2 ^ 32 := by
  simp [low]

theorem low_eq_iff (word : UInt64) : low word = word ↔ word.toNat < 2 ^ 32 := by
  constructor
  · intro same
    have bound := low_toNat word
    rw [same] at bound
    omega
  · intro fits
    apply UInt64.toNat.inj
    rw [low_toNat]
    exact Nat.mod_eq_of_lt fits

/-- Cutting off before an addition that is cut off makes no difference. -/
theorem low_add (word increment : UInt64) :
    (word.toUInt32.toUInt64 + increment).toUInt32 = (word + increment).toUInt32 := by
  apply UInt32.toNat.inj
  simp only [UInt64.toNat_toUInt32, UInt64.toNat_add, UInt32.toNat_toUInt64]
  omega

/-! ### Sequences of calls -/

/-- A generator and the increment asked of it. -/
abbrev PhiloxCall := GeneratorId × UInt64

def philoxCalls (rt : GraphRuntime) : List PhiloxCall → SessionM (List PhiloxGcuState)
  | [] => return []
  | (gen, increment) :: rest => do
    let inputs ← philoxState rt gen increment
    return inputs :: (← philoxCalls rt rest)

/-- By how much the calls advance a generator, as a word. -/
def advance (calls : List PhiloxCall) (gen : GeneratorId) : UInt64 :=
  ((calls.filter fun call => call.1 = gen).map fun call => roundIncrement call.2).sum

@[simp] theorem advance_nil (gen : GeneratorId) : advance [] gen = 0 := rfl

theorem advance_append (calls rest : List PhiloxCall) (gen : GeneratorId) :
    advance (calls ++ rest) gen = advance calls gen + advance rest gen := by
  simp [advance]

theorem advance_one (call : PhiloxCall) (gen : GeneratorId) :
    advance [call] gen = if call.1 = gen then roundIncrement call.2 else 0 := by
  by_cases same : call.1 = gen <;> simp [advance, same]

theorem advance_aligned (calls : List PhiloxCall) (gen : GeneratorId) :
    (advance calls gen).toNat % 4 = 0 := by
  induction calls with
  | nil => rfl
  | cons call rest ih =>
    have one : (advance [call] gen).toNat % 4 = 0 := by
      rw [advance_one]
      split
      · exact roundIncrement_aligned _
      · rfl
    have split : advance (call :: rest) gen = advance [call] gen + advance rest gen :=
      advance_append [call] rest gen
    rw [split, UInt64.toNat_add]
    omega

/-- Each call with the advance of its generator before it, `done` being the calls made so
far. -/
def offsetsFrom (done : List PhiloxCall) : List PhiloxCall → List (GeneratorId × UInt64)
  | [] => []
  | call :: rest => (call.1, advance done call.1) :: offsetsFrom (done ++ [call]) rest

/-- An offset is the advance of a prefix of the calls. -/
theorem offsetsFrom_mem {done calls : List PhiloxCall} {entry : GeneratorId × UInt64}
    (member : entry ∈ offsetsFrom done calls) :
    ∃ before, before <+: calls ∧ entry.2 = advance (done ++ before) entry.1 := by
  induction calls generalizing done with
  | nil => cases member
  | cons call rest ih =>
    rcases List.mem_cons.mp member with rfl | later
    · exact ⟨[], List.nil_prefix, by simp⟩
    · obtain ⟨before, isPrefix, same⟩ := ih later
      refine ⟨call :: before, ?_, by simpa using same⟩
      exact List.cons_prefix_cons.mpr ⟨rfl, isPrefix⟩

/-- The advance of any prefix is the offset of a call, or the advance of all the calls. -/
theorem prefixed_advance {done calls before : List PhiloxCall} (isPrefix : before <+: calls)
    (gen : GeneratorId) :
    (gen, advance (done ++ before) gen) ∈ offsetsFrom done calls ∨
      advance (done ++ before) gen = advance (done ++ calls) gen := by
  induction calls generalizing done before with
  | nil =>
    rw [List.prefix_nil.mp isPrefix]
    exact .inr rfl
  | cons call rest ih =>
    cases before with
    | nil =>
      by_cases here : call.1 = gen
      · subst here
        exact .inl (by simp [offsetsFrom])
      · -- The call is of another generator, so the empty prefix counts as much as it alone.
        have skip : advance (done ++ [call]) gen = advance done gen := by
          rw [advance_append, advance_one, if_neg here]
          simp
        have rest' := @ih (done ++ [call]) [] List.nil_prefix
        simp only [List.append_nil, skip, List.append_assoc, List.singleton_append] at rest' ⊢
        rcases rest' with later | all
        · exact .inl (List.mem_cons_of_mem _ later)
        · exact .inr all
    | cons first before =>
      obtain ⟨rfl, tail⟩ := List.cons_prefix_cons.mp isPrefix
      have rest' := @ih (done ++ [first]) before tail
      simp only [List.append_assoc, List.singleton_append] at rest'
      rcases rest' with later | all
      · exact .inl (List.mem_cons_of_mem _ later)
      · exact .inr all

/-! ### The calls, captured and eager -/

variable {rt : GraphRuntime} {s : Session} {gens : List GeneratorId}

/-- The generators have been prepared for the capture, and have given out offsets for the
calls made so far relative to the tensors that `pointers` names. -/
def CapturingFrom (gens : List GeneratorId) (pointers : GeneratorId → TensorId × TensorId)
    (done : List PhiloxCall) (s : Session) : Prop :=
  ∀ gen ∈ gens, (s.generators gen).seedExtragraph = some (pointers gen).1 ∧
    (s.generators gen).offsetExtragraph = some (pointers gen).2 ∧
    (s.generators gen).offsetIntragraph = (advance done gen).toUInt32

/-- The generators are ready for eager calls, and those made so far have advanced them from
where they were. -/
def EagerFrom (gens : List GeneratorId) (before : GeneratorId → GCUGeneratorImpl)
    (done : List PhiloxCall) (s : Session) : Prop :=
  ∀ gen ∈ gens, (s.generators gen).seed = (before gen).seed ∧
    (s.generators gen).philoxOffsetPerThread =
      (before gen).philoxOffsetPerThread + advance done gen ∧
    (s.generators gen).graphExpectsThisGen = false

theorem philoxState_capturing {pointers : GeneratorId → TensorId × TensorId}
    {done : List PhiloxCall} {gen : GeneratorId} (increment : UInt64) (member : gen ∈ gens)
    (capturing : s.currentStatus ≠ .none) (from_ : CapturingFrom gens pointers done s) :
    wp (philoxState rt gen increment)
      (fun inputs t => inputs = .captured (some (pointers gen).1) (some (pointers gen).2)
          (advance done gen).toUInt32 ∧
        CapturingFrom gens pointers (done ++ [(gen, increment)]) t ∧
        t = { s with generators := t.generators })
      (fun _ _ => True) s := by
  obtain ⟨seed, offset, intragraph⟩ := from_ gen member
  simp only [philoxState, currentStreamCaptureStatus, wp_bind, wp_gcuCheck, wp_get, wp_pure,
    onGenerator, wp_zoom, philoxGcuState, if_pos capturing, wp_torchCheck, wp_internalAssert, wp_set]
  refine ⟨fun _ => ⟨fun _ => ⟨fun _ => ⟨fun _ => ?_, fun _ => trivial⟩, fun _ => trivial⟩,
    fun _ => trivial⟩, fun _ _ => trivial⟩
  refine ⟨by rw [seed, offset, intragraph], fun other member' => ?_, rfl⟩
  rw [advance_append, advance_one]
  by_cases same : gen = other
  · subst same
    have sum : ((s.generators gen).offsetIntragraph.toUInt64 + roundIncrement increment).toUInt32 =
        (advance done gen + roundIncrement increment).toUInt32 := by
      rw [intragraph, low_add]
    simp only [Session.setGenerator, Function.update_self, if_pos]
    exact ⟨seed, offset, sum⟩
  · simpa [Session.setGenerator, Function.update_of_ne (Ne.symm same), same] using
      from_ other member'

theorem philoxCalls_capturing {pointers : GeneratorId → TensorId × TensorId}
    {done calls : List PhiloxCall} (known : ∀ call ∈ calls, call.1 ∈ gens)
    (capturing : s.currentStatus ≠ .none) (from_ : CapturingFrom gens pointers done s) :
    wp (philoxCalls rt calls)
      (fun inputs t => inputs = (offsetsFrom done calls).map (fun entry =>
          .captured (some (pointers entry.1).1) (some (pointers entry.1).2) entry.2.toUInt32) ∧
        CapturingFrom gens pointers (done ++ calls) t ∧
        t = { s with generators := t.generators })
      (fun _ _ => True) s := by
  induction calls generalizing done s with
  | nil => exact ⟨rfl, by simpa using from_, rfl⟩
  | cons call rest ih =>
    obtain ⟨gen, increment⟩ := call
    simp only [philoxCalls, wp_bind, wp_pure]
    have member := known _ List.mem_cons_self
    refine wp_mono (philoxState_capturing increment member capturing from_) (fun inputs t after => ?_) fun _ _ _ => trivial
    obtain ⟨rfl, from', unchanged⟩ := after
    have still : t.currentStatus ≠ .none := by rw [unchanged]; exact capturing
    have later := ih (fun call member => known call (List.mem_cons_of_mem _ member)) still from'
    refine wp_mono later (fun inputs' u after => ?_) fun _ _ _ => trivial
    obtain ⟨rfl, from'', unchanged'⟩ := after
    refine ⟨rfl, by simpa using from'', ?_⟩
    rw [unchanged', unchanged]

theorem philoxState_eager {before : GeneratorId → GCUGeneratorImpl} {done : List PhiloxCall}
    {gen : GeneratorId} (increment : UInt64) (member : gen ∈ gens)
    (aligned : (before gen).philoxOffsetPerThread.toNat % 4 = 0)
    (eager : s.currentStatus = .none) (from_ : EagerFrom gens before done s) :
    wp (philoxState {} gen increment)
      (fun inputs t => inputs = .values (before gen).seed
          ((before gen).philoxOffsetPerThread + advance done gen) ∧
        EagerFrom gens before (done ++ [(gen, increment)]) t ∧
        t = { s with generators := t.generators })
      (fun _ _ => False) s := by
  obtain ⟨seed, offset, ready⟩ := from_ gen member
  have multiple : ((s.generators gen).philoxOffsetPerThread % 4 == 0) = true := by
    rw [offset, beq_iff_eq]
    apply UInt64.toNat.inj
    have step := advance_aligned done gen
    simp only [UInt64.toNat_mod, UInt64.toNat_add, UInt64.toNat_ofNat, Nat.reducePow, Nat.reduceMod]
    omega
  simp only [philoxState, currentStreamCaptureStatus, wp_bind, wp_gcuCheck, wp_get, wp_pure,
    onGenerator, wp_zoom, philoxGcuState, eager, ne_eq, not_true_eq_false, if_false, wp_torchCheck,
    wp_internalAssert, wp_set, multiple, ready]
  refine ⟨fun _ => ⟨fun _ => ⟨fun _ => ?_, fun never => by cases never⟩, fun never => by cases never⟩,
    fun _ never => by cases never⟩
  refine ⟨by rw [seed, offset], fun other member' => ?_, rfl⟩
  rw [advance_append, advance_one]
  by_cases same : gen = other
  · subst same
    simp [Session.setGenerator, seed, offset, UInt64.add_assoc]
  · simpa [Session.setGenerator, Function.update_of_ne (Ne.symm same), same] using
      from_ other member'

theorem philoxCalls_eager {before : GeneratorId → GCUGeneratorImpl} {done calls : List PhiloxCall}
    (known : ∀ call ∈ calls, call.1 ∈ gens)
    (aligned : ∀ gen ∈ gens, (before gen).philoxOffsetPerThread.toNat % 4 = 0)
    (eager : s.currentStatus = .none) (from_ : EagerFrom gens before done s) :
    wp (philoxCalls {} calls)
      (fun inputs t => inputs = (offsetsFrom done calls).map (fun entry =>
          .values (before entry.1).seed ((before entry.1).philoxOffsetPerThread + entry.2)) ∧
        EagerFrom gens before (done ++ calls) t ∧ t = { s with generators := t.generators })
      (fun _ _ => False) s := by
  induction calls generalizing done s with
  | nil => exact ⟨rfl, by simpa using from_, rfl⟩
  | cons call rest ih =>
    obtain ⟨gen, increment⟩ := call
    simp only [philoxCalls, wp_bind, wp_pure]
    have member := known _ List.mem_cons_self
    have first := philoxState_eager increment member (aligned gen member) eager from_
    refine wp_mono first (fun inputs t after => ?_) fun _ _ never => never
    obtain ⟨rfl, from', unchanged⟩ := after
    have still : t.currentStatus = .none := by rw [unchanged]; exact eager
    have later := ih (fun call member => known call (List.mem_cons_of_mem _ member)) still from'
    refine wp_mono later (fun inputs' u after => ?_) fun _ _ never => never
    obtain ⟨rfl, from'', unchanged'⟩ := after
    refine ⟨rfl, by simpa using from'', ?_⟩
    rw [unchanged', unchanged]

end TorchGcu.Graphs

import TorchGcu.Graphs.Offsets
import TorchGcu.Serialization.Chunks

/-! A generator's state as a byte tensor: saving it and restoring it. -/
namespace TorchGcu.Graphs
open ProgramLogic
open GCUCachingAllocator (Err TopsError)
open StorageFile (Bytes Host)

/-- What the runtime answers when it is asked about a capture on the current stream. -/
abbrev CaptureAnswer := Except TopsError CaptureStatus

namespace GCUGeneratorImpl

abbrev M := EStateM Err GCUGeneratorImpl

def currentStreamCaptureStatus (answer : CaptureAnswer) : M CaptureStatus :=
  match answer with
  | .ok status => pure status
  | .error error => throw (.gcuError error)

def assertNotCapturing (answer : CaptureAnswer) (attempt : String) : M Unit := do
  let status ← currentStreamCaptureStatus answer
  torchCheck (decide (status = .none)) (attempt ++ " during GCU graph capture. ")

/-! ### The members of the class -/

def setCurrentSeed (seed : UInt64) : M Unit :=
  modify fun gen => { gen with seed, philoxOffsetPerThread := 0 }

def setPhiloxOffsetPerThread (answer : CaptureAnswer) (offset : UInt64) : M Unit := do
  assertNotCapturing answer "Cannot call GCUGeneratorImpl::set_philox_offset_per_thread"
  torchCheck (offset % 4 == 0) "offset must be a multiple of 4"
  modify fun gen => { gen with philoxOffsetPerThread := offset }

/-- `philox_offset_per_thread()`. -/
def readPhiloxOffsetPerThread (answer : CaptureAnswer) : M UInt64 := do
  assertNotCapturing answer "Cannot call GCUGeneratorImpl::philox_offset_per_thread"
  return (← get).philoxOffsetPerThread

def setOffset (answer : CaptureAnswer) (offset : UInt64) : M Unit := do
  assertNotCapturing answer "Cannot call GCUGeneratorImpl::set_offset"
  -- the set function checks if the offset is a multiple of 4
  setPhiloxOffsetPerThread answer offset

def getOffset (answer : CaptureAnswer) : M UInt64 := do
  assertNotCapturing answer "Cannot call GCUGeneratorImpl::get_offset"
  return (← get).philoxOffsetPerThread

def currentSeed (answer : CaptureAnswer) : M UInt64 := do
  assertNotCapturing answer "Cannot call GCUGeneratorImpl::current_seed"
  return (← get).seed

/-- `seed()`, with the number that `getNonDeterministicRandom` returns. -/
def reseed (answer : CaptureAnswer) (random : UInt64) : M UInt64 := do
  assertNotCapturing answer "Cannot call GCUGeneratorImpl::seed"
  setCurrentSeed random
  return random

/-- `sizeof(uint64_t)`. -/
def seedSize : Nat := 8

/-- `sizeof(int64_t)`. -/
def offsetSize : Nat := 8

def totalSize : Nat := seedSize + offsetSize

def getState (host : Host) (answer : CaptureAnswer) : M Bytes := do
  let seed ← currentSeed answer
  let offset ← readPhiloxOffsetPerThread answer
  return host.memory seed.toNat ++ host.memory offset.toNat

/-- The seed that a state holds. -/
def inputSeed (host : Host) (newState : Bytes) : UInt64 :=
  .ofNat (host.integer (newState.take seedSize))

/-- The offset that a state holds, zero for one that ends behind the seed. -/
def inputOffset (host : Host) (newState : Bytes) : UInt64 :=
  let noPhiloxSeed := newState.length = totalSize - offsetSize
  if noPhiloxSeed then 0 else .ofNat (host.integer (newState.drop seedSize))

/-- `set_state` on a tensor of bytes, which is what `check_rng_state` lets pass. -/
def setState (host : Host) (answer : CaptureAnswer) (newState : Bytes) : M Unit := do
  if newState.length ≠ totalSize - offsetSize then
    torchCheck (newState.length == totalSize) "RNG state is wrong size"
  setCurrentSeed (inputSeed host newState)
  setPhiloxOffsetPerThread answer (inputOffset host newState)

def graphsafeSetState (newState gen : GCUGeneratorImpl) : GCUGeneratorImpl :=
  { gen with seed := newState.seed, philoxOffsetPerThread := newState.philoxOffsetPerThread }

/-- A new generator with the seed and the offset of this one. -/
def graphsafeGetState (gen : GCUGeneratorImpl) : GCUGeneratorImpl :=
  { seed := gen.seed, philoxOffsetPerThread := gen.philoxOffsetPerThread }

/-- `philox_gcu_state(increment)`. -/
def nextPhiloxState (answer : CaptureAnswer) (increment : UInt64) : M PhiloxGcuState := do
  let status ← currentStreamCaptureStatus answer
  philoxGcuState status increment

/-! ### Reachable generators -/

/-- A call of a member that writes. -/
inductive Write where
  | setCurrentSeed (seed : UInt64)
  | setOffset (offset : UInt64)
  | setPhiloxOffsetPerThread (offset : UInt64)
  | reseed (random : UInt64)
  | setState (newState : Bytes)
  | capturePrologue (seedExtragraph offsetExtragraph : TensorId)
  | captureEpilogue
  | philoxGcuState (increment : UInt64)
  | philoxEngineInputs (increment : UInt64)

def Write.run (host : Host) (answer : CaptureAnswer) : Write → M Unit
  | .setCurrentSeed seed => GCUGeneratorImpl.setCurrentSeed seed
  | .setOffset offset => GCUGeneratorImpl.setOffset answer offset
  | .setPhiloxOffsetPerThread offset => GCUGeneratorImpl.setPhiloxOffsetPerThread answer offset
  | .reseed random => do
    let _ ← GCUGeneratorImpl.reseed answer random
  | .setState newState => GCUGeneratorImpl.setState host answer newState
  | .capturePrologue seedExtragraph offsetExtragraph =>
    modify fun gen => gen.capturePrologue seedExtragraph offsetExtragraph
  | .captureEpilogue => do
    let _ ← GCUGeneratorImpl.captureEpilogue
  | .philoxGcuState increment => do
    let _ ← nextPhiloxState answer increment
  | .philoxEngineInputs increment => do
    let _ ← GCUGeneratorImpl.philoxEngineInputs increment

/-- A call also leaves a state when it raises. A generator that `clone` makes has the state
that `graphsafe_get_state` makes. -/
inductive Reachable (host : Host) : GCUGeneratorImpl → Prop where
  | constructed : Reachable host {}
  | wrote {gen after : GCUGeneratorImpl} (answer : CaptureAnswer) (write : Write)
      (before : Reachable host gen)
      (ends : wp (write.run host answer) (fun _ last => last = after) (fun _ last => last = after) gen) :
      Reachable host after
  | graphsafeSetState {gen newState : GCUGeneratorImpl} (first : Reachable host gen)
      (second : Reachable host newState) : Reachable host (newState.graphsafeSetState gen)
  | graphsafeGetState {gen : GCUGeneratorImpl} (first : Reachable host gen) :
      Reachable host gen.graphsafeGetState

/-- Both offsets are multiples of four. -/
structure Aligned (gen : GCUGeneratorImpl) : Prop where
  perThread : gen.philoxOffsetPerThread % 4 = 0
  intragraph : gen.offsetIntragraph % 4 = 0

variable {host : Host} {answer : CaptureAnswer} {gen other : GCUGeneratorImpl} {newState : Bytes}

theorem wp_currentStreamCaptureStatus {normal : CaptureStatus → GCUGeneratorImpl → Prop}
    {raised : Err → GCUGeneratorImpl → Prop} :
    wp (currentStreamCaptureStatus answer) normal raised gen ↔
      (∀ status, answer = .ok status → normal status gen) ∧
        (∀ error, answer = .error error → raised (.gcuError error) gen) := by
  cases answer <;> simp [currentStreamCaptureStatus]

/-- Whether a capture is underway, or the runtime cannot say. -/
def MayCapture (answer : CaptureAnswer) : Prop := answer ≠ .ok .none

theorem wp_assertNotCapturing {attempt : String} {normal : Unit → GCUGeneratorImpl → Prop}
    {raised : Err → GCUGeneratorImpl → Prop} (goesOn : ¬ MayCapture answer → normal () gen)
    (raises : MayCapture answer → ∀ e, raised e gen) :
    wp (assertNotCapturing answer attempt) normal raised gen := by
  simp only [assertNotCapturing, wp_bind, wp_currentStreamCaptureStatus, wp_torchCheck,
    decide_eq_true_eq, decide_eq_false_iff_not]
  refine ⟨fun status known => ⟨fun none => goesOn fun may => may ?_,
    fun capturing => raises (fun same => capturing ?_) _⟩, fun error known => raises (fun same => ?_) _⟩
  · rw [known, none]
  · rw [same] at known
    cases known
    rfl
  · rw [same] at known
    cases known

theorem Aligned.advance (aligned : Aligned gen) (increment : UInt64) :
    Aligned { gen with
      philoxOffsetPerThread := gen.philoxOffsetPerThread + roundIncrement increment } := by
  refine ⟨?_, aligned.intragraph⟩
  have before := congrArg UInt64.toNat aligned.perThread
  have rounded := roundIncrement_aligned increment
  apply UInt64.toNat.inj
  simp only [UInt64.toNat_mod, UInt64.toNat_add, UInt64.toNat_ofNat, Nat.reducePow,
    Nat.reduceMod] at before ⊢
  omega

theorem Aligned.take (aligned : Aligned gen) (increment : UInt64) :
    Aligned { gen with offsetIntragraph :=
      (gen.offsetIntragraph.toUInt64 + roundIncrement increment).toUInt32 } := by
  refine ⟨aligned.perThread, ?_⟩
  have before := congrArg UInt32.toNat aligned.intragraph
  have rounded := roundIncrement_aligned increment
  apply UInt32.toNat.inj
  simp only [UInt32.toNat_mod, UInt64.toNat_toUInt32, UInt64.toNat_add, UInt32.toNat_toUInt64,
    UInt32.toNat_ofNat, Nat.reducePow, Nat.reduceMod] at before ⊢
  omega

theorem assertNotCapturing_preserves {P : GCUGeneratorImpl → Prop} (attempt : String) :
    Preserves P (assertNotCapturing answer attempt) := fun _ holds =>
  wp_assertNotCapturing (fun _ => holds) fun _ _ => holds

theorem setCurrentSeed_aligned (seed : UInt64) : Preserves Aligned (setCurrentSeed seed) :=
  .modify fun _ aligned => ⟨rfl, aligned.intragraph⟩

theorem setPhiloxOffsetPerThread_aligned (offset : UInt64) :
    Preserves Aligned (setPhiloxOffsetPerThread answer offset) := by
  refine .bind (assertNotCapturing_preserves _) fun _ gen aligned => ?_
  simp only [wp_bind, wp_torchCheck, wp_modify, beq_iff_eq]
  exact ⟨fun multiple => ⟨multiple, aligned.intragraph⟩, fun _ => aligned⟩

/-- The lengths with and without an offset. -/
def Accepted (newState : Bytes) : Prop :=
  newState.length = totalSize - offsetSize ∨ newState.length = totalSize

/-- What the check behind the write of the seed lets pass. -/
def Passes (host : Host) (answer : CaptureAnswer) (newState : Bytes) : Prop :=
  ¬ MayCapture answer ∧ inputOffset host newState % 4 = 0

/-- The state after the seed was written. -/
def seeded (host : Host) (newState : Bytes) (gen : GCUGeneratorImpl) : GCUGeneratorImpl :=
  { gen with seed := inputSeed host newState, philoxOffsetPerThread := 0 }

def restored (host : Host) (newState : Bytes) (gen : GCUGeneratorImpl) : GCUGeneratorImpl :=
  { gen with
    seed := inputSeed host newState
    philoxOffsetPerThread := inputOffset host newState }

theorem wp_setState {normal : Unit → GCUGeneratorImpl → Prop}
    {raised : Err → GCUGeneratorImpl → Prop}
    (wrongSize : ¬ Accepted newState → ∀ e, raised e gen)
    (passes : Accepted newState → Passes host answer newState → normal () (restored host newState gen))
    (fails : Accepted newState → ¬ Passes host answer newState →
      ∀ e, raised e (seeded host newState gen)) :
    wp (setState host answer newState) normal raised gen := by
  have rest (accepted : Accepted newState) :
      wp (setCurrentSeed (inputSeed host newState) >>= fun _ =>
        setPhiloxOffsetPerThread answer (inputOffset host newState)) normal raised gen := by
    simp only [setCurrentSeed, setPhiloxOffsetPerThread, wp_bind, wp_modify]
    refine wp_assertNotCapturing (fun quiet => ?_) fun may =>
      fails accepted fun both => both.1 may
    simp only [wp_torchCheck, beq_iff_eq, beq_eq_false_iff_ne]
    exact ⟨fun multiple => passes accepted ⟨quiet, multiple⟩,
      fun not => fails accepted (fun both => not both.2) _⟩
  by_cases short : newState.length = totalSize - offsetSize
  · simpa only [setState, short, ne_eq, not_true_eq_false, if_false] using rest (.inl short)
  · simp only [setState, ne_eq, short, not_false_eq_true, if_true, wp_bind, wp_torchCheck,
      beq_iff_eq, beq_eq_false_iff_ne]
    simp only [wp_bind] at rest
    exact ⟨fun long => rest (.inr long), fun wrong => wrongSize (not_or.mpr ⟨short, wrong⟩) _⟩

theorem setState_aligned (newState : Bytes) : Preserves Aligned (setState host answer newState) :=
  fun _ aligned => wp_setState (fun _ _ => aligned)
    (fun _ passes => ⟨passes.2, aligned.intragraph⟩) fun _ _ _ => ⟨rfl, aligned.intragraph⟩

theorem nextPhiloxState_aligned (increment : UInt64) :
    Preserves Aligned (nextPhiloxState answer increment) := by
  intro gen aligned
  simp only [nextPhiloxState, wp_bind, wp_currentStreamCaptureStatus]
  refine ⟨fun status _ => ?_, fun _ _ => aligned⟩
  simp only [philoxGcuState, wp_bind, wp_get, wp_ite, wp_torchCheck, wp_internalAssert, wp_set,
    wp_pure]
  refine ⟨fun _ => ⟨fun _ => ⟨fun _ => ⟨fun _ => aligned.take increment, fun _ => aligned⟩,
    fun _ => aligned⟩, fun _ => aligned⟩,
    fun _ => ⟨fun _ => ⟨fun _ => aligned.advance increment, fun _ => aligned⟩, fun _ => aligned⟩⟩

theorem philoxEngineInputs_aligned (increment : UInt64) :
    Preserves Aligned (philoxEngineInputs increment) := by
  intro gen aligned
  simp only [philoxEngineInputs, wp_bind, wp_get, wp_internalAssert, wp_set, wp_pure]
  exact ⟨fun _ => aligned.advance increment, fun _ => aligned⟩

theorem Write.run_aligned (write : Write) : Preserves Aligned (write.run host answer) := by
  cases write with
  | setCurrentSeed seed => exact setCurrentSeed_aligned seed
  | setOffset offset =>
    exact .bind (assertNotCapturing_preserves _) fun _ => setPhiloxOffsetPerThread_aligned offset
  | setPhiloxOffsetPerThread offset => exact setPhiloxOffsetPerThread_aligned offset
  | reseed random =>
    exact .bind (.bind (assertNotCapturing_preserves _) fun _ =>
      .bind (setCurrentSeed_aligned random) fun _ => .pure _) fun _ => .pure _
  | setState newState => exact setState_aligned newState
  | capturePrologue seedExtragraph offsetExtragraph =>
    exact .modify fun _ aligned => ⟨aligned.perThread, rfl⟩
  | captureEpilogue =>
    exact .bind (.bind (.modify fun _ aligned => ⟨aligned.perThread, aligned.intragraph⟩) fun _ =>
      .bind .get fun _ => .pure _) fun _ => .pure _
  | philoxGcuState increment => exact .bind (nextPhiloxState_aligned increment) fun _ => .pure _
  | philoxEngineInputs increment =>
    exact .bind (philoxEngineInputs_aligned increment) fun _ => .pure _

theorem Reachable.aligned (reachable : Reachable host gen) : Aligned gen := by
  induction reachable with
  | constructed => exact ⟨rfl, rfl⟩
  | @wrote gen after answer write _ ends aligned =>
    by_contra broken
    refine wp_false (wp_mono (wp_and (write.run_aligned gen aligned) ends)
      (fun _ last both => broken ?_) fun _ last both => broken ?_)
    · exact both.2 ▸ both.1
    · exact both.2 ▸ both.1
  | graphsafeSetState _ _ first second => exact ⟨second.perThread, first.intragraph⟩
  | graphsafeGetState _ aligned => exact ⟨aligned.perThread, rfl⟩

/-! ### Bytes -/

theorem ofLittleEndian_lt (bytes : Bytes) : StorageFile.ofLittleEndian bytes < 256 ^ bytes.length := by
  induction bytes with
  | nil => simp [StorageFile.ofLittleEndian]
  | cons byte bytes ih =>
    have small := byte.toNat_lt
    rw [StorageFile.ofLittleEndian, List.length_cons, Nat.pow_succ]
    omega

theorem toLittleEndian_ofLittleEndian (bytes : Bytes) :
    StorageFile.toLittleEndian bytes.length (StorageFile.ofLittleEndian bytes) = bytes := by
  induction bytes with
  | nil => rfl
  | cons byte bytes ih =>
    have small := byte.toNat_lt
    have first : (byte.toNat + 256 * StorageFile.ofLittleEndian bytes) % 256 = byte.toNat := by omega
    have others : (byte.toNat + 256 * StorageFile.ofLittleEndian bytes) / 256 =
        StorageFile.ofLittleEndian bytes := by omega
    rw [StorageFile.ofLittleEndian, List.length_cons, StorageFile.toLittleEndian, first, others, ih,
      UInt8.ofNat_toNat]

theorem memory_length (host : Host) (value : Nat) : (host.memory value).length = 8 := by
  unfold Host.memory
  split <;> simp

theorem integer_memory (host : Host) (word : UInt64) :
    host.integer (host.memory word.toNat) = word.toNat := by
  have small : word.toNat % 256 ^ 8 = word.toNat := Nat.mod_eq_of_lt word.toNat_lt
  unfold Host.integer Host.memory
  split <;> simp only [List.reverse_reverse, StorageFile.ofLittleEndian_toLittleEndian, small]

theorem integer_lt {bytes : Bytes} (length : bytes.length = 8) : host.integer bytes < 2 ^ 64 := by
  unfold Host.integer
  split
  · simpa [length] using ofLittleEndian_lt bytes.reverse
  · simpa [length] using ofLittleEndian_lt bytes

theorem memory_integer {bytes : Bytes} (length : bytes.length = 8) :
    host.memory (UInt64.ofNat (host.integer bytes)).toNat = bytes := by
  rw [UInt64.toNat_ofNat_of_lt' (integer_lt length)]
  unfold Host.memory Host.integer
  cases host.bigEndian with
  | false => simpa [length] using toLittleEndian_ofLittleEndian bytes
  | true =>
    have reversed := toLittleEndian_ofLittleEndian bytes.reverse
    rw [List.length_reverse, length] at reversed
    simp only [if_true, reversed, List.reverse_reverse]

/-- What `get_state` puts in a tensor. -/
def saved (host : Host) (gen : GCUGeneratorImpl) : Bytes :=
  host.memory gen.seed.toNat ++ host.memory gen.philoxOffsetPerThread.toNat

theorem saved_length (host : Host) (gen : GCUGeneratorImpl) :
    (saved host gen).length = totalSize := by
  rw [saved, List.length_append, memory_length, memory_length]
  rfl

theorem saved_accepted (host : Host) (gen : GCUGeneratorImpl) : Accepted (saved host gen) :=
  .inr (saved_length host gen)

theorem inputSeed_saved (host : Host) (gen : GCUGeneratorImpl) :
    inputSeed host (saved host gen) = gen.seed := by
  have eight : seedSize = (host.memory gen.seed.toNat).length := (memory_length host _).symm
  rw [inputSeed, saved, eight, List.take_left, integer_memory, UInt64.ofNat_toNat]

theorem inputOffset_saved (host : Host) (gen : GCUGeneratorImpl) :
    inputOffset host (saved host gen) = gen.philoxOffsetPerThread := by
  have eight : seedSize = (host.memory gen.seed.toNat).length := (memory_length host _).symm
  have long : (saved host gen).length ≠ totalSize - offsetSize := by
    rw [saved_length]
    decide
  simp only [inputOffset, if_neg long]
  rw [saved, eight, List.drop_left, integer_memory, UInt64.ofNat_toNat]

/-- A state with the zero offset that a short one leaves out. -/
def complete (host : Host) (newState : Bytes) : Bytes :=
  if newState.length = totalSize - offsetSize then newState ++ host.memory 0 else newState

theorem saved_restored (accepted : Accepted newState) :
    saved host (restored host newState gen) = complete host newState := by
  have seedLength : (newState.take seedSize).length = 8 := by
    rcases accepted with short | long
    · simp [short, seedSize, totalSize, offsetSize]
    · simp [long, seedSize, totalSize, offsetSize]
  rw [saved, restored, inputSeed, memory_integer seedLength]
  by_cases short : newState.length = totalSize - offsetSize
  · have whole : newState.take seedSize = newState := List.take_of_length_le (Nat.le_of_eq short)
    simp only [inputOffset, complete, if_pos short, whole]
    rfl
  · have long : (newState.drop seedSize).length = 8 := by
      rw [List.length_drop, accepted.resolve_left short]
      rfl
    simp only [inputOffset, complete, if_neg short]
    rw [memory_integer long, List.take_append_drop]

theorem getState_result (quiet : ¬ MayCapture answer) :
    (getState host answer).run gen = .ok (saved host gen) gen := by
  obtain rfl := not_not.mp quiet
  rfl

/-! ### Later calls -/

/-- What calls of `philox_gcu_state` end in, each on the state that the one before it left. -/
def outcomes : List (CaptureAnswer × UInt64) → GCUGeneratorImpl → List (Except Err PhiloxGcuState)
  | [], _ => []
  | (answer, increment) :: rest, gen =>
    match (nextPhiloxState answer increment).run gen with
    | .ok inputs after => .ok inputs :: outcomes rest after
    | .error e after => .error e :: outcomes rest after

/-- Two generators that a capture finds in the same state. -/
def CaptureAlike (gen other : GCUGeneratorImpl) : Prop :=
  gen.graphExpectsThisGen = other.graphExpectsThisGen ∧
    (gen.graphExpectsThisGen = true →
      gen.seedExtragraph = other.seedExtragraph ∧ gen.offsetExtragraph = other.offsetExtragraph ∧
        gen.offsetIntragraph = other.offsetIntragraph)

structure Alike (gen other : GCUGeneratorImpl) : Prop where
  seed : gen.seed = other.seed
  offset : gen.philoxOffsetPerThread = other.philoxOffsetPerThread
  capture : CaptureAlike gen other

/-- The same outcome, and states that are alike again. -/
def SameOutcome {α : Type} :
    EStateM.Result Err GCUGeneratorImpl α → EStateM.Result Err GCUGeneratorImpl α → Prop
  | .ok a after, .ok b after' => a = b ∧ Alike after after'
  | .error e after, .error e' after' => e = e' ∧ Alike after after'
  | _, _ => False

theorem CaptureAlike.refl (gen : GCUGeneratorImpl) : CaptureAlike gen gen :=
  ⟨rfl, fun _ => ⟨rfl, rfl, rfl⟩⟩

theorem Alike.refl (gen : GCUGeneratorImpl) : Alike gen gen := ⟨rfl, rfl, .refl gen⟩

theorem SameOutcome.refl {α : Type} (result : EStateM.Result Err GCUGeneratorImpl α) :
    SameOutcome result result := by
  cases result with
  | ok a after => exact ⟨rfl, .refl after⟩
  | error e after => exact ⟨rfl, .refl after⟩

/-- Generators that a graph expects agree in every field. -/
theorem Alike.eq (alike : Alike gen other) (expects : gen.graphExpectsThisGen = true) :
    gen = other := by
  obtain ⟨same, pointers⟩ := alike.capture
  obtain ⟨seedPointer, offsetPointer, intragraph⟩ := pointers expects
  have seed := alike.seed
  have offset := alike.offset
  cases gen
  cases other
  simp only [mk.injEq] at *
  exact ⟨seed, offset, seedPointer, offsetPointer, intragraph, same⟩

theorem nextPhiloxState_eager (increment : UInt64) (unexpected : gen.graphExpectsThisGen = false) :
    (nextPhiloxState (.ok .none) increment).run gen =
      if gen.philoxOffsetPerThread % 4 == 0 then
        .ok (.values gen.seed gen.philoxOffsetPerThread) { gen with
          philoxOffsetPerThread := gen.philoxOffsetPerThread + roundIncrement increment }
      else .error (.internalAssert "this->philox_offset_per_thread_ % 4 == 0") gen := by
  simp only [nextPhiloxState, currentStreamCaptureStatus, philoxGcuState, EStateM.run, bind,
    EStateM.bind, pure, EStateM.pure, get_apply, ne_eq, not_true_eq_false, if_false, unexpected]
  cases gen.philoxOffsetPerThread % 4 == 0 <;> rfl

theorem nextPhiloxState_unexpected {status : CaptureStatus} (increment : UInt64)
    (capturing : status ≠ .none) (unexpected : gen.graphExpectsThisGen = false) :
    (nextPhiloxState (.ok status) increment).run gen = .error
      (.torchCheck "philox_gcu_state for an unexpected GCU generator used during capture. ") gen := by
  simp only [nextPhiloxState, currentStreamCaptureStatus, philoxGcuState, EStateM.run, bind,
    EStateM.bind, pure, EStateM.pure, get_apply, if_pos capturing, unexpected]
  rfl

theorem nextPhiloxState_alike (alike : Alike gen other) (answer : CaptureAnswer)
    (increment : UInt64) : SameOutcome ((nextPhiloxState answer increment).run gen)
      ((nextPhiloxState answer increment).run other) := by
  cases expects : gen.graphExpectsThisGen with
  | true =>
    rw [alike.eq expects]
    exact .refl _
  | false =>
    have expects' : other.graphExpectsThisGen = false := alike.capture.1 ▸ expects
    cases answer with
    | error error => exact ⟨rfl, alike⟩
    | ok status =>
      by_cases eager : status = .none
      · rw [eager, nextPhiloxState_eager increment expects, nextPhiloxState_eager increment expects',
          alike.seed, alike.offset]
        cases other.philoxOffsetPerThread % 4 == 0 with
        | false => exact ⟨rfl, alike⟩
        | true => exact ⟨rfl, rfl, rfl, alike.capture⟩
      · rw [nextPhiloxState_unexpected increment eager expects,
          nextPhiloxState_unexpected increment eager expects']
        exact ⟨rfl, alike⟩

theorem outcomes_alike (alike : Alike gen other) (calls : List (CaptureAnswer × UInt64)) :
    outcomes calls gen = outcomes calls other := by
  induction calls generalizing gen other with
  | nil => rfl
  | cons call rest ih =>
    have same := nextPhiloxState_alike alike call.1 call.2
    simp only [outcomes]
    cases first : (nextPhiloxState call.1 call.2).run gen with
    | ok inputs after =>
      cases second : (nextPhiloxState call.1 call.2).run other with
      | ok inputs' after' =>
        simp only [first, second, SameOutcome] at same
        simp only [same.1, ih same.2]
      | error e after' => simp only [first, second, SameOutcome] at same
    | error e after =>
      cases second : (nextPhiloxState call.1 call.2).run other with
      | ok inputs' after' => simp only [first, second, SameOutcome] at same
      | error e' after' =>
        simp only [first, second, SameOutcome] at same
        simp only [same.1, ih same.2]

theorem nextPhiloxState_captured (expects : gen.graphExpectsThisGen = true)
    (aligned : gen.offsetIntragraph % 4 = 0) :
    (nextPhiloxState (.ok .active) 0).run gen = .ok
      (.captured gen.seedExtragraph gen.offsetExtragraph gen.offsetIntragraph)
      { gen with offsetIntragraph := (gen.offsetIntragraph.toUInt64 + roundIncrement 0).toUInt32 } := by
  have room : gen.offsetIntragraph.toUInt64 ≤ uint32Max - roundIncrement 0 := by
    rw [UInt64.le_iff_toNat_le, UInt32.toNat_toUInt64]
    exact Nat.le_of_lt_succ gen.offsetIntragraph.toNat_lt
  simp only [nextPhiloxState, currentStreamCaptureStatus, philoxGcuState, EStateM.run, bind,
    EStateM.bind, pure, EStateM.pure, get_apply, expects, aligned, decide_eq_true room,
    if_pos (show CaptureStatus.active ≠ .none by decide)]
  rfl

theorem nextPhiloxState_expected (increment : UInt64) (expects : gen.graphExpectsThisGen = true) :
    (nextPhiloxState (.ok .none) increment).run gen = .error (.torchCheck
      "GCU generator expects graph capture to be underway, but the current stream is not capturing.")
      gen := by
  simp only [nextPhiloxState, currentStreamCaptureStatus, philoxGcuState, EStateM.run, bind,
    EStateM.bind, pure, EStateM.pure, get_apply, ne_eq, not_true_eq_false, if_false, expects]
  rfl

/-- An eager call and an empty captured one tell generators apart that are not alike. -/
theorem captureAlike_of_outcomes (aligned : Aligned gen) (aligned' : Aligned other)
    (same : ∀ calls, outcomes calls gen = outcomes calls other) : CaptureAlike gen other := by
  have eager := same [(.ok .none, 0)]
  have captured := same [(.ok .active, 0)]
  simp only [outcomes] at eager captured
  cases expects : gen.graphExpectsThisGen with
  | false =>
    cases expects' : other.graphExpectsThisGen with
    | false => exact ⟨by rw [expects, expects'], fun never => by rw [expects] at never; cases never⟩
    | true =>
      simp [nextPhiloxState_eager 0 expects, nextPhiloxState_expected 0 expects',
        aligned.perThread] at eager
  | true =>
    cases expects' : other.graphExpectsThisGen with
    | false =>
      simp [nextPhiloxState_eager 0 expects', nextPhiloxState_expected 0 expects,
        aligned'.perThread] at eager
    | true =>
      simp [nextPhiloxState_captured expects aligned.intragraph,
        nextPhiloxState_captured expects' aligned'.intragraph] at captured
      exact ⟨by rw [expects, expects'], fun _ => captured⟩

/-- `set_state` leaves a generator unchanged when it raises, and restores what `get_state`
wrote: of the tensor, and of another generator. -/
structure Restores (host : Host) (answer : CaptureAnswer) (gen other : GCUGeneratorImpl)
    (newState : Bytes) : Prop where
  atomic : wp (setState host answer newState) (fun _ _ => True) (fun _ after => after = gen) gen
  exact : wp (setState host answer newState)
    (fun _ after => (getState host answer).run after = .ok (complete host newState) after)
    (fun _ _ => True) gen
  /-- No capture is underway when the state is saved and restored; there may be one later. -/
  alike : wp (getState host (.ok .none)) (fun state _ => wp (setState host (.ok .none) state)
      (fun _ after => ∀ calls, outcomes calls after = outcomes calls other) (fun _ _ => False) gen)
    (fun _ _ => False) other

/-- The seed and the offset that `set_state` writes before it checks are there already. -/
def AlreadySeeded (host : Host) (newState : Bytes) (gen : GCUGeneratorImpl) : Prop :=
  gen.seed = inputSeed host newState ∧ gen.philoxOffsetPerThread = 0

theorem seeded_eq_iff : seeded host newState gen = gen ↔ AlreadySeeded host newState gen := by
  cases gen
  simp only [seeded, AlreadySeeded, mk.injEq, and_true]
  exact and_congr eq_comm eq_comm

theorem setState_atomic_iff :
    wp (setState host answer newState) (fun _ _ => True) (fun _ after => after = gen) gen ↔
      (Accepted newState → Passes host answer newState ∨ AlreadySeeded host newState gen) := by
  constructor
  · intro atomic accepted
    by_contra neither
    obtain ⟨blocked, different⟩ := not_or.mp neither
    have written : wp (setState host answer newState) (fun _ _ => False)
        (fun _ after => after = seeded host newState gen) gen :=
      wp_setState (fun wrong => absurd accepted wrong) (fun _ passes => blocked passes)
        fun _ _ _ => rfl
    exact wp_false (wp_mono (wp_and atomic written) (fun _ _ both => both.2) fun _ _ both =>
      different (seeded_eq_iff.mp (both.2.symm.trans both.1)))
  · intro condition
    exact wp_setState (fun _ _ => rfl) (fun _ _ => trivial) fun accepted blocked _ =>
      seeded_eq_iff.mpr ((condition accepted).resolve_left blocked)

theorem setState_exact : wp (setState host answer newState)
    (fun _ after => (getState host answer).run after = .ok (complete host newState) after)
    (fun _ _ => True) gen :=
  wp_setState (fun _ _ => trivial)
    (fun accepted passes => by rw [getState_result passes.1, saved_restored accepted])
    fun _ _ _ => trivial

theorem setState_alike_iff (aligned : Aligned gen) (aligned' : Aligned other) :
    wp (getState host (.ok .none)) (fun state _ => wp (setState host (.ok .none) state)
        (fun _ after => ∀ calls, outcomes calls after = outcomes calls other) (fun _ _ => False) gen)
      (fun _ _ => False) other ↔ CaptureAlike gen other := by
  have quiet : ¬ MayCapture (.ok .none) := fun may => may rfl
  have passes : Passes host (.ok .none) (saved host other) :=
    ⟨quiet, by rw [inputOffset_saved]; exact aligned'.perThread⟩
  have final : restored host (saved host other) gen = other.graphsafeSetState gen := by
    rw [restored, inputSeed_saved, inputOffset_saved, graphsafeSetState]
  rw [wp_run (getState_result quiet)]
  constructor
  · intro restores
    have ends : wp (setState host (.ok .none) (saved host other))
        (fun _ after => after = other.graphsafeSetState gen) (fun _ _ => True) gen :=
      wp_setState (fun _ _ => trivial) (fun _ _ => final) fun _ _ _ => trivial
    by_contra unlike
    refine wp_false (wp_mono (wp_and restores ends) (fun _ after both => unlike ?_)
      fun _ _ both => both.1)
    obtain ⟨same, rfl⟩ := both
    have like : CaptureAlike (other.graphsafeSetState gen) other :=
      captureAlike_of_outcomes ⟨aligned'.perThread, aligned.intragraph⟩ aligned' same
    exact like
  · intro captureAlike
    refine wp_setState (fun wrong => absurd (saved_accepted host other) wrong) (fun _ _ calls => ?_)
      fun _ blocked => absurd passes blocked
    have like : Alike (other.graphsafeSetState gen) other := ⟨rfl, rfl, captureAlike⟩
    rw [final]
    exact outcomes_alike like calls

/-- `set_state` restores where no check fails behind the write of the seed, or that write changes
nothing, and where a capture finds the two generators in the same state. -/
theorem restores_iff (reachable : Reachable host gen) (reachable' : Reachable host other) :
    Restores host answer gen other newState ↔
      (Accepted newState → Passes host answer newState ∨ AlreadySeeded host newState gen) ∧
        CaptureAlike gen other := by
  rw [← setState_atomic_iff, ← @setState_alike_iff host _ _ reachable.aligned reachable'.aligned]
  exact ⟨fun restores => ⟨restores.atomic, restores.alike⟩,
    fun both => ⟨both.1, setState_exact, both.2⟩⟩

/-- The fields that a graph uses. -/
def captureFields (gen : GCUGeneratorImpl) : Option TensorId × Option TensorId × UInt32 × Bool :=
  (gen.seedExtragraph, gen.offsetExtragraph, gen.offsetIntragraph, gen.graphExpectsThisGen)

theorem setState_captureFields : wp (setState host answer newState)
    (fun _ after => after.captureFields = gen.captureFields)
    (fun _ after => after.captureFields = gen.captureFields) gen :=
  wp_setState (fun _ _ => rfl) (fun _ _ => rfl) fun _ _ _ => rfl

/-- What `set_state` guarantees. The fields that a graph uses are no part of a saved state. -/
structure Guaranteed (host : Host) (answer : CaptureAnswer) (gen other : GCUGeneratorImpl)
    (newState : Bytes) : Prop where
  captureKept : wp (setState host answer newState)
    (fun _ after => after.captureFields = gen.captureFields)
    (fun _ after => after.captureFields = gen.captureFields) gen
  atomic : (Accepted newState → Passes host answer newState ∨ AlreadySeeded host newState gen) →
    wp (setState host answer newState) (fun _ _ => True) (fun _ after => after = gen) gen
  exact : wp (setState host answer newState)
    (fun _ after => (getState host answer).run after = .ok (complete host newState) after)
    (fun _ _ => True) gen
  alike : wp (getState host (.ok .none)) (fun state _ => wp (setState host (.ok .none) state)
      (fun _ after => ∀ calls, outcomes calls after = outcomes calls other) (fun _ _ => False) gen)
    (fun _ _ => False) other ↔ CaptureAlike gen other

theorem restore_guaranteed (reachable : Reachable host gen) (reachable' : Reachable host other) :
    Guaranteed host answer gen other newState :=
  ⟨setState_captureFields, setState_atomic_iff.mpr, setState_exact,
    setState_alike_iff reachable.aligned reachable'.aligned⟩

def littleEndianHost : Host := ⟨false, {}, fun _ bytes => bytes, fun _ bytes => bytes⟩

theorem Reachable.written (seed : UInt64) {offset : UInt64} (multiple : offset % 4 = 0) :
    Reachable host { seed, philoxOffsetPerThread := offset } := by
  refine .wrote (.ok .none) (.setPhiloxOffsetPerThread offset)
    (.wrote (.ok .none) (.setCurrentSeed seed) .constructed rfl) ?_
  simp only [Write.run, setPhiloxOffsetPerThread, wp_bind]
  refine wp_assertNotCapturing (fun _ => ?_) fun may => absurd rfl may
  simp only [wp_torchCheck, wp_modify, beq_iff_eq, beq_eq_false_iff_ne]
  exact ⟨fun _ => trivial, fun other => absurd multiple other⟩

theorem restore_guaranteed_written :
    Guaranteed littleEndianHost (.ok .none) { seed := 7, philoxOffsetPerThread := 12 }
      { seed := 11, philoxOffsetPerThread := 8 }
      (saved littleEndianHost { seed := 5, philoxOffsetPerThread := 4 }) :=
  restore_guaranteed (.written 7 rfl) (.written 11 rfl)

/-- A state whose offset is not a multiple of four. -/
def unalignedState : Bytes := littleEndianHost.memory 5 ++ littleEndianHost.memory 2

/-- Such a state is refused after its seed was written; and a generator that a graph expects
stays expected, so that its calls raise where those of the saved one return. -/
theorem failed_restore_writes_seed :
    ¬ Restores littleEndianHost (.ok .none) {} {} unalignedState ∧
      ¬ Restores littleEndianHost (.ok .none) (({} : GCUGeneratorImpl).capturePrologue 0 1) {}
        (saved littleEndianHost {}) := by
  constructor
  · intro restores
    have same : ({} : GCUGeneratorImpl).seed = 5 :=
      congrArg seed (show _ = ({} : GCUGeneratorImpl) from restores.atomic).symm
    revert same
    decide
  · intro restores
    have same := (show ∀ calls, outcomes calls _ = outcomes calls {} from restores.alike)
      [(.ok .none, 0)]
    revert same
    decide

end GCUGeneratorImpl
end TorchGcu.Graphs

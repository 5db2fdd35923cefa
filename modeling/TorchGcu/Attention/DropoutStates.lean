import TorchGcu.Attention.ScaledDotProduct
import TorchGcu.Logic.Runs

/-! Calls on one generator outside capture: every kernel runs on the random numbers that its own
call took, and no two calls take the same ones. -/
namespace TorchGcu.Attention
open ProgramLogic
open Graphs (CaptureStatus PhiloxGcuState GCUGeneratorImpl)
open GCUCachingAllocator (Err)

inductive Implementation where
  | flash
  | efficient
deriving DecidableEq

namespace Implementation

def forward : Implementation → Request → EStateM Err GCUGeneratorImpl Forward
  | flash => scaledDotProductFlashAttention
  | efficient => scaledDotProductEfficientAttention

def backward : Implementation → Bool → PhiloxTensor × PhiloxTensor →
    Except Err (Option PhiloxArgument)
  | flash => scaledDotProductFlashAttentionBackward
  | efficient => scaledDotProductEfficientAttentionBackward

/-- The encodings of a pair: a tensor of two elements and one that is not read, or two scalars. -/
def Encodes (seed offset : UInt64) (saved : PhiloxTensor × PhiloxTensor) : Implementation → Prop
  | flash => ∃ unused, saved = (.cpu [seed, offset], .cpu [unused])
  | efficient => saved = (.cpu [seed], .cpu [offset])

end Implementation

/-- A call on the generator: attention, or a random operator with the number of values it asks
for. -/
inductive Call where
  | attention (implementation : Implementation) (request : Request)
  | random (increment : UInt64)
deriving DecidableEq

/-- What a call took from the generator, and the forward call it took it for. -/
structure Use where
  increment : UInt64
  state : PhiloxGcuState
  forward : Option (Implementation × Forward)
deriving DecidableEq

def Call.run : Call → EStateM Err GCUGeneratorImpl (List Use)
  | .attention implementation request => do
    let forward ← implementation.forward request
    return forward.taken.toList.map fun taken => ⟨taken.1, taken.2, some (implementation, forward)⟩
  | .random increment => do
    let state ← GCUGeneratorImpl.philoxGcuState .none increment
    return [⟨increment, state, none⟩]

/-- A generator and the uses that were made of it, the latest first. -/
structure Session where
  gen : GCUGeneratorImpl
  uses : List Use := []
deriving DecidableEq

def Session.next (session : Session) (call : Call) : Session :=
  match call.run.run session.gen with
  | .ok uses gen => ⟨gen, uses ++ session.uses⟩
  | .error _ gen => { session with gen }

/-- The calls that are looked at: attention with dropout, outside capture. -/
def Call.Eager : Call → Prop
  | .attention _ request => request.isDropout = true ∧ request.captureStatus = .none
  | .random _ => True

instance : DecidablePred Call.Eager
  | .attention _ request => inferInstanceAs (Decidable (request.isDropout = true ∧ _))
  | .random _ => .isTrue trivial

def CallStep (session : Session) (call : Call) (session' : Session) : Prop :=
  call.Eager ∧ session' = session.next call

/-! ### What is promised of the uses -/

/-- The first value of a use and the one after its last. -/
def Use.range (use : Use) : Nat × Nat :=
  let first := (payloads use.state).2.toNat
  (first, first + use.increment.toNat)

def Use.Apart (use other : Use) : Prop :=
  use.range.2 ≤ other.range.1 ∨ other.range.2 ≤ use.range.1

/-- The kernel of a use runs on the pair that was taken for it, and so does the backward kernel
that is given what was saved. -/
def Use.Own (use : Use) : Prop :=
  ∃ seed offset, use.state = .values seed offset ∧
    ∀ implementation forward, use.forward = some (implementation, forward) →
      forward.kernel = .values seed offset ∧ implementation.Encodes seed offset forward.saved ∧
        implementation.backward true forward.saved = .ok (some (.scalars seed offset))

def Accounted (uses : List Use) : Prop :=
  (∀ use ∈ uses, use.Own) ∧ uses.Pairwise Use.Apart

/-! ### The condition -/

/-- `increment` rounded up to a multiple of four. -/
def rounded (increment : UInt64) : Nat := (increment.toNat + 3) / 4 * 4

/-- The generator has that many values left before its offset wraps. -/
def Leaves (gen : GCUGeneratorImpl) (increment : UInt64) : Prop :=
  gen.philoxOffsetPerThread.toNat + rounded increment < 2 ^ 64

instance (gen : GCUGeneratorImpl) (increment : UInt64) : Decidable (Leaves gen increment) :=
  inferInstanceAs (Decidable (_ < _))

/-- The memory of a state that is not initialised holds the pair that the generator is about to
hand out. -/
def Request.Guesses (request : Request) (gen : GCUGeneratorImpl) : Prop :=
  request.uninitialized = (gen.seed, gen.philoxOffsetPerThread)

def Accountable (session : Session) : Call → Prop
  | .attention implementation request =>
    (∀ increment, request.getOffset = .ok increment → Leaves session.gen increment) ∧
      (implementation = .efficient → request.Guesses session.gen)
  | .random increment => Leaves session.gen increment

/-! ### The calls -/

variable {gen gen' : GCUGeneratorImpl} {request : Request} {increment : UInt64} {session : Session}

theorem wp_ofExcept {σ α : Type} {normal : α → σ → Prop} {raised : Err → σ → Prop} {s : σ}
    (answer : Except Err α) : wp (ofExcept answer) normal raised s ↔
      (∀ value, answer = .ok value → normal value s) ∧
        (∀ error, answer = .error error → raised error s) := by
  cases answer <;> simp [ofExcept]

theorem le_rounded (increment : UInt64) : increment.toNat ≤ rounded increment := by
  simp only [rounded]
  omega

theorem advanced_by_round (leaves : Leaves gen increment) :
    (gen.philoxOffsetPerThread + GCUGeneratorImpl.roundIncrement increment).toNat =
      gen.philoxOffsetPerThread.toNat + rounded increment := by
  simp only [Leaves, rounded, GCUGeneratorImpl.roundIncrement, UInt64.toNat_add,
    UInt64.toNat_mul, UInt64.toNat_div, UInt64.toNat_ofNat, Nat.reducePow, Nat.reduceMod]
    at leaves ⊢
  omega

/-- The values that are taken lie between the offsets before and after. -/
def Between (gen gen' : GCUGeneratorImpl) (increment : UInt64) : Prop :=
  gen.philoxOffsetPerThread.toNat + increment.toNat ≤ gen'.philoxOffsetPerThread.toNat

theorem philoxGcuState_spec (leaves : Leaves gen increment) :
    wp (GCUGeneratorImpl.philoxGcuState .none increment)
      (fun state gen' => state = .values gen.seed gen.philoxOffsetPerThread ∧
        Between gen gen' increment)
      (fun _ gen' => gen' = gen) gen := by
  simp only [GCUGeneratorImpl.philoxGcuState, wp_bind, wp_get, wp_torchCheck, wp_internalAssert,
    wp_set, wp_pure, ne_eq, not_true_eq_false, if_false]
  have between : Between gen { gen with philoxOffsetPerThread :=
      gen.philoxOffsetPerThread + GCUGeneratorImpl.roundIncrement increment } increment := by
    simp only [Between, advanced_by_round leaves]
    exact Nat.add_le_add_left (le_rounded increment) _
  exact ⟨fun _ => ⟨fun _ => ⟨trivial, between⟩, fun _ => trivial⟩, fun _ => trivial⟩

theorem takePhilox_spec (dropout : request.isDropout = true) (eager : request.captureStatus = .none)
    (leaves : ∀ increment, request.getOffset = .ok increment → Leaves gen increment) :
    wp (takePhilox request)
      (fun taken gen' => ∃ increment,
        taken = some (increment, .values gen.seed gen.philoxOffsetPerThread) ∧
          Between gen gen' increment)
      (fun _ gen' => gen' = gen) gen := by
  simp only [takePhilox, dropout, if_true, eager, wp_bind, wp_ofExcept]
  refine ⟨fun increment asked => ?_, fun _ _ => trivial⟩
  refine wp_mono (philoxGcuState_spec (leaves increment asked)) ?_ (fun _ _ same => same)
  rintro state gen' ⟨rfl, between⟩
  exact ⟨increment, rfl, between⟩

/-- A forward call under the condition: its kernel and what it saves have the pair that it took. -/
theorem forward_spec (implementation : Implementation) (dropout : request.isDropout = true)
    (eager : request.captureStatus = .none)
    (leaves : ∀ increment, request.getOffset = .ok increment → Leaves gen increment)
    (guesses : implementation = .efficient → request.Guesses gen) :
    wp (implementation.forward request)
      (fun forward gen' => ∃ increment, Between gen gen' increment ∧
        forward.taken = some (increment, .values gen.seed gen.philoxOffsetPerThread) ∧
        forward.kernel = .values gen.seed gen.philoxOffsetPerThread ∧
        implementation.Encodes gen.seed gen.philoxOffsetPerThread forward.saved)
      (fun _ gen' => gen' = gen ∨ ∃ increment, Between gen gen' increment) gen := by
  have records : request.records = true := by simp [Request.records, dropout, eager]
  cases implementation with
  | flash =>
    simp only [Implementation.forward, scaledDotProductFlashAttention, wp_bind]
    refine wp_mono (takePhilox_spec dropout eager leaves) ?_ (fun _ _ same => .inl same)
    rintro taken gen' ⟨increment, rfl, between⟩
    simp only [wp_ofExcept, records, if_true, wp_pure]
    exact ⟨fun _ _ => ⟨increment, between, rfl, rfl, _, rfl⟩, fun _ _ => .inr ⟨increment, between⟩⟩
  | efficient =>
    simp only [Implementation.forward, scaledDotProductEfficientAttention, wp_bind]
    refine wp_mono (takePhilox_spec dropout eager leaves) ?_ (fun _ _ same => .inl same)
    rintro taken gen' ⟨increment, rfl, between⟩
    have guessed : request.defaultState = .values gen.seed gen.philoxOffsetPerThread := by
      rw [Request.defaultState, guesses rfl]
    simp only [wp_ofExcept, records, if_true, wp_pure, guessed]
    exact ⟨fun _ _ => ⟨increment, between, rfl, trivial, rfl⟩, fun _ _ => .inr ⟨increment, between⟩⟩

/-- The backward functions read back what the forward functions write. -/
theorem backward_of_encodes {implementation : Implementation} {seed offset : UInt64}
    {saved : PhiloxTensor × PhiloxTensor} (encodes : implementation.Encodes seed offset saved) :
    implementation.backward true saved = .ok (some (.scalars seed offset)) := by
  cases implementation with
  | flash =>
    obtain ⟨unused, rfl⟩ := encodes
    rfl
  | efficient =>
    obtain rfl := encodes
    rfl

/-- What one call adds to the uses: nothing, or one that is its own and takes values that were
not taken before. -/
theorem run_spec {call : Call} (eager : call.Eager) (accountable : Accountable session call) :
    wp call.run
      (fun uses gen' => ∃ use, uses = [use] ∧ use.Own ∧
        session.gen.philoxOffsetPerThread.toNat ≤ use.range.1 ∧
          use.range.2 ≤ gen'.philoxOffsetPerThread.toNat)
      (fun _ gen' => session.gen.philoxOffsetPerThread.toNat ≤ gen'.philoxOffsetPerThread.toNat)
      session.gen := by
  cases call with
  | random increment =>
    simp only [Call.run, wp_bind]
    refine wp_mono (philoxGcuState_spec accountable) ?_ ?_
    · rintro state gen' ⟨rfl, between⟩
      refine ⟨_, rfl, ⟨_, _, rfl, ?_⟩, Nat.le_refl _, between⟩
      intro _ _ same
      cases same
    · rintro _ gen' rfl
      exact Nat.le_refl _
  | attention implementation request =>
    simp only [Call.run, wp_bind]
    refine wp_mono (forward_spec implementation eager.1 eager.2 accountable.1 accountable.2) ?_ ?_
    · rintro forward gen' ⟨increment, between, taken, kernel, encodes⟩
      simp only [taken, wp_pure]
      refine ⟨_, rfl, ⟨_, _, rfl, ?_⟩, Nat.le_refl _, between⟩
      intro implementation' forward' same
      obtain ⟨rfl, rfl⟩ : implementation = implementation' ∧ forward = forward' := by
        simpa using same
      exact ⟨kernel, encodes, backward_of_encodes encodes⟩
    · rintro _ gen' (rfl | ⟨increment, between⟩)
      · exact Nat.le_refl _
      · exact Nat.le_trans (Nat.le_add_right _ _) between

/-! ### Sequences of calls -/

/-- The uses are accounted for, and the generator's offset is beyond all of them. -/
structure Inv (session : Session) : Prop where
  accounted : Accounted session.uses
  beyond : ∀ use ∈ session.uses, use.range.2 ≤ session.gen.philoxOffsetPerThread.toNat

theorem Inv.next (inv : Inv session) {call : Call} (eager : call.Eager)
    (accountable : Accountable session call) : Inv (session.next call) := by
  have spec := run_spec eager accountable
  simp only [Session.next]
  cases ran : call.run.run session.gen with
  | ok uses gen' =>
    obtain ⟨use, rfl, own, first, last⟩ := wp_ok spec ran
    have earlier (other : Use) (mem : other ∈ session.uses) : other.range.2 ≤ use.range.1 :=
      Nat.le_trans (inv.beyond other mem) first
    have ordered : use.range.1 ≤ use.range.2 := Nat.le_add_right _ _
    refine ⟨⟨?_, ?_⟩, ?_⟩
    · exact List.forall_mem_cons.mpr ⟨own, inv.accounted.1⟩
    · exact List.pairwise_cons.mpr ⟨fun other mem => .inr (earlier other mem), inv.accounted.2⟩
    · refine List.forall_mem_cons.mpr ⟨last, fun other mem => ?_⟩
      exact (earlier other mem).trans (ordered.trans last)
  | error error gen' =>
    have further := wp_error spec ran
    exact ⟨inv.accounted, fun use mem => (inv.beyond use mem).trans further⟩

/-- Under the condition every attention kernel runs on the pair that its own call took, which is
also what is saved and what the backward kernel is given, and no two calls take the same values. -/
theorem dropout_states_accounted {gen : GCUGeneratorImpl} {session : Session}
    (run : Reaches (Meeting Accountable CallStep) ⟨gen, []⟩ session) : Accounted session.uses := by
  have initial : Inv ⟨gen, []⟩ := ⟨⟨by simp, .nil⟩, by simp⟩
  have inv : Inv session := by
    refine run.invariant (fun inv taken => ?_) initial
    obtain ⟨accountable, eager, rfl⟩ := taken
    exact inv.next eager accountable
  exact inv.accounted

/-! ### A flash and an efficient forward call -/

def flashCall : Call := .attention .flash { getOffset := .ok 10, uninitialized := (0, 0) }

def efficientCall : Call := .attention .efficient { getOffset := .ok 10, uninitialized := (0, 0) }

/-- Two flash calls with a random operator between them take values 0 to 9, 12 to 14 and 16
to 25. -/
theorem dropout_states_accounted_flash :
    let session := runAll Session.next ⟨{}, []⟩ [flashCall, .random 3, flashCall]
    Accounted session.uses ∧ session.uses.map Use.range = [(16, 26), (12, 15), (0, 10)] := by
  have reaches (calls : List Call)
      (allowed : Allowed (fun session call => Accountable session call ∧ call.Eager) Session.next
        ⟨{}, []⟩ calls) :
      Reaches (Meeting Accountable CallStep) ⟨{}, []⟩ (runAll Session.next ⟨{}, []⟩ calls) :=
    allowed.reaches fun _ _ may => ⟨may.1, may.2, rfl⟩
  have flash (session : Session) (leaves : Leaves session.gen 10) :
      Accountable session flashCall ∧ flashCall.Eager :=
    ⟨⟨fun _ asked => Except.ok.inj asked ▸ leaves, nofun⟩, by decide⟩
  refine ⟨dropout_states_accounted (reaches _ ?_), by decide⟩
  have random : Leaves (Session.next ⟨{}, []⟩ flashCall).gen 3 := by decide
  exact ⟨flash _ (by decide), ⟨random, trivial⟩, flash _ (by decide), trivial⟩

/-- The efficient kernel runs on memory that is not initialised. -/
theorem efficient_attention_drops_its_state :
    let session := runAll Session.next ⟨{}, []⟩ [efficientCall]
    Reaches CallStep ⟨{}, []⟩ session ∧ ¬ Accounted session.uses := by
  constructor
  · have eager : efficientCall.Eager := by decide
    exact .next .refl ⟨eager, rfl⟩
  · rintro ⟨own, _⟩
    obtain ⟨seed, offset, state, forward⟩ := own _ List.mem_cons_self
    have stale := (forward _ _ rfl).1
    simp only [← state] at stale
    exact absurd stale (by decide)

end TorchGcu.Attention

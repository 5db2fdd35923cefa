import TorchGcu.Graphs.Offsets
import TorchGcu.Logic.RoundUp
import Mathlib.Algebra.Order.BigOperators.Group.List
import Mathlib.Order.CompletePartialOrder
import Mathlib.Order.Interval.Set.Disjoint

/-! The ranges of random numbers that the calls of one capture are given. -/
namespace TorchGcu.Graphs
open ProgramLogic
open GCUCachingAllocator (Err)

/-- Where the values that the kernel draws begin. -/
def PhiloxGcuState.start : PhiloxGcuState → Nat
  | .values _ offset => offset.toNat
  | .captured _ _ offsetIntragraph => offsetIntragraph.toNat

namespace GCUGeneratorImpl

def philoxGcuStates : List UInt64 → EStateM Err GCUGeneratorImpl (List PhiloxGcuState)
  | [] => pure []
  | increment :: rest => do
    let inputs ← philoxGcuState .active increment
    let later ← philoxGcuStates rest
    return inputs :: later

/-- A capture on a generator: what its calls are given, and how far a replay advances. -/
def capture (seedExtragraph offsetExtragraph : TensorId) (increments : List UInt64) :
    EStateM Err GCUGeneratorImpl (List PhiloxGcuState × UInt64) := do
  modify fun gen => gen.capturePrologue seedExtragraph offsetExtragraph
  let inputs ← philoxGcuStates increments
  let whole ← captureEpilogue
  return (inputs, whole)

/-- The values that a call draws: `[offset, offset + increment)`. -/
def drawn (increment : UInt64) (start : Nat) : Set Nat := Set.Ico start (start + increment.toNat)

/-- The ranges are apart, begin at multiples of four and fill what a replay skips. -/
structure Ranges (increments : List UInt64) (starts : List Nat) (whole : Nat) : Prop where
  apart : (List.zipWith drawn increments starts).Pairwise Disjoint
  aligned : ∀ start ∈ starts, start % 4 = 0
  filled : whole = (increments.map fun increment => roundUp 4 increment.toNat).sum

/-- A call whose rounded increment is a 32-bit word and does not fit behind `start`. -/
def Overruns (start : Nat) (increment : UInt64) : Prop :=
  (roundIncrement increment).toNat < 2 ^ 32 ∧ 2 ^ 32 ≤ start + (roundIncrement increment).toNat

/-- The offset after a call, cut off at 32 bits. -/
def behind (start : Nat) (increment : UInt64) : Nat :=
  (start + (roundIncrement increment).toNat) % 2 ^ 32

/-- One of the calls overruns. -/
def Refused : Nat → List UInt64 → Prop
  | _, [] => False
  | start, increment :: rest => Overruns start increment ∨ Refused (behind start increment) rest

/-- The largest increment whose rounding is a 32-bit word. -/
def maxIncrement : Nat := 2 ^ 32 - 4

/-! ### One call -/

variable {gen : GCUGeneratorImpl} {start : Nat} {increments : List UInt64}

theorem roundIncrement_small {increment : UInt64} (small : increment.toNat ≤ maxIncrement) :
    (roundIncrement increment).toNat = roundUp 4 increment.toNat := by
  simp only [roundIncrement, roundUp_eq_div, maxIncrement, UInt64.toNat_mul, UInt64.toNat_div,
    UInt64.toNat_add, UInt64.toNat_ofNat, Nat.reducePow, Nat.reduceMod, Nat.reduceSub] at small ⊢
  omega

theorem roundUp_small {increment : UInt64} (small : increment.toNat ≤ maxIncrement) :
    roundUp 4 increment.toNat < 2 ^ 32 := by
  simp only [roundUp_eq_div, maxIncrement] at small ⊢
  omega

theorem roundUp_large {increment : UInt64} (large : maxIncrement < increment.toNat) :
    2 ^ 32 ≤ roundUp 4 increment.toNat := by
  simp only [roundUp_eq_div, maxIncrement] at large ⊢
  omega

theorem behind_aligned (increment : UInt64) (aligned : start % 4 = 0) :
    behind start increment % 4 = 0 := by
  have rounded := roundIncrement_aligned increment
  unfold behind
  omega

theorem behind_small {increment : UInt64} (small : increment.toNat ≤ maxIncrement)
    (fits : ¬ Overruns start increment) :
    behind start increment = start + roundUp 4 increment.toNat := by
  have rounded := roundIncrement_small small
  have word := roundUp_small small
  simp only [Overruns, rounded] at fits
  rw [behind, rounded, Nat.mod_eq_of_lt]
  omega

/-- The guard lets every rounded increment from `2 ^ 32` on pass. -/
theorem guard_iff (offset : UInt32) (increment : UInt64) :
    offset.toUInt64 ≤ uint32Max - roundIncrement increment ↔
      ¬ Overruns offset.toNat increment := by
  have rounded := roundIncrement_aligned increment
  have word := offset.toNat_lt
  have bound := (roundIncrement increment).toNat_lt
  rw [UInt64.le_iff_toNat_le, UInt64.toNat_sub]
  simp only [Overruns, uint32Max, UInt32.toNat_toUInt64, UInt64.toNat_ofNat, Nat.reducePow,
    Nat.reduceMod] at *
  omega

theorem philoxGcuState_capturing (increment : UInt64) (expects : gen.graphExpectsThisGen = true)
    (aligned : gen.offsetIntragraph.toNat % 4 = 0) :
    wp (philoxGcuState .active increment)
      (fun inputs after => inputs.start = gen.offsetIntragraph.toNat ∧
        after.graphExpectsThisGen = true ∧
        after.offsetIntragraph.toNat = behind gen.offsetIntragraph.toNat increment ∧
        ¬ Overruns gen.offsetIntragraph.toNat increment)
      (fun _ _ => Overruns gen.offsetIntragraph.toNat increment) gen := by
  have multiple : (gen.offsetIntragraph % 4 == 0) = true := by
    rw [beq_iff_eq]
    apply UInt32.toNat.inj
    rw [UInt32.toNat_mod]
    exact aligned
  simp only [philoxGcuState, wp_bind, wp_get, if_pos (show CaptureStatus.active ≠ .none by decide),
    wp_torchCheck, wp_internalAssert, wp_set, wp_pure, expects, multiple, decide_eq_true_eq,
    decide_eq_false_iff_not, guard_iff, not_not]
  refine ⟨fun _ => ⟨fun _ => ⟨fun fits => ⟨rfl, trivial, ?_, fits⟩, fun overruns => overruns⟩,
    fun never => by cases never⟩, fun never => by cases never⟩
  simp only [behind, UInt64.toNat_toUInt32, UInt64.toNat_add, UInt32.toNat_toUInt64]
  omega

/-! ### All calls -/

/-- Where each call begins. -/
def starts : Nat → List UInt64 → List Nat
  | _, [] => []
  | start, increment :: rest => start :: starts (behind start increment) rest

/-- The offset after all calls. -/
def finish : Nat → List UInt64 → Nat
  | start, [] => start
  | start, increment :: rest => finish (behind start increment) rest

theorem philoxGcuStates_capturing (increments : List UInt64)
    (expects : gen.graphExpectsThisGen = true) (aligned : gen.offsetIntragraph.toNat % 4 = 0) :
    wp (philoxGcuStates increments)
      (fun inputs after =>
        inputs.map PhiloxGcuState.start = starts gen.offsetIntragraph.toNat increments ∧
        after.offsetIntragraph.toNat = finish gen.offsetIntragraph.toNat increments ∧
        ¬ Refused gen.offsetIntragraph.toNat increments)
      (fun _ _ => Refused gen.offsetIntragraph.toNat increments) gen := by
  induction increments generalizing gen with
  | nil => exact ⟨rfl, rfl, not_false⟩
  | cons increment rest ih =>
    simp only [philoxGcuStates, wp_bind, wp_pure]
    refine wp_mono (philoxGcuState_capturing increment expects aligned)
      (fun inputs next after => ?_) fun _ _ overruns => Or.inl overruns
    obtain ⟨begins, still, moved, fits⟩ := after
    have again := ih still (moved ▸ behind_aligned increment aligned)
    rw [moved] at again
    refine wp_mono again (fun later last after => ?_) fun _ _ refused => Or.inr refused
    obtain ⟨laterBegin, laterFinish, laterFit⟩ := after
    refine ⟨?_, laterFinish, fun refused => refused.elim fits laterFit⟩
    rw [List.map_cons, starts, begins, laterBegin]

theorem starts_aligned (aligned : start % 4 = 0) :
    ∀ begin ∈ starts start increments, begin % 4 = 0 := by
  induction increments generalizing start with
  | nil => exact fun _ member => absurd member List.not_mem_nil
  | cons increment rest ih =>
    intro begin member
    rcases List.mem_cons.mp member with rfl | later
    · exact aligned
    · exact ih (behind_aligned increment aligned) begin later

theorem finish_lt (word : start < 2 ^ 32) : finish start increments < 2 ^ 32 := by
  induction increments generalizing start with
  | nil => exact word
  | cons increment rest ih => exact ih (Nat.mod_lt _ (Nat.two_pow_pos 32))

/-- Small calls that fit draw one after the other. -/
theorem ranges_of_small (small : ∀ increment ∈ increments, increment.toNat ≤ maxIncrement)
    (fits : ¬ Refused start increments) :
    (List.zipWith drawn increments (starts start increments)).Pairwise Disjoint ∧
      (∀ range ∈ List.zipWith drawn increments (starts start increments),
        ∀ value ∈ range, start ≤ value) ∧
      finish start increments =
        start + (increments.map fun increment => roundUp 4 increment.toNat).sum := by
  induction increments generalizing start with
  | nil => exact ⟨List.Pairwise.nil, fun _ member => absurd member List.not_mem_nil, rfl⟩
  | cons increment rest ih =>
    rw [Refused, not_or] at fits
    have moved := behind_small (small increment List.mem_cons_self) fits.1
    obtain ⟨apart, above, filled⟩ := ih
      (fun later member => small later (List.mem_cons_of_mem increment member)) fits.2
    have covers := le_roundUp (show 0 < 4 by decide) increment.toNat
    simp only [starts, List.zipWith_cons_cons, List.pairwise_cons, List.forall_mem_cons]
    refine ⟨⟨fun range member => ?_, apart⟩, ⟨fun value mem => mem.1, fun range member value mem => ?_⟩, ?_⟩
    · rw [Set.disjoint_left]
      intro value mem later
      have behindIt := above range member value later
      rw [moved] at behindIt
      have before := mem.2
      omega
    · have behindIt := above range member value mem
      omega
    · rw [finish, filled, moved, List.map_cons, List.sum_cons, Nat.add_assoc]

theorem ranges_iff (fits : ¬ Refused 0 increments) :
    Ranges increments (starts 0 increments) (finish 0 increments) ↔
      ∀ increment ∈ increments, increment.toNat ≤ maxIncrement := by
  constructor
  · intro lawful increment member
    by_contra large
    have one : roundUp 4 increment.toNat ≤
        (increments.map fun increment => roundUp 4 increment.toNat).sum :=
      List.single_le_sum (fun _ _ => Nat.zero_le _) _ (List.mem_map_of_mem member)
    have below : finish 0 increments < 2 ^ 32 := finish_lt (by decide)
    have above := roundUp_large (Nat.lt_of_not_le large)
    rw [lawful.filled] at below
    omega
  · intro small
    obtain ⟨apart, -, filled⟩ := ranges_of_small small fits
    exact ⟨apart, starts_aligned rfl, by rw [filled, Nat.zero_add]⟩

/-- A capture that ends hands out lawful ranges exactly when no increment is above
`2 ^ 32 - 4`; and it does not end when a call with a smaller one overruns. -/
theorem captured_ranges_disjoint (gen : GCUGeneratorImpl) (seedExtragraph offsetExtragraph : TensorId)
    (increments : List UInt64) :
    wp (capture seedExtragraph offsetExtragraph increments)
        (fun result _ =>
          Ranges increments (result.1.map PhiloxGcuState.start) result.2.toNat)
        (fun _ _ => True) gen ↔
      Refused 0 increments ∨ ∀ increment ∈ increments, increment.toNat ≤ maxIncrement := by
  have calls := @philoxGcuStates_capturing (gen.capturePrologue seedExtragraph offsetExtragraph)
    increments rfl rfl
  simp only [capture, captureEpilogue, wp_bind, wp_modify, wp_get, wp_pure, UInt32.toNat_toUInt64]
  constructor
  · intro lawful
    by_cases refused : Refused 0 increments
    · exact Or.inl refused
    · refine Or.inr ((ranges_iff refused).mp ?_)
      by_contra unlawful
      refine wp_false (wp_mono (wp_and calls lawful) (fun inputs after both => ?_)
        fun _ _ both => refused both.1)
      obtain ⟨⟨begins, ends, -⟩, ranges⟩ := both
      rw [begins, ends] at ranges
      exact unlawful ranges
  · intro condition
    refine wp_mono calls (fun inputs after result => ?_) fun _ _ _ => trivial
    obtain ⟨begins, ends, fits⟩ := result
    rw [begins, ends]
    exact (ranges_iff fits).mpr (condition.resolve_left fits)

/-- After a tensor of `2 ^ 32` values the next call is given the same offset. -/
theorem large_tensor_overlaps :
    ¬ wp (capture 0 1 [4294967296, 4])
        (fun result _ =>
          Ranges [4294967296, 4] (result.1.map PhiloxGcuState.start) result.2.toNat)
        (fun _ _ => True) ({} : GCUGeneratorImpl) := by
  intro lawful
  have ranges : Ranges [4294967296, 4] [0, 0] 4 := lawful
  have apart := (List.pairwise_cons.mp ranges.apart).1 (drawn 4 0) (List.mem_singleton_self _)
  have first : 0 ∈ drawn 4294967296 0 := ⟨le_rfl, by decide⟩
  have second : 0 ∈ drawn 4 0 := ⟨le_rfl, by decide⟩
  exact Set.disjoint_left.mp apart first second

end GCUGeneratorImpl
end TorchGcu.Graphs

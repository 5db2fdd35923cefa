import Mathlib.Algebra.Order.BigOperators.Group.List
import Mathlib.Algebra.Order.Group.Nat
import Mathlib.Data.Int.ModEq
import Mathlib.Order.CompletePartialOrder
import Mathlib.Order.Interval.Set.Disjoint
import TorchGcu.Tensor.ScalarType

/-! The collectives with a count for each rank, up to the call of ECCL. -/
namespace TorchGcu.ProcessGroupECCL

/-- The last one is no exception of the source: it marks an access behind the end of a vector. -/
inductive Fault where
  | valueError (message : String)
  | typeError (message : String)
  | torchCheck (message : String)
  | unsupportedType (type : ScalarType)
  | pastEnd
deriving DecidableEq, Repr

/-- The number of elements is an `int64_t`. -/
structure Tensor where
  gcu : Bool := true
  sparse : Bool := false
  contiguous : Bool := true
  dtype : ScalarType
  sizes : List Nat
  fits : sizes.prod < 2 ^ 63

def Tensor.numel (tensor : Tensor) : Nat := tensor.sizes.prod

structure Group where
  size : Nat
  rank : Nat
  rank_lt : rank < size

def checkGcuSingleTensor (tensor : Tensor) : Except Fault Unit :=
  if !tensor.gcu || tensor.sparse then .error (.valueError "Tensors must be GCU and dense")
  else if !tensor.contiguous then .error (.valueError "Tensors must be contiguous")
  else .ok ()

/-- The elements of a row, as a word. -/
def scale (input : Tensor) : UInt64 := input.sizes.tail.foldl (fun scale size => scale * .ofNat size) 1

def countsScale (input : Tensor) (recvCounts : List UInt64) : List UInt64 :=
  recvCounts.map (· * scale input)

/-- The displacements from the first one on: one more than there are counts. -/
def displsFrom (first : UInt64) : List UInt64 → List UInt64
  | [] => [first]
  | count :: counts => first :: displsFrom (first + count) counts

/-- `std::accumulate` from `0`, which is an `int`: each sum of an `int` and a word is cut off
to an `int` again. -/
def accumulate (counts : List UInt64) : Int :=
  counts.foldl (fun (sum : Int) count => (sum + count.toNat).bmod (2 ^ 32)) 0

/-! ### Types and reductions of ECCL -/

inductive ReduceOp where
  | sum | avg | product | min | max | band | bor | bxor | premulSum | unused
deriving DecidableEq, Repr

inductive EcclRedOp where
  | sum | prod | max | min | avg | preMulSum
deriving DecidableEq, Repr

/-- What the version of ECCL that is built against supports. -/
structure Build where
  ecclHasAvg : Bool
  premulSum : Bool

def getEcclDataType (type : ScalarType) (needReduce : Bool) : Except Fault EcclDataType :=
  if !needReduce && fp8 type then .ok .int8
  else match ecclDataType type with
    | some dataType => .ok dataType
    | none => .error (.unsupportedType type)

def ecclOp : ReduceOp → Except Fault EcclRedOp
  | .min => .ok .min
  | .max => .ok .max
  | .sum => .ok .sum
  | .product => .ok .prod
  | .avg => .ok .avg
  | .band => .error (.torchCheck "Cannot use ReduceOp.BAND with ECCL")
  | .bor => .error (.torchCheck "Cannot use ReduceOp.BOR with ECCL")
  | .bxor => .error (.torchCheck "Cannot use ReduceOp.BXOR with ECCL")
  | .premulSum | .unused => .error (.torchCheck "Unhandled ReduceOp")

/-- The sum of booleans is their maximum. -/
def getEcclReduceOp (build : Build) (reduceOp : ReduceOp) (input : Tensor)
    (dataType : EcclDataType) : Except Fault EcclRedOp :=
  if input.dtype = .bool ∧ reduceOp = .sum then .ok .max
  else if input.dtype = .bool ∧ build.ecclHasAvg ∧ reduceOp = .avg then
    .error (.torchCheck "Cannot use ReduceOp.AVG with boolean inputs")
  else if reduceOp = .premulSum then
    if !build.premulSum then .error (.torchCheck "ECCL not supprt PreMulSum")
    else if dataType = .half ∨ dataType = .float32 then .ok .preMulSum
    else .error (.torchCheck "PreMulSum Data type must be half, float, or double")
  else ecclOp reduceOp

/-- What ECCL is handed: the counts and displacements in the tensor of all ranks, the rank's own
tensor with its count, the type of the elements, and the reduction if there is one. -/
structure EcclCall where
  whole : Tensor
  counts : List UInt64
  displs : List UInt64
  own : Tensor
  count : UInt64
  dataType : EcclDataType
  redOp : Option EcclRedOp := none

def checkTensors (output input : Tensor) : Except Fault Unit := do
  checkGcuSingleTensor input
  checkGcuSingleTensor output
  if input.dtype ≠ output.dtype then
    throw (.typeError "output tensor must have the same type as input tensor")

/-- `counts[rank]`. -/
def countOf (counts : List UInt64) (rank : Nat) : Except Fault UInt64 :=
  match counts[rank]? with
  | some count => .ok count
  | none => .error .pastEnd

def allgatherv (group : Group) (output input : Tensor) (recvCounts : List UInt64) :
    Except Fault EcclCall := do
  checkTensors output input
  let counts := countsScale input recvCounts
  if accumulate counts ≤ output.numel then
    let dataType ← getEcclDataType input.dtype false
    let count ← countOf counts group.rank
    return { whole := output, counts, displs := displsFrom 0 counts, own := input, count, dataType }
  else throw (.valueError "Output tensor size less then the sum of recvCounts.")

/-- The type and the reduction that ECCL is handed. An average is a sum that is divided later. -/
def reduction (build : Build) (reduceOp : ReduceOp) (input : Tensor) :
    Except Fault (EcclDataType × EcclRedOp) := do
  let dataType ← getEcclDataType input.dtype true
  let redOp ← getEcclReduceOp build reduceOp input dataType
  return (dataType, if redOp = .avg then .sum else redOp)

def reduceScatterv (build : Build) (reduceOp : ReduceOp) (group : Group) (output input : Tensor)
    (recvCounts : List UInt64) : Except Fault EcclCall := do
  checkTensors output input
  let counts := countsScale input recvCounts
  if accumulate counts ≤ input.numel then
    let count ← countOf counts group.rank
    -- both sides are words, and the number of elements is not negative
    if count.toNat ≤ output.numel then
      let (dataType, redOp) ← reduction build reduceOp input
      return { whole := input, counts, displs := displsFrom 0 counts, own := output, count,
               dataType, redOp := some redOp }
    else
      throw (.valueError
        "Output tensor size less than expected receive count for this rank.")
  else throw (.valueError "Input tensor size less than the sum of recvCounts.")

/-! ### What a call may touch -/

/-- The elements of one rank. -/
def part (displ count : UInt64) : Set Nat := Set.Ico displ.toNat (displ.toNat + count.toNat)

/-- The parts of all ranks. -/
def EcclCall.parts (call : EcclCall) : List (Set Nat) := List.zipWith part call.displs call.counts

structure EcclCall.Safe (group : Group) (call : EcclCall) : Prop where
  indices : ∀ rank < group.size, rank < call.counts.length ∧ rank < call.displs.length
  own : call.counts[group.rank]? = some call.count ∧ call.count.toNat ≤ call.own.numel
  nonNegative : ∀ count ∈ call.counts, count.toNat < 2 ^ 63
  inside : ∀ entry ∈ call.displs.zip call.counts,
    entry.1.toNat + entry.2.toNat ≤ call.whole.numel
  apart : call.parts.Pairwise Disjoint
  covers : ∀ element : Nat, (element : Int) < accumulate call.counts →
    ∃ part ∈ call.parts, element ∈ part

/-- A collective raises, or its call is safe. -/
def Inside (group : Group) : Except Fault EcclCall → Prop
  | .ok call => call.Safe group
  | .error .pastEnd => False
  | .error _ => True

/-! ### Sums -/

def total (counts : List UInt64) : Nat := (counts.map UInt64.toNat).sum

theorem total_cons (count : UInt64) (counts : List UInt64) :
    total (count :: counts) = count.toNat + total counts := by
  rw [total, List.map_cons, List.sum_cons]
  rfl

theorem accumulate_eq (counts : List UInt64) : accumulate counts = (total counts : Int).bmod (2 ^ 32) := by
  have sums (start : Int) : counts.foldl (fun (sum : Int) count => (sum + count.toNat).bmod (2 ^ 32)) start =
      if counts = [] then start else (start + total counts).bmod (2 ^ 32) := by
    induction counts generalizing start with
    | nil => rfl
    | cons count counts ih =>
      rw [List.foldl_cons, ih, if_neg (List.cons_ne_nil _ _)]
      split
      · subst counts
        simp [total]
      · rw [Int.bmod_add_bmod, total_cons, Int.natCast_add, Int.add_assoc]
  rw [accumulate, sums]
  split
  · subst counts
    rfl
  · rw [Int.zero_add]

theorem accumulate_le (counts : List UInt64) : accumulate counts ≤ total counts := by
  rw [accumulate_eq]
  by_cases small : (total counts : Int) < 2 ^ 31
  · rw [Int.bmod_eq_of_le (by omega) (by omega)]
  · have bound := @Int.bmod_lt (total counts) (2 ^ 32) (by decide)
    have limit : (total counts : Int).bmod (2 ^ 32) < 2 ^ 31 := bound
    omega

theorem displsFrom_length (first : UInt64) (counts : List UInt64) :
    (displsFrom first counts).length = counts.length + 1 := by
  induction counts generalizing first with
  | nil => rfl
  | cons count counts ih => rw [displsFrom, List.length_cons, ih, List.length_cons]

/-- Where the sum of all counts fits a word the parts follow each other. -/
theorem parts_tile {first : UInt64} {counts : List UInt64}
    (fits : first.toNat + total counts < 2 ^ 64) :
    (∀ entry ∈ (displsFrom first counts).zip counts, first.toNat ≤ entry.1.toNat ∧
        entry.1.toNat + entry.2.toNat ≤ first.toNat + total counts) ∧
      (List.zipWith part (displsFrom first counts) counts).Pairwise Disjoint ∧
      (∀ element, first.toNat ≤ element → element < first.toNat + total counts →
        ∃ set ∈ List.zipWith part (displsFrom first counts) counts, element ∈ set) := by
  induction counts generalizing first with
  | nil =>
    refine ⟨fun _ member => absurd member List.not_mem_nil, List.Pairwise.nil, fun element low high => ?_⟩
    exact absurd high (Nat.not_lt.mpr low)
  | cons count counts ih =>
    rw [total_cons] at fits ⊢
    have exact : (first + count).toNat = first.toNat + count.toNat := by
      rw [UInt64.toNat_add, Nat.mod_eq_of_lt]
      omega
    obtain ⟨inside, apart, covers⟩ := @ih (first + count) (by omega)
    simp only [displsFrom, List.zip_cons_cons, List.zipWith_cons_cons, List.forall_mem_cons,
      List.pairwise_cons]
    refine ⟨⟨⟨le_rfl, by omega⟩, fun entry member => ?_⟩, ⟨fun set member => ?_, apart⟩,
      fun element low high => ?_⟩
    · have bounds := inside entry member
      omega
    · rw [← List.map_uncurry_zip_eq_zipWith] at member
      obtain ⟨⟨displ, other⟩, zipped, rfl⟩ := List.mem_map.mp member
      have bounds := inside _ zipped
      rw [Set.disjoint_left]
      intro element here there
      have before := here.2
      have behind : displ.toNat ≤ element := there.1
      simp only at bounds
      omega
    · by_cases here : element < first.toNat + count.toNat
      · exact ⟨_, List.mem_cons_self, low, here⟩
      · obtain ⟨set, member, covered⟩ := covers element (by omega) (by omega)
        exact ⟨set, List.mem_cons_of_mem _ member, covered⟩

/-- Parts that are inside a tensor add up to no more than it has. -/
theorem total_le_of_inside {first : UInt64} {counts : List UInt64} {numel : Nat}
    (word : numel < 2 ^ 63) (start : first.toNat ≤ numel)
    (inside : ∀ entry ∈ (displsFrom first counts).zip counts,
      entry.1.toNat + entry.2.toNat ≤ numel) : first.toNat + total counts ≤ numel := by
  induction counts generalizing first with
  | nil => exact start
  | cons count counts ih =>
    rw [displsFrom, List.zip_cons_cons, List.forall_mem_cons] at inside
    have exact : (first + count).toNat = first.toNat + count.toNat := by
      rw [UInt64.toNat_add, Nat.mod_eq_of_lt]
      have here := inside.1
      simp only at here
      omega
    have rest := ih (exact ▸ inside.1) inside.2
    rw [exact] at rest
    rw [total_cons, ← Nat.add_assoc]
    exact rest

/-! ### Calls -/

variable {group : Group} {output input whole own : Tensor} {recvCounts counts : List UInt64}

/-- What the tensors and counts have to be, beyond the checks: one count for each rank, all of
which fit the tensor of all ranks, and the rank's own tensor has its count. -/
structure Fits (group : Group) (whole own : Tensor) (counts : List UInt64) : Prop where
  ranks : group.size ≤ counts.length
  whole : total counts ≤ whole.numel
  own : ∀ count, counts[group.rank]? = some count → count.toNat ≤ own.numel

theorem safe_iff {count : UInt64} {dataType : EcclDataType} {redOp : Option EcclRedOp}
    (read : counts[group.rank]? = some count) :
    EcclCall.Safe group
        { whole, counts, displs := displsFrom 0 counts, own, count, dataType, redOp } ↔
      Fits group whole own counts := by
  constructor
  · intro safe
    refine ⟨?_, ?_, fun other same => ?_⟩
    · have last := (safe.indices (group.size - 1) (Nat.sub_lt (by have := group.rank_lt; omega) Nat.one_pos)).1
      simp only at last
      omega
    · have sum := @total_le_of_inside 0 counts whole.numel whole.fits (Nat.zero_le _) safe.inside
      rwa [UInt64.toNat_zero, Nat.zero_add] at sum
    · rw [read, Option.some.injEq] at same
      exact same ▸ safe.own.2
  · intro fits
    have word := whole.fits
    have small : (0 : UInt64).toNat + total counts < 2 ^ 64 := by
      have bound := fits.whole
      unfold Tensor.numel at bound
      change 0 + total counts < 2 ^ 64
      omega
    obtain ⟨inside, apart, covers⟩ := parts_tile small
    refine ⟨fun rank below => ?_, ⟨read, fits.own count read⟩, fun one member => ?_,
      fun entry member => ?_, apart, fun element below => ?_⟩
    · rw [displsFrom_length]
      have bound := fits.ranks
      simp only
      omega
    · have part : one.toNat ≤ total counts :=
        List.single_le_sum (fun _ _ => Nat.zero_le _) _ (List.mem_map_of_mem member)
      exact (part.trans fits.whole).trans_lt whole.fits
    · have bounds := inside entry member
      have bound := fits.whole
      simp only [UInt64.toNat_zero] at bounds ⊢
      omega
    · have bound := accumulate_le counts
      refine covers element (Nat.zero_le _) ?_
      simp only [UInt64.toNat_zero] at below ⊢
      omega

theorem fits_read (fits : Fits group whole own counts) : ∃ count, counts[group.rank]? = some count :=
  ⟨_, List.getElem?_eq_getElem (group.rank_lt.trans_le fits.ranks)⟩

/-- Why a collective is refused before its counts are looked at. -/
theorem checkTensors_cases (output input : Tensor) :
    checkTensors output input = .ok () ∨
      ∃ fault, checkTensors output input = .error fault ∧ fault ≠ .pastEnd := by
  have single (tensor : Tensor) : checkGcuSingleTensor tensor = .ok () ∨
      ∃ message, checkGcuSingleTensor tensor = .error (.valueError message) := by
    unfold checkGcuSingleTensor
    split
    · exact .inr ⟨_, rfl⟩
    · split
      · exact .inr ⟨_, rfl⟩
      · exact .inl rfl
  unfold checkTensors
  rcases single input with passes | ⟨message, refused⟩
  · rcases single output with passes' | ⟨message, refused⟩
    · rw [passes, passes']
      by_cases same : input.dtype = output.dtype
      · exact .inl (by simp only [same, ne_eq, not_true_eq_false, if_false]; rfl)
      · exact .inr ⟨_, by simp only [ne_eq, same, not_false_eq_true, if_true]; rfl, by simp⟩
    · rw [passes, refused]
      exact .inr ⟨_, rfl, by simp⟩
  · rw [refused]
    exact .inr ⟨_, rfl, by simp⟩

/-- ECCL has the type. -/
def Named (input : Tensor) : Prop := fp8 input.dtype = true ∨ (ecclDataType input.dtype).isSome

/-- ECCL has the type and the reduction. -/
def Reducible (build : Build) (reduceOp : ReduceOp) (input : Tensor) : Prop :=
  ∃ dataType, ecclDataType input.dtype = some dataType ∧
    match reduceOp with
    | .sum | .product | .min | .max => True
    | .avg => input.dtype = .bool → build.ecclHasAvg = false
    | .premulSum => build.premulSum = true ∧ (dataType = .half ∨ dataType = .float32)
    | .band | .bor | .bxor | .unused => False

/-- The checks of `allgatherv` let a call through. -/
def GatherAccepted (output input : Tensor) (counts : List UInt64) : Prop :=
  checkTensors output input = .ok () ∧ accumulate counts ≤ output.numel ∧ Named input

/-- The checks of `reduce_scatterv` let a call through, where there is a count to look at. -/
def ScatterAccepted (build : Build) (reduceOp : ReduceOp) (group : Group) (output input : Tensor)
    (counts : List UInt64) : Prop :=
  checkTensors output input = .ok () ∧ accumulate counts ≤ input.numel ∧
    ∀ count, counts[group.rank]? = some count →
      count.toNat ≤ output.numel ∧ Reducible build reduceOp input

theorem named_iff (input : Tensor) :
    Named input ∧ (∃ dataType, getEcclDataType input.dtype false = .ok dataType) ∨
      ¬ Named input ∧ getEcclDataType input.dtype false = .error (.unsupportedType input.dtype) := by
  unfold Named getEcclDataType
  cases fp8 input.dtype <;> cases ecclDataType input.dtype <;> simp

theorem reducible_iff (build : Build) (reduceOp : ReduceOp) (input : Tensor) :
    Reducible build reduceOp input ∧ (∃ both, reduction build reduceOp input = .ok both) ∨
      ¬ Reducible build reduceOp input ∧
        ∃ fault, reduction build reduceOp input = .error fault ∧ fault ≠ .pastEnd := by
  unfold Reducible reduction getEcclDataType
  cases ecclDataType input.dtype with
  | none => exact .inr ⟨by simp, _, rfl, by simp⟩
  | some dataType =>
    cases reduceOp with
    | avg =>
      by_cases isBool : input.dtype = .bool <;> rcases build with ⟨_ | _, _⟩ <;>
        simp [getEcclReduceOp, ecclOp, isBool, bind, Except.bind, pure, Except.pure]
    | premulSum =>
      rcases build with ⟨_, _ | _⟩ <;> cases dataType <;>
        simp [getEcclReduceOp, bind, Except.bind, pure, Except.pure]
    | _ =>
      by_cases isBool : input.dtype = .bool <;>
        simp [getEcclReduceOp, ecclOp, isBool, bind, Except.bind, pure, Except.pure]

theorem inside_error {fault : Fault} (raises : fault ≠ .pastEnd) : Inside group (.error fault) := by
  cases fault with
  | pastEnd => exact raises rfl
  | valueError message => trivial
  | typeError message => trivial
  | torchCheck message => trivial
  | unsupportedType type => trivial

theorem allgatherv_inside_iff :
    Inside group (allgatherv group output input recvCounts) ↔
      (GatherAccepted output input (countsScale input recvCounts) →
        Fits group output input (countsScale input recvCounts)) := by
  generalize countsIs : countsScale input recvCounts = counts
  unfold GatherAccepted
  rcases checkTensors_cases output input with passes | ⟨fault, refused, raises⟩
  · by_cases checked : accumulate counts ≤ output.numel
    · rcases named_iff input with ⟨named, dataType, isType⟩ | ⟨unnamed, refused⟩
      · cases read : counts[group.rank]? with
        | none =>
          have called : allgatherv group output input recvCounts = .error .pastEnd := by
            simp only [allgatherv, passes, countsIs, if_pos checked, isType, countOf, read]
            rfl
          rw [called]
          refine ⟨False.elim, fun fits => ?_⟩
          obtain ⟨count, found⟩ := fits_read (fits ⟨passes, checked, named⟩)
          rw [read] at found
          cases found
        | some count =>
          have called : allgatherv group output input recvCounts = .ok
              { whole := output, counts, displs := displsFrom 0 counts, own := input, count,
                dataType } := by
            simp only [allgatherv, passes, countsIs, if_pos checked, isType, countOf, read]
            rfl
          rw [called]
          exact (safe_iff read).trans
            ⟨fun fits _ => fits, fun fits => fits ⟨passes, checked, named⟩⟩
      · have called : allgatherv group output input recvCounts =
            .error (.unsupportedType input.dtype) := by
          simp only [allgatherv, passes, countsIs, if_pos checked, refused]
          rfl
        rw [called]
        exact ⟨fun _ accepted => absurd accepted.2.2 unnamed, fun _ => trivial⟩
    · have called : ∃ message, allgatherv group output input recvCounts =
          .error (.valueError message) :=
        ⟨_, by simp only [allgatherv, passes, countsIs, if_neg checked]; rfl⟩
      obtain ⟨message, called⟩ := called
      rw [called]
      exact ⟨fun _ accepted => absurd accepted.2.1 checked, fun _ => trivial⟩
  · have called : allgatherv group output input recvCounts = .error fault := by
      simp only [allgatherv, refused]
      rfl
    rw [called]
    refine ⟨fun _ accepted => ?_, fun _ => ?_⟩
    · rw [refused] at accepted
      cases accepted.1
    · exact inside_error raises

theorem reduceScatterv_inside_iff {build : Build} {reduceOp : ReduceOp} :
    Inside group (reduceScatterv build reduceOp group output input recvCounts) ↔
      (ScatterAccepted build reduceOp group output input (countsScale input recvCounts) →
        Fits group input output (countsScale input recvCounts)) := by
  generalize countsIs : countsScale input recvCounts = counts
  unfold ScatterAccepted
  rcases checkTensors_cases output input with passes | ⟨fault, refused, raises⟩
  · by_cases checked : accumulate counts ≤ input.numel
    · cases read : counts[group.rank]? with
      | none =>
        have called : reduceScatterv build reduceOp group output input recvCounts =
            .error .pastEnd := by
          simp only [reduceScatterv, passes, countsIs, if_pos checked, countOf, read]
          rfl
        rw [called]
        refine ⟨False.elim, fun fits => ?_⟩
        obtain ⟨count, found⟩ := fits_read (fits ⟨passes, checked, fun _ never => by cases never⟩)
        rw [read] at found
        cases found
      | some count =>
        by_cases own : count.toNat ≤ output.numel
        · rcases reducible_iff build reduceOp input with
            ⟨reducible, ⟨dataType, redOp⟩, reduces⟩ | ⟨irreducible, fault, refused, raises⟩
          · have called : reduceScatterv build reduceOp group output input recvCounts = .ok
                { whole := input, counts, displs := displsFrom 0 counts, own := output, count,
                  dataType, redOp := some redOp } := by
              simp only [reduceScatterv, passes, countsIs, if_pos checked, countOf, read, reduces]
              exact if_pos own
            rw [called]
            refine (safe_iff read).trans ⟨fun fits _ => fits, fun fits => fits ⟨passes, checked, ?_⟩⟩
            rintro _ ⟨⟩
            exact ⟨own, reducible⟩
          · have called : reduceScatterv build reduceOp group output input recvCounts =
                .error fault := by
              simp only [reduceScatterv, passes, countsIs, if_pos checked, countOf, read, refused]
              exact if_pos own
            rw [called]
            exact ⟨fun _ accepted => absurd (accepted.2.2 count rfl).2 irreducible,
              fun _ => inside_error raises⟩
        · have called : ∃ message, reduceScatterv build reduceOp group output input recvCounts =
              .error (.valueError message) := by
            refine ⟨"Output tensor size less than expected receive count for this rank.", ?_⟩
            simp only [reduceScatterv, passes, countsIs, if_pos checked, countOf, read]
            exact if_neg own
          obtain ⟨message, called⟩ := called
          rw [called]
          exact ⟨fun _ accepted => absurd (accepted.2.2 count rfl).1 own, fun _ => trivial⟩
    · have called : ∃ message, reduceScatterv build reduceOp group output input recvCounts =
          .error (.valueError message) :=
        ⟨_, by simp only [reduceScatterv, passes, countsIs, if_neg checked]; rfl⟩
      obtain ⟨message, called⟩ := called
      rw [called]
      exact ⟨fun _ accepted => absurd accepted.2.1 checked, fun _ => trivial⟩
  · have called : reduceScatterv build reduceOp group output input recvCounts = .error fault := by
      simp only [reduceScatterv, refused]
      rfl
    rw [called]
    refine ⟨fun _ accepted => ?_, fun _ => ?_⟩
    · rw [refused] at accepted
      cases accepted.1
    · exact inside_error raises

/-- Both collectives stay inside their tensors exactly when whatever their checks let through
has a count for each rank, all counts fit the tensor of all ranks, and the rank's own tensor
has its count. -/
theorem variable_collectives_inside (build : Build) (reduceOp : ReduceOp) (group : Group)
    (output input : Tensor) (recvCounts : List UInt64) :
    (Inside group (allgatherv group output input recvCounts) ↔
      (GatherAccepted output input (countsScale input recvCounts) →
        Fits group output input (countsScale input recvCounts))) ∧
    (Inside group (reduceScatterv build reduceOp group output input recvCounts) ↔
      (ScatterAccepted build reduceOp group output input (countsScale input recvCounts) →
        Fits group input output (countsScale input recvCounts))) :=
  ⟨allgatherv_inside_iff, reduceScatterv_inside_iff⟩

def row (length : Nat) (fits : length < 2 ^ 63) : Tensor :=
  { dtype := .float, sizes := [length], fits := by simpa using fits }

/-- The second of two ranks. -/
def secondRank : Group := ⟨2, 1, by decide⟩

/-- A sum over the ranks, without the newer reductions. -/
def sumScatterv (output input : Tensor) (recvCounts : List UInt64) : Except Fault EcclCall :=
  reduceScatterv ⟨false, false⟩ .sum secondRank output input recvCounts

/-- Counts that sum to a multiple of 2^32 pass the check of an empty tensor; `allgatherv` does
not look at the rank's own tensor; and a vector with fewer counts than ranks is read behind its
end. -/
theorem collectives_outside :
    ¬ Inside secondRank (allgatherv secondRank (row 0 (by decide)) (row 0 (by decide)) [4294967296, 0]) ∧
    ¬ Inside secondRank (allgatherv secondRank (row 4 (by decide)) (row 1 (by decide)) [2, 2]) ∧
    ¬ Inside secondRank (sumScatterv (row 0 (by decide)) (row 0 (by decide)) [4294967296, 0]) ∧
    ¬ Inside secondRank (sumScatterv (row 4 (by decide)) (row 4 (by decide)) [4]) := by
  refine ⟨fun inside => ?_, fun inside => ?_, fun inside => ?_, id⟩
  · have fits := allgatherv_inside_iff.mp inside ⟨rfl, by decide, .inr rfl⟩
    exact absurd fits.whole (by decide)
  · have fits := allgatherv_inside_iff.mp inside ⟨rfl, by decide, .inr rfl⟩
    exact absurd (fits.own 2 rfl) (by decide)
  · have fits := reduceScatterv_inside_iff.mp inside
      ⟨rfl, by decide, by rintro _ ⟨⟩; exact ⟨by decide, .float32, rfl, trivial⟩⟩
    exact absurd fits.whole (by decide)

end TorchGcu.ProcessGroupECCL

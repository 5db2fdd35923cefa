import TorchGcu.Broadcast.CoalescedOutputs
import TorchGcu.Broadcast.ReferenceFramework

/-! Broadcasts with the collective library against broadcasts by copies. -/
namespace TorchGcu.Broadcast
open ProgramLogic

variable {hardware : Hardware} {framework : Framework hardware}

/-- The size that chunks are gathered by. -/
def bufferLimit (framework : Framework hardware) (eccl : Bool) (bufferSize : Nat) : Nat :=
  if eccl then min framework.countMax bufferSize else bufferSize

/-- The chunks of a coalesced broadcast, with their numbers. -/
def numberedChunks (framework : Framework hardware) (eccl : Bool)
    (tensors : List (Tensor hardware)) (bufferSize : Nat) : List (List (Tensor hardware) × Nat) :=
  (framework.takeTensors tensors (bufferLimit framework eccl bufferSize)).zipIdx

theorem map_flatten_chunks {β : Type} (framework : Framework hardware) (eccl : Bool)
    (tensors : List (Tensor hardware)) (bufferSize : Nat) (f : Tensor hardware → β) :
    (framework.takeTensors tensors (bufferLimit framework eccl bufferSize)).flatten.map f =
      (numberedChunks framework eccl tensors bufferSize).flatMap
        fun numbered => numbered.1.map f := by
  rw [List.map_flatten, ← List.flatMap_def, numberedChunks]
  exact (flatMap_zipIdx (List.map f) _ 0).symm

/-- The outputs of a device, before they are put in order. -/
def gathered (framework : Framework hardware) (eccl : Bool) (memory : Nat → Int → Nat → UInt8)
    (tensors : List (Tensor hardware)) (devices : List Int) (bufferSize : Nat) (device : Int) :
    List (Tensor hardware) :=
  (numberedChunks framework eccl tensors bufferSize).flatMap
    (chunkPieces framework eccl memory devices device)

/-- The outputs when every tensor was copied to every other device. -/
def copiedOutputs (framework : Framework hardware) (tensors : List (Tensor hardware))
    (others : List Int) : List (List (Tensor hardware)) :=
  tensors :: others.map fun device => tensors.map (framework.onDevice device)

section Coalesced
variable (copies : framework.Copies) (gathers : framework.Gathers) (eccl : Bool)
  (memory : Nat → Int → Nat → UInt8) {tensors : List (Tensor hardware)} {first : Int}
  {others : List Int} (bufferSize : Nat)

theorem broadcastCoalesced_own (own : ∀ t ∈ tensors, t.device = first) :
    broadcastCoalesced framework eccl memory tensors first others bufferSize =
      (broadcastChunks framework eccl memory (first :: others) 0 {} (others.map fun _ => [])
        (framework.takeTensors tensors (bufferLimit framework eccl bufferSize))).map
          fun result => (tensors :: result.2) |>.map fun output =>
            if result.1.unique then output else framework.reorderTensorsLike output tensors := by
  have all : tensors.all (·.device == first) = true :=
    List.all_eq_true.mpr fun t inside => beq_iff_eq.mpr (own t inside)
  simp only [broadcastCoalesced, all, Bool.not_true, Bool.false_eq_true, if_false, bind,
    Except.bind, pure, Except.pure, bufferLimit]
  cases broadcastChunks framework eccl memory (first :: others) 0 {} (others.map fun _ => [])
    (framework.takeTensors tensors (if eccl = true then min framework.countMax bufferSize
      else bufferSize)) with
  | error stop => rfl
  | ok result =>
    cases unique : result.1.unique <;> simp [Except.map, unique]

include gathers

/-- Where chunks are broadcast, no device is negative. -/
theorem numbered_valid (valid : tensors = [] ∨ ∀ device ∈ first :: others, 0 ≤ device)
    {numbered : List (Tensor hardware) × Nat}
    (among : numbered ∈ numberedChunks framework eccl tensors bufferSize) :
    ∀ device ∈ first :: others, 0 ≤ device := by
  refine valid.resolve_left fun none => ?_
  have chunk := List.fst_mem_of_mem_zipIdx among
  obtain ⟨t, inside⟩ := List.exists_mem_of_ne_nil _ (gathers.nonempty tensors _ _ chunk)
  have inside := (mem_chunks gathers).mp (List.mem_flatten_of_mem chunk inside)
  simp [none] at inside

/-- A negative device ends the first broadcast of a chunk. -/
theorem broadcastCoalesced_negative (own : ∀ t ∈ tensors, t.device = first)
    (invalid : ¬(tensors = [] ∨ ∀ device ∈ first :: others, 0 ≤ device)) :
    ∃ stop, ∀ eccl, broadcastCoalesced framework eccl memory tensors first others bufferSize =
      .error stop := by
  rw [not_or] at invalid
  obtain ⟨stop, ends⟩ := @broadcast_negative hardware framework (first :: others)
    (by simpa only [not_forall, Int.not_le, exists_prop] using invalid.2)
  refine ⟨stop, fun eccl => ?_⟩
  rw [broadcastCoalesced_own eccl memory bufferSize own]
  cases chunks : framework.takeTensors tensors (bufferLimit framework eccl bufferSize) with
  | nil =>
    obtain ⟨t, inside⟩ := List.exists_mem_of_ne_nil _ invalid.1
    have among := (@mem_chunks hardware framework gathers tensors
      (bufferLimit framework eccl bufferSize) t).mpr inside
    simp [chunks] at among
  | cons chunk chunks =>
    simp only [broadcastChunks, ends]
    rfl

theorem broadcastCoalesced_ok (own : ∀ t ∈ tensors, t.device = first)
    (runs : ∀ numbered ∈ numberedChunks framework eccl tensors bufferSize,
      broadcast framework eccl (memory numbered.2) (framework.flattenDenseTensors numbered.1)
          (first :: others) =
        .ok ((first :: others).map (landed framework eccl (memory numbered.2)
          (framework.flattenDenseTensors numbered.1) (first :: others)))) :
    broadcastCoalesced framework eccl memory tensors first others bufferSize =
      .ok (tensors :: others.map fun device => finish framework tensors
        (showAll {} (framework.takeTensors tensors
          (bufferLimit framework eccl bufferSize))).unique
        (gathered framework eccl memory tensors (first :: others) bufferSize device)) := by
  rw [broadcastCoalesced_own eccl memory bufferSize own, broadcastChunks_ok 0 {} (fun _ => []) runs]
  have kept := finish_self gathers tensors
    (showAll {} (framework.takeTensors tensors (bufferLimit framework eccl bufferSize))).unique
  simp only [finish] at kept
  simp only [Except.map, List.nil_append, List.map_cons, List.map_map]
  exact congrArg Except.ok (congrArg₂ List.cons kept rfl)

include copies

/-- What is gathered for a device is every tensor on it when every chunk arrived. -/
theorem finish_gathered_iff (own : ∀ t ∈ tensors, t.device = first) (device : Int) :
    finish framework tensors
        (showAll {} (framework.takeTensors tensors
          (bufferLimit framework eccl bufferSize))).unique
        (gathered framework eccl memory tensors (first :: others) bufferSize device) =
      tensors.map (framework.onDevice device) ↔
    ∀ numbered ∈ numberedChunks framework eccl tensors bufferSize,
      landed framework eccl (memory numbered.2) (framework.flattenDenseTensors numbered.1)
          (first :: others) device =
        landed framework false (memory numbered.2) (framework.flattenDenseTensors numbered.1)
          (first :: others) device := by
  have pieces := fun numbered among => @chunkPieces_spec hardware framework gathers copies tensors
    first own (bufferLimit framework eccl bufferSize) 0 eccl memory (first :: others) device
    numbered among
  have types : (gathered framework eccl memory tensors (first :: others) bufferSize device).map
      (·.dtype) = (framework.takeTensors tensors
        (bufferLimit framework eccl bufferSize)).flatten.map (·.dtype) := by
    rw [gathered, List.map_flatMap, map_flatten_chunks]
    exact (flatMap_eq_iff fun numbered among =>
      congrArg List.length (pieces numbered among).1).mpr fun numbered among =>
        (pieces numbered among).1
  rw [finish_eq_iff gathers types, map_flatten_chunks, gathered, flatMap_eq_iff]
  · exact forall₂_congr fun numbered among => (pieces numbered among).2
  · intro numbered among
    have lengths := congrArg List.length (pieces numbered among).1
    simpa using lengths

/-- The library leaves every tensor on every device when it broadcasts every chunk as copies do. -/
theorem broadcastCoalesced_iff (own : ∀ t ∈ tensors, t.device = first)
    (valid : tensors = [] ∨ ∀ device ∈ first :: others, 0 ≤ device) :
    broadcastCoalesced framework eccl memory tensors first others bufferSize =
        .ok (copiedOutputs framework tensors others) ↔
      ∀ numbered ∈ numberedChunks framework eccl tensors bufferSize,
        broadcast framework eccl (memory numbered.2) (framework.flattenDenseTensors numbered.1)
            (first :: others) =
          broadcast framework false (memory numbered.2) (framework.flattenDenseTensors numbered.1)
            (first :: others) := by
  have nonneg := fun numbered among =>
    @numbered_valid hardware framework gathers eccl tensors first others bufferSize valid numbered
      among
  constructor
  · intro equal numbered among
    rw [broadcastCoalesced_own eccl memory bufferSize own] at equal
    cases ran : broadcastChunks framework eccl memory (first :: others) 0 {}
        (others.map fun _ => [])
        (framework.takeTensors tensors (bufferLimit framework eccl bufferSize)) with
    | error stop =>
      rw [ran] at equal
      cases equal
    | ok result =>
      have runs : ∀ numbered ∈ numberedChunks framework eccl tensors bufferSize,
          broadcast framework eccl (memory numbered.2) (framework.flattenDenseTensors numbered.1)
              (first :: others) =
            .ok ((first :: others).map (landed framework eccl (memory numbered.2)
              (framework.flattenDenseTensors numbered.1) (first :: others))) := by
        intro numbered among
        obtain ⟨results, one⟩ := broadcastChunks_each ran numbered among
        exact one.trans (congrArg Except.ok (broadcast_ok (nonneg numbered among) one))
      rw [← broadcastCoalesced_own eccl memory bufferSize own,
        broadcastCoalesced_ok gathers eccl memory bufferSize own runs] at equal
      have outputs := List.map_inj_left.mp (List.cons.inj (Except.ok.inj equal)).2
      rw [runs numbered among, broadcast_plain _ _ (nonneg numbered among)]
      refine congrArg Except.ok (List.map_congr_left fun device inside => ?_)
      rcases List.mem_cons.mp inside with rfl | inside
      · have flat := (chunk_flat gathers own among).2.1.device
        simp [landed, flat]
      · exact (finish_gathered_iff copies gathers eccl memory bufferSize own device).mp
          (outputs device inside) numbered among
  · intro equal
    have arrive : ∀ numbered ∈ numberedChunks framework eccl tensors bufferSize,
        (first :: others).map (landed framework false (memory numbered.2)
            (framework.flattenDenseTensors numbered.1) (first :: others)) =
          (first :: others).map (landed framework eccl (memory numbered.2)
            (framework.flattenDenseTensors numbered.1) (first :: others)) := by
      intro numbered among
      have one := equal numbered among
      rw [broadcast_plain _ _ (nonneg numbered among)] at one
      exact broadcast_ok (nonneg numbered among) one
    have runs := broadcastCoalesced_ok gathers eccl memory bufferSize own fun numbered among => by
      rw [equal numbered among, broadcast_plain _ _ (nonneg numbered among), arrive numbered among]
    rw [runs]
    refine congrArg (fun outputs => Except.ok (tensors :: outputs))
      (List.map_congr_left fun device inside => ?_)
    refine (finish_gathered_iff copies gathers eccl memory bufferSize own device).mpr ?_
    intro numbered among
    exact (List.map_inj_left.mp (arrive numbered among) device
      (List.mem_cons_of_mem _ inside)).symm

theorem broadcastCoalesced_plain (own : ∀ t ∈ tensors, t.device = first)
    (valid : tensors = [] ∨ ∀ device ∈ first :: others, 0 ≤ device) :
    broadcastCoalesced framework false memory tensors first others bufferSize =
      .ok (copiedOutputs framework tensors others) :=
  (broadcastCoalesced_iff copies gathers false memory bufferSize own valid).mpr fun _ _ => rfl

end Coalesced

/-! ### Outcomes -/

/-- The outcome is the one without the library, and what is left is right. -/
structure Agrees {α : Type} (outcome plain : Except Stop α) (right : α → Prop) : Prop where
  same : outcome = plain
  right : ∀ result, outcome = .ok result → right result

theorem agrees_ok_iff {α : Type} {outcome plain : Except Stop α} {right : α → Prop} {result : α}
    (runs : plain = .ok result) : Agrees outcome plain right ↔ outcome = plain ∧ right result := by
  constructor
  · intro agrees
    exact ⟨agrees.same, agrees.right result (agrees.same.trans runs)⟩
  · rintro ⟨same, isRight⟩
    refine ⟨same, fun other ran => ?_⟩
    cases (same.trans runs).symm.trans ran
    exact isRight

theorem agrees_error {α : Type} {outcome plain : Except Stop α} {right : α → Prop} {stop : Stop}
    (ends : outcome = .error stop) (plainEnds : plain = .error stop) :
    Agrees outcome plain right := by
  refine ⟨ends.trans plainEnds.symm, fun result ran => ?_⟩
  rw [ends] at ran
  cases ran

/-- An output that was written: what a copy leaves in it, with the sizes of the source, and with
its values where it has the type of the source. -/
structure IsFilled (framework : Framework hardware) (source out t : Tensor hardware) : Prop where
  copied : t = framework.copy out source
  sizes : t.sizes = source.sizes
  ofType : out.dtype = source.dtype → IsCopy source out.device t

theorem checkOutputs_ok {tensor : Tensor hardware} {outs : List (Tensor hardware)} (i : Nat)
    (fine : ∀ out ∈ outs, out.isGcu = true ∧ out.sizes = tensor.sizes) :
    checkOutputs tensor i outs = .ok () := by
  induction outs generalizing i with
  | nil => rfl
  | cons out outs ih =>
    obtain ⟨gcu, sizes⟩ := fine out List.mem_cons_self
    have later := ih (i + 1) fun other inside => fine other (List.mem_cons_of_mem _ inside)
    simp [checkOutputs, gcu, sizes, later]

theorem checkOutputs_error {tensor : Tensor hardware} {outs : List (Tensor hardware)} (i : Nat)
    (wrong : ¬∀ out ∈ outs, out.isGcu = true ∧ out.sizes = tensor.sizes) :
    ∃ stop, checkOutputs tensor i outs = .error stop := by
  induction outs generalizing i with
  | nil => simp at wrong
  | cons out outs ih =>
    rw [List.forall_mem_cons] at wrong
    cases gcu : out.isGcu with
    | false => exact ⟨_, by simp only [checkOutputs, gcu]; rfl⟩
    | true =>
      by_cases sizes : out.sizes = tensor.sizes
      · obtain ⟨stop, stops⟩ := ih (i + 1) fun rest => wrong ⟨⟨gcu, sizes⟩, rest⟩
        exact ⟨stop, by
          simp [checkOutputs, gcu, sizes, stops]⟩
      · exact ⟨_, by
          simp only [checkOutputs, gcu, sizes, Bool.not_true, Bool.false_eq_true, if_false, ne_eq,
            not_false_eq_true, if_true]
          rfl⟩

theorem broadcastOut_agrees (copies : framework.Copies) (tensor : Tensor hardware)
    (outs : List (Tensor hardware)) :
    Agrees (broadcastOut framework true tensor outs) (broadcastOut framework false tensor outs)
        (List.Forall₂ (IsFilled framework tensor) outs) ↔
      ((∀ out ∈ outs, out.isGcu = true ∧ out.sizes = tensor.sizes) →
        isAvailable (tensor :: outs) = true → Fits framework tensor outs) := by
  by_cases fine : ∀ out ∈ outs, out.isGcu = true ∧ out.sizes = tensor.sizes
  · have checked : ∀ eccl, broadcastOut framework eccl tensor outs =
        broadcastOutImpl framework eccl tensor outs := by
      intro eccl
      simp only [broadcastOut, checkOutputs_ok 0 fine]
      rfl
    have sizes : ∀ out ∈ outs, out.sizes = tensor.sizes := fun out inside => (fine out inside).2
    have runs : broadcastOut framework false tensor outs =
        .ok (outs.map (framework.copy · tensor)) := checked false
    rw [agrees_ok_iff runs, checked, checked, broadcastOutImpl_eq_iff copies sizes]
    have filled : List.Forall₂ (IsFilled framework tensor) outs
        (outs.map (framework.copy · tensor)) := by
      rw [List.forall₂_map_right_iff, List.forall₂_same]
      intro out inside
      have layout := copies.layout out tensor (sizes out inside)
      have same := layout.2.2.1.trans (sizes out inside)
      exact ⟨rfl, same, fun type => ⟨layout.1, same, layout.2.1.trans type,
        copies.data out tensor (sizes out inside) type⟩⟩
    exact ⟨fun agrees _ => agrees.1, fun fits => ⟨fits fine, filled⟩⟩
  · obtain ⟨stop, stops⟩ := checkOutputs_error 0 fine
    have ends : ∀ eccl, broadcastOut framework eccl tensor outs = .error stop := by
      intro eccl
      simp only [broadcastOut, stops]
      rfl
    exact ⟨fun _ fine' => absurd fine' fine, fun _ => agrees_error (ends true) (ends false)⟩

theorem broadcast_agrees (copies : framework.Copies) (memory : Int → Nat → UInt8)
    (tensor : Tensor hardware) (devices : List Int) :
    Agrees (broadcast framework true memory tensor devices)
        (broadcast framework false memory tensor devices)
        (List.Forall₂ (IsCopy tensor) devices) ↔
      ((∀ device ∈ devices, 0 ≤ device) → Good framework memory tensor devices) := by
  by_cases valid : ∀ device ∈ devices, 0 ≤ device
  · rw [agrees_ok_iff (broadcast_plain memory tensor valid),
      broadcast_eq_iff copies memory tensor valid]
    have copied : List.Forall₂ (IsCopy tensor) devices
        (devices.map (landed framework false memory tensor devices)) := by
      rw [List.forall₂_map_right_iff, List.forall₂_same]
      exact fun device _ => landed_plain copies memory tensor devices device
    exact ⟨fun agrees _ => agrees.1, fun good => ⟨good valid, copied⟩⟩
  · obtain ⟨stop, ends⟩ := @broadcast_negative hardware framework devices (by simpa using valid)
    exact ⟨fun _ valid' => absurd valid' valid,
      fun _ => agrees_error (ends true memory tensor) (ends false memory tensor)⟩

/-- The outputs of a coalesced broadcast: on every device a copy of every tensor. -/
def AllCopied (tensors : List (Tensor hardware)) (devices : List Int)
    (outputs : List (List (Tensor hardware))) : Prop :=
  List.Forall₂ (fun device output =>
    List.Forall₂ (fun source t => IsCopy source device t) tensors output) devices outputs

/-- Cutting keeps the sizes of the tensors, which it may not for empty ones. -/
def KeepsSizes (framework : Framework hardware) (tensors : List (Tensor hardware)) : Prop :=
  ∀ t ∈ tensors, t.numel = 0 → (framework.emptySizes t.sizes).val = t.sizes

theorem allCopied_iff {tensors : List (Tensor hardware)} {first : Int} {others : List Int}
    (own : ∀ t ∈ tensors, t.device = first) :
    AllCopied tensors (first :: others) (copiedOutputs framework tensors others) ↔
      (others = [] ∨ KeepsSizes framework tensors) := by
  have one : ∀ device, List.Forall₂ (fun source t => IsCopy source device t) tensors
      (tensors.map (framework.onDevice device)) ↔ KeepsSizes framework tensors := by
    intro device
    rw [List.forall₂_map_right_iff, List.forall₂_same]
    refine forall₂_congr fun t _ => ?_
    constructor
    · intro isCopy empty
      have sizes : framework.keptSizes t = t.sizes := isCopy.sizes
      rwa [Framework.keptSizes, if_pos empty] at sizes
    · intro keeps
      have sizes : framework.keptSizes t = t.sizes := by
        unfold Framework.keptSizes
        split
        · next empty => exact keeps empty
        · rfl
      exact ⟨rfl, sizes, rfl, rfl⟩
  have firsts : List.Forall₂ (fun source t => IsCopy source first t) tensors tensors :=
    List.forall₂_same.mpr fun t inside => ⟨own t inside, rfl, rfl, rfl⟩
  have rest : List.Forall₂ (fun device output =>
      List.Forall₂ (fun source t => IsCopy source device t) tensors output) others
        (others.map fun device => tensors.map (framework.onDevice device)) ↔
      ∀ device ∈ others, KeepsSizes framework tensors := by
    rw [List.forall₂_map_right_iff, List.forall₂_same]
    exact forall₂_congr fun device _ => one device
  rw [AllCopied, copiedOutputs, List.forall₂_cons, rest, and_iff_right firsts]
  cases others with
  | nil => simp
  | cons device others =>
    exact ⟨fun all => Or.inr (all device List.mem_cons_self),
      fun keeps _ _ => keeps.resolve_left (List.cons_ne_nil _ _)⟩

theorem broadcastCoalesced_agrees (copies : framework.Copies) (gathers : framework.Gathers)
    (memory : Nat → Int → Nat → UInt8) (tensors : List (Tensor hardware)) (first : Int)
    (others : List Int) (bufferSize : Nat) :
    Agrees (broadcastCoalesced framework true memory tensors first others bufferSize)
        (broadcastCoalesced framework false memory tensors first others bufferSize)
        (AllCopied tensors (first :: others)) ↔
      ((∀ t ∈ tensors, t.device = first) →
        (tensors = [] ∨ ∀ device ∈ first :: others, 0 ≤ device) →
          (∀ numbered ∈ numberedChunks framework true tensors bufferSize,
            Good framework (memory numbered.2) (framework.flattenDenseTensors numbered.1)
              (first :: others)) ∧
          (others = [] ∨ KeepsSizes framework tensors)) := by
  by_cases own : ∀ t ∈ tensors, t.device = first
  · by_cases valid : tensors = [] ∨ ∀ device ∈ first :: others, 0 ≤ device
    · have plain := broadcastCoalesced_plain copies gathers memory bufferSize own valid
      rw [agrees_ok_iff plain, plain,
        broadcastCoalesced_iff copies gathers true memory bufferSize own valid, allCopied_iff own]
      have good : (∀ numbered ∈ numberedChunks framework true tensors bufferSize,
          broadcast framework true (memory numbered.2)
              (framework.flattenDenseTensors numbered.1) (first :: others) =
            broadcast framework false (memory numbered.2)
              (framework.flattenDenseTensors numbered.1) (first :: others)) ↔
          ∀ numbered ∈ numberedChunks framework true tensors bufferSize,
            Good framework (memory numbered.2) (framework.flattenDenseTensors numbered.1)
              (first :: others) := by
        refine forall₂_congr fun numbered among => ?_
        exact broadcast_eq_iff copies _ _ (numbered_valid gathers true bufferSize valid among)
      rw [good]
      exact ⟨fun agrees _ _ => agrees, fun agrees => agrees own valid⟩
    · obtain ⟨stop, ends⟩ := broadcastCoalesced_negative gathers memory bufferSize own valid
      exact ⟨fun _ _ valid' => absurd valid' valid, fun _ => agrees_error (ends true) (ends false)⟩
  · have ends : ∀ eccl, broadcastCoalesced framework eccl memory tensors first others bufferSize =
        .error (.torchCheck s!"All tensors must be on devices[0]: {first}") := by
      intro eccl
      have notAll : tensors.all (·.device == first) = false := by
        rw [← Bool.not_eq_true, List.all_eq_true]
        exact fun all => own fun t inside => beq_iff_eq.mp (all t inside)
      simp only [broadcastCoalesced, notAll]
      rfl
    exact ⟨fun _ own' => absurd own' own, fun _ => agrees_error (ends true) (ends false)⟩

/-- New tensors are filled where the library has a name for the elements, whose size is theirs. -/
theorem good_of_named {memory : Int → Nat → UInt8} {tensor : Tensor hardware} {devices : List Int}
    {dataType : EcclDataType}
    (narrow : ¬(hardware.enableInt64AndUint64 = true ∧ tensor.dtype = .long))
    (named : getEcclDataType tensor.dtype false = .ok dataType)
    (count : tensor.numel ≤ framework.countMax) : Good framework memory tensor devices := by
  intro _
  have size := size_ecclDataType narrow named
  refine ⟨?_, count, dataType, named, ?_⟩
  · intro out inside
    obtain ⟨device, -, rfl⟩ := List.mem_map.mp inside
    rfl
  · intro out inside
    obtain ⟨device, -, rfl⟩ := List.mem_map.mp inside
    have full : tensor.data.length = tensor.numel * dataType.size := size ▸ tensor.full
    rw [List.drop_of_length_le (Nat.le_of_eq full), List.drop_of_length_le]
    simp [Tensor.emptyLike, full]

/-- The broadcasts with the library are the ones by copies, and leave the sources, exactly where
what the library is given fits, and where cutting keeps the sizes of empty tensors. -/
theorem broadcasts_agree_iff (lawful : framework.Lawful) :
    (∀ tensor outs, Agrees (broadcastOut framework true tensor outs)
        (broadcastOut framework false tensor outs)
        (List.Forall₂ (IsFilled framework tensor) outs) ↔
      ((∀ out ∈ outs, out.isGcu = true ∧ out.sizes = tensor.sizes) →
        isAvailable (tensor :: outs) = true → Fits framework tensor outs)) ∧
    (∀ memory tensor devices, Agrees (broadcast framework true memory tensor devices)
        (broadcast framework false memory tensor devices)
        (List.Forall₂ (IsCopy tensor) devices) ↔
      ((∀ device ∈ devices, 0 ≤ device) → Good framework memory tensor devices)) ∧
    ∀ memory tensors first others bufferSize,
      Agrees (broadcastCoalesced framework true memory tensors first others bufferSize)
          (broadcastCoalesced framework false memory tensors first others bufferSize)
          (AllCopied tensors (first :: others)) ↔
        ((∀ t ∈ tensors, t.device = first) →
          (tensors = [] ∨ ∀ device ∈ first :: others, 0 ≤ device) →
            (∀ numbered ∈ numberedChunks framework true tensors bufferSize,
              Good framework (memory numbered.2) (framework.flattenDenseTensors numbered.1)
                (first :: others)) ∧
            (others = [] ∨ KeepsSizes framework tensors)) :=
  ⟨broadcastOut_agrees lawful.copies, broadcast_agrees lawful.copies,
    broadcastCoalesced_agrees lawful.copies lawful.gathers⟩

def floats : Tensor {} := ⟨0, .float, [1], [1], [0, 0, 128, 63], rfl⟩

def bytes : Tensor {} := ⟨0, .byte, [2], [1], [7, 8], rfl⟩

theorem broadcasts_agree_iff_floats :
    Agrees (broadcastCoalesced referenceFramework true (fun _ _ _ => 0) [floats, bytes] 0 [1] 1)
      (broadcastCoalesced referenceFramework false (fun _ _ _ => 0) [floats, bytes] 0 [1] 1)
      (AllCopied [floats, bytes] [0, 1]) := by
  refine ((broadcasts_agree_iff ⟨referenceFramework_copies, referenceFramework_gathers⟩).2.2
    (fun _ _ _ => 0) [floats, bytes] 0 [1] 1).mpr fun _ _ => ⟨?_, Or.inr ?_⟩
  · intro numbered among
    rcases List.mem_cons.mp among with rfl | among
    · exact good_of_named (by decide) rfl (by decide)
    · rw [List.mem_singleton.mp among]
      exact good_of_named (by decide) rfl (by decide)
  · intro t among
    rcases List.mem_cons.mp among with rfl | among
    · decide
    · rw [List.mem_singleton.mp among]
      decide

def shorts : Tensor {} := ⟨0, .short, [1], [1], [5, 0], rfl⟩

theorem shorts_disagree :
    ¬Agrees (broadcast referenceFramework true (fun _ _ => 0) shorts [0, 1])
      (broadcast referenceFramework false (fun _ _ => 0) shorts [0, 1])
      (List.Forall₂ (IsCopy shorts) [0, 1]) :=
  fun agrees => absurd agrees.same (by decide)

end TorchGcu.Broadcast

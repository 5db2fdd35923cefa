import TorchGcu.Broadcast.CoalescedChunks

/-! What coalesced broadcasts leave on every device, with the collective library and without. -/
namespace TorchGcu.Broadcast
open ProgramLogic

variable {hardware : Hardware} {framework : Framework hardware}

/-! ### The types that were seen -/

def showAll (checker : UniqueTypeChecker) (chunks : List (List (Tensor hardware))) :
    UniqueTypeChecker :=
  chunks.foldl (fun checker chunk => checker.show (typeId chunk)) checker

theorem showAll_failed {checker : UniqueTypeChecker} (failed : checker.unique = false)
    (chunks : List (List (Tensor hardware))) : (showAll checker chunks).unique = false := by
  induction chunks generalizing checker with
  | nil => exact failed
  | cons chunk chunks ih => exact ih (by simp [UniqueTypeChecker.show, failed])

theorem showAll_same {dtype : ScalarType} {chunks : List (List (Tensor hardware))}
    (unique : (showAll ⟨some dtype, true⟩ chunks).unique = true) :
    ∀ chunk ∈ chunks, typeId chunk = dtype := by
  induction chunks with
  | nil => simp
  | cons chunk chunks ih =>
    by_cases same : dtype = typeId chunk
    · have shown : UniqueTypeChecker.show ⟨some dtype, true⟩ (typeId chunk) = ⟨some dtype, true⟩ := by
        simp [UniqueTypeChecker.show, ← same]
      rw [showAll, List.foldl_cons, shown] at unique
      exact List.forall_mem_cons.mpr ⟨same.symm, ih unique⟩
    · have shown : (UniqueTypeChecker.show ⟨some dtype, true⟩ (typeId chunk)).unique = false := by
        simp [UniqueTypeChecker.show, same]
      have failed := showAll_failed shown chunks
      rw [showAll, List.foldl_cons] at unique
      rw [showAll, unique] at failed
      cases failed

/-- Where one type was seen only, all chunks have it. -/
theorem showAll_unique {chunks : List (List (Tensor hardware))}
    (unique : (showAll {} chunks).unique = true) :
    ∃ dtype, ∀ chunk ∈ chunks, typeId chunk = dtype := by
  cases chunks with
  | nil => exact ⟨.undefined, by simp⟩
  | cons chunk chunks =>
    have shown : UniqueTypeChecker.show {} (typeId chunk) = ⟨some (typeId chunk), true⟩ := by
      simp [UniqueTypeChecker.show]
    rw [showAll, List.foldl_cons, shown] at unique
    exact ⟨typeId chunk, List.forall_mem_cons.mpr ⟨rfl, showAll_same unique⟩⟩

/-! ### The order of the outputs -/

/-- The outputs of a device at the end. -/
def finish (framework : Framework hardware) (tensors : List (Tensor hardware)) (unique : Bool)
    (output : List (Tensor hardware)) : List (Tensor hardware) :=
  if unique then output else framework.reorderTensorsLike output tensors

variable (gathers : framework.Gathers)
include gathers

theorem mem_chunks {tensors : List (Tensor hardware)} {limit : Nat} {t : Tensor hardware} :
    t ∈ (framework.takeTensors tensors limit).flatten ↔ t ∈ tensors := by
  have order := gathers.inOrder tensors limit t.dtype
  have left : t ∈ (framework.takeTensors tensors limit).flatten ↔
      t ∈ (framework.takeTensors tensors limit).flatten.filter (·.dtype = t.dtype) := by
    simp
  have right : t ∈ tensors.filter (·.dtype = t.dtype) ↔ t ∈ tensors := by simp
  rw [left, order, right]

/-- With one type the chunks have all tensors in their order. -/
theorem chunks_of_unique {tensors : List (Tensor hardware)} {limit : Nat}
    (unique : (showAll {} (framework.takeTensors tensors limit)).unique = true) :
    (framework.takeTensors tensors limit).flatten = tensors := by
  obtain ⟨dtype, all⟩ := showAll_unique unique
  have types : ∀ t ∈ (framework.takeTensors tensors limit).flatten, t.dtype = dtype := by
    intro t inside
    obtain ⟨chunk, among, inside⟩ := List.mem_flatten.mp inside
    rw [gathers.oneType tensors limit chunk among t inside, all chunk among]
  have order := gathers.inOrder tensors limit dtype
  rwa [List.filter_eq_self.mpr fun t inside => decide_eq_true (types t inside),
    List.filter_eq_self.mpr fun t inside =>
      decide_eq_true (types t ((mem_chunks gathers).mpr inside))] at order

theorem finish_eq_iff {tensors output : List (Tensor hardware)} {limit : Nat} {device : Int}
    (types : output.map (·.dtype) =
      (framework.takeTensors tensors limit).flatten.map (·.dtype)) :
    finish framework tensors (showAll {} (framework.takeTensors tensors limit)).unique output =
        tensors.map (framework.onDevice device) ↔
      output = (framework.takeTensors tensors limit).flatten.map (framework.onDevice device) := by
  have moved : ∀ (l : List (Tensor hardware)) (dtype : ScalarType),
      (l.map (framework.onDevice device)).filter (·.dtype = dtype) =
        (l.filter (·.dtype = dtype)).map (framework.onDevice device) := by
    intro l dtype
    rw [List.filter_map]
    rfl
  have sources : ∀ l : List (Tensor hardware),
      (l.map (framework.onDevice device)).map (·.dtype) = l.map (·.dtype) := by
    intro l
    simp [Framework.onDevice]
  have goal : ∀ dtype, (tensors.map (framework.onDevice device)).filter (·.dtype = dtype) =
      ((framework.takeTensors tensors limit).flatten.map (framework.onDevice device)).filter
        (·.dtype = dtype) := by
    intro dtype
    rw [moved, moved, gathers.inOrder]
  cases unique : (showAll {} (framework.takeTensors tensors limit)).unique with
  | true => rw [chunks_of_unique gathers unique]; rfl
  | false =>
    have counts : ∀ dtype, (output.filter (·.dtype = dtype)).length =
        (tensors.filter (·.dtype = dtype)).length := by
      intro dtype
      rw [length_filter_of_keys types, gathers.inOrder]
    obtain ⟨order, each⟩ := gathers.reorder output tensors counts
    simp only [finish, Bool.false_eq_true, if_false]
    constructor
    · intro equal
      refine eq_of_keys (types.trans (sources _).symm) fun dtype => ?_
      rw [← each, equal, goal]
    · intro equal
      refine eq_of_keys (order.trans (sources _).symm) fun dtype => ?_
      rw [each, equal, goal]

/-- The outputs of the first device are the tensors. -/
theorem finish_self (tensors : List (Tensor hardware)) (unique : Bool) :
    finish framework tensors unique tensors = tensors := by
  cases unique with
  | true => rfl
  | false =>
    obtain ⟨order, each⟩ := gathers.reorder tensors tensors fun _ => rfl
    exact eq_of_keys order each

/-! ### The chunks of tensors on one device -/

theorem chunk_flat {tensors : List (Tensor hardware)} {first : Int}
    (own : ∀ t ∈ tensors, t.device = first) {limit i : Nat}
    {numbered : List (Tensor hardware) × Nat}
    (among : numbered ∈ (framework.takeTensors tensors limit).zipIdx i) :
    (∀ t ∈ numbered.1, t.dtype = typeId numbered.1) ∧
      Flat numbered.1 first (typeId numbered.1) (framework.flattenDenseTensors numbered.1) ∧
      (framework.flattenDenseTensors numbered.1).data = numbered.1.flatMap (·.data) := by
  have chunk : numbered.1 ∈ framework.takeTensors tensors limit := List.fst_mem_of_mem_zipIdx among
  have types := gathers.oneType tensors limit numbered.1 chunk
  have known : ∀ t ∈ numbered.1, t.device = first ∧ t.dtype = typeId numbered.1 := by
    intro t inside
    have among : t ∈ tensors := (mem_chunks gathers).mp (List.mem_flatten_of_mem chunk inside)
    exact ⟨own t among, types t inside⟩
  exact ⟨types, gathers.flatten numbered.1 first (typeId numbered.1)
    (gathers.nonempty tensors limit _ chunk) known⟩

/-- The pieces of a chunk on a device have the types of the chunk, and are its tensors on the
device when the values arrived. -/
theorem chunkPieces_spec (copies : framework.Copies) {tensors : List (Tensor hardware)}
    {first : Int} (own : ∀ t ∈ tensors, t.device = first) {limit i : Nat} (eccl : Bool)
    (memory : Nat → Int → Nat → UInt8) (devices : List Int) (device : Int)
    {numbered : List (Tensor hardware) × Nat}
    (among : numbered ∈ (framework.takeTensors tensors limit).zipIdx i) :
    (chunkPieces framework eccl memory devices device numbered).map (·.dtype) =
        numbered.1.map (·.dtype) ∧
      (chunkPieces framework eccl memory devices device numbered =
          numbered.1.map (framework.onDevice device) ↔
        landed framework eccl (memory numbered.2) (framework.flattenDenseTensors numbered.1)
            devices device =
          landed framework false (memory numbered.2)
            (framework.flattenDenseTensors numbered.1) devices device) := by
  obtain ⟨types, flat, bytes⟩ := chunk_flat gathers own among
  have layout := landed_layout copies eccl (memory numbered.2)
    (framework.flattenDenseTensors numbered.1) devices device
  obtain ⟨cut, whole⟩ := gathers.unflatten numbered.1 device (typeId numbered.1)
    (landed framework eccl (memory numbered.2) (framework.flattenDenseTensors numbered.1) devices
      device) types
    ⟨layout.1, layout.2.1.trans flat.dtype, layout.2.2.1.trans flat.sizes⟩
  have type : ∀ t ∈ numbered.1, t.dtype = (landed framework eccl (memory numbered.2)
      (framework.flattenDenseTensors numbered.1) devices device).dtype :=
    fun t inside => (types t inside).trans (layout.2.1.trans flat.dtype).symm
  constructor
  · exact map_dtype_of_pieces type cut
  · have pieces := pieces_eq_iff type cut
    rw [layout.1] at pieces
    rw [landed_eq_iff copies, bytes, ← whole]
    exact pieces

end TorchGcu.Broadcast

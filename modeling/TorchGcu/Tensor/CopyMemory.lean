import TorchGcu.Tensor.CopyRecursion

/-! The steps of a copy: flags and how they combine, what writing one tensor keeps of the others,
new tensors, expanded tensors, and single copies of physical or of logical elements. -/
namespace TorchGcu.Copy
open ProgramLogic

variable {V : Type} {b : Backend V} {dst src t r : Tensor} {nonBlocking : Bool}
  {heap before middle after : Heap V}

/-! ### Flags -/

/-- What the element operations and conversions promise. -/
structure Backend.Values (b : Backend V) : Prop where
  conj_conj : ∀ v, b.conj (b.conj v) = v
  neg_neg : ∀ v, b.neg (b.neg v) = v
  conj_neg : ∀ v, b.conj (b.neg v) = b.neg (b.conj v)
  convert_conj : ∀ dtype v, b.convert dtype (b.conj v) = b.conj (b.convert dtype v)
  convert_neg : ∀ dtype v, b.convert dtype (b.neg v) = b.neg (b.convert dtype v)
  convert_convert : ∀ dtype v, b.convert dtype (b.convert dtype v) = b.convert dtype v

/-- The flags set on one side only. -/
def Flags.xor (f g : Flags) : Flags where
  conj := f.conj ^^ g.conj
  neg := f.neg ^^ g.neg

@[simp] theorem Flags.xor_none (f : Flags) : f.xor {} = f := by simp [Flags.xor]

@[simp] theorem Flags.none_xor (f : Flags) : Flags.xor {} f = f := by simp [Flags.xor]

@[simp] theorem Flags.xor_self (f : Flags) : f.xor f = {} := by simp [Flags.xor]

theorem Flags.xor_comm (f g : Flags) : f.xor g = g.xor f := by
  simp [Flags.xor, Bool.xor_comm]

theorem Flags.xor_assoc (f g h : Flags) : (f.xor g).xor h = f.xor (g.xor h) := by
  simp [Flags.xor]

@[simp] theorem Flags.xor_cancel (f g : Flags) : f.xor (f.xor g) = g := by
  rw [← Flags.xor_assoc, Flags.xor_self, Flags.none_xor]

@[simp] theorem read_none (b : Backend V) (v : V) : b.read {} v = v := rfl

@[simp] theorem map_read_none (b : Backend V) (values : List V) : values.map (b.read {}) = values :=
  List.map_id values

namespace Backend.Values

theorem read_read (values : b.Values) (f g : Flags) (v : V) :
    b.read f (b.read g v) = b.read (f.xor g) v := by
  obtain ⟨fConj, fNeg⟩ := f
  obtain ⟨gConj, gNeg⟩ := g
  cases fConj <;> cases fNeg <;> cases gConj <;> cases gNeg <;>
    simp [Backend.read, Flags.xor, values.conj_conj, values.neg_neg, values.conj_neg]

theorem convert_read (values : b.Values) (dtype : ScalarType) (f : Flags) (v : V) :
    b.convert dtype (b.read f v) = b.read f (b.convert dtype v) := by
  obtain ⟨conj, neg⟩ := f
  cases conj <;> cases neg <;> simp [Backend.read, values.convert_conj, values.convert_neg]

theorem stored_read (values : b.Values) (device : Device) (dtype : ScalarType) (f : Flags) (v : V) :
    b.stored device dtype (b.read f v) = b.read f (b.stored device dtype v) :=
  values.convert_read _ f v

theorem stored_stored (values : b.Values) (device : Device) (dtype : ScalarType) (v : V) :
    b.stored device dtype (b.stored device dtype v) = b.stored device dtype v :=
  values.convert_convert _ v

end Backend.Values

/-! ### Writes and what they keep -/

/-- Nothing that was there has changed. -/
structure Kept (before after : Heap V) : Prop where
  memory : ∀ a, a.1 < before.next → after.memory a = before.memory a
  isDevice : ∀ storage, storage < before.next → after.isDevice storage = before.isDevice storage
  next : before.next ≤ after.next

/-- A tensor holds these physical elements, and nothing else that was there has changed. -/
structure Wrote (t : Tensor) (values : List V) (before after : Heap V) : Prop where
  physical : after.physical t = values
  frame : ∀ a, a.1 < before.next → a ∉ t.addresses → after.memory a = before.memory a
  isDevice : ∀ storage, storage < before.next → after.isDevice storage = before.isDevice storage
  next : before.next ≤ after.next

theorem mem_addresses {a : Address} (member : a ∈ t.addresses) : a.1 = t.storage := by
  obtain ⟨position, -, same⟩ := List.mem_map.mp member
  rw [← same]

namespace Kept

theorem refl (heap : Heap V) : Kept heap heap := ⟨fun _ _ => rfl, fun _ _ => rfl, Nat.le_refl _⟩

theorem trans (first : Kept before middle) (second : Kept middle after) : Kept before after where
  memory a old := (second.memory a (Nat.lt_of_lt_of_le old first.next)).trans (first.memory a old)
  isDevice storage old :=
    (second.isDevice storage (Nat.lt_of_lt_of_le old first.next)).trans (first.isDevice storage old)
  next := Nat.le_trans first.next second.next

theorem physical (kept : Kept before after) (old : t.storage < before.next) :
    after.physical t = before.physical t :=
  List.map_congr_left fun a member => kept.memory a (by rw [mem_addresses member]; exact old)

theorem wrote {values : List V} (kept : Kept before middle) (wrote : Wrote t values middle after) :
    Wrote t values before after where
  physical := wrote.physical
  frame a old outside :=
    (wrote.frame a (Nat.lt_of_lt_of_le old kept.next) outside).trans (kept.memory a old)
  isDevice storage old :=
    (wrote.isDevice storage (Nat.lt_of_lt_of_le old kept.next)).trans (kept.isDevice storage old)
  next := Nat.le_trans kept.next wrote.next

end Kept

namespace Wrote
variable {values : List V}

/-- Writes to a new storage keep what was there before. -/
theorem kept (wrote : Wrote t values middle after) (first : Kept before middle)
    (new : before.next ≤ t.storage) : Kept before after where
  memory a old := by
    have outside : a ∉ t.addresses := fun inside => by
      have same := mem_addresses inside
      omega
    exact (wrote.frame a (Nat.lt_of_lt_of_le old first.next) outside).trans (first.memory a old)
  isDevice storage old :=
    (wrote.isDevice storage (Nat.lt_of_lt_of_le old first.next)).trans (first.isDevice storage old)
  next := Nat.le_trans first.next wrote.next

/-- A second write of the same tensor. -/
theorem again {values' : List V} (first : Wrote t values before middle)
    (second : Wrote t values' middle after) : Wrote t values' before after where
  physical := second.physical
  frame a old outside :=
    (second.frame a (Nat.lt_of_lt_of_le old first.next) outside).trans (first.frame a old outside)
  isDevice storage old :=
    (second.isDevice storage (Nat.lt_of_lt_of_le old first.next)).trans (first.isDevice storage old)
  next := Nat.le_trans first.next second.next

end Wrote

theorem length_addresses (t : Tensor) : t.addresses.length = t.numel := by
  rw [Tensor.addresses, List.length_map, Tensor.positions]
  exact length_positions t.sizes t.strides

theorem length_physical (heap : Heap V) (t : Tensor) : (heap.physical t).length = t.numel := by
  rw [Heap.physical, List.length_map, length_addresses]

theorem write_wrote {values : List V} (apart : t.addresses.Nodup)
    (each : values.length = t.numel) :
    wp (write t values) (fun _ after => Wrote t values heap after) (fun _ _ => False) heap where
  physical := Cells.map_store apart (each.trans (length_addresses t).symm)
  frame _ _ outside := Cells.store_zip_other outside
  isDevice _ _ := rfl
  next := Nat.le_refl _

/-! ### Expanded tensors -/

/-- Expanding repeats elements in a way that does not depend on the strides. -/
theorem aligned_alike {sizes targets : List Nat}
    (expandable : List.Forall₂ (fun size target => size = target ∨ size = 1) sizes targets)
    {strides strides' : List Nat} {f g : Nat → V}
    (alike : (Resize.positions sizes strides).map f = (Resize.positions sizes strides').map g) :
    (Resize.positions targets (alignedStrides sizes strides targets)).map f =
      (Resize.positions targets (alignedStrides sizes strides' targets)).map g := by
  induction expandable generalizing strides strides' f g with
  | nil => exact alike
  | @cons size target sizes targets here rest ih =>
    simp only [Resize.positions, List.map_flatMap, List.map_map] at alike
    have each := flatMap_range_injective (fun i => by simp [length_positions]) alike
    simp only [Resize.positions, alignedStrides, List.headD_cons, List.tail_cons, List.map_flatMap,
      List.map_map]
    refine List.flatMap_congr fun i inside => ?_
    by_cases same : size = target
    · simp only [if_pos same]
      exact ih (each i (by rw [same]; exact List.mem_range.mp inside))
    · have one : size = 1 := here.resolve_left same
      have block := each 0 (by omega)
      simp only [if_neg same]
      exact ih (by simpa only [Nat.zero_mul, Nat.mul_zero] using block)

theorem expandAs_alike {sizes : List Nat} (expandable : Expandable t.sizes sizes)
    (shape : r.sizes = t.sizes) {f g : Nat → V}
    (alike : r.positions.map f = t.positions.map g) :
    (r.expandAs sizes).positions.map f = (t.expandAs sizes).positions.map g := by
  have added : ∀ (count : Nat) (targets strides strides' : List Nat),
      (Resize.positions (targets.drop count) strides).map f =
        (Resize.positions (targets.drop count) strides').map g →
      count ≤ targets.length →
      (Resize.positions targets (List.replicate count 0 ++ strides)).map f =
        (Resize.positions targets (List.replicate count 0 ++ strides')).map g := by
    intro count
    induction count with
    | zero => exact fun targets strides strides' same _ => by simpa using same
    | succ count ih =>
      intro targets strides strides' same short
      cases targets with
      | nil => simp at short
      | cons target targets =>
        simp only [List.replicate_succ, List.cons_append, Resize.positions, List.headD_cons,
          List.tail_cons, Nat.mul_zero, Nat.zero_add, List.map_id', List.map_flatMap]
        have rest := ih targets strides strides' same (Nat.le_of_succ_le_succ short)
        exact List.flatMap_congr fun _ _ => rest
  simp only [Tensor.positions, Tensor.expandAs, shape] at alike ⊢
  exact added _ _ _ _ (aligned_alike expandable.2 alike) (Nat.sub_le _ _)

theorem physical_eq (heap : Heap V) (t : Tensor) :
    heap.physical t =
      t.positions.map fun position => heap.memory (t.storage, t.storageOffset + position) := by
  simp only [Heap.physical, Tensor.addresses, List.map_map]
  rfl

/-- The elements of a tensor of the same sizes that holds converted elements, when expanded. -/
theorem physical_expandAs {sizes : List Nat} {g : V → V} (expandable : Expandable t.sizes sizes)
    (shape : r.sizes = t.sizes) (holds : after.physical r = (before.physical t).map g) :
    after.physical (r.expandAs sizes) = (before.physical (t.expandAs sizes)).map g := by
  simp only [physical_eq, List.map_map] at holds ⊢
  exact expandAs_alike expandable shape holds

theorem mem_addresses_iff {a : Address} :
    a ∈ t.addresses ↔ ∃ position ∈ t.positions, (t.storage, t.storageOffset + position) = a :=
  List.mem_map

theorem addresses_nodup : t.addresses.Nodup ↔ t.positions.Nodup := by
  refine List.nodup_map_iff fun i j same => ?_
  have offsets := congrArg Prod.snd same
  simp only at offsets
  omega

/-- Copying memory that holds both tensors in the same order copies physical elements. -/
theorem memcpy_wrote (same : (src.expandAs dst.sizes).positions = dst.positions)
    (perm : dst.positions.Perm (List.range dst.numel)) :
    wp (memcpy dst src dst.numel)
      (fun _ after => Wrote dst (heap.physical (src.expandAs dst.sizes)) heap after)
      (fun _ _ => False) heap := by
  simp only [memcpy, wp_bind, wp_get, wp_set]
  have cells : ((List.range dst.numel).map fun k =>
      ((dst.storage, dst.storageOffset + k), heap.memory (src.storage, src.storageOffset + k))) =
      ((List.range dst.numel).map fun k => (dst.storage, dst.storageOffset + k)).zip
        ((List.range dst.numel).map fun k => heap.memory (src.storage, src.storageOffset + k)) :=
    List.zip_map'.symm
  have apart : ((List.range dst.numel).map fun k =>
      ((dst.storage, dst.storageOffset + k) : Address)).Nodup := by
    refine (List.nodup_map_iff fun i j alike => ?_).mpr List.nodup_range
    have offsets := congrArg Prod.snd alike
    simp only at offsets
    omega
  rw [cells]
  refine ⟨?_, fun a _ outside => ?_, fun _ _ => rfl, Nat.le_refl _⟩
  · have stored := @Cells.map_store _ _ _ heap.memory _ ((List.range dst.numel).map
      fun k => heap.memory (src.storage, src.storageOffset + k)) apart (by simp)
    rw [physical_eq, physical_eq, same]
    rw [List.map_map] at stored
    exact List.map_congr_left fun position member =>
      List.map_inj_left.mp stored position (perm.mem_iff.mp member)
  · refine Cells.store_zip_other fun inside => outside ?_
    obtain ⟨k, within, here⟩ := List.mem_map.mp inside
    exact mem_addresses_iff.mpr ⟨k, perm.mem_iff.mpr within, here⟩

/-! ### New tensors -/

/-- A tensor in a storage of its own. -/
structure New (t : Tensor) (before : Heap V) (r : Tensor) (after : Heap V) : Prop where
  kept : Kept before after
  renewed : r = { t with storage := before.next, storageOffset := 0, flags := {} }
  storage : r.storage < after.next
  isDevice : after.isDevice r.storage = t.device.isPrivateUse1

theorem allocate_new (t : Tensor) (heap : Heap V) :
    wp (allocate t) (fun r after => New t heap r after) (fun _ _ => False) heap := by
  simp only [allocate, wp_bind, wp_get, wp_set, wp_pure]
  refine ⟨⟨fun _ _ => rfl, fun storage old => ?_, Nat.le_succ _⟩, rfl, Nat.lt_succ_self _, ?_⟩
  · exact Function.update_of_ne (Nat.ne_of_lt old) _ _
  · exact Function.update_self _ _ _

/-- A new tensor may be written. -/
theorem New.write {values : List V} (new : New t before r middle)
    (wrote : Wrote r values middle after) : New t before r after where
  kept := wrote.kept new.kept (by rw [new.renewed])
  renewed := new.renewed
  storage := Nat.lt_of_lt_of_le new.storage wrote.next
  isDevice := (wrote.isDevice _ new.storage).trans new.isDevice

/-- A new tensor with given elements. -/
theorem renew_new (t : Tensor) (values : List V) (apart : t.positions.Nodup)
    (each : values.length = t.numel) (heap : Heap V) :
    wp (do
        let fresh ← allocate t
        write fresh values
        return fresh)
      (fun r after => New t heap r after ∧ after.physical r = values) (fun _ _ => False) heap := by
  rw [wp_bind]
  refine wp_mono (allocate_new t heap) (fun r middle new => ?_) fun _ _ never => never
  rw [wp_bind]
  have separate : r.addresses.Nodup := by
    rw [addresses_nodup, new.renewed]
    exact apart
  have length : values.length = r.numel := by
    rw [new.renewed]
    exact each
  refine wp_mono (write_wrote separate length) (fun _ after wrote => ?_) fun _ _ never => never
  exact ⟨new.write wrote, wrote.physical⟩

theorem toDtype_new (framework : b.Framework) {dtype : ScalarType} (differ : t.dtype ≠ dtype)
    (heap : Heap V) :
    wp (toDtype b t dtype)
      (fun r after => New { t with dtype := dtype, strides := b.preservedStrides t } heap r after ∧
        after.physical r = (heap.physical t).map fun v => b.stored t.device dtype (b.read t.flags v))
      (fun _ _ => False) heap := by
  rw [toDtype, if_neg differ, wp_bind, wp_get]
  have values : (b.logical heap t).map (b.stored t.device dtype) =
      (heap.physical t).map fun v => b.stored t.device dtype (b.read t.flags v) := by
    rw [Backend.logical, List.map_map]
    rfl
  simp only [values]
  exact renew_new { t with dtype := dtype, strides := b.preservedStrides t } _ (framework.apart t)
    (by rw [List.length_map, length_physical]; rfl) heap

theorem contiguous_new (gaps : t.isContiguous ≠ true) (heap : Heap V) :
    wp (contiguous b t)
      (fun r after => New { t with strides := Resize.contiguousStrides t.sizes } heap r after ∧
        after.physical r = b.logical heap t)
      (fun _ _ => False) heap := by
  rw [contiguous, if_neg gaps, wp_bind, wp_get]
  refine renew_new { t with strides := Resize.contiguousStrides t.sizes } _ ?_
    (by rw [Backend.logical, List.length_map, length_physical]; rfl) heap
  have ordered : Resize.positions t.sizes (Resize.contiguousStrides t.sizes) = List.range t.numel :=
    positions_contiguous t.sizes
  simp only [Tensor.positions, ordered]
  exact List.nodup_range

/-! ### Single copies -/

theorem physical_expandAs_self (heap : Heap V) (t : Tensor) :
    heap.physical (t.expandAs t.sizes) = heap.physical t := by
  rw [physical_eq, physical_eq, expandAs_self]
  rfl

theorem length_expandAs (heap : Heap V) (t dst : Tensor) :
    (heap.physical (t.expandAs dst.sizes)).length = dst.numel :=
  length_physical heap _

theorem cpuCopy_wrote (apart : dst.addresses.Nodup) (heap : Heap V) :
    wp (cpuCopy b dst src)
      (fun _ after => Wrote dst ((heap.physical (src.expandAs dst.sizes)).map fun v =>
        b.read dst.flags (b.convert dst.dtype (b.read src.flags v))) heap after)
      (fun _ _ => False) heap := by
  rw [cpuCopy, wp_bind, wp_get]
  have values : (b.logical heap (src.expandAs dst.sizes)).map
      (fun v => b.read dst.flags (b.convert dst.dtype v)) =
      (heap.physical (src.expandAs dst.sizes)).map fun v =>
        b.read dst.flags (b.convert dst.dtype (b.read src.flags v)) := by
    rw [Backend.logical, List.map_map]
    rfl
  simp only [values]
  exact write_wrote apart (by rw [List.length_map, length_expandAs])

theorem topsatenCopy_wrote (apart : dst.addresses.Nodup) (heap : Heap V) :
    wp (topsatenCopy b dst src)
      (fun _ after => Wrote dst
        ((heap.physical (src.expandAs dst.sizes)).map (b.stored dst.device dst.dtype)) heap after)
      (fun _ _ => False) heap := by
  rw [topsatenCopy, wp_bind, wp_get]
  exact write_wrote apart (by rw [List.length_map, length_expandAs])

theorem getGcuScalarType_ne {hardware : Hardware} {dtype : ScalarType}
    (narrow : isNarrowType hardware dtype = true) : dtype ≠ getGcuScalarType hardware dtype := by
  intro same
  have half := elementSize_narrow narrow
  rw [deviceElementSize, ← same] at half
  cases dtype <;> simp [isNarrowType] at narrow <;> simp [elementSize] at half

/-- The host side of a narrowed copy holds the narrowed logical elements. -/
theorem convertHostTensor_new (framework : b.Framework) {host : Tensor} (cpu : host.device = .cpu)
    (narrow : isNarrowType b.hardware host.dtype = true) (old : host.storage < heap.next)
    (kernel : Tensor → Tensor → Bool → M V Unit) :
    wp (convertHostTensor b (copyInto b kernel) host nonBlocking)
      (fun r after =>
        New { host with
          dtype := getGcuScalarType b.hardware host.dtype
          strides := b.preservedStrides host } heap r after ∧
        after.physical r = (heap.physical host).map fun v =>
          b.convert (getGcuScalarType b.hardware host.dtype) (b.read host.flags v))
      (fun _ _ => False) heap := by
  rw [convertHostTensor, wp_ite]
  refine ⟨fun _ => ?_, fun _ => ?_⟩
  · rw [wp_bind]
    refine wp_mono (allocate_new _ heap) (fun r middle new => ?_) fun _ _ never => never
    have device : r.device = .cpu := by
      rw [new.renewed]
      exact cpu
    have sizes : r.sizes = host.sizes := by rw [new.renewed]
    have separate : r.addresses.Nodup := by
      rw [addresses_nodup, new.renewed]
      exact framework.apart host
    rw [copyInto, if_pos ⟨device, cpu⟩, wp_bind]
    refine wp_mono (cpuCopy_wrote separate middle) (fun _ after wrote => ?_) fun _ _ never => never
    refine ⟨new.write wrote, ?_⟩
    rw [wrote.physical, sizes, physical_expandAs_self, new.kept.physical old, new.renewed]
    rfl
  · have stored : ∀ v, b.stored host.device (getGcuScalarType b.hardware host.dtype) v =
        b.convert (getGcuScalarType b.hardware host.dtype) v := by
      intro v
      rw [Backend.stored, Backend.storedType, cpu]
      rfl
    have made := toDtype_new framework (getGcuScalarType_ne narrow) heap
    simp only [stored] at made
    exact made

theorem conjPhysicalInPlace_wrote {values : List V} (apart : dst.addresses.Nodup)
    (wrote : Wrote dst values before heap) :
    wp (conjPhysicalInPlace b dst) (fun _ after => Wrote dst (values.map b.conj) before after)
      (fun _ _ => False) heap := by
  rw [conjPhysicalInPlace, wp_bind, wp_get, wrote.physical]
  have length : (values.map b.conj).length = dst.numel := by
    rw [List.length_map, ← wrote.physical, length_physical]
  exact wp_mono (write_wrote apart length) (fun _ _ second => wrote.again second)
    fun _ _ never => never

theorem negInPlace_wrote {values : List V} (apart : dst.addresses.Nodup)
    (wrote : Wrote dst values before heap) :
    wp (negInPlace b dst) (fun _ after => Wrote dst (values.map b.neg) before after)
      (fun _ _ => False) heap := by
  rw [negInPlace, wp_bind, wp_get, wrote.physical]
  have length : (values.map b.neg).length = dst.numel := by
    rw [List.length_map, ← wrote.physical, length_physical]
  exact wp_mono (write_wrote apart length) (fun _ _ second => wrote.again second)
    fun _ _ never => never

/-- The repair applies the flags that only one tensor has. -/
theorem repairFlags_wrote {values : List V} (apart : dst.addresses.Nodup)
    (wrote : Wrote dst values before heap) :
    wp (repairFlags b dst src)
      (fun _ after => Wrote dst (values.map (b.read (dst.flags.xor src.flags))) before after)
      (fun _ _ => False) heap := by
  have neg : ∀ {values : List V} {heap : Heap V}, Wrote dst values before heap →
      wp (if dst.flags.neg ≠ src.flags.neg then negInPlace b dst else pure ())
        (fun _ after => Wrote dst
          (values.map (b.read { neg := dst.flags.neg ^^ src.flags.neg })) before after)
        (fun _ _ => False) heap := by
    intro values heap wrote
    by_cases same : dst.flags.neg = src.flags.neg
    · rw [if_neg (not_not.mpr same), wp_pure, same, Bool.xor_self, map_read_none]
      exact wrote
    · have differ : (dst.flags.neg ^^ src.flags.neg) = true := by simpa using same
      rw [if_pos same, differ]
      exact negInPlace_wrote apart wrote
  by_cases same : dst.flags.conj = src.flags.conj
  · simp only [repairFlags, ne_eq, same, not_true_eq_false, if_false, Flags.xor]
    have last := neg wrote
    simp only [ne_eq] at last
    rw [Bool.xor_self]
    exact last
  · have differ : (dst.flags.conj ^^ src.flags.conj) = true := by simpa using same
    simp only [repairFlags, ne_eq, same, not_false_eq_true, if_true, wp_bind, Flags.xor, differ]
    refine wp_mono (conjPhysicalInPlace_wrote apart wrote) (fun _ middle conjugated => ?_)
      fun _ _ never => never
    have last := neg conjugated
    simp only [ne_eq, List.map_map] at last
    exact last

end TorchGcu.Copy

import TorchGcu.Tensor.CopyMemory

/-! What a copy leaves in the tensor it writes: the converted elements, but for flags that are
applied twice or not at all. -/
namespace TorchGcu.Copy
open ProgramLogic

variable {V : Type} {b : Backend V} {dst src t r : Tensor} {nonBlocking : Bool}
  {heap before middle after : Heap V}

/-! ### Copies without temporaries -/

/-- The physical elements that a copy leaves: those of the source converted, up to some flags. -/
def Backend.effect (b : Backend V) (dst src : Tensor) (surplus : Flags) (v : V) : V :=
  b.read (dst.flags.xor surplus) (b.stored dst.device dst.dtype (b.read src.flags v))

/-- A tensor in memory has elements of the type they are stored in. -/
def Backend.Typed (b : Backend V) (heap : Heap V) (t : Tensor) : Prop :=
  ∀ v ∈ heap.physical t, b.stored t.device t.dtype v = v

/-- The flags that a copy between host and device leaves too much: those of the host side, which
is converted by its logical values, when the type is narrowed. -/
def Backend.stagedFlags (b : Backend V) (dtype : ScalarType) (dst src : Tensor) : Flags :=
  if isNarrowType b.hardware dtype then
    if src.device = .cpu then src.flags else dst.flags
  else {}

theorem stored_wide {device : Device} {dtype : ScalarType}
    (wide : isNarrowType b.hardware dtype = false) (v : V) :
    b.stored device dtype v = b.convert dtype v := by
  cases device <;> simp [Backend.stored, Backend.storedType, getGcuScalarType, wide]

/-- The requirements of a copy of memory. -/
structure Linear (dst src : Tensor) : Prop where
  some : dst.numel ≠ 0 ∧ src.numel ≠ 0
  same : (src.expandAs dst.sizes).positions = dst.positions
  perm : dst.positions.Perm (List.range dst.numel)
  dense : src.positions.Perm (List.range src.numel)

theorem Linear.apart (linear : Linear dst src) : dst.addresses.Nodup :=
  addresses_nodup.mpr (linear.perm.nodup_iff.mpr List.nodup_range)

theorem copyHostAndDevice_wide (values : b.Values) (linear : Linear dst src)
    (wide : isNarrowType b.hardware dst.dtype = false) (dtype : dst.dtype = src.dtype)
    (typed : b.Typed heap (src.expandAs dst.sizes))
    (copy : Tensor → Tensor → Bool → M V Unit) :
    wp (copyHostAndDevice b copy dst src nonBlocking)
      (fun _ after => Wrote dst
        ((heap.physical (src.expandAs dst.sizes)).map (b.effect dst src {})) heap after)
      (fun _ _ => False) heap := by
  simp only [copyHostAndDevice, wide, Bool.false_eq_true, if_false, wp_bind]
  refine wp_mono (memcpy_wrote linear.same linear.perm) (fun _ middle copied => ?_)
    fun _ _ never => never
  refine wp_mono (repairFlags_wrote linear.apart copied) (fun _ after wrote => ?_)
    fun _ _ never => never
  have same : (heap.physical (src.expandAs dst.sizes)).map (b.effect dst src {}) =
      (heap.physical (src.expandAs dst.sizes)).map (b.read (dst.flags.xor src.flags)) := by
    refine List.map_congr_left fun v member => ?_
    have stays : b.convert dst.dtype v = v := by
      have held := typed v member
      rw [stored_wide (dtype ▸ wide)] at held
      rw [dtype]
      exact held
    rw [Backend.effect, Flags.xor_none, stored_wide wide, values.convert_read, stays,
      values.read_read]
  rw [same]
  exact wrote

theorem Linear.strides (framework : b.Framework) (linear : Linear dst src) :
    b.preservedStrides src = src.strides ∧ b.preservedStrides dst = dst.strides :=
  ⟨framework.dense src linear.some.2 linear.dense, framework.dense dst linear.some.1 linear.perm⟩

/-- Copies of narrowed types to a device. -/
theorem copyHostAndDevice_toDevice (framework : b.Framework)
    (linear : Linear dst src) (expandable : Expandable src.sizes dst.sizes)
    (narrow : isNarrowType b.hardware dst.dtype = true) (dtype : dst.dtype = src.dtype)
    (device : dst.device.isPrivateUse1 = true) (cpu : src.device = .cpu)
    (old : src.storage < heap.next) (kernel : Tensor → Tensor → Bool → M V Unit) :
    wp (copyHostAndDevice b (copyInto b kernel) dst src nonBlocking)
      (fun _ after => Wrote dst
        ((heap.physical (src.expandAs dst.sizes)).map (b.effect dst src src.flags)) heap after)
      (fun _ _ => False) heap := by
  simp only [copyHostAndDevice, narrow, cpu, if_true, wp_bind]
  have made := @convertHostTensor_new V b nonBlocking heap framework src cpu (dtype ▸ narrow) old kernel
  refine wp_mono made (fun converted middle new => ?_) fun _ _ never => never
  obtain ⟨new, holds⟩ := new
  have sizes : converted.sizes = src.sizes := by rw [new.renewed]
  have ordered : (converted.expandAs dst.sizes).positions = dst.positions := by
    rw [← linear.same, new.renewed, (linear.strides framework).1]
    rfl
  refine wp_mono (memcpy_wrote ordered linear.perm) (fun _ copied wrote => ?_)
    fun _ _ never => never
  rw [physical_expandAs expandable sizes holds] at wrote
  refine wp_mono (repairFlags_wrote linear.apart (new.kept.wrote wrote)) (fun _ after last => ?_)
    fun _ _ never => never
  rw [List.map_map] at last
  have same : (b.read (dst.flags.xor src.flags) ∘ fun v =>
      b.convert (getGcuScalarType b.hardware src.dtype) (b.read src.flags v)) =
      b.effect dst src src.flags := by
    funext v
    rw [Backend.effect, Backend.stored, Backend.storedType, device, dtype]
    rfl
  rw [same] at last
  exact last

/-- Copies of narrowed types from a device. -/
theorem copyHostAndDevice_toHost (framework : b.Framework) (values : b.Values)
    (linear : Linear dst src)
    (narrow : isNarrowType b.hardware dst.dtype = true)
    (cpu : dst.device = .cpu) (device : src.device ≠ .cpu) (old : dst.storage < heap.next)
    (other : src.storage < heap.next) (kernel : Tensor → Tensor → Bool → M V Unit) :
    wp (copyHostAndDevice b (copyInto b kernel) dst src nonBlocking)
      (fun _ after => Wrote dst
        ((heap.physical (src.expandAs dst.sizes)).map (b.effect dst src dst.flags)) heap after)
      (fun _ _ => False) heap := by
  simp only [copyHostAndDevice, narrow, device, if_true, if_false, wp_bind]
  have made := @convertHostTensor_new V b nonBlocking heap framework dst cpu narrow old kernel
  refine wp_mono made (fun converted middle new => ?_) fun _ _ never => never
  obtain ⟨new, -⟩ := new
  have shape : converted.positions = dst.positions ∧ converted.sizes = dst.sizes ∧
      converted.numel = dst.numel := by
    rw [new.renewed, (linear.strides framework).2]
    exact ⟨rfl, rfl, rfl⟩
  have filled := @memcpy_wrote V converted src middle
    (by rw [shape.2.1, shape.1]; exact linear.same) (by rw [shape.1, shape.2.2]; exact linear.perm)
  rw [shape.2.2] at filled
  refine wp_mono filled (fun _ third copied => ?_) fun _ _ never => never
  have staged := new.write copied
  have hosts : converted.device = .cpu := by
    rw [new.renewed]
    exact cpu
  rw [copyInto, if_pos ⟨cpu, hosts⟩]
  refine wp_mono (cpuCopy_wrote linear.apart third) (fun _ fourth wrote => ?_) fun _ _ never => never
  refine wp_mono (repairFlags_wrote linear.apart (staged.kept.wrote wrote)) (fun _ after last => ?_)
    fun _ _ never => never
  have kept : middle.physical (src.expandAs dst.sizes) = heap.physical (src.expandAs dst.sizes) :=
    new.kept.physical other
  have flags : converted.flags = {} := by rw [new.renewed]
  rw [shape.2.1, kept] at copied
  rw [← shape.2.1, physical_expandAs_self, copied.physical, flags, List.map_map] at last
  have same : (b.read (dst.flags.xor src.flags) ∘ fun v =>
      b.read dst.flags (b.convert dst.dtype (b.read {} v))) = b.effect dst src dst.flags := by
    funext v
    have stored : ∀ v, b.stored dst.device dst.dtype v = b.convert dst.dtype v := by
      intro v
      rw [Backend.stored, Backend.storedType, cpu]
      rfl
    simp only [Function.comp_apply, read_none, Backend.effect, Flags.xor_self, Flags.none_xor, stored,
      values.read_read, values.convert_read]
    rw [Flags.xor_comm dst.flags src.flags, Flags.xor_assoc, Flags.xor_self, Flags.xor_none]
  rw [same] at last
  exact last

/-- What is expanded to sizes with elements has elements. -/
theorem Expandable.some {sizes targets : List Nat} (expandable : Expandable sizes targets)
    (some : Resize.numel targets ≠ 0) : Resize.numel sizes ≠ 0 := by
  intro empty
  obtain ⟨i, inside, zero⟩ := List.getElem_of_mem (Resize.numel_eq_zero.mp empty)
  have here := expandable.2.get inside (expandable.2.length_eq ▸ inside)
  simp only [List.get_eq_getElem, zero] at here
  have kept : 0 ∈ targets.drop (targets.length - sizes.length) :=
    List.mem_of_getElem (here.resolve_right Nat.zero_ne_one).symm
  exact some (Resize.numel_eq_zero.mpr (List.mem_of_mem_drop kept))

/-- What `TensorIterator` has to say about a copy. -/
theorem linear_of_framework (framework : b.Framework) (built : Built dst src)
    (some : dst.numel ≠ 0) (contiguous : b.isContiguous dst src = true) : Linear dst src := by
  obtain ⟨same, perm, dense⟩ := framework.ordered built some contiguous
  exact ⟨⟨some, built.1.some some⟩, same, perm, dense⟩

/-- Memory that both tensors share is copied already. -/
theorem copied_already {values : List V} (same : heap.physical dst = values) :
    Wrote dst values heap heap :=
  ⟨same, fun _ _ _ => rfl, fun _ _ => rfl, Nat.le_refl _⟩

/-- Memory is copied between tensors of one type and the same flags. -/
theorem copyDeviceToDevice_eligible (linear : Linear dst src) (dtype : dst.dtype = src.dtype)
    (typed : b.Typed heap (src.expandAs dst.sizes))
    (mine : src.storage = dst.storage → b.Typed heap dst)
    (device : dst.device.isPrivateUse1 = true) :
    wp (if (if src.device = .cpu then dst.device else src.device) ≠ dst.device then
          memcpy dst src dst.numel
        else if (src.storage, src.storageOffset) ≠ (dst.storage, dst.storageOffset) then
          topsatenCopy b dst src
        else pure ())
      (fun _ after => Wrote dst
        ((heap.physical (src.expandAs dst.sizes)).map (b.stored dst.device dst.dtype)) heap after)
      (fun _ _ => True) heap := by
  rw [wp_ite]
  refine ⟨fun elsewhere => ?_, fun _ => ?_⟩
  · have other : src.device.isPrivateUse1 = true := by
      rw [← Bool.not_eq_false, Device.eq_cpu]
      intro cpu
      simp [cpu] at elsewhere
    have stays : (heap.physical (src.expandAs dst.sizes)).map (b.stored dst.device dst.dtype) =
        heap.physical (src.expandAs dst.sizes) := by
      refine (List.map_congr_left fun v member => ?_).trans (List.map_id _)
      have held := typed v member
      simp only [Tensor.expandAs, Backend.stored, Backend.storedType, other, ← dtype] at held
      simp only [Backend.stored, Backend.storedType, device, id_eq]
      exact held
    rw [stays]
    exact wp_mono (memcpy_wrote linear.same linear.perm) (fun _ _ wrote => wrote) fun _ _ _ => trivial
  · rw [wp_ite]
    refine ⟨fun _ => wp_mono (topsatenCopy_wrote linear.apart heap) (fun _ _ wrote => wrote)
      fun _ _ _ => trivial, fun shared => ?_⟩
    have pointers := Prod.mk.inj (not_not.mp shared)
    have elements : heap.physical (src.expandAs dst.sizes) = heap.physical dst := by
      rw [physical_eq, physical_eq, linear.same]
      simp only [Tensor.expandAs, pointers]
    rw [elements]
    exact copied_already ((List.map_congr_left (mine pointers.1)).trans (List.map_id _)).symm

/-- Copies between devices, or on one, keep the flags or fail. -/
theorem copyDeviceToDevice_wrote (framework : b.Framework) (values : b.Values)
    (built : Built dst src) (some : dst.numel ≠ 0) (typed : b.Typed heap (src.expandAs dst.sizes))
    (mine : src.storage = dst.storage → b.Typed heap dst)
    (device : dst.device.isPrivateUse1 = true) :
    wp (copyDeviceToDevice b dst src)
      (fun _ after => dst.flags = src.flags ∧ Wrote dst
        ((heap.physical (src.expandAs dst.sizes)).map (b.effect dst src {})) heap after)
      (fun _ _ => True) heap := by
  simp only [copyDeviceToDevice]
  by_cases flags : dst.flags = src.flags
  · have converts : b.effect dst src {} = b.stored dst.device dst.dtype := by
      funext v
      rw [Backend.effect, Flags.xor_none, values.stored_read, values.read_read, flags,
        Flags.xor_self, read_none]
    simp only [flags, decide_true, Bool.and_true, converts, true_and, if_true, Bool.not_true,
      Bool.false_eq_true, if_false]
    rw [wp_ite]
    refine ⟨fun eligible => ?_, fun _ => ?_⟩
    · obtain ⟨dtype, contiguous⟩ := Bool.and_eq_true_iff.mp eligible
      exact copyDeviceToDevice_eligible (linear_of_framework framework built some contiguous)
        (of_decide_eq_true dtype) typed mine device
    · exact wp_mono (topsatenCopy_wrote built.2 heap) (fun _ _ wrote => wrote) fun _ _ _ => trivial
  · by_cases conj : dst.flags.conj = src.flags.conj
    · have neg : dst.flags.neg ≠ src.flags.neg := fun neg => flags (by
        cases dstFlags : dst.flags
        cases srcFlags : src.flags
        simp_all)
      simp [conj, neg]
    · by_cases neg : dst.flags.neg = src.flags.neg
      · simp [conj, neg]
      · simp [conj, neg]

/-- What is given of the two tensors: an iterator can be built for them, there is something to
copy, and both are in memory, with elements of their types in what is read. -/
structure Given (b : Backend V) (heap : Heap V) (dst src : Tensor) : Prop where
  built : Built dst src
  some : dst.numel ≠ 0
  typed : b.Typed heap (src.expandAs dst.sizes)
  mine : src.storage = dst.storage → b.Typed heap dst
  dstOld : dst.storage < heap.next
  srcOld : src.storage < heap.next

/-- Whether the kernel copies from device memory to device memory. -/
def onDevices (dst src : Tensor) (srcIsDevice : Bool) : Bool :=
  dst.device.isPrivateUse1 &&
    (src.device.isPrivateUse1 || (decide (src.device = .cpu) && srcIsDevice))

/-- The flags that a copy of this type, without temporaries, leaves too much. -/
def Backend.directFlags (b : Backend V) (dtype : ScalarType) (dst src : Tensor)
    (srcIsDevice : Bool) : Flags :=
  if onDevices dst src srcIsDevice then {} else b.stagedFlags dtype dst src

theorem copyDirectly_wrote (framework : b.Framework) (values : b.Values)
    (given : Given b heap dst src)
    (needs : dst.device.isPrivateUse1 ≠ src.device.isPrivateUse1 →
      dst.dtype = src.dtype ∧ b.isContiguous dst src = true)
    (kernel : Tensor → Tensor → Bool → M V Unit) :
    wp (copyDirectly b (copyInto b kernel) dst src nonBlocking)
      (fun _ after => Wrote dst ((heap.physical (src.expandAs dst.sizes)).map
        (b.effect dst src (b.directFlags dst.dtype dst src (heap.isDevice src.storage)))) heap after ∧
        (dst.device.isPrivateUse1 = true → src.device.isPrivateUse1 = true → dst.flags = src.flags))
      (fun _ _ => True) heap := by
  rw [copyDirectly, wp_bind, wp_get]
  change wp (if onDevices dst src (heap.isDevice src.storage) = true then _ else _) _ _ _
  rw [wp_ite]
  refine ⟨fun devices => ?_, fun host => ?_⟩
  · have device : dst.device.isPrivateUse1 = true := (Bool.and_eq_true_iff.mp devices).1
    rw [Backend.directFlags, if_pos devices]
    exact wp_mono (copyDeviceToDevice_wrote framework values given.built given.some given.typed
      given.mine device) (fun _ _ copied => ⟨copied.2, fun _ _ => copied.1⟩) fun _ _ _ => trivial
  · rw [Backend.directFlags, if_neg host, wp_bind, internalAssert]
    by_cases apart : dst.device.isPrivateUse1 = src.device.isPrivateUse1
    · simp [apart]
    · have one : (dst.device.isPrivateUse1 != src.device.isPrivateUse1) = true := by simpa using apart
      obtain ⟨dtype, contiguous⟩ := needs apart
      have linear := linear_of_framework framework given.built given.some contiguous
      have exclusive : dst.device.isPrivateUse1 = true → src.device.isPrivateUse1 = true →
          dst.flags = src.flags := fun first second => absurd (first.trans second.symm) apart
      simp only [one, if_true, wp_pure]
      have copied : wp (copyHostAndDevice b (copyInto b kernel) dst src nonBlocking)
          (fun _ after => Wrote dst ((heap.physical (src.expandAs dst.sizes)).map
            (b.effect dst src (b.stagedFlags dst.dtype dst src))) heap after)
          (fun _ _ => False) heap := by
        cases narrow : isNarrowType b.hardware dst.dtype with
        | false =>
          simp only [Backend.stagedFlags, narrow, Bool.false_eq_true, if_false]
          exact copyHostAndDevice_wide values linear narrow dtype given.typed _
        | true =>
          by_cases cpu : src.device = .cpu
          · have device : dst.device.isPrivateUse1 = true := by
              simpa [cpu, Device.isPrivateUse1] using apart
            simp only [Backend.stagedFlags, narrow, cpu, if_true]
            exact copyHostAndDevice_toDevice framework linear given.built.1 narrow dtype device cpu
              given.srcOld kernel
          · have other : src.device.isPrivateUse1 = true := by
              rwa [← Bool.not_eq_false, Device.eq_cpu]
            have host : dst.device = .cpu := by
              rw [← Device.eq_cpu]
              simpa [other] using apart
            simp only [Backend.stagedFlags, narrow, cpu, if_true, if_false]
            exact copyHostAndDevice_toHost framework values linear narrow host cpu given.dstOld
              given.srcOld kernel
      exact wp_mono copied (fun _ _ wrote => ⟨wrote, exclusive⟩) fun _ _ never => never.elim

/-! ### The temporaries -/

/-- The temporary of the destination is the tensor itself, or a new one. -/
def DstTemporary (before : Heap V) (dst : Tensor) (dtype : ScalarType) (suits : Bool) (r : Tensor)
    (after : Heap V) : Prop :=
  if suits then r = dst ∧ after = before
  else New { dst with dtype := dtype, strides := Resize.contiguousStrides dst.sizes } before r after

theorem DstTemporary.kept {dtype : ScalarType} {suits : Bool}
    (made : DstTemporary before dst dtype suits r after) : Kept before after := by
  cases suits with
  | true => exact made.2 ▸ .refl before
  | false => exact New.kept made

theorem dstTemporary_made {dtype : ScalarType} {suits : Bool} (heap : Heap V) :
    wp (dstTemporary dst dtype suits) (fun r after => DstTemporary heap dst dtype suits r after)
      (fun _ _ => False) heap := by
  cases suits with
  | true => exact ⟨rfl, rfl⟩
  | false => exact allocate_new _ heap

/-- The temporary of the source shows the source expanded, or is a new tensor with its logical
elements. -/
structure SrcTemporary (b : Backend V) (before : Heap V) (sizes : List Nat) (src : Tensor)
    (dtype : ScalarType) (renewed : Bool) (r : Tensor) (after : Heap V) : Prop where
  kept : Kept before after
  physical : after.physical r = (before.physical (src.expandAs sizes)).map fun v =>
    if renewed then b.stored src.device dtype (b.read src.flags v) else v
  storage : r.storage < after.next
  new : renewed = true → before.next ≤ r.storage ∧
    after.isDevice r.storage = src.device.isPrivateUse1
  old : renewed = false → r = src.expandAs sizes ∧ after = before

theorem contiguous_made (values : b.Values) {sizes : List Nat}
    (typed : b.Typed heap (src.expandAs sizes)) (srcOld : src.storage < heap.next) :
    wp (contiguous b (src.expandAs sizes))
      (fun r after => SrcTemporary b heap sizes src src.dtype (!(src.expandAs sizes).isContiguous)
        r after)
      (fun _ _ => False) heap := by
  by_cases already : (src.expandAs sizes).isContiguous = true
  · rw [contiguous, if_pos already, wp_pure, already]
    exact ⟨.refl heap, (List.map_id _).symm, srcOld, fun never => by simp at never,
      fun _ => ⟨rfl, rfl⟩⟩
  · have gaps : (src.expandAs sizes).isContiguous = false := by simpa using already
    refine wp_mono (contiguous_new already heap) (fun r after made => ?_) fun _ _ never => never
    obtain ⟨new, holds⟩ := made
    rw [gaps]
    refine ⟨new.kept, ?_, new.storage, fun _ => ⟨by rw [new.renewed], new.isDevice⟩,
      fun never => by simp at never⟩
    rw [holds, Backend.logical]
    refine List.map_congr_left fun v member => ?_
    simp only [Bool.not_false, if_true]
    rw [values.stored_read, show b.stored src.device src.dtype v = v from typed v member]
    rfl

/-- A tensor of another type is a new one. -/
theorem converted_made (framework : b.Framework) {sizes : List Nat} {dtype : ScalarType}
    (expandable : Expandable src.sizes sizes) (differ : src.dtype ≠ dtype) :
    wp (do contiguous b ((← toDtype b src dtype).expandAs sizes))
      (fun r after => SrcTemporary b heap sizes src dtype true r after) (fun _ _ => False) heap := by
  rw [wp_bind]
  refine wp_mono (toDtype_new framework differ heap) (fun converted middle made => ?_)
    fun _ _ never => never
  obtain ⟨new, holds⟩ := made
  have shape : converted.sizes = src.sizes := by rw [new.renewed]
  have flags : converted.flags = {} := by rw [new.renewed]
  have old : heap.next ≤ converted.storage := by rw [new.renewed]
  have expanded := physical_expandAs expandable shape holds
  by_cases already : (converted.expandAs sizes).isContiguous = true
  · rw [contiguous, if_pos already, wp_pure]
    exact ⟨new.kept, expanded, new.storage, fun _ => ⟨old, new.isDevice⟩,
      fun never => by cases never⟩
  · refine wp_mono (contiguous_new already middle) (fun r after again => ?_) fun _ _ never => never
    obtain ⟨second, copied⟩ := again
    refine ⟨new.kept.trans second.kept, ?_, second.storage, fun _ => ⟨?_, ?_⟩,
      fun never => by cases never⟩
    · rw [copied, Backend.logical, expanded, List.map_map]
      refine List.map_congr_left fun v _ => ?_
      change b.read converted.flags _ = _
      rw [flags]
      rfl
    · rw [second.renewed]
      exact new.kept.next
    · rw [second.isDevice]
      change converted.device.isPrivateUse1 = _
      rw [new.renewed]

/-- Whether the source has to be converted or laid out anew for a copy by way of temporaries. -/
def renewed (dst src : Tensor) (nonBlocking : Bool) : Bool :=
  decide (src.dtype ≠ movedDtype dst src nonBlocking) || !(src.expandAs dst.sizes).isContiguous

/-- Whether the destination is its own temporary. -/
def suits (dst src : Tensor) (nonBlocking : Bool) : Bool :=
  dst.isContiguous && decide (dst.dtype = movedDtype dst src nonBlocking)

theorem Kept.typed (kept : Kept before after) (old : t.storage < before.next)
    (typed : b.Typed before t) : b.Typed after t := by
  rw [Backend.Typed, kept.physical old]
  exact typed

theorem makeTemporaries_made (framework : b.Framework) (values : b.Values)
    (given : Given b heap dst src) :
    wp (makeTemporaries b dst src nonBlocking)
      (fun made after => ∃ middle,
        DstTemporary heap dst (movedDtype dst src nonBlocking) (suits dst src nonBlocking) made.1
          middle ∧
        SrcTemporary b middle dst.sizes src (movedDtype dst src nonBlocking)
          (renewed dst src nonBlocking) made.2 after)
      (fun _ _ => False) heap := by
  have later : ∀ {middle : Heap V}, Kept heap middle →
      b.Typed middle (src.expandAs dst.sizes) ∧ src.storage < middle.next := fun kept =>
    ⟨kept.typed given.srcOld given.typed, Nat.lt_of_lt_of_le given.srcOld kept.next⟩
  by_cases early : (dst.device.isPrivateUse1 || nonBlocking) = true
  · have moved : movedDtype dst src nonBlocking = dst.dtype := if_pos early
    simp only [makeTemporaries, early, if_true, moved, suits, renewed, decide_true, Bool.and_true]
    rw [wp_bind]
    refine wp_mono (dstTemporary_made heap) (fun mine middle made => ?_) fun _ _ never => never
    obtain ⟨typed, old⟩ := later made.kept
    by_cases same : src.dtype = dst.dtype
    · simp only [toDtype, same, if_true, pure_bind, ne_eq, not_true_eq_false, decide_false,
        Bool.false_or, wp_bind, wp_pure]
      refine wp_mono (contiguous_made values typed old) (fun other after second => ⟨middle, made, ?_⟩)
        fun _ _ never => never
      rw [same] at second
      exact second
    · simp only [ne_eq, same, not_false_eq_true, decide_true, Bool.true_or]
      have second := @converted_made V b src middle framework dst.sizes dst.dtype given.built.1 same
      simp only [wp_bind, wp_pure] at second ⊢
      exact wp_mono second (fun converted third made' => wp_mono made'
        (fun other after last => ⟨middle, made, last⟩) fun _ _ never => never) fun _ _ never => never
  · have moved : movedDtype dst src nonBlocking = src.dtype := if_neg early
    simp only [makeTemporaries, early, Bool.false_eq_true, if_false, moved, suits, renewed, ne_eq,
      not_true_eq_false, decide_false, Bool.false_or]
    rw [wp_bind]
    refine wp_mono (dstTemporary_made heap) (fun mine middle made => ?_) fun _ _ never => never
    obtain ⟨typed, old⟩ := later made.kept
    rw [wp_bind]
    exact wp_mono (contiguous_made values typed old) (fun other after second => ⟨middle, made, second⟩)
      fun _ _ never => never

/-! ### The copies between the temporaries -/

/-- A copy within a copy that needs no temporaries. -/
theorem copyInto_wrote (framework : b.Framework) (values : b.Values) (given : Given b heap dst src)
    (direct : Direct b dst src) (devices : ¬ (dst.device = .cpu ∧ src.device = .cpu))
    (separate : dst.storage ≠ src.storage)
    (needs : dst.device.isPrivateUse1 ≠ src.device.isPrivateUse1 →
      dst.dtype = src.dtype ∧ b.isContiguous dst src = true) (depth : Nat) :
    wp (copyInto b (copyKernelTo b (depth + 1)) dst src nonBlocking)
      (fun _ after => Wrote dst ((heap.physical (src.expandAs dst.sizes)).map
        (b.effect dst src (b.directFlags dst.dtype dst src (heap.isDevice src.storage)))) heap after ∧
        (dst.device.isPrivateUse1 = true → src.device.isPrivateUse1 = true → dst.flags = src.flags))
      (fun _ _ => True) heap := by
  have without := direct.resolve_left devices
  rw [copyInto, if_neg devices, copyFrom, if_neg fun same => separate same.1]
  simp only [given.built, given.some, not_true_eq_false, if_false, copyKernelTo, copyKernel, without,
    pure_bind, Bool.false_eq_true]
  exact copyDirectly_wrote framework values given needs _

/-- The copy back from a temporary. -/
theorem copyBack_wrote (framework : b.Framework) (values : b.Values) {temporary : Tensor}
    (apart : dst.addresses.Nodup) (some : dst.numel ≠ 0) (sizes : temporary.sizes = dst.sizes)
    (device : temporary.device = dst.device) (flags : temporary.flags = dst.flags)
    (separate : dst.storage ≠ temporary.storage) (dstOld : dst.storage < heap.next)
    (old : temporary.storage < heap.next) (typed : b.Typed heap temporary) (depth : Nat) :
    wp (copyInto b (copyKernelTo b (depth + 1)) dst temporary nonBlocking)
      (fun _ after => Wrote dst ((heap.physical temporary).map fun v =>
        b.read dst.flags (b.stored dst.device dst.dtype (b.read dst.flags v))) heap after)
      (fun _ _ => True) heap := by
  have shown : heap.physical (temporary.expandAs dst.sizes) = heap.physical temporary := by
    rw [← sizes, physical_expandAs_self]
  by_cases cpu : dst.device = .cpu
  · rw [copyInto, if_pos ⟨cpu, device.trans cpu⟩]
    refine wp_mono (cpuCopy_wrote apart heap) (fun _ after wrote => ?_) fun _ _ never => trivial
    rw [shown, flags] at wrote
    have stored : ∀ v, b.stored dst.device dst.dtype v = b.convert dst.dtype v := by
      intro v
      rw [Backend.stored, Backend.storedType, cpu]
      rfl
    simp only [stored]
    exact wrote
  · have given : Given b heap dst temporary := by
      refine ⟨⟨?_, apart⟩, some, ?_, fun same => absurd same.symm separate, dstOld, old⟩
      · rw [sizes]
        exact ⟨Nat.le_refl _, by simp [List.forall₂_same]⟩
      · rw [Backend.Typed, shown]
        exact typed
    have copied := @copyInto_wrote V b dst temporary nonBlocking heap framework values given
      (direct_sameDevice device.symm) (fun both => cpu both.1) separate
      (fun differ => absurd (congrArg Device.isPrivateUse1 device.symm) differ) depth
    refine wp_mono copied (fun _ after wrote => ?_) fun _ _ _ => trivial
    have both : onDevices dst temporary (heap.isDevice temporary.storage) = true := by
      have gcu : dst.device.isPrivateUse1 = true := by rwa [← Bool.not_eq_false, Device.eq_cpu]
      simp [onDevices, device, gcu]
    have first := wrote.1
    rw [Backend.directFlags, if_pos both, shown] at first
    have same : b.effect dst temporary {} = fun v =>
        b.read dst.flags (b.stored dst.device dst.dtype (b.read dst.flags v)) := by
      funext v
      rw [Backend.effect, Flags.xor_none, flags]
    rw [same] at first
    exact first

/-! ### The outcome of a copy -/

/-- The conversion of a logical element: to the type that is moved between devices, on the device
of the source or for blocking copies to the host on the host, and to the type of the destination
on its device. A device converts to the narrowed types. -/
def Backend.conversion (b : Backend V) (dst src : Tensor) (nonBlocking : Bool) (v : V) : V :=
  let converting := if dst.device.isPrivateUse1 || nonBlocking then src.device else dst.device
  b.stored dst.device dst.dtype (b.stored converting (movedDtype dst src nonBlocking) v)

/-- The physical elements of the destination when some flags are left too much. -/
def Backend.outcome (b : Backend V) (dst src : Tensor) (nonBlocking : Bool) (surplus : Flags)
    (v : V) : V :=
  b.read (dst.flags.xor surplus) (b.conversion dst src nonBlocking (b.read src.flags v))

/-- The flags that a copy by way of temporaries leaves too much. A new temporary of the source
holds logical elements, and gets the flags of the source on top. -/
def Backend.temporaryFlags (b : Backend V) (dst src : Tensor) (nonBlocking srcIsDevice : Bool) :
    Flags :=
  let fresh := renewed dst src nonBlocking
  (if fresh then src.flags else {}).xor
    (b.directFlags (movedDtype dst src nonBlocking) dst src (srcIsDevice && !fresh))

/-- One element on its way through the temporaries and back. -/
theorem outcome_temporaries (values : b.Values) {surplus : Flags} {v : V}
    (typed : b.stored src.device src.dtype v = v) :
    b.stored dst.device dst.dtype (b.read (dst.flags.xor surplus)
      (b.stored dst.device (movedDtype dst src nonBlocking) (b.read src.flags
        (if renewed dst src nonBlocking then
          b.stored src.device (movedDtype dst src nonBlocking) (b.read src.flags v) else v)))) =
      b.outcome dst src nonBlocking
        ((if renewed dst src nonBlocking then src.flags else {}).xor surplus) v := by
  have logical : b.stored src.device src.dtype (b.read src.flags v) = b.read src.flags v := by
    rw [values.stored_read, typed]
  have flags : (dst.flags.xor surplus).xor src.flags = dst.flags.xor (src.flags.xor surplus) := by
    rw [Flags.xor_assoc, Flags.xor_comm surplus]
  by_cases early : (dst.device.isPrivateUse1 || nonBlocking) = true
  · have moved : movedDtype dst src nonBlocking = dst.dtype := if_pos early
    cases fresh : renewed dst src nonBlocking with
    | true =>
      simp only [Backend.outcome, Backend.conversion, moved, early, if_true]
      rw [values.stored_read, values.stored_stored, values.stored_read, values.read_read, flags]
    | false =>
      have same : src.dtype = dst.dtype := by
        simp only [renewed, moved, ne_eq, Bool.or_eq_false_iff, decide_eq_false_iff_not,
          not_not] at fresh
        exact fresh.1
      simp only [Backend.outcome, Backend.conversion, moved, early, Bool.false_eq_true, if_true,
        if_false, Flags.none_xor]
      rw [values.stored_read, values.stored_stored, ← same, logical]
  · have moved : movedDtype dst src nonBlocking = src.dtype := if_neg early
    simp only [Backend.outcome, Backend.conversion, moved, early, Bool.false_eq_true, if_false,
      logical]
    cases fresh : renewed dst src nonBlocking with
    | true =>
      simp only [if_true]
      rw [values.stored_read, values.stored_read, values.stored_read, values.read_read, flags]
    | false =>
      simp only [Bool.false_eq_true, if_false, Flags.none_xor]
      rw [values.stored_read]

/-- What the kernel knows when it takes the branch for temporaries. -/
structure Needy (b : Backend V) (dst src : Tensor) : Prop where
  devices : dst.device ≠ src.device
  unlike : ¬ (dst.dtype = src.dtype ∧ b.isContiguous dst src = true)

section Temporaries
variable {dstContig srcContig : Tensor}

/-- The temporaries do not share memory. -/
theorem temporaries_separate (framework : b.Framework) (given : Given b heap dst src)
    (needy : Needy b dst src)
    (mine : DstTemporary heap dst (movedDtype dst src nonBlocking) (suits dst src nonBlocking)
      dstContig middle)
    (other : SrcTemporary b middle dst.sizes src (movedDtype dst src nonBlocking)
      (renewed dst src nonBlocking) srcContig after) :
    dstContig.storage ≠ srcContig.storage := by
  cases suit : suits dst src nonBlocking with
  | true =>
    obtain ⟨rfl, rfl⟩ := (suit ▸ mine : DstTemporary heap dst _ true dstContig middle)
    cases fresh : renewed dstContig src nonBlocking with
    | true =>
      have new := (other.new fresh).1
      have old := given.dstOld
      omega
    | false =>
      simp only [suits, renewed, ne_eq, Bool.and_eq_true, Bool.or_eq_false_iff, decide_eq_true_iff,
        decide_eq_false_iff_not, not_not, Bool.not_eq_false'] at suit fresh
      exact absurd ⟨suit.2.trans fresh.1.symm,
        framework.expanded given.built.1 given.some suit.1 fresh.2⟩ needy.unlike
  | false =>
    have made := (suit ▸ mine : DstTemporary heap dst _ false dstContig middle)
    have place : dstContig.storage = heap.next := by rw [New.renewed made]
    have inside := New.storage made
    cases fresh : renewed dst src nonBlocking with
    | true =>
      have new := (other.new fresh).1
      omega
    | false =>
      have same : srcContig.storage = src.storage := by
        rw [(other.old fresh).1]
        rfl
      have old := given.srcOld
      omega

theorem srcTemporary_isDevice (given : Given b heap dst src) (first : Kept heap middle)
    (other : SrcTemporary b middle dst.sizes src (movedDtype dst src nonBlocking)
      (renewed dst src nonBlocking) srcContig after) (dtype : ScalarType) :
    b.directFlags dtype dst src (after.isDevice srcContig.storage) =
      b.directFlags dtype dst src
        (heap.isDevice src.storage && !(renewed dst src nonBlocking)) := by
  cases fresh : renewed dst src nonBlocking with
  | true =>
    rw [(other.new fresh).2]
    cases device : src.device <;>
      simp [Backend.directFlags, onDevices, Device.isPrivateUse1, device, Backend.stagedFlags]
  | false =>
    obtain ⟨rfl, rfl⟩ := other.old fresh
    have same : after.isDevice (src.expandAs dst.sizes).storage = heap.isDevice src.storage :=
      first.isDevice _ given.srcOld
    rw [same, Bool.not_false, Bool.and_true]

theorem directFlags_congr {dst' src' : Tensor} {dtype : ScalarType} {device : Bool}
    (dstDevice : dst'.device = dst.device) (srcDevice : src'.device = src.device)
    (dstFlags : dst'.flags = dst.flags) (srcFlags : src'.flags = src.flags) :
    b.directFlags dtype dst' src' device = b.directFlags dtype dst src device := by
  cases dst
  cases src
  cases dst'
  cases src'
  cases dstDevice
  cases srcDevice
  cases dstFlags
  cases srcFlags
  rfl

/-- The temporaries with the flags of the tensors they stand for may be copied. -/
theorem temporaries_given (values : b.Values) (given : Given b heap dst src)
    (first : Kept heap middle) {dtype : ScalarType} {fresh : Bool}
    (wide : fresh = false → dtype = src.dtype)
    (mine : Temporary dst.device dtype dst.sizes dstContig)
    (shape : Temporary src.device dtype dst.sizes srcContig)
    (other : SrcTemporary b middle dst.sizes src dtype fresh srcContig after)
    (separate : dstContig.storage ≠ srcContig.storage) (old : dstContig.storage < after.next) :
    Given b after { dstContig with flags := dst.flags } { srcContig with flags := src.flags } where
  built := by
    refine ⟨?_, ?_⟩
    · simp only [mine.sizes, shape.sizes]
      exact ⟨Nat.le_refl _, by simp [List.forall₂_same]⟩
    · rw [addresses_nodup]
      change dstContig.positions.Nodup
      rw [isContiguous_iff.mp mine.contiguous]
      exact List.nodup_range
  some := by
    simp only [Tensor.numel, mine.sizes]
    exact given.some
  typed := by
    have shown : after.physical (({ srcContig with flags := src.flags } : Tensor).expandAs
        dstContig.sizes) = after.physical srcContig := by
      rw [mine.sizes, ← shape.sizes]
      exact physical_expandAs_self after srcContig
    intro v member
    simp only [shown, other.physical, List.mem_map] at member
    obtain ⟨u, inside, rfl⟩ := member
    have kept : middle.physical (src.expandAs dst.sizes) = heap.physical (src.expandAs dst.sizes) :=
      first.physical given.srcOld
    rw [kept] at inside
    simp only [Tensor.expandAs, shape.device, shape.dtype]
    cases fresh with
    | true =>
      simp only [if_true]
      exact values.stored_stored _ _ _
    | false =>
      rw [wide rfl]
      exact given.typed u inside
  mine same := absurd same.symm separate
  dstOld := old
  srcOld := other.storage

theorem DstTemporary.storage {dtype : ScalarType} {suits : Bool}
    (made : DstTemporary before dst dtype suits r after) (old : dst.storage < before.next) :
    r.storage < after.next := by
  cases suits with
  | true =>
    obtain ⟨rfl, rfl⟩ := made
    exact old
  | false => exact New.storage made

/-- The elements between the two copies. -/
def Backend.staged (b : Backend V) (dst src : Tensor) (nonBlocking : Bool) (surplus : Flags)
    (v : V) : V :=
  b.read (dst.flags.xor surplus)
    (b.stored dst.device (movedDtype dst src nonBlocking) (b.read src.flags
      (if renewed dst src nonBlocking then
        b.stored src.device (movedDtype dst src nonBlocking) (b.read src.flags v) else v)))

theorem staged_stored (values : b.Values) {surplus : Flags} (v : V) :
    b.stored dst.device (movedDtype dst src nonBlocking) (b.staged dst src nonBlocking surplus v) =
      b.staged dst src nonBlocking surplus v := by
  rw [Backend.staged, values.stored_read, values.stored_stored]

/-- The copy from one temporary to the other. -/
theorem temporaries_copied (framework : b.Framework) (values : b.Values)
    (given : Given b heap dst src) (needy : Needy b dst src)
    (mine : Temporary dst.device (movedDtype dst src nonBlocking) dst.sizes dstContig)
    (shape : Temporary src.device (movedDtype dst src nonBlocking) dst.sizes srcContig)
    (dstMade : DstTemporary heap dst (movedDtype dst src nonBlocking) (suits dst src nonBlocking)
      dstContig middle)
    (other : SrcTemporary b middle dst.sizes src (movedDtype dst src nonBlocking)
      (renewed dst src nonBlocking) srcContig after) (depth : Nat) :
    wp (copyInto b (copyKernelTo b (depth + 1)) { dstContig with flags := dst.flags }
        { srcContig with flags := src.flags } nonBlocking)
      (fun _ last => Wrote { dstContig with flags := dst.flags }
        ((heap.physical (src.expandAs dst.sizes)).map (b.staged dst src nonBlocking
          (b.directFlags (movedDtype dst src nonBlocking) dst src
            (heap.isDevice src.storage && !(renewed dst src nonBlocking))))) after last)
      (fun _ _ => True) after := by
  have separate := temporaries_separate framework given needy dstMade other
  have old := Nat.lt_of_lt_of_le (dstMade.storage given.dstOld) other.kept.next
  have ready := temporaries_given values given dstMade.kept (by
    intro wide
    simp only [renewed, ne_eq, Bool.or_eq_false_iff, decide_eq_false_iff_not, not_not] at wide
    exact wide.1.symm) mine shape other separate old
  have direct : Direct b { dstContig with flags := dst.flags }
      { srcContig with flags := src.flags } := direct_temporaries framework
    ⟨mine.contiguous, mine.device, mine.dtype, mine.sizes⟩
    ⟨shape.contiguous, shape.device, shape.dtype, shape.sizes⟩ needy.devices ready.some
  have fits := @framework.contiguous { dstContig with flags := dst.flags }
    { srcContig with flags := src.flags } mine.contiguous shape.contiguous
    (mine.sizes.trans shape.sizes.symm) ready.some
  have copied := @copyInto_wrote V b { dstContig with flags := dst.flags }
    { srcContig with flags := src.flags } nonBlocking after framework values ready direct
    (fun both => needy.devices (mine.device.symm.trans (both.1.trans (both.2.symm.trans shape.device))))
    separate (fun _ => ⟨mine.dtype.trans shape.dtype.symm, fits⟩) depth
  refine wp_mono copied (fun _ last both => ?_) fun _ _ _ => trivial
  have wrote := both.1
  have shown : after.physical (({ srcContig with flags := src.flags } : Tensor).expandAs
      dstContig.sizes) = after.physical srcContig := by
    rw [mine.sizes, ← shape.sizes]
    exact physical_expandAs_self after srcContig
  have kept : middle.physical (src.expandAs dst.sizes) = heap.physical (src.expandAs dst.sizes) :=
    dstMade.kept.physical given.srcOld
  have flags : b.directFlags dstContig.dtype { dstContig with flags := dst.flags }
      { srcContig with flags := src.flags } (after.isDevice srcContig.storage) =
      b.directFlags (movedDtype dst src nonBlocking) dst src
        (heap.isDevice src.storage && !(renewed dst src nonBlocking)) := by
    rw [← srcTemporary_isDevice given dstMade.kept other, mine.dtype]
    exact directFlags_congr mine.device shape.device rfl rfl
  simp only [shown, other.physical, kept, flags, List.map_map] at wrote
  have same : (b.effect { dstContig with flags := dst.flags } { srcContig with flags := src.flags }
      (b.directFlags (movedDtype dst src nonBlocking) dst src
        (heap.isDevice src.storage && !(renewed dst src nonBlocking))) ∘ fun v =>
      if renewed dst src nonBlocking = true then
        b.stored src.device (movedDtype dst src nonBlocking) (b.read src.flags v) else v) =
      b.staged dst src nonBlocking (b.directFlags (movedDtype dst src nonBlocking) dst src
        (heap.isDevice src.storage && !(renewed dst src nonBlocking))) := by
    funext v
    simp only [Function.comp_apply, Backend.effect, Backend.staged, mine.device, mine.dtype]
  rw [same] at wrote
  exact wrote

/-- Copies by way of temporaries. -/
theorem copyByTemporaries_wrote (framework : b.Framework) (values : b.Values)
    (given : Given b heap dst src) (needy : Needy b dst src) (depth : Nat) :
    wp (copyByTemporaries b (copyInto b (copyKernelTo b (depth + 1))) dst src nonBlocking)
      (fun _ last => Wrote dst ((heap.physical (src.expandAs dst.sizes)).map
        (b.outcome dst src nonBlocking
          (b.temporaryFlags dst src nonBlocking (heap.isDevice src.storage)))) heap last)
      (fun _ _ => True) heap := by
  rw [copyByTemporaries, wp_bind]
  refine wp_mono (wp_and (makeTemporaries_shape b dst src nonBlocking heap)
    (makeTemporaries_made framework values given)) (fun made third both => ?_)
    fun _ _ never => never.1.elim
  obtain ⟨dstContig, srcContig⟩ := made
  obtain ⟨⟨mine, shape⟩, middle, dstMade, other⟩ := both
  simp only at mine shape dstMade other
  have sizes : (dstContig.sizes == srcContig.sizes) = true :=
    beq_iff_eq.mpr (mine.sizes.trans shape.sizes.symm)
  have dtypes : (dstContig.dtype == srcContig.dtype) = true :=
    beq_iff_eq.mpr (mine.dtype.trans shape.dtype.symm)
  have devices : (dstContig.device == dst.device) = true := beq_iff_eq.mpr mine.device
  simp only [sizes, dtypes, devices, internalAssert, if_true, wp_bind, wp_pure]
  refine wp_mono (temporaries_copied framework values given needy mine shape dstMade other depth)
    (fun _ fourth wrote => ?_) fun _ _ _ => trivial
  have kept := dstMade.kept.trans other.kept
  -- the elements after a further conversion to the type of the destination
  have outcome : ((heap.physical (src.expandAs dst.sizes)).map (b.staged dst src nonBlocking
      (b.directFlags (movedDtype dst src nonBlocking) dst src
        (heap.isDevice src.storage && !(renewed dst src nonBlocking))))).map
        (b.stored dst.device dst.dtype) =
      (heap.physical (src.expandAs dst.sizes)).map (b.outcome dst src nonBlocking
        (b.temporaryFlags dst src nonBlocking (heap.isDevice src.storage))) := by
    rw [List.map_map]
    exact List.map_congr_left fun v member => outcome_temporaries values (given.typed v member)
  rw [wp_ite]
  refine ⟨fun apart => ?_, fun itself => ?_⟩
  · have new : New { dst with
        dtype := movedDtype dst src nonBlocking
        strides := Resize.contiguousStrides dst.sizes } heap dstContig middle := by
      cases suit : suits dst src nonBlocking with
      | true =>
        have itself := (suit ▸ dstMade : DstTemporary heap dst _ true dstContig middle)
        exact absurd (by rw [itself.1]) apart
      | false =>
        rw [suit] at dstMade
        exact dstMade
    have place : dstContig.storage = heap.next := by rw [new.renewed]
    have inside := Nat.lt_of_lt_of_le new.storage (Nat.le_trans other.kept.next wrote.next)
    have keptAll : Kept heap fourth := wrote.kept kept (Nat.le_of_eq place.symm)
    have oldDst := given.dstOld
    have back := @copyBack_wrote V b dst nonBlocking fourth framework values
      { dstContig with flags := dst.flags } given.built.2 given.some mine.sizes mine.device rfl
      (by change dst.storage ≠ dstContig.storage; omega)
      (Nat.lt_of_lt_of_le oldDst keptAll.next) inside (by
        intro v member
        rw [wrote.physical] at member
        obtain ⟨u, -, rfl⟩ := List.mem_map.mp member
        simp only [mine.device, mine.dtype]
        exact staged_stored values u) depth
    rw [wp_bind, wp_pure]
    refine wp_mono back (fun _ last copied => ?_) fun _ _ _ => trivial
    have reads : (fun v => b.read dst.flags (b.stored dst.device dst.dtype (b.read dst.flags v))) =
        b.stored dst.device dst.dtype := by
      funext v
      rw [values.stored_read, values.read_read, Flags.xor_self, read_none]
    rw [wrote.physical, reads, outcome] at copied
    exact keptAll.wrote copied
  · have same := not_not.mp itself
    have moved : movedDtype dst src nonBlocking = dst.dtype := by
      rw [← mine.dtype, ← congrArg Tensor.dtype same]
    rw [same] at wrote
    have stays : ∀ {l : List V} {surplus : Flags},
        (l.map (b.staged dst src nonBlocking surplus)).map (b.stored dst.device dst.dtype) =
          l.map (b.staged dst src nonBlocking surplus) := by
      intro l surplus
      rw [List.map_map]
      refine List.map_congr_left fun v _ => ?_
      have fixed := @staged_stored V b dst src nonBlocking values surplus v
      rw [moved] at fixed
      exact fixed
    rw [← outcome, stays]
    exact kept.wrote wrote

end Temporaries

/-! ### The kernel -/

/-- The answer of `copy_requires_temporaries`. -/
def Backend.requires (b : Backend V) (dst src : Tensor) : Bool :=
  decide (dst.device ≠ src.device) && !(decide (dst.dtype = src.dtype) && b.isContiguous dst src) &&
    !(dst.device.isPrivateUse1 && src.device.isPrivateUse1 &&
      maybeEnableP2pAccess b dst.device src.device)

/-- Why a copy may do without temporaries. -/
def Alike (b : Backend V) (dst src : Tensor) : Prop :=
  dst.device.isPrivateUse1 = true ∧ src.device.isPrivateUse1 = true ∨
    dst.dtype = src.dtype ∧ b.isContiguous dst src = true

theorem copyRequiresTemporaries_answers (heap : Heap V) :
    wp (copyRequiresTemporaries b dst src (maybeEnableP2pAccess b dst.device src.device))
      (fun answer after => after = heap ∧ answer = b.requires dst src ∧
        (answer = true → Needy b dst src) ∧ (answer = false → Alike b dst src))
      (fun _ _ => True) heap := by
  rw [copyRequiresTemporaries]
  by_cases same : dst.device = src.device
  · simp only [same, if_true, internalAssert, Bool.and_self, wp_bind, wp_pure]
    rw [wp_ite]
    refine ⟨fun gcu => ?_, fun _ => trivial⟩
    have alike : Alike b dst src := .inl ⟨by rw [same]; exact gcu, gcu⟩
    exact ⟨rfl, by simp [Backend.requires, same], by simp, fun _ => alike⟩
  · rw [if_neg same, wp_ite]
    refine ⟨fun like => ?_, fun unlike => ?_⟩
    · have alike : Alike b dst src := .inr like
      exact ⟨rfl, by simp [Backend.requires, like.1, like.2], by simp, fun _ => alike⟩
    · have first : (decide (dst.dtype = src.dtype) && b.isContiguous dst src) = false := by
        simpa using unlike
      have needy : Needy b dst src := ⟨same, unlike⟩
      rw [wp_ite]
      refine ⟨fun gcus => ?_, fun host => ?_⟩
      · have alike : Alike b dst src := .inl (Bool.and_eq_true_iff.mp gcus)
        refine ⟨rfl, ?_, fun _ => needy, fun _ => alike⟩
        simp only [Backend.requires, ne_eq, same, not_false_eq_true, decide_true, first,
          Bool.not_false, Bool.and_self, gcus, Bool.true_and]
      · have hosts : (dst.device.isPrivateUse1 && src.device.isPrivateUse1) = false := by
          simpa using host
        refine ⟨rfl, ?_, fun _ => needy, by simp⟩
        simp only [Backend.requires, ne_eq, same, not_false_eq_true, decide_true, first, hosts,
          Bool.not_false, Bool.and_self, Bool.false_and]

/-- Without temporaries an element is converted once. -/
theorem outcome_direct (values : b.Values) (alike : Alike b dst src) {surplus : Flags} {v : V}
    (typed : b.stored src.device src.dtype v = v) :
    b.effect dst src surplus v = b.outcome dst src nonBlocking surplus v := by
  have logical : b.stored src.device src.dtype (b.read src.flags v) = b.read src.flags v := by
    rw [values.stored_read, typed]
  have once : b.stored dst.device dst.dtype (b.read src.flags v) =
      b.conversion dst src nonBlocking (b.read src.flags v) := by
    by_cases early : (dst.device.isPrivateUse1 || nonBlocking) = true
    · have moved : movedDtype dst src nonBlocking = dst.dtype := if_pos early
      simp only [Backend.conversion, moved, early, if_true]
      rcases alike with ⟨mine, other⟩ | ⟨dtype, -⟩
      · have same : ∀ u, b.stored src.device dst.dtype u = b.stored dst.device dst.dtype u := by
          intro u
          simp only [Backend.stored, Backend.storedType, mine, other]
        rw [same, values.stored_stored]
      · rw [dtype, logical]
    · have moved : movedDtype dst src nonBlocking = src.dtype := if_neg early
      simp only [Backend.conversion, moved, early, Bool.false_eq_true, if_false]
      rcases alike with ⟨mine, -⟩ | ⟨dtype, -⟩
      · simp [mine] at early
      · rw [dtype, values.stored_stored]
  rw [Backend.effect, Backend.outcome, once]

/-- The flags that a copy leaves too much. -/
def Backend.surplus (b : Backend V) (dst src : Tensor) (nonBlocking srcIsDevice : Bool) : Flags :=
  if b.requires dst src then b.temporaryFlags dst src nonBlocking srcIsDevice
  else b.directFlags dst.dtype dst src srcIsDevice

theorem copyKernelTo_wrote (framework : b.Framework) (values : b.Values)
    (given : Given b heap dst src) (depth : Nat) :
    wp (copyKernelTo b (depth + 2) dst src nonBlocking)
      (fun _ after => Wrote dst ((heap.physical (src.expandAs dst.sizes)).map
        (b.outcome dst src nonBlocking
          (b.surplus dst src nonBlocking (heap.isDevice src.storage)))) heap after)
      (fun _ _ => True) heap := by
  simp only [copyKernelTo, copyKernel, wp_bind]
  refine wp_mono (copyRequiresTemporaries_answers heap) (fun answer heap' about => ?_)
    fun _ _ _ => trivial
  obtain ⟨rfl, answered, needy, alike⟩ := about
  rw [Backend.surplus, ← answered]
  cases answer with
  | true => exact copyByTemporaries_wrote framework values given (needy rfl) depth
  | false =>
    refine wp_mono (copyDirectly_wrote framework values given (fun apart => ?_) _)
      (fun _ after both => ?_) fun _ _ _ => trivial
    · exact (alike rfl).resolve_left fun gcus => apart (gcus.1.trans gcus.2.symm)
    · have wrote := both.1
      have same := List.map_congr_left fun v (member : v ∈ heap'.physical (src.expandAs dst.sizes)) =>
        @outcome_direct V b dst src nonBlocking values (alike rfl)
          (b.directFlags dst.dtype dst src (heap'.isDevice src.storage)) v (given.typed v member)
      rw [same] at wrote
      exact wrote

/-- The destination reads as the source, broadcast and converted, and memory outside it is as
before. -/
structure Copied (b : Backend V) (dst src : Tensor) (nonBlocking : Bool) (before after : Heap V) :
    Prop where
  value : b.logical after dst =
    (b.logical before (src.expandAs dst.sizes)).map (b.conversion dst src nonBlocking)
  frame : ∀ a, a.1 < before.next → a ∉ dst.addresses → after.memory a = before.memory a

theorem Wrote.copied_iff (values : b.Values) {surplus : Flags}
    (wrote : Wrote dst ((heap.physical (src.expandAs dst.sizes)).map
      (b.outcome dst src nonBlocking surplus)) heap after) :
    Copied b dst src nonBlocking heap after ↔
      ∀ v ∈ b.logical heap (src.expandAs dst.sizes),
        b.read surplus (b.conversion dst src nonBlocking v) = b.conversion dst src nonBlocking v := by
  have reads : b.logical after dst = (b.logical heap (src.expandAs dst.sizes)).map fun v =>
      b.read surplus (b.conversion dst src nonBlocking v) := by
    rw [Backend.logical, wrote.physical, Backend.logical, List.map_map, List.map_map]
    refine List.map_congr_left fun v _ => ?_
    simp only [Function.comp_apply, Backend.outcome, values.read_read, Flags.xor_cancel]
    rfl
  constructor
  · intro copied
    have same := copied.value
    rw [reads] at same
    exact List.map_inj_left.mp same
  · exact fun fixed => ⟨reads.trans (List.map_congr_left fixed), wrote.frame⟩

/-- A copy that returns has copied the right values exactly if the flags that it leaves too much
do nothing to the converted elements. -/
theorem copied_iff_surplus (framework : b.Framework) (values : b.Values)
    (given : Given b heap dst src) (depth : Nat) :
    wp (copyKernelTo b (depth + 2) dst src nonBlocking)
      (fun _ after => Copied b dst src nonBlocking heap after ↔
        ∀ v ∈ b.logical heap (src.expandAs dst.sizes),
          b.read (b.surplus dst src nonBlocking (heap.isDevice src.storage))
            (b.conversion dst src nonBlocking v) = b.conversion dst src nonBlocking v)
      (fun _ _ => True) heap :=
  wp_mono (copyKernelTo_wrote framework values given depth)
    (fun _ _ wrote => wrote.copied_iff values) fun _ _ _ => trivial

/-! ### A transposed and conjugated tensor -/

theorem gaussian_values : gaussian.Values where
  conj_conj v := by simp [gaussian]
  neg_neg v := by simp [gaussian]
  conj_neg v := by simp [gaussian]
  convert_conj dtype v := by
    simp only [gaussian]
    split <;> simp
  convert_neg dtype v := by
    simp only [gaussian]
    split <;> simp
  convert_convert dtype v := by
    simp only [gaussian]
    split <;> simp

def flipped : Tensor := { transposed with flags := { conj := true } }

/-- A tensor on a device. -/
def plain : Tensor := { conjugated with flags := {} }

/-- The elements of the first storage have the imaginary part one. -/
def filled : Heap (ℤ × ℤ) where
  memory a := if a.1 = 0 then (a.2, 1) else (0, 0)
  isDevice storage := decide (storage = 1)
  next := 2

theorem filled_given : Given gaussian filled plain flipped where
  built := by decide
  some := by decide
  typed _ _ := rfl
  mine same := absurd same (by decide)
  dstOld := by decide
  srcOld := by decide

theorem copied_iff_surplus_flipped :
    wp (copyKernelTo gaussian 2 plain flipped false)
      (fun _ after => Copied gaussian plain flipped false filled after ↔
        ∀ v ∈ gaussian.logical filled (flipped.expandAs plain.sizes),
          gaussian.read (gaussian.surplus plain flipped false (filled.isDevice flipped.storage))
            (gaussian.conversion plain flipped false v) =
              gaussian.conversion plain flipped false v)
      (fun _ _ => True) filled :=
  copied_iff_surplus gaussian_framework gaussian_values filled_given 0

theorem flipped_returns : returns (copyKernelTo gaussian 2 plain flipped false) filled = true := by
  decide

/-- The elements of a transposed and conjugated tensor arrive without their conjugation. -/
theorem flipped_conjugated_twice :
    wp (copyKernelTo gaussian 2 plain flipped false)
      (fun _ after => ¬ Copied gaussian plain flipped false filled after)
      (fun _ _ => False) filled := by
  refine wp_mono (wp_and (wp_of_returns flipped_returns)
    (copyKernelTo_wrote gaussian_framework gaussian_values filled_given 0))
    (fun _ after both copied => ?_) fun _ _ never => never.1
  have fixed := (both.2.copied_iff gaussian_values).mp copied
  exact absurd fixed (by decide)

end TorchGcu.Copy

import TorchGcu.Tensor.Copy
import TorchGcu.Tensor.StorageBounds
import Mathlib.Data.List.Perm.Basic

/-! The copies that a copy makes by way of temporaries need no temporaries themselves. -/
namespace TorchGcu.Copy
open ProgramLogic

variable {V : Type} {b : Backend V} {dst src t : Tensor} {nonBlocking : Bool}

/-- What the framework promises of tensors with elements. Two contiguous tensors of the same sizes are
contiguous for an iterator, also when one has still to be expanded, and two tensors that are so have
their elements at the same offsets, without gaps. The strides that preserve a format keep elements
apart, and are those of a tensor without gaps. -/
structure Backend.Framework (b : Backend V) : Prop where
  contiguous : ∀ {dst src : Tensor}, dst.isContiguous = true → src.isContiguous = true →
    dst.sizes = src.sizes → dst.numel ≠ 0 → b.isContiguous dst src = true
  expanded : ∀ {dst src : Tensor}, Expandable src.sizes dst.sizes → dst.numel ≠ 0 →
    dst.isContiguous = true → (src.expandAs dst.sizes).isContiguous = true →
      b.isContiguous dst src = true
  ordered : ∀ {dst src : Tensor}, Built dst src → dst.numel ≠ 0 → b.isContiguous dst src = true →
    (src.expandAs dst.sizes).positions = dst.positions ∧
      dst.positions.Perm (List.range dst.numel) ∧ src.positions.Perm (List.range src.numel)
  apart : ∀ t : Tensor, (Resize.positions t.sizes (b.preservedStrides t)).Nodup
  dense : ∀ t : Tensor, t.numel ≠ 0 → t.positions.Perm (List.range t.numel) →
    b.preservedStrides t = t.strides

/-! ### Contiguous tensors -/

/-- Consecutive runs of the same length. -/
theorem range_flatMap (count length : Nat) :
    ((List.range count).flatMap fun i => (List.range length).map (i * length + ·)) =
      List.range (count * length) := by
  induction count with
  | zero => simp
  | succ count ih =>
    rw [List.range_succ, List.flatMap_append, ih, Nat.succ_mul, List.range_add]
    simp

theorem length_positions (sizes strides : List Nat) :
    (Resize.positions sizes strides).length = Resize.numel sizes := by
  induction sizes generalizing strides with
  | nil => rfl
  | cons size sizes ih =>
    have counts : Resize.numel (size :: sizes) = size * Resize.numel sizes := rfl
    simp [Resize.positions, List.length_flatMap, ih, counts]

/-- Lists in blocks of equal lengths are equal block by block. -/
theorem flatMap_range_injective {α : Type} {count : Nat} {f g : Nat → List α}
    (lengths : ∀ i, (f i).length = (g i).length)
    (same : (List.range count).flatMap f = (List.range count).flatMap g) :
    ∀ i < count, f i = g i := by
  induction count with
  | zero => exact fun i never => absurd never (Nat.not_lt_zero i)
  | succ count ih =>
    simp only [List.range_succ, List.flatMap_append, List.flatMap_singleton] at same
    obtain ⟨first, last⟩ := List.append_inj' same (lengths count)
    intro i bound
    rcases Nat.lt_succ_iff_lt_or_eq.mp bound with earlier | rfl
    · exact ih first i earlier
    · exact last

theorem positions_contiguous (sizes : List Nat) :
    Resize.positions sizes (Resize.contiguousStrides sizes) =
      List.range (Resize.numel sizes) := by
  induction sizes with
  | nil => rfl
  | cons size sizes ih =>
    have counts : Resize.numel (size :: sizes) = size * Resize.numel sizes := rfl
    simp only [Resize.positions, Resize.contiguousStrides, List.tail_cons, List.headD_cons, ih,
      counts]
    by_cases nonempty : 0 ∈ sizes
    · simp [Resize.numel_eq_zero.mpr nonempty]
    · rw [Resize.map_max_one nonempty]
      exact range_flatMap size _

theorem positions_aligned (sizes strides : List Nat) :
    Resize.positions sizes (alignedStrides sizes strides sizes) = Resize.positions sizes strides := by
  induction sizes generalizing strides with
  | nil => rfl
  | cons size sizes ih =>
    simp only [Resize.positions, alignedStrides, if_true, List.headD_cons, List.tail_cons, ih]

/-- A tensor expanded to its own sizes. -/
theorem expandAs_self (t : Tensor) : (t.expandAs t.sizes).positions = t.positions := by
  simp only [Tensor.positions, Tensor.expandAs, Nat.sub_self, List.replicate_zero, List.nil_append,
    List.drop_zero, positions_aligned]

theorem isContiguous_iff : t.isContiguous = true ↔ t.positions = List.range t.numel := by
  simp [Tensor.isContiguous]

/-! ### The temporaries -/

/-- A temporary in contiguous memory. -/
structure Temporary (device : Device) (dtype : ScalarType) (sizes : List Nat) (t : Tensor) :
    Prop where
  contiguous : t.isContiguous = true
  device : t.device = device
  dtype : t.dtype = dtype
  sizes : t.sizes = sizes

theorem emptyLike_shape (t : Tensor) (dtype : ScalarType) (heap : Heap V) :
    wp (emptyLike t dtype) (fun fresh _ => Temporary t.device dtype t.sizes fresh)
      (fun _ _ => False) heap := by
  simp only [emptyLike, allocate, wp_bind, wp_get, wp_set, wp_pure]
  exact ⟨isContiguous_iff.mpr (positions_contiguous t.sizes), rfl, rfl, rfl⟩

theorem contiguous_shape (b : Backend V) (t : Tensor) (heap : Heap V) :
    wp (contiguous b t) (fun fresh _ => Temporary t.device t.dtype t.sizes fresh)
      (fun _ _ => False) heap := by
  rw [contiguous, wp_ite]
  refine ⟨fun already => ⟨already, rfl, rfl, rfl⟩, fun _ => ?_⟩
  simp only [allocate, write, wp_bind, wp_get, wp_set, wp_modify, wp_pure]
  exact ⟨isContiguous_iff.mpr (positions_contiguous t.sizes), rfl, rfl, rfl⟩

theorem toDtype_shape (b : Backend V) (t : Tensor) (dtype : ScalarType) (heap : Heap V) :
    wp (toDtype b t dtype)
      (fun fresh _ => fresh.device = t.device ∧ fresh.dtype = dtype ∧ fresh.sizes = t.sizes)
      (fun _ _ => False) heap := by
  rw [toDtype, wp_ite]
  refine ⟨fun same => ⟨rfl, same, rfl⟩, fun _ => ?_⟩
  simp only [allocate, write, wp_bind, wp_get, wp_set, wp_modify, wp_pure]
  exact ⟨trivial, trivial, trivial⟩

theorem dstTemporary_shape {dtype : ScalarType} {suits : Bool}
    (itself : suits = true → Temporary dst.device dtype dst.sizes dst) (heap : Heap V) :
    wp (dstTemporary dst dtype suits) (fun made _ => Temporary dst.device dtype dst.sizes made)
      (fun _ _ => False) heap := by
  rw [dstTemporary, wp_ite]
  exact ⟨itself, fun _ => emptyLike_shape dst dtype heap⟩

/-- The type of the elements that a copy by way of temporaries moves between devices. -/
def movedDtype (dst src : Tensor) (nonBlocking : Bool) : ScalarType :=
  if dst.device.isPrivateUse1 || nonBlocking then dst.dtype else src.dtype

theorem makeTemporaries_shape (b : Backend V) (dst src : Tensor) (nonBlocking : Bool)
    (heap : Heap V) :
    wp (makeTemporaries b dst src nonBlocking)
      (fun made _ =>
        Temporary dst.device (movedDtype dst src nonBlocking) dst.sizes made.1 ∧
        Temporary src.device (movedDtype dst src nonBlocking) dst.sizes made.2)
      (fun _ _ => False) heap := by
  simp only [makeTemporaries, movedDtype]
  by_cases early : (dst.device.isPrivateUse1 || nonBlocking) = true
  · simp only [early, if_true, wp_bind, wp_pure]
    refine wp_mono (dstTemporary_shape (fun suits => ⟨suits, rfl, rfl, rfl⟩) _)
      (fun dstContig _ mine => ?_) fun _ _ never => never
    refine wp_mono (toDtype_shape b src dst.dtype _) (fun converted _ same => ?_)
      fun _ _ never => never
    refine wp_mono (contiguous_shape b _ _) (fun srcContig _ other => ⟨mine, ?_⟩)
      fun _ _ never => never
    exact ⟨other.contiguous, other.device.trans same.1, other.dtype.trans same.2.1, other.sizes⟩
  · simp only [early, Bool.false_eq_true, if_false, wp_bind, wp_pure]
    refine wp_mono (dstTemporary_shape (fun suits => ?_) _) (fun dstContig _ mine => ?_)
      fun _ _ never => never
    · rw [Bool.and_eq_true, decide_eq_true_iff] at suits
      exact ⟨suits.1, rfl, suits.2, rfl⟩
    · exact wp_mono (contiguous_shape b _ _) (fun srcContig _ other => ⟨mine, other⟩)
        fun _ _ never => never

/-! ### The copies they make -/

/-- A copy that needs no further temporaries: on the host, or by the kernel itself. -/
def Direct (b : Backend V) (dst src : Tensor) : Prop :=
  dst.device = .cpu ∧ src.device = .cpu ∨
    copyRequiresTemporaries b dst src (maybeEnableP2pAccess b dst.device src.device) = pure false

theorem direct_temporaries (framework : b.Framework) {d s : Device}
    {dtype : ScalarType} {sizes : List Nat} {dstContig srcContig : Tensor}
    (mine : Temporary d dtype sizes dstContig)
    (other : Temporary s dtype sizes srcContig) (differ : d ≠ s) (some : dstContig.numel ≠ 0) :
    Direct b dstContig srcContig := by
  right
  have devices : dstContig.device ≠ srcContig.device := by
    rw [mine.device, other.device]
    exact differ
  have fits := framework.contiguous mine.contiguous other.contiguous
    (mine.sizes.trans other.sizes.symm) some
  rw [copyRequiresTemporaries, if_neg devices]
  simp only [mine.dtype, other.dtype, fits, and_self, if_true]

theorem direct_sameDevice (same : dst.device = src.device) : Direct b dst src := by
  cases device : src.device with
  | cpu => exact .inl ⟨same.trans device, device⟩
  | privateUse1 index =>
    right
    simp only [copyRequiresTemporaries, same, device, if_true, Device.isPrivateUse1, Bool.and_self,
      internalAssert]
    rfl

/-- Temporaries are for different devices only. -/
theorem requires_differ {p2pEnabled : Bool} (heap : Heap V) :
    wp (copyRequiresTemporaries b dst src p2pEnabled)
      (fun requires _ => requires = true → dst.device ≠ src.device) (fun _ _ => True) heap := by
  rw [copyRequiresTemporaries]
  by_cases same : dst.device = src.device
  · simp only [same, if_true, wp_bind]
    exact wp_intro (fun _ _ never => by cases never) fun _ _ => trivial
  · exact wp_intro (fun _ _ _ => same) fun _ _ => trivial

/-- Copies by way of temporaries depend on direct copies only, and on copies of no elements when
there are none. -/
theorem copyByTemporaries_direct (framework : b.Framework) (differ : dst.device ≠ src.device)
    {copy copy' : Tensor → Tensor → Bool → M V Unit}
    (agree : ∀ d s sync, Direct b d s ∨ dst.numel = 0 ∧ d.numel = 0 →
      copy d s sync = copy' d s sync) :
    copyByTemporaries b copy dst src nonBlocking = copyByTemporaries b copy' dst src nonBlocking := by
  refine bind_eq_of_wp fun heap => wp_mono (makeTemporaries_shape b dst src nonBlocking heap)
    (fun made heap' shapes => ?_) fun _ _ _ => trivial
  obtain ⟨dstContig, srcContig⟩ := made
  obtain ⟨mine, other⟩ := shapes
  have there := agree { dstContig with flags := dst.flags } { srcContig with flags := src.flags }
    nonBlocking (by
      have sizes : Tensor.numel { dstContig with flags := dst.flags } = dst.numel :=
        congrArg Resize.numel mine.sizes
      by_cases empty : dst.numel = 0
      · exact .inr ⟨empty, sizes.trans empty⟩
      · exact .inl (direct_temporaries framework
          ⟨mine.contiguous, mine.device, mine.dtype, mine.sizes⟩
          ⟨other.contiguous, other.device, other.dtype, other.sizes⟩ differ (sizes ▸ empty)))
  have back := agree dst { dstContig with flags := dst.flags } nonBlocking
    (.inl (direct_sameDevice mine.device.symm))
  simp only [there, back]

/-! ### The staging copies, which stay on the host -/

/-- Copies between tensors on the host are alike. -/
def AgreeOnHost (copy copy' : Tensor → Tensor → Bool → M V Unit) : Prop :=
  ∀ d s sync, d.device = .cpu → s.device = .cpu → copy d s sync = copy' d s sync

theorem Device.eq_cpu {device : Device} : device.isPrivateUse1 = false ↔ device = .cpu := by
  cases device <;> simp [Device.isPrivateUse1]

section Host
variable {copy copy' : Tensor → Tensor → Bool → M V Unit}

theorem convertHostTensor_host {host : Tensor} (cpu : host.device = .cpu)
    (agree : AgreeOnHost copy copy') :
    convertHostTensor b copy host nonBlocking = convertHostTensor b copy' host nonBlocking := by
  rw [convertHostTensor, convertHostTensor]
  split
  · refine bind_eq_of_wp fun heap => ?_
    simp only [allocate, wp_bind, wp_get, wp_set, wp_pure]
    have here := agree
      { host with
        dtype := getGcuScalarType b.hardware host.dtype, storage := heap.next, storageOffset := 0
        strides := b.preservedStrides host, flags := {} } host false cpu cpu
    rw [here]
  · rfl

theorem convertHostTensor_device (copy : Tensor → Tensor → Bool → M V Unit) (host : Tensor)
    (heap : Heap V) :
    wp (convertHostTensor b copy host nonBlocking)
      (fun converted _ => converted.device = host.device) (fun _ _ => True) heap := by
  rw [convertHostTensor, wp_ite]
  refine ⟨fun _ => ?_, fun _ => ?_⟩
  · simp only [allocate, wp_bind, wp_get, wp_set, wp_pure]
    exact wp_intro (fun _ _ => trivial) fun _ _ => trivial
  · exact wp_mono (toDtype_shape b host _ heap) (fun _ _ shape => shape.1) fun _ _ never => never.elim

theorem copyHostAndDevice_host (apart : dst.device.isPrivateUse1 ≠ src.device.isPrivateUse1)
    (agree : AgreeOnHost copy copy') :
    copyHostAndDevice b copy dst src nonBlocking = copyHostAndDevice b copy' dst src nonBlocking := by
  simp only [copyHostAndDevice]
  split
  · by_cases host : src.device = .cpu
    · rw [if_pos host, if_pos host, convertHostTensor_host host agree]
    · have cpu : dst.device = .cpu := by
        rw [← Device.eq_cpu] at host ⊢
        rw [Bool.not_eq_false] at host
        simpa [host] using apart
      rw [if_neg host, if_neg host, convertHostTensor_host cpu agree]
      refine bind_eq_of_wp fun heap => wp_mono (convertHostTensor_device copy' dst heap)
        (fun converted _ same => ?_) fun _ _ _ => trivial
      rw [agree dst converted false cpu (same.trans cpu)]
  · rfl

/-- Without temporaries the kernel makes copies on the host only. -/
theorem copyDirectly_host (agree : AgreeOnHost copy copy') :
    copyDirectly b copy dst src nonBlocking = copyDirectly b copy' dst src nonBlocking := by
  by_cases apart : dst.device.isPrivateUse1 = src.device.isPrivateUse1
  · simp only [copyDirectly, apart, bne_self_eq_false, internalAssert, Bool.false_eq_true, if_false]
    rfl
  · simp only [copyDirectly, copyHostAndDevice_host apart agree]

end Host

/-- The kernel makes direct copies only, and copies of no elements when it is run for none. -/
theorem copyKernel_direct (framework : b.Framework)
    {copy copy' : Tensor → Tensor → Bool → M V Unit}
    (agree : ∀ d s sync, Direct b d s ∨ dst.numel = 0 ∧ d.numel = 0 →
      copy d s sync = copy' d s sync) :
    copyKernel b copy dst src nonBlocking = copyKernel b copy' dst src nonBlocking := by
  refine bind_eq_of_wp fun heap => wp_mono (requires_differ heap) (fun requires heap' differ => ?_)
    fun _ _ _ => trivial
  cases requires with
  | true => simp only [if_true, copyByTemporaries_direct framework (differ rfl) agree]
  | false =>
    have host : AgreeOnHost copy copy' := fun d s sync dCpu sCpu =>
      agree d s sync (.inl (.inl ⟨dCpu, sCpu⟩))
    simp only [copyDirectly_host host, Bool.false_eq_true, if_false]

/-- The kernel when the copies that it makes may make further ones by way of a third kernel. -/
def copyKernelThrice (b : Backend V) (kernel : Tensor → Tensor → Bool → M V Unit) :
    Tensor → Tensor → Bool → M V Unit :=
  copyKernel b (copyInto b (copyKernel b (copyInto b kernel)))

/-- The third kernel is never run. -/
theorem copyKernelThrice_any (framework : b.Framework)
    (kernel kernel' : Tensor → Tensor → Bool → M V Unit) :
    copyKernelThrice b kernel dst src nonBlocking =
      copyKernelThrice b kernel' dst src nonBlocking := by
  refine copyKernel_direct framework fun d s sync direct => ?_
  simp only [copyInto]
  split
  · rfl
  · rename_i others
    rcases direct with direct | ⟨-, empty⟩
    swap
    · simp only [copyFrom, empty, if_true]
    have without := direct.resolve_left others
    have host : AgreeOnHost (copyInto b kernel) (copyInto b kernel') := by
      intro d s sync dCpu sCpu
      simp only [copyInto, dCpu, sCpu, and_self, if_true]
    simp only [copyFrom, copyKernel, without, pure_bind, Bool.false_eq_true, if_false,
      copyDirectly_host host]

/-! ### Its assertions -/

/-- The assertions about the temporaries, and copies of copies without end. -/
def temporaryAssertions : List Err :=
  [.endless, .internalAssert "dst_contig.sizes().equals(src_contig.sizes())",
   .internalAssert "dst_contig.scalar_type() == src_contig.scalar_type()",
   .internalAssert "dst_contig.device() == dst.device()"]

/-- A program that fails none of them. -/
abbrev Sound {α : Type} (m : M V α) : Prop := Raises (· ∉ temporaryAssertions) m

section Assertions
variable {copy : Tensor → Tensor → Bool → M V Unit}

theorem copyByTemporaries_sound (sound : ∀ d s sync, Sound (copy d s sync)) :
    Sound (copyByTemporaries b copy dst src nonBlocking) := by
  intro heap
  rw [copyByTemporaries, wp_bind]
  refine wp_mono (makeTemporaries_shape b dst src nonBlocking heap) (fun made heap' shapes => ?_)
    fun _ _ never => never.elim
  obtain ⟨dstContig, srcContig⟩ := made
  obtain ⟨mine, other⟩ := shapes
  have sizes : (dstContig.sizes == srcContig.sizes) = true :=
    beq_iff_eq.mpr (mine.sizes.trans other.sizes.symm)
  have dtypes : (dstContig.dtype == srcContig.dtype) = true :=
    beq_iff_eq.mpr (mine.dtype.trans other.dtype.symm)
  have devices : (dstContig.device == dst.device) = true := beq_iff_eq.mpr mine.device
  simp only [sizes, dtypes, devices, internalAssert, if_true, wp_bind, wp_pure]
  refine wp_mono (sound _ _ _ heap') (fun _ heap'' _ => ?_) fun _ _ raised => raised
  rw [wp_ite]
  exact ⟨fun _ => sound _ _ _ heap'', fun _ => trivial⟩

theorem write_sound (t : Tensor) (values : List V) : Sound (write t values) := .modify _

theorem memcpy_sound (numel : Nat) : Sound (memcpy dst src numel : M V Unit) :=
  .bind .get fun _ => .set _

theorem topsatenCopy_sound : Sound (topsatenCopy b dst src) :=
  .bind .get fun _ => write_sound _ _

theorem torchCheck_sound {α : Type} (message : String) :
    Sound (throw (.torchCheck message) : M V α) := .throw (by simp [temporaryAssertions])

theorem copyDeviceToDevice_sound : Sound (copyDeviceToDevice b dst src) := by
  simp only [copyDeviceToDevice]
  refine .ite ?_ (.ite ?_ (.ite (torchCheck_sound _) (torchCheck_sound _)))
  · exact .ite (memcpy_sound _) (.ite topsatenCopy_sound (.pure _))
  · exact .ite (.bind (torchCheck_sound _) fun _ => topsatenCopy_sound) topsatenCopy_sound

theorem allocate_sound (t : Tensor) : Sound (allocate t : M V Tensor) :=
  .bind .get fun _ => .bind (.set _) fun _ => .pure _

theorem convertHostTensor_sound (sound : ∀ d s sync, Sound (copy d s sync)) (host : Tensor) :
    Sound (convertHostTensor b copy host nonBlocking) := by
  refine .ite (.bind (allocate_sound _) fun _ => .bind (sound _ _ _) fun _ => .pure _) ?_
  exact .ite (.pure _) (.bind .get fun _ => .bind (allocate_sound _) fun _ =>
    .bind (write_sound _ _) fun _ => .pure _)

theorem repairFlags_sound : Sound (repairFlags b dst src) := by
  have last : Sound (if dst.flags.neg ≠ src.flags.neg then negInPlace b dst else pure ()) :=
    .ite (.bind .get fun _ => write_sound _ _) (.pure _)
  exact .ite (.bind (.bind .get fun _ => write_sound _ _) fun _ => last) last

theorem copyHostAndDevice_sound (sound : ∀ d s sync, Sound (copy d s sync)) :
    Sound (copyHostAndDevice b copy dst src nonBlocking) := by
  refine .ite (.ite ?_ ?_) (.bind (memcpy_sound _) fun _ => repairFlags_sound)
  · exact .bind (convertHostTensor_sound sound src) fun _ => .bind (memcpy_sound _) fun _ =>
      repairFlags_sound
  · exact .bind (convertHostTensor_sound sound dst) fun _ => .bind (memcpy_sound _) fun _ =>
      .bind (sound _ _ _) fun _ => repairFlags_sound

theorem internalAssert_sound (condition : Bool) {message : String}
    (other : Err.internalAssert message ∉ temporaryAssertions) :
    Sound (internalAssert condition message : M V Unit) := .ite (.pure _) (.throw other)

theorem copyDirectly_sound (sound : ∀ d s sync, Sound (copy d s sync)) :
    Sound (copyDirectly b copy dst src nonBlocking) :=
  .bind .get fun _ => .ite copyDeviceToDevice_sound
    (.bind (internalAssert_sound _ (by decide)) fun _ => copyHostAndDevice_sound sound)

theorem copyRequiresTemporaries_sound (p2pEnabled : Bool) :
    Sound (copyRequiresTemporaries b dst src p2pEnabled) :=
  .ite (.bind (internalAssert_sound _ (by decide)) fun _ => .pure _)
    (.ite (.pure _) (.ite (.pure _) (.pure _)))

/-- The kernel fails none of them by itself. -/
theorem copyKernel_sound (sound : ∀ d s sync, Sound (copy d s sync)) :
    Sound (copyKernel b copy dst src nonBlocking) :=
  .bind (copyRequiresTemporaries_sound _) fun _ =>
    .ite (copyByTemporaries_sound sound) (copyDirectly_sound sound)

end Assertions

theorem copyInto_sound {kernel : Tensor → Tensor → Bool → M V Unit}
    (sound : ∀ d s sync, Sound (kernel d s sync)) :
    Sound (copyInto b kernel dst src nonBlocking) := by
  have last : Sound (if dst.numel = 0 then pure () else kernel dst src nonBlocking) :=
    .ite (.pure _) (sound _ _ _)
  refine .ite (.bind .get fun _ => write_sound _ _) (.ite (.pure _) (.ite ?_ last))
  exact .bind (.throw (by decide)) fun _ => last

/-- The kernel makes copies on the host and copies that need no temporaries, so that one copy
within a copy is as deep as it gets, and its assertions about the temporaries hold. -/
theorem copies_never_endless (framework : b.Framework) (dst src : Tensor) (nonBlocking : Bool) :
    (∀ copy copy' : Tensor → Tensor → Bool → M V Unit,
      (∀ d s sync, Direct b d s ∨ dst.numel = 0 ∧ d.numel = 0 →
        copy d s sync = copy' d s sync) →
          copyKernel b copy dst src nonBlocking = copyKernel b copy' dst src nonBlocking) ∧
    (∀ depth, copyKernelTo b (depth + 2) dst src nonBlocking =
      copyKernelTo b 2 dst src nonBlocking) ∧
    ∀ depth, Sound (copyKernelTo b (depth + 2) dst src nonBlocking) := by
  refine ⟨fun _ _ agree => copyKernel_direct framework agree,
    fun depth => copyKernelThrice_any framework _ _, fun depth => ?_⟩
  have replaced : copyKernelTo b (depth + 2) dst src nonBlocking =
      copyKernelThrice b (fun _ _ _ => pure ()) dst src nonBlocking :=
    copyKernelThrice_any framework _ _
  rw [replaced]
  exact copyKernel_sound fun _ _ _ => copyInto_sound fun _ _ _ =>
    copyKernel_sound fun _ _ _ => copyInto_sound fun _ _ _ => .pure _

/-! ### A backend -/

def isComplex : ScalarType → Bool
  | .complexHalf | .complexFloat | .complexDouble => true
  | _ => false

/-- Complex integers, which a real type holds the real parts of. -/
def gaussian : Backend (ℤ × ℤ) where
  hardware := {}
  conj v := (v.1, -v.2)
  neg v := (-v.1, -v.2)
  convert dtype v := if isComplex dtype then v else (v.1, 0)
  isContiguous dst src := decide ((src.expandAs dst.sizes).positions = dst.positions ∧
    dst.positions.Perm (List.range dst.numel) ∧ src.positions.Perm (List.range src.numel))
  preservedStrides t :=
    if t.positions.Perm (List.range t.numel) then t.strides else Resize.contiguousStrides t.sizes
  getP2pAccess _ _ := false
  isPinned _ := false

/-- When dimensions of size one are repeated, the elements are in order only if nothing was. -/
theorem aligned_range {sizes targets : List Nat}
    (expandable : List.Forall₂ (fun size target => size = target ∨ size = 1) sizes targets)
    (strides : List Nat) (some : Resize.numel targets ≠ 0)
    (ordered : Resize.positions targets (alignedStrides sizes strides targets) =
      List.range (Resize.numel targets)) :
    Resize.numel sizes = Resize.numel targets ∧
      Resize.positions sizes strides = List.range (Resize.numel sizes) := by
  induction expandable generalizing strides with
  | nil => exact ⟨rfl, rfl⟩
  | @cons size target sizes targets here rest ih =>
    have counts : Resize.numel (target :: targets) = target * Resize.numel targets := rfl
    have mine : Resize.numel (size :: sizes) = size * Resize.numel sizes := rfl
    rw [counts] at some ordered
    obtain ⟨nonzero, more⟩ := Nat.mul_ne_zero_iff.mp some
    rw [← range_flatMap] at ordered
    have blocks := flatMap_range_injective (fun i => by simp [length_positions]) ordered
    simp only [alignedStrides, List.headD_cons, List.tail_cons] at blocks
    have first : Resize.positions targets (alignedStrides sizes strides.tail targets) =
        List.range (Resize.numel targets) := by
      simpa using blocks 0 (Nat.pos_of_ne_zero nonzero)
    obtain ⟨numel, positions⟩ := ih strides.tail more first
    by_cases same : size = target
    · refine ⟨by rw [mine, counts, same, numel], ?_⟩
      rw [mine, ← range_flatMap, Resize.positions, positions]
      refine List.flatMap_congr fun i inside => ?_
      have block := blocks i (by rw [← same]; exact List.mem_range.mp inside)
      rw [if_pos same, first, ← numel] at block
      exact block
    · have one : size = 1 := here.resolve_left same
      have second := blocks 1 (by omega)
      rw [if_neg same, first] at second
      have shifted := List.map_inj_left.mp second 0 (List.mem_range.mpr (Nat.pos_of_ne_zero more))
      omega

theorem expandAs_range (expandable : Expandable src.sizes dst.sizes) (some : dst.numel ≠ 0)
    (ordered : (src.expandAs dst.sizes).positions = List.range dst.numel) :
    src.positions = List.range src.numel := by
  have added : ∀ (count : Nat) (targets strides : List Nat), Resize.numel targets ≠ 0 →
      count ≤ targets.length →
      Resize.positions targets (List.replicate count 0 ++ strides) =
        List.range (Resize.numel targets) →
      Resize.numel (targets.drop count) ≠ 0 ∧ Resize.positions (targets.drop count) strides =
        List.range (Resize.numel (targets.drop count)) := by
    intro count
    induction count with
    | zero => exact fun targets strides some _ ordered => ⟨some, ordered⟩
    | succ count ih =>
      intro targets strides some short ordered
      cases targets with
      | nil => simp at short
      | cons target targets =>
        have counts : Resize.numel (target :: targets) = target * Resize.numel targets := rfl
        rw [counts] at some ordered
        obtain ⟨nonzero, more⟩ := Nat.mul_ne_zero_iff.mp some
        rw [← range_flatMap] at ordered
        have blocks := flatMap_range_injective (fun i => by simp [length_positions]) ordered
        have first := blocks 0 (Nat.pos_of_ne_zero nonzero)
        exact ih targets strides more (Nat.le_of_succ_le_succ short)
          (by simpa [List.replicate_succ] using first)
  obtain ⟨more, inner⟩ := added _ dst.sizes _ some (Nat.sub_le _ _) ordered
  exact (aligned_range expandable.2 src.strides more inner).2

theorem gaussian_framework : gaussian.Framework where
  contiguous {dst src} mine other sizes _ := by
    rw [isContiguous_iff] at mine other
    have numel : src.numel = dst.numel := by rw [Tensor.numel, Tensor.numel, sizes]
    have same : (src.expandAs dst.sizes).positions = src.positions := by
      rw [sizes]
      exact expandAs_self src
    refine decide_eq_true ⟨?_, ?_, ?_⟩
    · rw [same, other, mine, numel]
    · rw [mine]
    · rw [other]
  expanded {dst src} expandable some mine other := by
    rw [isContiguous_iff] at mine other
    have ordered : (src.expandAs dst.sizes).positions = List.range dst.numel := other
    refine decide_eq_true ⟨ordered.trans mine.symm, ?_, ?_⟩
    · rw [mine]
    · rw [expandAs_range expandable some ordered]
  ordered _ _ answer := of_decide_eq_true answer
  apart t := by
    simp only [gaussian]
    split
    · rename_i perm
      exact perm.nodup_iff.mpr List.nodup_range
    · rw [positions_contiguous]
      exact List.nodup_range
  dense t _ perm := if_pos perm

/-- A transposed tensor on the host. -/
def transposed : Tensor where
  device := .cpu
  dtype := .complexFloat
  storage := 0
  sizes := [2, 2]
  strides := [1, 2]

/-- A conjugated tensor on a device. -/
def conjugated : Tensor where
  device := .privateUse1 0
  dtype := .complexFloat
  storage := 1
  sizes := [2, 2]
  strides := [2, 1]
  flags := { conj := true }

theorem copies_never_endless_transposed :
    (∀ copy copy' : Tensor → Tensor → Bool → M (ℤ × ℤ) Unit,
      (∀ d s sync, Direct gaussian d s ∨ transposed.numel = 0 ∧ d.numel = 0 →
        copy d s sync = copy' d s sync) →
          copyKernel gaussian copy transposed conjugated false =
            copyKernel gaussian copy' transposed conjugated false) ∧
    (∀ depth, copyKernelTo gaussian (depth + 2) transposed conjugated false =
      copyKernelTo gaussian 2 transposed conjugated false) ∧
    ∀ depth, Sound (copyKernelTo gaussian (depth + 2) transposed conjugated false) :=
  copies_never_endless gaussian_framework transposed conjugated false

end TorchGcu.Copy

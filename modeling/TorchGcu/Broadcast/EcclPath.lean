import TorchGcu.Broadcast.DeviceBroadcast

/-! When a broadcast by the collective library leaves what copies leave. -/
namespace TorchGcu.Broadcast

variable {hardware : Hardware} (framework : Framework hardware)

/-! ### The bytes that are moved -/

theorem overwrite_eq (count : Nat) (source target : List UInt8)
    (lengths : source.length = target.length) :
    overwrite count source target = source.take count ++ target.drop count := by
  induction count, source, target using overwrite.induct with
  | case1 count byte source _ target ih =>
    simp [overwrite, ih (Nat.succ.inj lengths)]
  | case2 count source target other =>
    rw [overwrite]
    · cases count with
      | zero => simp
      | succ count =>
        cases target with
        | nil => simp [List.length_eq_zero_iff.mp lengths]
        | cons byte target =>
          cases source with
          | nil => cases lengths
          | cons first source => exact absurd rfl (other _ _ _ _ _ rfl rfl)
    · exact other

/-- The bytes behind those that are moved decide whether the target gets all of the source. -/
theorem overwrite_eq_source (count : Nat) {source target : List UInt8}
    (lengths : source.length = target.length) :
    overwrite count source target = source ↔ target.drop count = source.drop count := by
  rw [overwrite_eq count source target lengths]
  constructor
  · intro whole
    have split : source.take count ++ target.drop count =
        source.take count ++ source.drop count := whole.trans (List.take_append_drop _ _).symm
    exact List.append_cancel_left split
  · intro same
    rw [same, List.take_append_drop]

/-- A named type has the size of the elements in memory, but for integers of 64 bits. -/
theorem size_ecclDataType {dtype : ScalarType} {dataType : EcclDataType}
    (narrow : ¬(hardware.enableInt64AndUint64 = true ∧ dtype = .long))
    (named : getEcclDataType dtype false = .ok dataType) :
    dataType.size = deviceElementSize hardware dtype := by
  cases enabled : hardware.enableInt64AndUint64 <;> cases dtype <;>
    simp_all [getEcclDataType, fp8, ecclDataType, deviceElementSize, getGcuScalarType,
      isNarrowType, getNarrowType, elementSize] <;> subst named <;> rfl

/-! ### The tensors that the library takes -/

theorem isAvailableWith_iff (devices : List Int) (tensors : List (Tensor hardware)) :
    isAvailableWith devices tensors = true ↔
      (∀ t ∈ tensors, t.isGcu = true ∧ t.isContiguous = true ∧ t.device ∉ devices) ∧
        (tensors.map (·.device)).Nodup := by
  induction tensors generalizing devices with
  | nil => simp [isAvailableWith]
  | cons t tensors ih =>
    rw [isAvailableWith]
    cases gcu : t.isGcu with
    | false => simp [gcu]
    | true =>
      cases contiguous : t.isContiguous with
      | false => simp [contiguous]
      | true =>
        by_cases seen : t.device ∈ devices
        · simp [seen]
        · simp only [List.contains_iff_mem, seen, Bool.not_true, Bool.false_eq_true, if_false, ih,
            List.mem_cons, not_or, forall_eq_or_imp, gcu, contiguous, List.map_cons,
            List.nodup_cons, List.mem_map, not_exists, not_and, true_and, not_false_eq_true]
          constructor
          · rintro ⟨rest, distinct⟩
            exact ⟨fun other inside => ⟨(rest other inside).1, (rest other inside).2.1,
              (rest other inside).2.2.2⟩, fun other inside => (rest other inside).2.2.1, distinct⟩
          · rintro ⟨rest, apart, distinct⟩
            exact ⟨fun other inside => ⟨(rest other inside).1, (rest other inside).2.1,
              apart other inside, (rest other inside).2.2⟩, distinct⟩

/-- What the checks of the inputs add to what is known of available tensors. -/
theorem checkEach_available {refNumel : Nat} {refDtype : ScalarType} {devices : List Int}
    {tensors : List (Tensor hardware)} (available : isAvailableWith devices tensors = true)
    (counts : ∀ t ∈ tensors, t.numel = refNumel) :
    checkEach 1 1 refNumel refDtype devices (tensors.zip tensors) =
      if ∀ t ∈ tensors, t.dtype = refDtype then .ok ()
      else .error (.runtimeError "all inputs and outputs must be of the same Tensor dtype") := by
  induction tensors generalizing devices with
  | nil => simp [checkEach]
  | cons t tensors ih =>
    have known := (isAvailableWith_iff devices (t :: tensors)).mp available
    obtain ⟨gcu, contiguous, unseen⟩ := known.1 t List.mem_cons_self
    have rest : isAvailableWith (t.device :: devices) tensors = true := by
      simpa [isAvailableWith, gcu, contiguous, unseen] using available
    have count := counts t List.mem_cons_self
    have later := ih rest fun other inside => counts other (List.mem_cons_of_mem _ inside)
    by_cases same : refDtype = t.dtype
    · have one : checkOne refDtype t = .ok () := by
        simp [checkOne, gcu, contiguous, same]
        rfl
      simp only [List.zip_cons_cons, checkEach, checkTensor, one, count]
      simpa [bind, Except.bind, pure, Except.pure, unseen, same.symm] using later
    · have one : checkOne refDtype t = .error
          (.runtimeError "all inputs and outputs must be of the same Tensor dtype") := by
        simp [checkOne, gcu, same]
        rfl
      have differ : ¬∀ other ∈ t :: tensors, other.dtype = refDtype :=
        fun all => same (all t List.mem_cons_self).symm
      rw [if_neg differ]
      simp only [List.zip_cons_cons, checkEach, checkTensor, one]
      rfl

theorem checkInputs_available {tensor : Tensor hardware} {outs : List (Tensor hardware)}
    (available : isAvailable (tensor :: outs) = true)
    (sizes : ∀ out ∈ outs, out.sizes = tensor.sizes) :
    checkInputs (tensor :: outs) (tensor :: outs) 1 1 =
      if ∀ out ∈ outs, out.dtype = tensor.dtype then .ok ()
      else .error (.runtimeError "all inputs and outputs must be of the same Tensor dtype") := by
  have counts : ∀ t ∈ tensor :: outs, t.numel = tensor.numel := by
    intro t inside
    rcases List.mem_cons.mp inside with rfl | inside
    · rfl
    · rw [Tensor.numel, sizes t inside, Tensor.numel]
  have checked := @checkEach_available hardware tensor.numel tensor.dtype [] _ available counts
  simp only [List.mem_cons, forall_eq_or_imp, true_and] at checked
  simpa [checkInputs, bind, Except.bind] using checked

/-! ### Broadcasts to given tensors -/

/-- What the framework promises of a copy between tensors of the same sizes. -/
structure Framework.Copies (framework : Framework hardware) : Prop where
  layout : ∀ out tensor : Tensor hardware, out.sizes = tensor.sizes →
    (framework.copy out tensor).device = out.device ∧ (framework.copy out tensor).dtype = out.dtype ∧
      (framework.copy out tensor).sizes = out.sizes ∧
      (framework.copy out tensor).strides = out.strides
  data : ∀ out tensor : Tensor hardware, out.sizes = tensor.sizes → out.dtype = tensor.dtype →
    (framework.copy out tensor).data = tensor.data

/-- The library has a name for the elements of the tensor, takes as many as there are, and the
outputs have the type of the tensor and hold, behind the bytes that are moved, the bytes of the
tensor already. -/
structure Fits (tensor : Tensor hardware) (outs : List (Tensor hardware)) : Prop where
  dtype : ∀ out ∈ outs, out.dtype = tensor.dtype
  count : tensor.numel ≤ framework.countMax
  named : ∃ dataType, getEcclDataType tensor.dtype false = .ok dataType ∧
    ∀ out ∈ outs, out.data.drop (tensor.numel * dataType.size) =
      tensor.data.drop (tensor.numel * dataType.size)

theorem Tensor.ext {t other : Tensor hardware} (device : t.device = other.device)
    (dtype : t.dtype = other.dtype) (sizes : t.sizes = other.sizes)
    (strides : t.strides = other.strides) (data : t.data = other.data) : t = other := by
  cases t
  cases other
  simp_all

variable {framework}

theorem ecclBroadcast_eq_copy (copies : framework.Copies) {tensor out : Tensor hardware}
    (sizes : out.sizes = tensor.sizes) (dtype : out.dtype = tensor.dtype)
    (dataType : EcclDataType) :
    ecclBroadcast tensor tensor.numel dataType out = framework.copy out tensor ↔
      out.data.drop (tensor.numel * dataType.size) =
        tensor.data.drop (tensor.numel * dataType.size) := by
  have lengths : tensor.data.length = out.data.length := by
    rw [tensor.full, out.full, sizes, dtype]
  have layout := copies.layout out tensor sizes
  have data := copies.data out tensor sizes dtype
  rw [← overwrite_eq_source _ lengths]
  constructor
  · intro same
    have moved := congrArg Tensor.data same
    exact moved.trans data
  · intro whole
    exact Tensor.ext layout.1.symm layout.2.1.symm layout.2.2.1.symm layout.2.2.2.symm
      (whole.trans data.symm)

theorem innerBroadcast_of_dtypes {tensor : Tensor hardware} {outs : List (Tensor hardware)}
    (available : isAvailable (tensor :: outs) = true)
    (sizes : ∀ out ∈ outs, out.sizes = tensor.sizes)
    (same : ∀ out ∈ outs, out.dtype = tensor.dtype) :
    innerBroadcast framework (tensor :: outs) = (do
      let dataType ← getEcclDataType tensor.dtype false
      if framework.countMax < tensor.numel then
        throw (.terminated (s!"Broadcast tensor has {tensor.numel} elements, which exceeds the " ++
          s!"maximum ECCL supports ({framework.countMax})"))
      return (tensor :: outs).map (ecclBroadcast tensor tensor.numel dataType)) := by
  rw [innerBroadcast, checkInputs_available available sizes, if_pos same]
  rfl

/-- The library leaves what copies leave exactly where the tensors fit. -/
theorem broadcastOutImpl_eq_iff (copies : framework.Copies) {tensor : Tensor hardware}
    {outs : List (Tensor hardware)} (sizes : ∀ out ∈ outs, out.sizes = tensor.sizes) :
    broadcastOutImpl framework true tensor outs = broadcastOutImpl framework false tensor outs ↔
      (isAvailable (tensor :: outs) = true → Fits framework tensor outs) := by
  have plain : broadcastOutImpl framework false tensor outs =
      .ok (outs.map (framework.copy · tensor)) := rfl
  rw [plain]
  by_cases available : isAvailable (tensor :: outs) = true
  · simp only [broadcastOutImpl, available, Bool.and_self, if_true, true_implies]
    by_cases same : ∀ out ∈ outs, out.dtype = tensor.dtype
    · rw [innerBroadcast_of_dtypes available sizes same]
      cases named : getEcclDataType tensor.dtype false with
      | error stop =>
        refine ⟨fun equal => (by cases equal), fun fits => ?_⟩
        obtain ⟨dataType, found, -⟩ := fits.named
        rw [named] at found
        cases found
      | ok dataType =>
        by_cases many : framework.countMax < tensor.numel
        · refine ⟨fun equal => ?_, fun fits => absurd fits.count (Nat.not_le.mpr many)⟩
          simp only [many, if_true] at equal
          cases equal
        · have each : outs.map (ecclBroadcast tensor tensor.numel dataType) =
              outs.map (framework.copy · tensor) ↔
                ∀ out ∈ outs, out.data.drop (tensor.numel * dataType.size) =
                  tensor.data.drop (tensor.numel * dataType.size) := by
            rw [List.map_inj_left]
            refine forall₂_congr fun out inside => ?_
            exact ecclBroadcast_eq_copy copies (sizes out inside) (same out inside) dataType
          simp only [many, if_false]
          constructor
          · intro equal
            have lists := Except.ok.inj equal
            exact ⟨same, Nat.not_lt.mp many, dataType, named, each.mp lists⟩
          · intro fits
            obtain ⟨found, isNamed, behind⟩ := fits.named
            cases named.symm.trans isNamed
            exact congrArg Except.ok (each.mpr behind)
    · refine ⟨fun equal => ?_, fun fits => absurd fits.dtype same⟩
      rw [innerBroadcast, checkInputs_available available sizes, if_neg same] at equal
      cases equal
  · simp [broadcastOutImpl, available]

end TorchGcu.Broadcast

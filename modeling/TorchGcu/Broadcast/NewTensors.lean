import TorchGcu.Broadcast.EcclPath

/-! Broadcasts to new tensors on a list of devices. -/
namespace TorchGcu.Broadcast
open Resize (contiguousStrides)

variable {hardware : Hardware} {framework : Framework hardware}

/-- The new tensors of a broadcast. -/
def newTensors (memory : Int → Nat → UInt8) (tensor : Tensor hardware) (devices : List Int) :
    List (Tensor hardware) :=
  (devices.filter (· ≠ tensor.device)).map fun device => tensor.emptyLike device (memory device)

theorem newTensors_sizes {memory : Int → Nat → UInt8} {tensor : Tensor hardware}
    {devices : List Int} : ∀ out ∈ newTensors memory tensor devices, out.sizes = tensor.sizes := by
  intro out inside
  obtain ⟨device, -, rfl⟩ := List.mem_map.mp inside
  rfl

theorem differentDevices_eq (memory : Int → Nat → UInt8) (tensor : Tensor hardware)
    {devices : List Int} (valid : ∀ device ∈ devices, 0 ≤ device) :
    differentDevices memory tensor devices = .ok (newTensors memory tensor devices) := by
  induction devices with
  | nil => rfl
  | cons device devices ih =>
    have later := ih fun other inside => valid other (List.mem_cons_of_mem _ inside)
    have nonneg : 0 ≤ device := valid device List.mem_cons_self
    by_cases own : device = tensor.device
    · subst own
      simp [differentDevices, nonneg, later, bind, Except.bind, pure, Except.pure, newTensors]
    · simp [differentDevices, nonneg, later, bind, Except.bind, pure, Except.pure, newTensors, own]

theorem differentDevices_negative {devices : List Int}
    (negative : ∃ device ∈ devices, device < 0) :
    ∃ stop, ∀ (memory : Int → Nat → UInt8) (tensor : Tensor hardware),
      differentDevices memory tensor devices = .error stop := by
  induction devices with
  | nil => simp at negative
  | cons device devices ih =>
    by_cases first : device < 0
    · exact ⟨_, fun memory tensor => by simp only [differentDevices, first, if_true]; rfl⟩
    · have later : ∃ other ∈ devices, other < 0 := by simpa [first] using negative
      obtain ⟨stop, stops⟩ := ih later
      exact ⟨stop, fun memory tensor => by
        simp [differentDevices, first, stops, bind, Except.bind]⟩

/-- The results are the outputs in the places of the other devices. -/
theorem collect_eq (tensor : Tensor hardware) (f : Int → Tensor hardware) (devices : List Int) :
    collect tensor devices ((devices.filter (· ≠ tensor.device)).map f) =
      some (devices.map fun device => if device ≠ tensor.device then f device else tensor, []) := by
  induction devices with
  | nil => rfl
  | cons device devices ih =>
    by_cases own : device = tensor.device
    · simp only [collect, own, ne_eq, not_true_eq_false, if_false, decide_false, Bool.false_eq_true,
        not_false_eq_true, List.filter_cons_of_neg, List.map_cons]
      rw [ih]
      simp
    · simp only [collect, own, ne_eq, not_false_eq_true, if_true, decide_true,
        List.filter_cons_of_pos, List.map_cons]
      rw [ih]
      simp

/-! ### What arrives in an output -/

/-- What a broadcast to given tensors leaves in one of them. -/
def arrived (framework : Framework hardware) (eccl : Bool) (tensor : Tensor hardware)
    (outs : List (Tensor hardware)) (out : Tensor hardware) : Tensor hardware :=
  if eccl && isAvailable (tensor :: outs) then
    match getEcclDataType tensor.dtype false with
    | .ok dataType => ecclBroadcast tensor tensor.numel dataType out
    | .error _ => out
  else framework.copy out tensor

theorem broadcastOutImpl_ok {eccl : Bool} {tensor : Tensor hardware}
    {outs results : List (Tensor hardware)} (sizes : ∀ out ∈ outs, out.sizes = tensor.sizes)
    (ran : broadcastOutImpl framework eccl tensor outs = .ok results) :
    results = outs.map (arrived framework eccl tensor outs) := by
  by_cases taken : (eccl && isAvailable (tensor :: outs)) = true
  · have available : isAvailable (tensor :: outs) = true := by simp_all
    by_cases same : ∀ out ∈ outs, out.dtype = tensor.dtype
    · simp only [broadcastOutImpl, taken, if_true, innerBroadcast_of_dtypes available sizes same]
        at ran
      cases named : getEcclDataType tensor.dtype false with
      | error stop =>
        rw [named] at ran
        cases ran
      | ok dataType =>
        rw [named] at ran
        by_cases many : framework.countMax < tensor.numel
        · simp only [many, if_true] at ran
          cases ran
        · simp only [many, if_false] at ran
          cases ran
          refine List.map_congr_left fun out _ => ?_
          simp only [arrived, taken, if_true, named]
    · simp only [broadcastOutImpl, taken, if_true, innerBroadcast,
        checkInputs_available available sizes, if_neg same] at ran
      cases ran
  · simp only [broadcastOutImpl, taken] at ran
    cases ran
    exact List.map_congr_left fun out _ => by simp [arrived, taken]

theorem arrived_layout (copies : framework.Copies) (eccl : Bool) {tensor out : Tensor hardware}
    (outs : List (Tensor hardware)) (sizes : out.sizes = tensor.sizes) :
    (arrived framework eccl tensor outs out).device = out.device ∧
      (arrived framework eccl tensor outs out).dtype = out.dtype ∧
      (arrived framework eccl tensor outs out).sizes = out.sizes ∧
      (arrived framework eccl tensor outs out).strides = out.strides := by
  unfold arrived
  split
  · split <;> exact ⟨rfl, rfl, rfl, rfl⟩
  · exact copies.layout out tensor sizes

/-- What a broadcast to devices leaves on one of them. -/
def landed (framework : Framework hardware) (eccl : Bool) (memory : Int → Nat → UInt8)
    (tensor : Tensor hardware) (devices : List Int) (device : Int) : Tensor hardware :=
  if device ≠ tensor.device then
    arrived framework eccl tensor (newTensors memory tensor devices)
      (tensor.emptyLike device (memory device))
  else tensor

theorem broadcast_eq (eccl : Bool) (memory : Int → Nat → UInt8) (tensor : Tensor hardware)
    {devices : List Int} (valid : ∀ device ∈ devices, 0 ≤ device) :
    broadcast framework eccl memory tensor devices =
      (broadcastOutImpl framework eccl tensor (newTensors memory tensor devices)).map fun _ =>
        devices.map (landed framework eccl memory tensor devices) := by
  simp only [broadcast, differentDevices_eq memory tensor valid, bind, Except.bind]
  cases ran : broadcastOutImpl framework eccl tensor (newTensors memory tensor devices) with
  | error stop => rfl
  | ok results =>
    have arrive := broadcastOutImpl_ok newTensors_sizes ran
    rw [newTensors, List.map_map] at arrive
    have collected := collect_eq tensor
      (arrived framework eccl tensor (newTensors memory tensor devices) ∘
        fun device => tensor.emptyLike device (memory device)) devices
    simp only [newTensors] at collected arrive
    rw [← arrive] at collected
    simp only [collected]
    rfl

/-- A negative device ends every broadcast in one way. -/
theorem broadcast_negative {devices : List Int} (negative : ∃ device ∈ devices, device < 0) :
    ∃ stop, ∀ (eccl : Bool) (memory : Int → Nat → UInt8) (tensor : Tensor hardware),
      broadcast framework eccl memory tensor devices = .error stop := by
  obtain ⟨stop, stops⟩ := @differentDevices_negative hardware devices negative
  exact ⟨stop, fun eccl memory tensor => by simp only [broadcast, stops]; rfl⟩

/-- A tensor on the device with the sizes, the type and the values of the source. -/
structure IsCopy (source : Tensor hardware) (device : Int) (t : Tensor hardware) : Prop where
  device : t.device = device
  sizes : t.sizes = source.sizes
  dtype : t.dtype = source.dtype
  data : t.data = source.data

theorem landed_plain (copies : framework.Copies) (memory : Int → Nat → UInt8)
    (tensor : Tensor hardware) (devices : List Int) (device : Int) :
    IsCopy tensor device (landed framework false memory tensor devices device) := by
  by_cases own : device = tensor.device
  · simp only [landed, own, ne_eq, not_true_eq_false, if_false]
    exact ⟨rfl, rfl, rfl, rfl⟩
  · have layout := copies.layout (tensor.emptyLike device (memory device)) tensor rfl
    have data := copies.data (tensor.emptyLike device (memory device)) tensor rfl rfl
    simp only [landed, own, ne_eq, not_false_eq_true, if_true, arrived, Bool.false_and,
      Bool.false_eq_true, if_false]
    exact ⟨layout.1, layout.2.2.1, layout.2.1, data⟩

theorem landed_layout (copies : framework.Copies) (eccl : Bool) (memory : Int → Nat → UInt8)
    (tensor : Tensor hardware) (devices : List Int) (device : Int) :
    (landed framework eccl memory tensor devices device).device = device ∧
      (landed framework eccl memory tensor devices device).dtype = tensor.dtype ∧
      (landed framework eccl memory tensor devices device).sizes = tensor.sizes ∧
      (landed framework eccl memory tensor devices device).strides =
        if device ≠ tensor.device then contiguousStrides tensor.sizes else tensor.strides := by
  by_cases own : device = tensor.device
  · simp [landed, own]
  · have sizes : (tensor.emptyLike device (memory device)).sizes = tensor.sizes := rfl
    have layout := arrived_layout copies eccl (newTensors memory tensor devices) sizes
    simp only [landed, own, ne_eq, not_false_eq_true, if_true]
    exact layout

/-- What is left on a device is what copies leave when it has the values. -/
theorem landed_eq_iff (copies : framework.Copies) (eccl : Bool) (memory : Int → Nat → UInt8)
    (tensor : Tensor hardware) (devices : List Int) (device : Int) :
    landed framework eccl memory tensor devices device =
        landed framework false memory tensor devices device ↔
      (landed framework eccl memory tensor devices device).data = tensor.data := by
  have layout := landed_layout copies eccl memory tensor devices device
  have plain := landed_layout copies false memory tensor devices device
  have data := (landed_plain copies memory tensor devices device).data
  constructor
  · intro same
    rw [same, data]
  · intro same
    exact Tensor.ext (layout.1.trans plain.1.symm) (layout.2.1.trans plain.2.1.symm)
      (layout.2.2.1.trans plain.2.2.1.symm) (layout.2.2.2.trans plain.2.2.2.symm)
      (same.trans data.symm)

theorem broadcast_ok {eccl : Bool} {memory : Int → Nat → UInt8} {tensor : Tensor hardware}
    {devices : List Int} {results : List (Tensor hardware)}
    (valid : ∀ device ∈ devices, 0 ≤ device)
    (ran : broadcast framework eccl memory tensor devices = .ok results) :
    results = devices.map (landed framework eccl memory tensor devices) := by
  rw [broadcast_eq eccl memory tensor valid] at ran
  cases inner : broadcastOutImpl framework eccl tensor (newTensors memory tensor devices) with
  | error stop =>
    rw [inner] at ran
    cases ran
  | ok outs =>
    rw [inner] at ran
    exact (Except.ok.inj ran).symm

theorem broadcast_plain (memory : Int → Nat → UInt8) (tensor : Tensor hardware)
    {devices : List Int} (valid : ∀ device ∈ devices, 0 ≤ device) :
    broadcast framework false memory tensor devices =
      .ok (devices.map (landed framework false memory tensor devices)) := by
  rw [broadcast_eq false memory tensor valid]
  rfl

/-- Whether the library, where it takes a tensor and its new tensors, leaves copies. -/
def Good (framework : Framework hardware) (memory : Int → Nat → UInt8) (tensor : Tensor hardware)
    (devices : List Int) : Prop :=
  isAvailable (tensor :: newTensors memory tensor devices) = true →
    Fits framework tensor (newTensors memory tensor devices)

theorem broadcast_eq_iff (copies : framework.Copies) (memory : Int → Nat → UInt8)
    (tensor : Tensor hardware) {devices : List Int} (valid : ∀ device ∈ devices, 0 ≤ device) :
    broadcast framework true memory tensor devices =
        broadcast framework false memory tensor devices ↔
      Good framework memory tensor devices := by
  rw [Good, ← broadcastOutImpl_eq_iff copies newTensors_sizes, broadcast_eq true memory tensor valid,
    broadcast_plain memory tensor valid]
  have plain : broadcastOutImpl framework false tensor (newTensors memory tensor devices) =
      .ok ((newTensors memory tensor devices).map
        (arrived framework false tensor (newTensors memory tensor devices))) :=
    congrArg Except.ok (List.map_congr_left fun out _ => by simp [arrived])
  rw [plain]
  cases ran : broadcastOutImpl framework true tensor (newTensors memory tensor devices) with
  | error stop => exact ⟨fun equal => (by cases equal), fun equal => (by cases equal)⟩
  | ok results =>
    have arrive := broadcastOutImpl_ok newTensors_sizes ran
    rw [arrive]
    have lists : devices.map (landed framework true memory tensor devices) =
        devices.map (landed framework false memory tensor devices) ↔
          (newTensors memory tensor devices).map
              (arrived framework true tensor (newTensors memory tensor devices)) =
            (newTensors memory tensor devices).map
              (arrived framework false tensor (newTensors memory tensor devices)) := by
      rw [List.map_inj_left, List.map_inj_left]
      constructor
      · intro equal out inside
        obtain ⟨device, among, rfl⟩ := List.mem_map.mp inside
        obtain ⟨among, other⟩ := List.mem_filter.mp among
        have other : device ≠ tensor.device := of_decide_eq_true other
        simpa [landed, other] using equal device among
      · intro equal device among
        by_cases own : device = tensor.device
        · simp [landed, own]
        · have inside : tensor.emptyLike device (memory device) ∈
              newTensors memory tensor devices :=
            List.mem_map.mpr ⟨device, List.mem_filter.mpr ⟨among, decide_eq_true own⟩, rfl⟩
          simpa [landed, own] using equal _ inside
    constructor
    · intro equal
      exact congrArg Except.ok (lists.mp (Except.ok.inj equal))
    · intro equal
      exact congrArg Except.ok (lists.mpr (Except.ok.inj equal))

end TorchGcu.Broadcast

import Mathlib.Init
import TorchGcu.Tensor.Resize

/-! Tensors stay inside the device memory of their storages, as long as no storage is used for
narrowed types and for others. -/
namespace TorchGcu.Resize

/-- A storage grew into memory that holds what it held, as far as it fits. -/
def Growth.Exact (growth : Growth) : Prop :=
  growth.copied = min growth.old.length growth.new.length ∧
    growth.new.take growth.copied = growth.old.take growth.copied

/-- The device memory and the logical size agree about what a storage was made for. -/
def Storage.Sized (hardware : Hardware) (storage : Storage) : Prop :=
  storage.nbytes =
    if isNarrowType hardware storage.madeFor then 2 * storage.data.length else storage.data.length

/-- Types that are both narrowed, or both not. -/
def SameKind (hardware : Hardware) (dtype other : ScalarType) : Prop :=
  isNarrowType hardware dtype = isNarrowType hardware other

/-- A storage has some bytes of device memory, and is for the kind of a type. -/
def Room (hardware : Hardware) (storages : List Storage) (dtype : ScalarType) (index bytes : Nat) :
    Prop :=
  ∃ storage, storages[index]? = some storage ∧ SameKind hardware dtype storage.madeFor ∧
    bytes ≤ storage.data.length

/-- The tensor is inside the device memory of a storage for its kind of types. -/
def Fits (hardware : Hardware) (storages : List Storage) (self : Tensor) : Prop :=
  Room hardware storages self.dtype self.storage (self.physicalExtent hardware)

structure Sound (hardware : Hardware) (state : State) : Prop where
  fits : ∀ tensor ∈ state.tensors, Fits hardware state.storages tensor
  sized : ∀ storage ∈ state.storages, storage.Sized hardware
  exact : ∀ growth ∈ state.growths, growth.Exact

/-! ### Extents -/

theorem numel_eq_zero {sizes : List Nat} : numel sizes = 0 ↔ 0 ∈ sizes := by
  induction sizes with
  | nil => simp [numel]
  | cons size sizes ih =>
    simp only [numel, List.foldr_cons, Nat.mul_eq_zero, List.mem_cons] at ih ⊢
    rw [ih, eq_comm]

theorem map_max_one {sizes : List Nat} (nonempty : 0 ∉ sizes) :
    sizes.map (max · 1) = sizes := by
  refine (List.map_congr_left fun size found => ?_).trans sizes.map_id
  have pos : size ≠ 0 := fun zero => nonempty (zero ▸ found)
  simp only [id_eq]
  omega

theorem extent_cons {size : Nat} {sizes strides : List Nat} (nonempty : 0 ∉ size :: sizes) :
    extent (size :: sizes) strides =
      (size - 1) * strides.headD 0 + extent sizes strides.tail := by
  have rest : 0 ∉ sizes := fun zero => nonempty (by simp [zero])
  cases strides with
  | nil => simp [extent, nonempty, rest]
  | cons stride strides =>
    simp only [extent, nonempty, rest, if_false, List.zipWith_cons_cons, List.sum_cons,
      List.headD_cons, List.tail_cons]
    omega

theorem extent_contiguous {sizes : List Nat} (nonempty : 0 ∉ sizes) :
    extent sizes (contiguousStrides sizes) = numel sizes := by
  induction sizes with
  | nil => simp [extent, numel]
  | cons size sizes ih =>
    have rest : 0 ∉ sizes := fun zero => nonempty (by simp [zero])
    have pos : size ≠ 0 := fun zero => nonempty (by simp [zero])
    rw [contiguousStrides, extent_cons nonempty, List.tail_cons, ih rest, map_max_one rest]
    obtain ⟨before, rfl⟩ := Nat.exists_eq_succ_of_ne_zero pos
    rw [List.headD_cons, Nat.succ_sub_one, ← Nat.succ_mul]
    rfl

/-- The positions of the elements are those before the end of the tensor. -/
theorem position_lt_extent {sizes strides : List Nat} {position : Nat} (nonempty : 0 ∉ sizes)
    (found : position ∈ positions sizes strides) : position < extent sizes strides := by
  induction sizes generalizing strides position with
  | nil => simp_all [positions, extent]
  | cons size sizes ih =>
    have rest : 0 ∉ sizes := fun zero => nonempty (by simp [zero])
    simp only [positions, List.mem_flatMap, List.mem_map, List.mem_range] at found
    obtain ⟨i, inside, last, more, rfl⟩ := found
    have bound := ih rest more
    have steps : i * strides.headD 0 ≤ (size - 1) * strides.headD 0 :=
      Nat.mul_le_mul_right _ (by omega)
    rw [extent_cons nonempty]
    omega

theorem extent_pos {sizes strides : List Nat} (nonempty : 0 ∉ sizes) :
    0 < extent sizes strides := by
  simp only [extent, nonempty, if_false]
  omega

/-- The last element is at the end of the tensor. -/
theorem last_position {sizes strides : List Nat} (nonempty : 0 ∉ sizes) :
    extent sizes strides - 1 ∈ positions sizes strides := by
  induction sizes generalizing strides with
  | nil => simp [positions, extent]
  | cons size sizes ih =>
    have rest : 0 ∉ sizes := fun zero => nonempty (by simp [zero])
    have pos : size ≠ 0 := fun zero => nonempty (by simp [zero])
    have further := @extent_pos _ strides.tail rest
    simp only [positions, List.mem_flatMap, List.mem_map, List.mem_range]
    refine ⟨size - 1, by omega, _, ih rest, ?_⟩
    rw [extent_cons nonempty]
    omega

/-- A tensor with a size of zero has no elements. -/
theorem position_nonempty {sizes strides : List Nat} {position : Nat}
    (found : position ∈ positions sizes strides) : 0 ∉ sizes := by
  induction sizes generalizing strides position with
  | nil => simp
  | cons size sizes ih =>
    simp only [positions, List.mem_flatMap, List.mem_map, List.mem_range] at found
    obtain ⟨i, inside, last, more, rfl⟩ := found
    simp only [List.mem_cons, not_or]
    exact ⟨by omega, ih more⟩

/-! ### Sizes -/

variable {machine : Machine}

theorem computeStorageNbytes_le {sizes strides newSizes newStrides : List Nat}
    {itemsize newItemsize offset newOffset : Nat}
    (last : 0 ∉ newSizes → 0 ∉ sizes ∧ (newOffset + extent newSizes newStrides) * newItemsize ≤
      (offset + extent sizes strides) * itemsize) :
    computeStorageNbytes newSizes newStrides newItemsize newOffset ≤
      computeStorageNbytes sizes strides itemsize offset := by
  simp only [computeStorageNbytes]
  by_cases empty : 0 ∈ newSizes
  · simp [empty]
  · obtain ⟨nonempty, bound⟩ := last empty
    simp [empty, nonempty, bound]

theorem computeStorageNbytes_mul (sizes strides : List Nat) (itemsize offset factor : Nat) :
    computeStorageNbytes sizes strides (factor * itemsize) offset =
      factor * computeStorageNbytes sizes strides itemsize offset := by
  simp only [computeStorageNbytes]
  split
  · rfl
  · rw [Nat.mul_left_comm]

/-- How many logical bytes there are to a byte of device memory. -/
def ratio (hardware : Hardware) (dtype : ScalarType) : Nat :=
  if isNarrowType hardware dtype then 2 else 1

theorem elementSize_eq (hardware : Hardware) (dtype : ScalarType) :
    elementSize dtype = ratio hardware dtype * deviceElementSize hardware dtype := by
  cases narrow : isNarrowType hardware dtype with
  | true => simpa [ratio, narrow] using elementSize_narrow narrow
  | false => simpa [ratio, narrow] using elementSize_wide narrow

theorem Storage.Sized.eq {hardware : Hardware} {storage : Storage} {dtype : ScalarType}
    (sized : storage.Sized hardware) (same : SameKind hardware dtype storage.madeFor) :
    storage.nbytes = ratio hardware dtype * storage.data.length := by
  simp only [Storage.Sized, SameKind, ratio] at *
  rw [sized, same]
  split <;> simp

theorem ratio_pos (hardware : Hardware) (dtype : ScalarType) : 0 < ratio hardware dtype := by
  simp only [ratio]
  split <;> decide

/-- A tensor that is inside the logical size of its storage is inside its device memory. -/
theorem inside_memory {hardware : Hardware} {storage : Storage} {self : Tensor}
    (sized : storage.Sized hardware) (same : SameKind hardware self.dtype storage.madeFor)
    (inside : computeStorageNbytes self.sizes self.strides (elementSize self.dtype)
      self.storageOffset ≤ storage.nbytes) :
    self.physicalExtent hardware ≤ storage.data.length := by
  rw [elementSize_eq hardware, computeStorageNbytes_mul, sized.eq same] at inside
  exact Nat.le_of_mul_le_mul_left inside (ratio_pos hardware self.dtype)

/-! ### Growth -/

theorem copied_take {old : Bytes} {count sizeBytes : Nat} (inOld : count ≤ old.length)
    (inNew : count ≤ sizeBytes) :
    (machine.copied old count sizeBytes).take count = old.take count := by
  apply List.ext_getElem
  · simp [Machine.copied]
    omega
  · intro i inside inTake
    simp only [List.length_take, Machine.copied, List.length_map, List.length_range] at inside inTake
    have found : i < old.length := by omega
    simp [Machine.copied, show i < count by omega, found]

@[simp] theorem copied_length (old : Bytes) (count sizeBytes : Nat) :
    (machine.copied old count sizeBytes).length = sizeBytes := by
  simp [Machine.copied]

/-- What growing a storage does, when the new size is one of whole device bytes. -/
theorem resizeBytes_grows {storage grown : Storage} {growths : List Growth} {dtype : ScalarType}
    {physical : Nat} (sized : storage.Sized machine.hardware)
    (same : SameKind machine.hardware dtype storage.madeFor)
    (more : storage.data.length < physical)
    (resized : resizeBytes machine storage (ratio machine.hardware dtype * physical)
      (isNarrowType machine.hardware dtype) = some (grown, growths)) :
    grown.Sized machine.hardware ∧ grown.madeFor = storage.madeFor ∧
      grown.data.length = physical ∧ ∀ growth ∈ growths, growth.Exact := by
  have nbytes := sized.eq same
  have positive := ratio_pos machine.hardware dtype
  have some : ratio machine.hardware dtype * physical ≠ 0 := by
    rw [Nat.mul_ne_zero_iff]
    omega
  have halves : ∀ n, (if isNarrowType machine.hardware dtype then
      ratio machine.hardware dtype * n / 2 else ratio machine.hardware dtype * n) = n := by
    intro n
    simp only [ratio]
    split <;> omega
  simp only [resizeBytes, some, if_false, nbytes, halves] at resized
  split at resized
  · cases resized
  · simp only [Option.some.injEq, Prod.mk.injEq] at resized
    obtain ⟨rfl, rfl⟩ := resized
    refine ⟨?_, rfl, copied_length .., ?_⟩
    · simp only [Storage.Sized, ratio, SameKind] at same ⊢
      rw [same, copied_length]
      split <;> simp
    · simp only [List.mem_singleton, forall_eq, Growth.Exact, copied_length]
      have count : (if storage.data = [] then 0 else min storage.data.length physical) =
          storage.data.length := by
        split
        · case isTrue empty => simp [empty]
        · omega
      rw [count]
      exact ⟨by omega, copied_take (Nat.le_refl _) (by omega)⟩

variable {state after : State}

theorem Room.mono {hardware : Hardware} {storages : List Storage} {dtype : ScalarType}
    {index bytes fewer : Nat} (room : Room hardware storages dtype index bytes)
    (less : fewer ≤ bytes) : Room hardware storages dtype index fewer := by
  obtain ⟨storage, found, same, enough⟩ := room
  exact ⟨storage, found, same, Nat.le_trans less enough⟩

/-- A storage that is replaced by a longer one of its kind has the room that it had. -/
theorem Room.set {hardware : Hardware} {storages : List Storage} {dtype : ScalarType}
    {index bytes i : Nat} {storage grown : Storage}
    (room : Room hardware storages dtype index bytes) (found : storages[i]? = some storage)
    (kind : grown.madeFor = storage.madeFor) (more : storage.data.length ≤ grown.data.length) :
    Room hardware (storages.set i grown) dtype index bytes := by
  obtain ⟨old, held, same, enough⟩ := room
  by_cases this : i = index
  · subst this
    obtain rfl : storage = old := Option.some.inj (found.symm.trans held)
    obtain ⟨inside, -⟩ := List.getElem?_eq_some_iff.mp found
    exact ⟨grown, List.getElem?_set_self inside, kind ▸ same, Nat.le_trans enough more⟩
  · exact ⟨old, (List.getElem?_set_ne this).trans held, same, enough⟩

theorem Sound.replace {storage grown : Storage} {growths : List Growth} {index : Nat}
    {hardware : Hardware} (sound : Sound hardware state)
    (found : state.storages[index]? = some storage) (kind : grown.madeFor = storage.madeFor)
    (more : storage.data.length ≤ grown.data.length) (sized : grown.Sized hardware)
    (exact' : ∀ growth ∈ growths, growth.Exact) :
    Sound hardware (state.replace index grown growths) where
  fits tensor known := (sound.fits tensor known).set found kind more
  sized other known := by
    rcases List.mem_or_eq_of_mem_set known with old | rfl
    · exact sound.sized other old
    · exact sized
  exact growth known := by
    rcases List.mem_append.mp known with new | old
    · exact exact' growth new
    · exact sound.exact growth old

/-- After the storage was resized if it had to be, there is room for what was asked. -/
theorem maybeResizeStorage_room {self : Tensor} {physical : Nat} {storage : Storage}
    (sound : Sound machine.hardware state) (found : state.storages[self.storage]? = some storage)
    (same : SameKind machine.hardware self.dtype storage.madeFor)
    (resized : maybeResizeStorage machine state self
      (ratio machine.hardware self.dtype * physical) (isNarrowType machine.hardware self.dtype) =
        some after) :
    Sound machine.hardware after ∧ after.tensors = state.tensors ∧
      Room machine.hardware after.storages self.dtype self.storage
        (if numel self.sizes = 0 then 0 else physical) := by
  have sized := sound.sized storage (List.mem_of_getElem? found)
  have nbytes := sized.eq same
  have positive := ratio_pos machine.hardware self.dtype
  simp only [maybeResizeStorage, found] at resized
  split at resized
  · case isTrue empty =>
    cases resized
    exact ⟨sound, rfl, storage, found, same, by simp [empty]⟩
  · case isFalse elements =>
    split at resized
    · case isTrue short =>
      rw [nbytes] at short
      have more := Nat.lt_of_mul_lt_mul_left short
      split at resized
      · cases resized
      · case h_2 grown growths grows =>
        obtain ⟨grownSized, kind, length, exact'⟩ := resizeBytes_grows sized same more grows
        cases resized
        obtain ⟨inside, -⟩ := List.getElem?_eq_some_iff.mp found
        refine ⟨sound.replace found kind (by omega) grownSized exact', rfl, grown,
          List.getElem?_set_self inside, kind ▸ same, ?_⟩
        simp [elements, length]
    · case isFalse enough =>
      cases resized
      rw [nbytes, Nat.not_lt] at enough
      refine ⟨sound, rfl, storage, found, same, ?_⟩
      simp only [elements, if_false]
      exact Nat.le_of_mul_le_mul_left enough positive

/-! ### The operations -/

/-- The sizes, and the strides if there are any, are those that the tensor has: its storage is not
looked at. -/
def Kept (self : Tensor) (size : List Nat) (stride : Option (List Nat)) : Prop :=
  self.sizes = size ∧ (stride = none ∨ stride = some self.strides)

instance (self : Tensor) (size : List Nat) (stride : Option (List Nat)) :
    Decidable (Kept self size stride) :=
  inferInstanceAs (Decidable (_ ∧ _))

/-- The condition on the operations that put a tensor on another storage, give it another type, or
order the elements that it keeps. -/
def Op.Meets (hardware : Hardware) (state : State) : Op → Prop
  | .resize self size (some _) =>
    ∀ tensor storage, state.tensors[self]? = some tensor →
      state.storages[tensor.storage]? = some storage → tensor.sizes = size → 0 ∉ size →
        (numel size + tensor.storageOffset) * elementSize tensor.dtype ≤ storage.nbytes
  | .setStorage result source =>
    ∀ tensor storage, state.tensors[result]? = some tensor →
      state.storages[source]? = some storage →
        SameKind hardware tensor.dtype storage.madeFor
  | .setStorageOffset result source _ _ _ =>
    ∀ tensor storage, state.tensors[result]? = some tensor →
      state.storages[source]? = some storage → SameKind hardware tensor.dtype storage.madeFor
  | .setTensor result source =>
    ∀ tensor other storage, state.tensors[result]? = some tensor →
      state.tensors[source]? = some other → state.storages[other.storage]? = some storage →
        result ≠ source → SameKind hardware tensor.dtype storage.madeFor
  | .viewDtype self dtype =>
    ∀ tensor, state.tensors[self]? = some tensor → SameKind hardware tensor.dtype dtype
  | _ => True

/-- The device bytes of a tensor of a type whose elements are in order. -/
def orderedBytes (hardware : Hardware) (dtype : ScalarType) (size : List Nat) (offset : Nat) : Nat :=
  if numel size = 0 then 0 else (numel size + offset) * deviceElementSize hardware dtype

/-- The elements of a tensor are all before the given end. -/
theorem physicalExtent_le {hardware : Hardware} {self : Tensor}
    (inOrder : 0 ∉ self.sizes → extent self.sizes self.strides ≤ numel self.sizes) :
    self.physicalExtent hardware ≤
      orderedBytes hardware self.dtype self.sizes self.storageOffset := by
  simp only [Tensor.physicalExtent, computeStorageNbytes, orderedBytes, numel_eq_zero]
  split
  · exact Nat.le_refl _
  · case isFalse nonempty =>
    have bound := inOrder nonempty
    exact Nat.mul_le_mul_right _ (by omega)

/-- A tensor after it was resized, and the state after its storage grew with it. -/
structure Resized (hardware : Hardware) (state : State) (tensor : Tensor) (size : List Nat)
    (after : State) (resized : Tensor) : Prop where
  sound : Sound hardware after
  tensors : after.tensors = state.tensors
  fits : Fits hardware after.storages resized
  dtype : resized.dtype = tensor.dtype
  storage : resized.storage = tensor.storage
  offset : resized.storageOffset = tensor.storageOffset
  sizes : resized.sizes = size

theorem resizeImpl_resized {self resized : Tensor} {size : List Nat} {stride : Option (List Nat)}
    {storage : Storage} (sound : Sound machine.hardware state)
    (found : state.storages[self.storage]? = some storage)
    (same : SameKind machine.hardware self.dtype storage.madeFor)
    (kept : Kept self size stride → Fits machine.hardware state.storages self)
    (resizes : resizeImpl machine state self size stride = some (resized, after)) :
    Resized machine.hardware state self size after resized ∧
      (¬ Kept self size none → stride = none → Room machine.hardware after.storages self.dtype
        self.storage (orderedBytes machine.hardware self.dtype size self.storageOffset)) := by
  simp only [resizeImpl] at resizes
  split at resizes
  · case isTrue same =>
    cases resizes
    refine ⟨⟨sound, rfl, kept same, rfl, rfl, rfl, same.1⟩, fun changed without => ?_⟩
    exact absurd ⟨same.1, .inl rfl⟩ changed
  · cases stride with
    | none =>
      simp only at resizes
      split at resizes
      · cases resizes
      · case h_2 grows =>
        cases resizes
        rw [computeStorageNbytesContiguous, elementSize_eq machine.hardware,
          Nat.mul_left_comm] at grows
        obtain ⟨sound, tensors, room⟩ := @maybeResizeStorage_room machine state after
          { self with sizes := size, strides := contiguousStrides size } _ storage sound found same
          grows
        refine ⟨⟨sound, tensors, room.mono (physicalExtent_le fun nonempty => ?_), rfl, rfl, rfl,
          rfl⟩, fun _ _ => room⟩
        exact Nat.le_of_eq (extent_contiguous nonempty)
    | some stride =>
      simp only at resizes
      split at resizes
      · cases resizes
      · case h_2 grows =>
        cases resizes
        simp only [elementSize_eq machine.hardware, computeStorageNbytes_mul] at grows
        obtain ⟨sound, tensors, room⟩ := @maybeResizeStorage_room machine state after
          { self with sizes := size, strides := stride } _ storage sound found same grows
        refine ⟨⟨sound, tensors, room.mono ?_, rfl, rfl, rfl, rfl⟩, fun _ without => by cases without⟩
        simp only [Tensor.physicalExtent, numel_eq_zero]
        split
        · case isTrue empty => simp [computeStorageNbytes, empty]
        · exact Nat.le_refl _

theorem Sound.push {hardware : Hardware} {tensor : Tensor} (sound : Sound hardware state)
    (fits : Fits hardware state.storages tensor) : Sound hardware (state.push tensor) where
  fits other known := by
    rcases List.mem_append.mp known with old | new
    · exact sound.fits other old
    · exact List.mem_singleton.mp new ▸ fits
  sized := sound.sized
  exact := sound.exact

theorem Sound.put {hardware : Hardware} {tensor : Tensor} {index : Nat}
    (sound : Sound hardware state) (fits : Fits hardware state.storages tensor) :
    Sound hardware (state.put index tensor) where
  fits other known := by
    rcases List.mem_or_eq_of_mem_set known with old | rfl
    · exact sound.fits other old
    · exact fits
  sized := sound.sized
  exact := sound.exact

theorem Room.append {hardware : Hardware} {storages : List Storage} {dtype : ScalarType}
    {index bytes : Nat} {new : Storage} (room : Room hardware storages dtype index bytes) :
    Room hardware (storages ++ [new]) dtype index bytes := by
  obtain ⟨storage, found, rest⟩ := room
  obtain ⟨inside, -⟩ := List.getElem?_eq_some_iff.mp found
  exact ⟨storage, (List.getElem?_append_left inside).trans found, rest⟩

theorem Sound.make {hardware : Hardware} {storage : Storage} (sound : Sound hardware state)
    (sized : storage.Sized hardware) : Sound hardware (state.make storage).2 where
  fits tensor known := (sound.fits tensor known).append
  sized other known := by
    rcases List.mem_append.mp known with old | new
    · exact sound.sized other old
    · exact List.mem_singleton.mp new ▸ sized
  exact := sound.exact

theorem newStorage_sized (sizeBytes : Nat) (dtype : ScalarType) :
    (newStorage machine sizeBytes dtype).Sized machine.hardware := by
  simp only [Storage.Sized, newStorage, Machine.allocate, List.length_map, List.length_range]
  cases narrow : isNarrowType machine.hardware dtype with
  | true =>
    have changed : getGcuScalarType machine.hardware dtype ≠ dtype := by
      simp only [getGcuScalarType, narrow, if_true]
      cases dtype <;> simp [isNarrowType] at narrow <;> decide
    simp [changed]
  | false => simp [getGcuScalarType, narrow]

/-- A new storage has the room that its tensor needs. -/
theorem newStorage_room (sizeBytes : Nat) (dtype : ScalarType) :
    Room machine.hardware (state.make (newStorage machine sizeBytes dtype)).2.storages dtype
      (state.make (newStorage machine sizeBytes dtype)).1 sizeBytes :=
  ⟨newStorage machine sizeBytes dtype, by simp [State.make], rfl,
    by simp [newStorage, Machine.allocate]⟩

variable (lawful : machine.framework.Lawful)

include lawful

theorem formatStrides_extent {format : MemoryFormat} {sizes strides : List Nat}
    (chosen : machine.framework.formatStrides format sizes = some strides) (nonempty : 0 ∉ sizes) :
    extent sizes strides ≤ numel sizes := by
  have last := lawful.formatStrides chosen _ (last_position nonempty)
  omega

theorem restride_fits {self restrided : Tensor} {format : MemoryFormat}
    (room : Room machine.hardware state.storages self.dtype self.storage
      (orderedBytes machine.hardware self.dtype self.sizes self.storageOffset))
    (chosen : restride machine self format = some restrided) :
    Fits machine.hardware state.storages restrided := by
  simp only [restride] at chosen
  split at chosen
  · case h_1 strides found =>
    cases chosen
    exact room.mono (physicalExtent_le (formatStrides_extent lawful found))
  · cases chosen

theorem empty_sound {size : List Nat} {dtype : ScalarType} {format : Option MemoryFormat}
    (sound : Sound machine.hardware state)
    (made : empty machine state size dtype format = some after) :
    Sound machine.hardware after := by
  have room := @newStorage_room machine state
    (computeStorageNbytesContiguous size (deviceElementSize machine.hardware dtype) 0) dtype
  have ordered : orderedBytes machine.hardware dtype size 0 ≤
      computeStorageNbytesContiguous size (deviceElementSize machine.hardware dtype) 0 := by
    simp only [orderedBytes, computeStorageNbytesContiguous]
    split
    · exact Nat.zero_le _
    · exact Nat.le_refl _
  have start := sound.make (@newStorage_sized machine
    (computeStorageNbytesContiguous size (deviceElementSize machine.hardware dtype) 0) dtype)
  have contiguous : Fits machine.hardware _ (⟨⟨size, contiguousStrides size, 0⟩, _, dtype⟩ : Tensor) :=
    (room.mono ordered).mono (physicalExtent_le fun nonempty =>
      Nat.le_of_eq (extent_contiguous nonempty))
  simp only [empty] at made
  split at made
  · cases made
    exact start.push contiguous
  · cases made
    exact start.push contiguous
  · split at made
    · case h_1 restrided =>
      cases made
      exact start.push (restride_fits lawful (room.mono ordered) restrided)
    · cases made

omit lawful in
theorem emptyStrided_sound {size stride : List Nat} {dtype : ScalarType}
    (sound : Sound machine.hardware state)
    (made : emptyStrided machine state size stride dtype = some after) :
    Sound machine.hardware after := by
  simp only [emptyStrided] at made
  split at made
  · cases made
  · cases made
    exact (sound.make (newStorage_sized ..)).push (newStorage_room _ dtype)

omit lawful in
/-- A tensor of a sound state, with the storage that it is inside of. -/
theorem Sound.stored {hardware : Hardware} {self : Tensor} (sound : Sound hardware state)
    (known : self ∈ state.tensors) :
    ∃ storage, state.storages[self.storage]? = some storage ∧ storage.Sized hardware ∧
      SameKind hardware self.dtype storage.madeFor ∧
        self.physicalExtent hardware ≤ storage.data.length := by
  obtain ⟨storage, found, same, inside⟩ := sound.fits self known
  exact ⟨storage, found, sound.sized storage (List.mem_of_getElem? found), same, inside⟩

theorem resize_sound {index : Nat} {self : Tensor} {size : List Nat}
    {format : Option MemoryFormat} (sound : Sound machine.hardware state)
    (known : state.tensors[index]? = some self)
    (meets : (Op.resize index size format).Meets machine.hardware state)
    (resizes : resize machine state index self size format = some after) :
    Sound machine.hardware after := by
  obtain ⟨storage, found, sized, same, inside⟩ := sound.stored (List.mem_of_getElem? known)
  simp only [resize] at resizes
  split at resizes
  · cases resizes
  · case h_2 resized next implementation =>
    obtain ⟨done, room⟩ := resizeImpl_resized sound found same
      (fun _ => ⟨storage, found, same, inside⟩) implementation
    cases format with
    | none =>
      cases resizes
      exact done.sound.put done.fits
    | some format =>
      have restrides : ∀ restrided, restride machine resized format = some restrided →
          Sound machine.hardware (next.put index restrided) := by
        intro restrided chosen
        refine done.sound.put (restride_fits lawful ?_ chosen)
        rw [done.dtype, done.storage, done.sizes, done.offset]
        by_cases kept : Kept self size none
        · have ordered := meets self storage known found kept.1
          rw [resizeImpl, if_pos (show self.sizes = size ∧ _ from kept)] at implementation
          cases implementation
          refine ⟨storage, found, same, ?_⟩
          simp only [orderedBytes, numel_eq_zero]
          split
          · exact Nat.zero_le _
          · case isFalse nonempty =>
            have enough := ordered nonempty
            rw [elementSize_eq machine.hardware, Nat.mul_left_comm, sized.eq same] at enough
            exact Nat.le_of_mul_le_mul_left enough (ratio_pos ..)
        · exact room kept rfl
      cases format with
      | preserve => cases resizes
      | contiguous | channelsLast | channelsLast3d =>
        simp only at resizes
        split at resizes
        · cases resizes
          exact restrides _ ‹_›
        · cases resizes

theorem setStorageOffset_sound {index source storageOffset : Nat} {result : Tensor}
    {size : List Nat} {stride : Option (List Nat)} (sound : Sound machine.hardware state)
    (settles : ∀ storage, state.storages[source]? = some storage →
      SameKind machine.hardware result.dtype storage.madeFor)
    (sets : setStorageOffset machine state index result source storageOffset size stride =
      some after) : Sound machine.hardware after := by
  simp only [setStorageOffset] at sets
  split at sets
  · cases sets
  · case h_2 storage found =>
    have same := settles storage found
    split at sets
    · cases sets
    · rename_i accepted
      split at sets
      · cases sets
      · case h_2 implementation =>
        cases sets
        have sized := sound.sized storage (List.mem_of_getElem? found)
        have accepted := eq_true_of_ne_false accepted
        have kept : Kept { result with storage := source, storageOffset } size stride →
            Fits machine.hardware state.storages { result with storage := source, storageOffset } := by
          rintro ⟨sizes, strides⟩
          have sizes : result.sizes = size := sizes
          rw [← sizes] at accepted
          have bound := lawful.checkSetStorage accepted strides
          exact ⟨storage, found, same, inside_memory sized same bound⟩
        obtain ⟨done, -⟩ := @resizeImpl_resized machine state _
          { result with storage := source, storageOffset } _ _ _ storage sound found same kept
          implementation
        exact done.sound.put done.fits

theorem set_sound {index : Nat} {result : Tensor} (sound : Sound machine.hardware state)
    (sets : set machine state index result = some after) : Sound machine.hardware after := by
  refine setStorageOffset_sound lawful (sound.make ?_) (fun storage found => ?_) sets
  · simp [Storage.Sized]
  · have new : storage = ⟨0, [], true, result.dtype⟩ := by simpa [State.make, eq_comm] using found
    subst new
    rfl

theorem setStorage_sound {index source : Nat} {result : Tensor}
    (sound : Sound machine.hardware state) (known : state.tensors[index]? = some result)
    (meets : (Op.setStorage index source).Meets machine.hardware state)
    (sets : setStorage machine state index result source = some after) :
    Sound machine.hardware after := by
  simp only [setStorage] at sets
  split at sets
  · cases sets
  · case h_2 storage found =>
    refine setStorageOffset_sound lawful sound (fun other same => ?_) sets
    obtain rfl : storage = other := Option.some.inj (found.symm.trans same)
    exact meets result storage known found

theorem asStrided_sound {self : Tensor} {size stride : List Nat} {storageOffset : Option Nat}
    (sound : Sound machine.hardware state) (known : self ∈ state.tensors)
    (views : asStrided machine state self size stride storageOffset = some after) :
    Sound machine.hardware after := by
  obtain ⟨storage, found, sized, same, -⟩ := sound.stored known
  simp only [asStrided, found] at views
  split at views
  · case isTrue accepted =>
    cases views
    exact sound.push ⟨storage, found, same,
      inside_memory sized same (lawful.setStrided accepted)⟩
  · cases views

omit lawful in
/-- A view of the tensor's kind of types fits where the tensor does, if its logical bytes are no
more than the tensor's. -/
theorem Sound.push_view {self view : Tensor} {hardware : Hardware} (sound : Sound hardware state)
    (known : self ∈ state.tensors) (storage : view.storage = self.storage)
    (same : SameKind hardware self.dtype view.dtype)
    (bytes : computeStorageNbytes view.sizes view.strides (elementSize view.dtype)
        view.storageOffset ≤
      computeStorageNbytes self.sizes self.strides (elementSize self.dtype) self.storageOffset) :
    Sound hardware (state.push view) := by
  refine sound.push ?_
  obtain ⟨stored, found, kind, inside⟩ := sound.fits self known
  have ratios : ratio hardware view.dtype = ratio hardware self.dtype := by
    simp only [ratio]
    rw [same]
  rw [elementSize_eq hardware view.dtype, elementSize_eq hardware self.dtype,
    computeStorageNbytes_mul, computeStorageNbytes_mul, ratios] at bytes
  exact ⟨stored, storage ▸ found, same.symm.trans kind,
    Nat.le_trans (Nat.le_of_mul_le_mul_left bytes (ratio_pos ..)) inside⟩

include lawful

theorem view_sound {self : Tensor} {size : List Int} (sound : Sound machine.hardware state)
    (known : self ∈ state.tensors) (views : view machine state self size = some after) :
    Sound machine.hardware after := by
  simp only [view] at views
  split at views
  · cases views
  · case h_2 sizes inferred =>
    split at views
    · cases views
    · case h_2 strides computed =>
      cases views
      have count := lawful.inferSize inferred
      refine sound.push_view known rfl rfl (computeStorageNbytes_le fun nonempty => ?_)
      have within := lawful.computeStride count computed _ (last_position nonempty)
      have old := position_nonempty within
      have bound := position_lt_extent old within
      exact ⟨old, Nat.mul_le_mul_right _ (by simp only; omega)⟩

/-- The last byte of a view of another type is one of the tensor's. -/
theorem viewDtype_bytes {itemsize newItemsize : Nat} {geometry new : Geometry}
    (chosen : machine.framework.viewDtype itemsize newItemsize geometry = some new) :
    computeStorageNbytes new.sizes new.strides newItemsize new.storageOffset ≤
      computeStorageNbytes geometry.sizes geometry.strides itemsize geometry.storageOffset := by
  rcases Nat.eq_zero_or_pos newItemsize with none | positive
  · simp [computeStorageNbytes, none]
  · refine computeStorageNbytes_le fun nonempty => ?_
    have elements := @extent_pos _ new.strides nonempty
    generalize ends : new.storageOffset + extent new.sizes new.strides = count
    have last : new.storageOffset + (extent new.sizes new.strides - 1) = count - 1 := by omega
    have bytes := Nat.sub_one_mul count newItemsize
    have total : newItemsize ≤ count * newItemsize := Nat.le_mul_of_pos_left _ (by omega)
    have touched : new.Touches newItemsize (count * newItemsize - 1) := by
      refine ⟨_, last_position nonempty, ?_, ?_⟩
      · rw [last]
        omega
      · rw [last, Nat.sub_add_cancel (by omega)]
        omega
    obtain ⟨position, found, -, before⟩ := lawful.viewDtype chosen _ touched
    have old := position_nonempty found
    have bound := position_lt_extent old found
    have within : (geometry.storageOffset + position + 1) * itemsize ≤
        (geometry.storageOffset + extent geometry.sizes geometry.strides) * itemsize :=
      Nat.mul_le_mul_right _ (by omega)
    exact ⟨old, by omega⟩

theorem viewDtype_sound {self : Tensor} {dtype : ScalarType}
    (sound : Sound machine.hardware state) (known : self ∈ state.tensors)
    (same : SameKind machine.hardware self.dtype dtype)
    (views : viewDtype machine state self dtype = some after) :
    Sound machine.hardware after := by
  simp only [viewDtype] at views
  split at views
  · cases views
  · case h_2 geometry chosen =>
    cases views
    exact sound.push_view known rfl same (viewDtype_bytes lawful chosen)

/-- What an operation that meets the condition preserves. -/
theorem Op.run_sound {op : Op} (sound : Sound machine.hardware state)
    (meets : op.Meets machine.hardware state) (runs : op.run machine state = some after) :
    Sound machine.hardware after := by
  have known : ∀ {index f}, state.with index f = some after →
      ∃ tensor, state.tensors[index]? = some tensor ∧ f tensor = some after := by
    intro index f ran
    simp only [State.with] at ran
    split at ran
    · cases ran
    · case h_2 tensor found => exact ⟨tensor, found, ran⟩
  cases op with
  | empty size dtype format => exact empty_sound lawful sound runs
  | emptyStrided size stride dtype => exact emptyStrided_sound sound runs
  | resize self size format =>
    obtain ⟨tensor, found, runs⟩ := known runs
    exact resize_sound lawful sound found meets runs
  | resizeOutput output shape =>
    obtain ⟨tensor, found, runs⟩ := known runs
    simp only [Resize.resizeOutput] at runs
    split at runs
    · cases runs
      exact sound
    · have free : (Op.resize output shape none).Meets machine.hardware state := trivial
      exact resize_sound lawful sound found free runs
  | set result =>
    obtain ⟨tensor, found, runs⟩ := known runs
    exact set_sound lawful sound runs
  | setStorage result source =>
    obtain ⟨tensor, found, runs⟩ := known runs
    exact setStorage_sound lawful sound found meets runs
  | setStorageOffset result source storageOffset size stride =>
    obtain ⟨tensor, found, runs⟩ := known runs
    exact setStorageOffset_sound lawful sound (fun storage held => meets tensor storage found held) runs
  | setTensor result source =>
    obtain ⟨tensor, found, runs⟩ := known runs
    split at runs
    · cases runs
      exact sound
    · case isFalse others =>
      obtain ⟨other, held, runs⟩ := known runs
      exact setStorageOffset_sound lawful sound
        (fun storage stored => meets tensor other storage found held stored others) runs
  | asStrided self size stride storageOffset =>
    obtain ⟨tensor, found, runs⟩ := known runs
    exact asStrided_sound lawful sound (List.mem_of_getElem? found) runs
  | view self size =>
    obtain ⟨tensor, found, runs⟩ := known runs
    exact view_sound lawful sound (List.mem_of_getElem? found) runs
  | viewDtype self dtype =>
    obtain ⟨tensor, found, runs⟩ := known runs
    exact viewDtype_sound lawful sound (List.mem_of_getElem? found) (meets tensor found) runs

omit lawful

/-! ### Runs -/

/-- The state after operations that all return normally. -/
def runAll (machine : Machine) (state : State) : List Op → Option State
  | [] => some state
  | op :: ops =>
    match op.run machine state with
    | some state => runAll machine state ops
    | none => none

/-- Every operation of a run meets the condition in the state that it starts in. -/
def AllMeet (machine : Machine) (state : State) : List Op → Prop
  | [] => True
  | op :: ops => op.Meets machine.hardware state ∧
      ∀ next, op.run machine state = some next → AllMeet machine next ops

def initial : State := ⟨[], [], []⟩

/-- The tensors of a state are inside the memory of their storages, and its storages grew into
memory that holds what they held. -/
def LargeEnough (hardware : Hardware) (state : State) : Prop :=
  (∀ tensor ∈ state.tensors, ∃ storage, state.storages[tensor.storage]? = some storage ∧
    tensor.physicalExtent hardware ≤ storage.data.length) ∧
  ∀ growth ∈ state.growths, growth.Exact

theorem runAll_sound {ops : List Op} (lawful : machine.framework.Lawful)
    (sound : Sound machine.hardware state) (meets : AllMeet machine state ops)
    (runs : runAll machine state ops = some after) : Sound machine.hardware after := by
  induction ops generalizing state with
  | nil =>
    cases runs
    exact sound
  | cons op ops ih =>
    simp only [runAll] at runs
    split at runs
    · case h_1 next ran =>
      exact ih (op.run_sound lawful sound meets.1 ran) (meets.2 next ran) runs
    · cases runs

/-- Every state that a run reaches has storages that are large enough. -/
theorem narrowed_storage_large_enough (machine : Machine) (ops : List Op) (after : State)
    (lawful : machine.framework.Lawful) (meets : AllMeet machine initial ops)
    (runs : runAll machine initial ops = some after) : LargeEnough machine.hardware after := by
  have start : Sound machine.hardware initial := ⟨by simp [initial], by simp [initial],
    by simp [initial]⟩
  have sound := runAll_sound lawful start meets runs
  refine ⟨fun tensor known => ?_, sound.exact⟩
  obtain ⟨storage, found, -, inside⟩ := sound.fits tensor known
  exact ⟨storage, found, inside⟩

/-! ### A framework that makes few views -/

def plainFramework : Framework where
  inferSize shape count :=
    let sizes := shape.map Int.toNat
    if (∀ size ∈ shape, 0 ≤ size) ∧ numel sizes = count then some sizes else none
  computeStride sizes strides newSizes := if newSizes = sizes then some strides else none
  formatStrides format sizes := if format = .contiguous then some (contiguousStrides sizes) else none
  viewDtype itemsize newItemsize geometry :=
    match geometry with
    | ⟨[size], [1], 0⟩ =>
      if newItemsize ∣ itemsize then some ⟨[size * (itemsize / newItemsize)], [1], 0⟩ else none
    | _ => none
  checkSetStorage self itemsize nbytes storageOffset size stride :=
    stride.all (fun stride => stride.length = size.length) &&
      (self.sizes ≠ size || stride.any (· ≠ self.strides) ||
        computeStorageNbytes self.sizes self.strides itemsize storageOffset ≤ nbytes)
  setStrided itemsize nbytes view :=
    view.sizes.length = view.strides.length &&
      computeStorageNbytes view.sizes view.strides itemsize view.storageOffset ≤ nbytes

theorem mem_positions_row {size position : Nat} : position ∈ positions [size] [1] ↔ position < size := by
  simp [positions]

theorem plainFramework_lawful : plainFramework.Lawful where
  inferSize inferred := by
    simp only [plainFramework] at inferred
    split at inferred
    · case isTrue fits =>
      cases inferred
      exact fits.2
    · cases inferred
  computeStride _ computed position found := by
    simp only [plainFramework] at computed
    split at computed
    · case isTrue same =>
      cases computed
      exact same ▸ found
    · cases computed
  formatStrides chosen position found := by
    simp only [plainFramework] at chosen
    split at chosen
    · cases chosen
      have nonempty := position_nonempty found
      exact extent_contiguous nonempty ▸ position_lt_extent nonempty found
    · cases chosen
  viewDtype := by
    intro itemsize newItemsize geometry view chosen byte touched
    simp only [plainFramework] at chosen
    split at chosen
    · case h_1 size =>
      split at chosen
      · case isTrue divides =>
        cases chosen
        obtain ⟨position, found, -, before⟩ := touched
        rw [mem_positions_row] at found
        have within : (0 + position + 1) * newItemsize ≤
            size * (itemsize / newItemsize) * newItemsize := Nat.mul_le_mul_right _ (by omega)
        rw [Nat.mul_assoc, Nat.div_mul_cancel divides] at within
        have inside : byte < itemsize * size := by
          rw [Nat.mul_comm]
          exact Nat.lt_of_lt_of_le before within
        have positive : 0 < itemsize := by
          rcases Nat.eq_zero_or_pos itemsize with none | positive
          · simp [none] at inside
          · exact positive
        refine ⟨byte / itemsize, mem_positions_row.mpr (Nat.div_lt_of_lt_mul inside), ?_, ?_⟩
        · rw [Nat.zero_add]
          exact Nat.div_mul_le_self ..
        · rw [Nat.zero_add, Nat.mul_comm]
          exact Nat.lt_mul_div_succ byte positive
      · cases chosen
    · cases chosen
  checkSetStorage accepted kept := by
    rcases kept with rfl | rfl
    · simpa [plainFramework] using accepted
    · simp [plainFramework] at accepted
      exact accepted.2
  setStrided accepted := by
    simp only [plainFramework, Bool.and_eq_true, decide_eq_true_eq] at accepted
    exact accepted.2

def plainMachine : Machine := ⟨{}, plainFramework, fun _ => 0⟩

/-- Growing and viewing a tensor of integers. -/
def growAndView : List Op :=
  [.empty [3] .long none, .viewDtype 0 .double, .resize 0 [2, 3] none,
    .asStrided 0 [2, 2] [3, 1] (some 1)]

theorem growAndView_large_enough :
    ∃ after, runAll plainMachine initial growAndView = some after ∧
      LargeEnough plainMachine.hardware after := by
  refine ⟨_, rfl, narrowed_storage_large_enough plainMachine growAndView _ plainFramework_lawful
    ?_ rfl⟩
  refine ⟨trivial, fun next ran => ?_⟩
  cases ran
  refine ⟨fun tensor found => ?_, fun next ran => ?_⟩
  · cases found
    rfl
  · cases ran
    refine ⟨trivial, fun next ran => ⟨trivial, fun next ran => trivial⟩⟩

/-- Integers of 64 bits seen as integers of 32 bits. -/
theorem view_as_int_is_outside :
    plainFramework.Lawful ∧ ∃ after,
      runAll plainMachine initial [.empty [1024] .long none, .viewDtype 0 .int] = some after ∧
        ¬ LargeEnough plainMachine.hardware after := by
  refine ⟨plainFramework_lawful, _, rfl, fun enough => ?_⟩
  obtain ⟨storage, found, inside⟩ := enough.1 ⟨⟨[2048], [1], 0⟩, 0, .int⟩ (by decide)
  cases found
  simp [Tensor.physicalExtent, computeStorageNbytes, extent, newStorage, Machine.allocate,
    computeStorageNbytesContiguous, numel] at inside
  exact absurd inside (by decide)

end TorchGcu.Resize

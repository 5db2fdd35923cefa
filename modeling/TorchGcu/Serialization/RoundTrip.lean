import Mathlib.Data.List.Forall2
import TorchGcu.Serialization.Chunks

/-! Storages written one after another, and read again. -/
namespace TorchGcu.StorageFile

/-- A storage to write or to read, and what the writer and the reader are told of it. -/
structure Item where
  storage : Storage
  elementSize : Nat
  dtype : ScalarType
deriving DecidableEq

/-- What every storage is: its memory on the host has its size. -/
structure Item.Valid (item : Item) : Prop where
  element : 0 < item.elementSize
  size : item.storage.nbytes < 2 ^ 63
  whole : item.storage.device = .cpu → item.storage.buffer.length = item.storage.nbytes

def writeAll (fd : FileIO) (host : Host) (file : Bytes) : List Item → Except Fault Bytes
  | [] => .ok file
  | item :: items =>
    match writeFileRaw fd host file item.storage true item.elementSize item.dtype with
    | .ok file => writeAll fd host file items
    | .error fault => .error fault

def readAll (fd : FileIO) (host : Host) (uninitialized : Nat → UInt8) (file : Bytes) :
    List Item → Except Fault (List Storage × Bytes)
  | [] => .ok ([], file)
  | item :: items =>
    match readFileRaw fd host uninitialized file item.storage item.elementSize item.dtype with
    | .error fault => .error fault
    | .ok (storage, file) =>
      match readAll fd host uninitialized file items with
      | .ok (storages, file) => .ok (storage :: storages, file)
      | .error fault => .error fault

/-- A storage to read `item` into: like the one that was written, with any contents. -/
structure Item.Target (item target : Item) : Prop where
  element : target.elementSize = item.elementSize
  dtype : target.dtype = item.dtype
  device : target.storage.device = item.storage.device
  nbytes : target.storage.nbytes = item.storage.nbytes
  length : target.storage.buffer.length = item.storage.buffer.length

/-- The storages can be written, and wherever they stand in a file they are read as they were, up
to the byte that follows them. -/
def RoundTrips (fd fd' : FileIO) (host : Host) (items : List Item) : Prop :=
  ∀ file, ∃ bytes, writeAll fd host file items = .ok (file ++ bytes) ∧
    ∀ targets rest uninitialized, List.Forall₂ Item.Target items targets →
      readAll fd' host uninitialized (bytes ++ rest) targets = .ok (items.map Item.storage, rest)

/-- What copies between the host and the device do: they keep the number of elements, and the
device gets back what it held. -/
structure Host.Lawful (host : Host) : Prop where
  toCpu_length : ∀ {dtype data n}, data.length = n * deviceElementSize host.hardware dtype →
    (host.toCpu dtype data).length = n * elementSize dtype
  toDevice_toCpu : ∀ {dtype data n}, data.length = n * deviceElementSize host.hardware dtype →
    host.toDevice dtype (host.toCpu dtype data) = data
  toDevice_length : ∀ {dtype data n}, data.length = n * elementSize dtype →
    (host.toDevice dtype data).length = n * deviceElementSize host.hardware dtype

/-- The storages whose elements are written and read: a big endian host converts some sizes only. -/
def Convertible (host : Host) (elementSize nbytes : Nat) : Prop :=
  elementSize = 1 ∨ host.bigEndian = false ∨ Converted elementSize = true ∨ nbytes = 0

/-- The condition: the size is a multiple of the element size, which the host can convert, and a
device storage has as many elements of its type as its sizes say. -/
structure Item.Faithful (host : Host) (item : Item) : Prop where
  divides : item.elementSize ∣ item.storage.nbytes
  converted : Convertible host item.elementSize item.storage.nbytes
  device : item.storage.device = .gcu →
    let copied := copiedAs item.storage.nbytes (item.storage.nbytes / item.elementSize) item.dtype
    copied.1 * TorchGcu.elementSize copied.2 = item.storage.nbytes ∧
      item.storage.buffer.length = copied.1 * deviceElementSize host.hardware copied.2

variable {fd : FileIO} {host : Host}

/-! ### One storage -/

/-- The elements of a storage as they are in the file. -/
def encoded (host : Host) (elementSize : Nat) (data : Bytes) : Bytes :=
  if elementSize = 1 ∨ host.bigEndian = false then data else swapElements elementSize data

theorem encoded_length {elementSize : Nat} {data : Bytes} (positive : 0 < elementSize)
    (divides : elementSize ∣ data.length) :
    (encoded host elementSize data).length = data.length := by
  simp only [encoded]
  split
  · rfl
  · exact swapElements_length positive (Nat.div_mul_cancel divides).symm

theorem encoded_encoded {elementSize : Nat} {data : Bytes} (positive : 0 < elementSize)
    (divides : elementSize ∣ data.length) :
    encoded host elementSize (encoded host elementSize data) = data := by
  simp only [encoded]
  split
  · rfl
  · exact swapElements_swapElements positive (Nat.div_mul_cancel divides).symm

/-- The buffer of the reader after the storage's bytes were read. -/
def received (host : Host) (elementSize : Nat) (data bytes : Bytes) : Bytes :=
  if elementSize = 1 ∨ host.bigEndian = false then bytes else decoded elementSize 0 data bytes

theorem received_convertible {elementSize : Nat} {data bytes : Bytes}
    (convertible : Convertible host elementSize bytes.length)
    (length : data.length = bytes.length) :
    received host elementSize data bytes = encoded host elementSize bytes := by
  by_cases fast : elementSize = 1 ∨ host.bigEndian = false
  · simp [received, encoded, fast]
  · obtain ⟨notOne, big⟩ := not_or.mp fast
    rcases convertible with one | little | converted | none
    · exact absurd one notOne
    · exact absurd little big
    · simp [received, encoded, fast, decoded, converted]
    · have noData := List.length_eq_zero_iff.mp (length.trans none)
      have noBytes := List.length_eq_zero_iff.mp none
      simp [received, encoded, decoded, noData, noBytes]

theorem received_not {elementSize : Nat} {data bytes : Bytes}
    (unconverted : ¬ Convertible host elementSize bytes.length) :
    received host elementSize data bytes = data := by
  simp only [Convertible, not_or] at unconverted
  simp [received, decoded, unconverted]

/-- What a storage adds to the file. -/
theorem writeFileRaw_eq {file data : Bytes} {self : Storage} {elementSize : Nat}
    {dtype : ScalarType} (positive : 0 < elementSize) (divides : elementSize ∣ self.nbytes)
    (convertible : Convertible host elementSize self.nbytes)
    (found : dataToWrite host self elementSize dtype = .ok data)
    (length : data.length = self.nbytes) :
    writeFileRaw fd host file self true elementSize dtype =
      .ok (file ++ (toLittleEndian 8 (self.nbytes / elementSize) ++
        encoded host elementSize data)) := by
  simp only [writeFileRaw, found, if_true, header_eq, doWrite_eq]
  by_cases fast : elementSize = 1 ∨ host.bigEndian = false
  · simp only [fast, if_true, encoded]
    rw [slice_eq (by omega)]
    simp [← length]
  · obtain ⟨notOne, big⟩ := not_or.mp fast
    have whole := Nat.div_mul_cancel divides
    simp only [fast, if_false, encoded]
    by_cases none : self.nbytes / elementSize = 0
    · have empty : data = [] := List.length_eq_zero_iff.mp (by simp_all)
      rw [writeChunks, if_neg (by omega)]
      simp [empty, none]
    · have converted : Converted elementSize = true := by
        rcases convertible with one | little | converted | empty
        · exact absurd one notOne
        · exact absurd little big
        · exact converted
        · simp [empty] at none
      generalize self.nbytes / elementSize = numel at whole none
      rw [writeChunks_eq positive converted (by omega) (by omega) (by simp), Nat.zero_mul,
        Nat.sub_zero, List.drop_zero, List.take_of_length_le (by omega), List.append_assoc]

/-- Whatever a storage adds to the file starts with its count. -/
theorem writeFileRaw_append {file bytes : Bytes} {self : Storage} {elementSize : Nat}
    {dtype : ScalarType}
    (written : writeFileRaw fd host file self true elementSize dtype = .ok bytes) :
    ∃ data body, dataToWrite host self elementSize dtype = .ok data ∧
      bytes = file ++ (toLittleEndian 8 (self.nbytes / elementSize) ++ body) ∧
      (elementSize ∣ self.nbytes → body.length = self.nbytes ∧
        (Convertible host elementSize self.nbytes → self.nbytes ≤ data.length)) ∧
      ∀ file', writeFileRaw fd host file' self true elementSize dtype =
        .ok (file' ++ (toLittleEndian 8 (self.nbytes / elementSize) ++ body)) := by
  cases found : dataToWrite host self elementSize dtype with
  | error fault => simp [writeFileRaw, found] at written
  | ok data =>
    simp only [writeFileRaw, found, if_true, header_eq, doWrite_eq] at written ⊢
    by_cases fast : elementSize = 1 ∨ host.bigEndian = false
    · simp only [fast, if_true] at written ⊢
      cases inside : slice data 0 self.nbytes with
      | error fault => simp [inside] at written
      | ok body =>
        obtain ⟨fits, rfl⟩ := slice_inside inside
        simp only [inside, Except.ok.injEq] at written ⊢
        subst written
        refine ⟨data, _, rfl, List.append_assoc .., fun _ => ⟨?_, fun _ => by omega⟩,
          fun file' => List.append_assoc ..⟩
        simp only [List.drop_zero, List.length_take]
        omega
    · obtain ⟨notOne, big⟩ := not_or.mp fast
      simp only [fast, if_false] at written ⊢
      by_cases none : self.nbytes / elementSize = 0
      · rw [writeChunks, if_neg (by omega), Except.ok.injEq] at written
        refine ⟨data, [], rfl, by simp [← written], fun divides => ?_, fun file' => ?_⟩
        · have empty : self.nbytes = 0 := by simpa [none] using (Nat.div_mul_cancel divides).symm
          simp [empty]
        · rw [writeChunks, if_neg (by omega), List.append_nil]
      · generalize numel_eq : self.nbytes / elementSize = numel at none written ⊢
        obtain ⟨body, rfl, length, inside, again⟩ := writeChunks_append (by omega) written
        refine ⟨data, body, rfl, List.append_assoc .., fun divides => ?_, fun file' => ?_⟩
        · have whole := Nat.div_mul_cancel divides
          rw [numel_eq] at whole
          refine ⟨by rw [length, Nat.sub_zero, whole], fun convertible => ?_⟩
          rcases convertible with one | little | converted | empty
          · exact absurd one notOne
          · exact absurd little big
          · exact whole ▸ inside converted (by omega)
          · omega
        · rw [again, List.append_assoc]

theorem readData_eq {data bytes rest : Bytes} {elementSize size : Nat} (positive : 0 < elementSize)
    (small : size < 2 ^ 63) (bytes_length : bytes.length = size * elementSize)
    (length : data.length = bytes.length) :
    readData fd host elementSize size bytes.length data (bytes ++ rest) =
      .ok (received host elementSize data bytes, rest) := by
  simp only [readData, received]
  split
  · rw [doRead_eq (by simp), List.take_left, List.drop_left]
    simp only
    rw [overwrite_eq (by omega)]
    simp [← length]
  · rw [if_neg (Nat.not_le.mpr small)]
    by_cases none : size = 0
    · have noBytes : bytes = [] := List.length_eq_zero_iff.mp (by simp [bytes_length, none])
      have noData : data = [] := List.length_eq_zero_iff.mp (by simp [length, noBytes])
      rw [readChunks_done (by omega)]
      simp [decoded, noBytes, noData]
    · exact readChunks_eq positive (by omega) (by omega) (length.trans bytes_length) bytes_length

/-- The staging buffer of a device storage before the file is read. -/
abbrev staging (uninitialized : Nat → UInt8) (nbytes : Nat) : Bytes :=
  (List.range nbytes).map uninitialized

variable {uninitialized : Nat → UInt8}

theorem readFileRaw_wrongSize {bytes : Bytes} {storage : Storage} {elementSize numel : Nat}
    {dtype : ScalarType} (fits : numel < 2 ^ 64)
    (wrong : storage.nbytes ≠ elementSize * numel % 2 ^ 64) :
    ∀ read, readFileRaw fd host uninitialized (toLittleEndian 8 numel ++ bytes) storage elementSize
      dtype ≠ .ok read := by
  intro read found
  rw [readFileRaw, doRead_eq (by simp), List.take_left' (by simp), List.drop_left' (by simp)] at found
  simp only [integer_count fits, ne_eq, wrong, not_false_eq_true, if_true] at found
  cases found

section

variable {bytes rest : Bytes} {storage : Storage} {elementSize : Nat} {dtype : ScalarType}

/-- The count of a storage makes its size again. -/
theorem count_size (divides : elementSize ∣ storage.nbytes) (small : storage.nbytes < 2 ^ 63) :
    elementSize * (storage.nbytes / elementSize) % 2 ^ 64 = storage.nbytes := by
  rw [Nat.mul_div_cancel' divides, Nat.mod_eq_of_lt (by omega)]

theorem readFileRaw_cpu (positive : 0 < elementSize) (small : storage.nbytes < 2 ^ 63)
    (divides : elementSize ∣ storage.nbytes) (length : bytes.length = storage.nbytes)
    (device : storage.device = .cpu) (whole : storage.buffer.length = storage.nbytes) :
    readFileRaw fd host uninitialized
        (toLittleEndian 8 (storage.nbytes / elementSize) ++ (bytes ++ rest)) storage elementSize
        dtype =
      .ok ({ storage with buffer := received host elementSize storage.buffer bytes }, rest) := by
  have count := Nat.div_le_self storage.nbytes elementSize
  have data := @readData_eq fd host storage.buffer bytes rest elementSize _ positive (Nat.lt_of_le_of_lt count small)
    (length.trans (Nat.div_mul_cancel divides).symm) (whole.trans length.symm)
  rw [length] at data
  rw [readFileRaw, doRead_eq (by simp), List.take_left' (by simp), List.drop_left' (by simp)]
  simp only [integer_count (Nat.lt_of_le_of_lt count (by omega : storage.nbytes < 2 ^ 64)),
    count_size divides small, ne_eq, not_true_eq_false, if_false, device, data]

theorem readFileRaw_gcu (positive : 0 < elementSize) (small : storage.nbytes < 2 ^ 63)
    (divides : elementSize ∣ storage.nbytes) (length : bytes.length = storage.nbytes)
    (device : storage.device = .gcu) :
    readFileRaw fd host uninitialized
        (toLittleEndian 8 (storage.nbytes / elementSize) ++ (bytes ++ rest)) storage elementSize
        dtype =
      (copyToDevice host storage (storage.nbytes / elementSize) dtype
        (received host elementSize (staging uninitialized storage.nbytes) bytes)).map
          fun storage => (storage, rest) := by
  have count := Nat.div_le_self storage.nbytes elementSize
  have data := @readData_eq fd host (staging uninitialized storage.nbytes) bytes rest elementSize _
    positive (Nat.lt_of_le_of_lt count small)
    (length.trans (Nat.div_mul_cancel divides).symm) (by simp [length])
  rw [length] at data
  rw [readFileRaw, doRead_eq (by simp), List.take_left' (by simp), List.drop_left' (by simp)]
  simp only [integer_count (Nat.lt_of_le_of_lt count (by omega : storage.nbytes < 2 ^ 64)),
    count_size divides small, ne_eq, not_true_eq_false, if_false, device, data]
  cases copyToDevice host storage (storage.nbytes / elementSize) dtype
    (received host elementSize (staging uninitialized storage.nbytes) bytes) <;> rfl

end

theorem overwrite_inside {buffer data next : Bytes} {offset : Nat}
    (written : overwrite buffer offset data = .ok next) :
    offset + data.length ≤ buffer.length ∧
      next = buffer.take offset ++ data ++ buffer.drop (offset + data.length) := by
  simp only [overwrite] at written
  split at written
  · case isTrue fits =>
    cases written
    exact ⟨fits, rfl⟩
  · cases written

theorem copyToDevice_eq {storage : Storage} {size : Nat} {dtype : ScalarType} {data : Bytes}
    (small : (copiedAs storage.nbytes size dtype).1 < 2 ^ 63)
    (length : data.length = (copiedAs storage.nbytes size dtype).1 *
      TorchGcu.elementSize (copiedAs storage.nbytes size dtype).2)
    (whole : (host.toDevice (copiedAs storage.nbytes size dtype).2 data).length =
      storage.buffer.length) :
    copyToDevice host storage size dtype data =
      .ok { storage with buffer := host.toDevice (copiedAs storage.nbytes size dtype).2 data } := by
  simp only [copyToDevice]
  rw [if_neg (Nat.not_le.mpr small), slice_eq (by omega), ← length]
  simp only [List.drop_zero, List.take_length]
  rw [overwrite_eq (by omega)]
  simp [whole]

theorem copyToDevice_inside {storage after : Storage} {size : Nat} {dtype : ScalarType}
    {data : Bytes} (copied : copyToDevice host storage size dtype data = .ok after) :
    let as := copiedAs storage.nbytes size dtype
    as.1 * TorchGcu.elementSize as.2 ≤ data.length ∧
      after.buffer = host.toDevice as.2 (data.take (as.1 * TorchGcu.elementSize as.2)) ++
        storage.buffer.drop
          (host.toDevice as.2 (data.take (as.1 * TorchGcu.elementSize as.2))).length := by
  simp only [copyToDevice] at copied
  split at copied
  · cases copied
  · split at copied
    · cases copied
    · case h_2 found =>
      obtain ⟨fits, rfl⟩ := slice_inside found
      split at copied
      · cases copied
      · case h_2 written =>
        obtain ⟨-, rfl⟩ := overwrite_inside written
        cases copied
        refine ⟨by omega, by simp⟩

/-- The tensor that a storage is copied through, by the writer and by the reader. -/
abbrev Item.copied (item : Item) : Nat × ScalarType :=
  copiedAs item.storage.nbytes (item.storage.nbytes / item.elementSize) item.dtype

theorem Item.copied_le (item : Item) : item.copied.1 ≤ item.storage.nbytes := by
  simp only [Item.copied, copiedAs]
  split
  · exact Nat.div_le_self ..
  · exact Nat.le_refl _

theorem dataToWrite_faithful {item : Item} (lawful : host.Lawful) (valid : item.Valid)
    (faithful : item.Faithful host) :
    ∃ data, dataToWrite host item.storage item.elementSize item.dtype = .ok data ∧
      data.length = item.storage.nbytes ∧
      (item.storage.device = .cpu → data = item.storage.buffer) ∧
      (item.storage.device = .gcu → data = host.toCpu item.copied.2 item.storage.buffer) := by
  cases device : item.storage.device with
  | cpu => exact ⟨item.storage.buffer, by simp [dataToWrite, device], valid.whole device, by simp,
      by simp⟩
  | gcu =>
    obtain ⟨size, memory⟩ := faithful.device device
    refine ⟨host.toCpu item.copied.2 item.storage.buffer, ?_, ?_, by simp, fun _ => rfl⟩
    · simp only [dataToWrite, device]
      rw [slice_eq (by omega)]
      simp [← memory]
    · rw [lawful.toCpu_length memory]
      exact size

/-- A faithful storage is written and read again. -/
theorem readFileRaw_written {fd' : FileIO} {item : Item} (lawful : host.Lawful)
    (valid : item.Valid) (faithful : item.Faithful host) :
    ∃ bytes, (∀ file, writeFileRaw fd host file item.storage true item.elementSize item.dtype =
        .ok (file ++ bytes)) ∧
      ∀ target : Item, ∀ rest uninitialized, Item.Target item target →
        readFileRaw fd' host uninitialized (bytes ++ rest) target.storage target.elementSize
          target.dtype = .ok (item.storage, rest) := by
  obtain ⟨data, found, length, onCpu, onGcu⟩ := dataToWrite_faithful lawful valid faithful
  have divides := faithful.divides
  refine ⟨_, fun file => writeFileRaw_eq valid.element divides faithful.converted found length,
    fun target rest uninitialized same => ?_⟩
  have positive := valid.element
  have small := valid.size
  have encoded_nbytes : (encoded host item.elementSize data).length = item.storage.nbytes :=
    (encoded_length positive (length ▸ divides)).trans length
  have convertible : Convertible host item.elementSize
      (encoded host item.elementSize data).length := encoded_nbytes ▸ faithful.converted
  have back := @encoded_encoded host _ _ positive (length ▸ divides)
  rw [List.append_assoc, same.element, same.dtype, ← same.nbytes]
  rw [← same.nbytes] at encoded_nbytes divides small
  cases device : item.storage.device with
  | cpu =>
    have whole : target.storage.buffer.length = target.storage.nbytes := by
      rw [same.length, same.nbytes, valid.whole device]
    rw [readFileRaw_cpu positive small divides encoded_nbytes (same.device.trans device) whole,
      received_convertible convertible (whole.trans encoded_nbytes.symm), back, onCpu device,
      same.nbytes, same.device]
  | gcu =>
    obtain ⟨size, memory⟩ := faithful.device device
    have copied_nbytes : copiedAs target.storage.nbytes (target.storage.nbytes / item.elementSize)
        item.dtype = item.copied := by rw [same.nbytes]
    have widened := lawful.toCpu_length memory
    have restored := lawful.toDevice_toCpu memory
    have copied_small : item.copied.1 < 2 ^ 63 := Nat.lt_of_le_of_lt item.copied_le valid.size
    rw [readFileRaw_gcu positive small divides encoded_nbytes (same.device.trans device),
      received_convertible convertible (by simp [encoded_nbytes]), back, onGcu device,
      @copyToDevice_eq host _ _ _ _ (by rw [copied_nbytes]; exact copied_small)
        (by rw [copied_nbytes]; exact widened)
        (by rw [copied_nbytes, restored, same.length])]
    simp only [restored, same.nbytes, same.device, Except.map]

/-! ### What goes wrong otherwise -/

/-- Other contents. -/
def bump (data : Bytes) : Bytes := data.map (· + 1)

@[simp] theorem bump_length (data : Bytes) : (bump data).length = data.length := by
  simp [bump]

theorem bump_eq_self {data : Bytes} (same : bump data = data) : data = [] := by
  cases data with
  | nil => rfl
  | cons byte data =>
    simp only [bump, List.map_cons, List.cons.injEq] at same
    grind

/-- The storage with other contents: it may be read into as well. -/
def Item.bumped (item : Item) : Item :=
  { item with storage := { item.storage with buffer := bump item.storage.buffer } }

theorem Item.target_bumped (item : Item) : item.Target item.bumped :=
  ⟨rfl, rfl, rfl, rfl, bump_length _⟩

theorem Item.target_self (item : Item) : item.Target item := ⟨rfl, rfl, rfl, rfl, rfl⟩

/-- Any bytes may be left in a staging buffer. -/
theorem staging_eq {bytes : Bytes} {nbytes : Nat} (fits : bytes.length ≤ nbytes) :
    (staging (fun i => bytes.getD i 0) nbytes).take bytes.length = bytes := by
  apply List.ext_getElem
  · simp [fits]
  · intro i inside inBytes
    simp [inBytes]

theorem copied_defined (nbytes numel : Nat) (dtype : ScalarType) :
    (copiedAs nbytes numel dtype).2 ≠ .undefined := by
  simp only [copiedAs]
  split
  · assumption
  · simp

section

variable {fd' : FileIO} {item : Item} {body rest : Bytes}

/-- A storage whose size is not a multiple of the element size is not read again. -/
theorem divides_of_read {read : Storage × Bytes} (valid : item.Valid)
    (found : readFileRaw fd' host uninitialized
      (toLittleEndian 8 (item.storage.nbytes / item.elementSize) ++ body) item.storage
      item.elementSize item.dtype = .ok read) : item.elementSize ∣ item.storage.nbytes := by
  have count := Nat.div_le_self item.storage.nbytes item.elementSize
  have product := Nat.mul_div_le item.storage.nbytes item.elementSize
  have small := valid.size
  by_cases wrong : item.storage.nbytes =
      item.elementSize * (item.storage.nbytes / item.elementSize) % 2 ^ 64
  · rw [Nat.mod_eq_of_lt (by omega)] at wrong
    exact ⟨_, wrong⟩
  · exact absurd found (readFileRaw_wrongSize (by omega) wrong read)

/-- The storage comes back whatever the storage it is read into and the staging buffer held. -/
def Restored (fd : FileIO) (host : Host) (item : Item) (file : Bytes) : Prop :=
  ∀ target : Item, ∀ uninitialized, Item.Target item target →
    ∃ rest, readFileRaw fd host uninitialized file target.storage target.elementSize
      target.dtype = .ok (item.storage, rest)

section

variable (valid : item.Valid) (divides : item.elementSize ∣ item.storage.nbytes)
  (length : body.length = item.storage.nbytes)
  (restored : Restored fd' host item
    (toLittleEndian 8 (item.storage.nbytes / item.elementSize) ++ (body ++ rest)))

include valid divides length restored

theorem convertible_of_read_cpu (device : item.storage.device = .cpu) :
    Convertible host item.elementSize item.storage.nbytes := by
  by_contra unconverted
  obtain ⟨_, found⟩ := restored item.bumped (fun _ => 0) item.target_bumped
  have read := @readFileRaw_cpu fd' host (fun _ => 0) body rest item.bumped.storage _ item.dtype valid.element valid.size divides length device
    ((bump_length _).trans (valid.whole device))
  rw [received_not (length ▸ unconverted)] at read
  have same := read.symm.trans found
  simp only [Except.ok.injEq, Prod.mk.injEq] at same
  have empty := bump_eq_self (congrArg Storage.buffer same.1)
  have size := valid.whole device
  rw [empty] at size
  exact unconverted (.inr (.inr (.inr size.symm)))

theorem copied_of_read (device : item.storage.device = .gcu) {target : Item}
    (same : item.Target target) (uninitialized : Nat → UInt8) :
    copyToDevice host target.storage (target.storage.nbytes / item.elementSize) item.dtype
      (received host item.elementSize (staging uninitialized target.storage.nbytes) body) =
        .ok item.storage := by
  obtain ⟨_, found⟩ := restored target uninitialized same
  have read := @readFileRaw_gcu fd' host uninitialized body rest target.storage _ item.dtype valid.element
    (same.nbytes ▸ valid.size) (same.nbytes ▸ divides) (length.trans same.nbytes.symm)
    (same.device.trans device)
  rw [same.element, same.dtype, ← same.nbytes, read] at found
  cases copied : copyToDevice host target.storage (target.storage.nbytes / item.elementSize)
      item.dtype (received host item.elementSize (staging uninitialized target.storage.nbytes) body)
  · simp [copied, Except.map] at found
  · simp only [copied, Except.map, Except.ok.injEq, Prod.mk.injEq] at found
    rw [found.1]

/-- What the device memory holds after it was read into. -/
theorem device_of_read (device : item.storage.device = .gcu) {target : Item}
    (same : item.Target target) (uninitialized : Nat → UInt8) :
    let count := item.copied.1 * TorchGcu.elementSize item.copied.2
    let data := received host item.elementSize (staging uninitialized item.storage.nbytes) body
    count ≤ data.length ∧ item.storage.buffer =
      host.toDevice item.copied.2 (data.take count) ++
        target.storage.buffer.drop (host.toDevice item.copied.2 (data.take count)).length := by
  have copied := copied_of_read valid divides length restored device same uninitialized
  have inside := copyToDevice_inside copied
  simp only [same.nbytes] at inside
  exact inside

theorem convertible_of_read_gcu (lawful : host.Lawful) (device : item.storage.device = .gcu)
    (written : item.copied.1 * deviceElementSize host.hardware item.copied.2 ≤
      item.storage.buffer.length) :
    Convertible host item.elementSize item.storage.nbytes := by
  by_contra unconverted
  generalize held : item.copied.1 * deviceElementSize host.hardware item.copied.2 = count at written
  -- the staging buffer happens to hold other elements, which are copied to the device
  have other_length : (bump (item.storage.buffer.take count)).length = count := by
    simp [written]
  have widened := lawful.toCpu_length (other_length.trans held.symm)
  have narrowed := lawful.toDevice_toCpu (other_length.trans held.symm)
  obtain ⟨inside, after⟩ := device_of_read valid divides length restored device item.target_self
    (fun i => (host.toCpu item.copied.2 (bump (item.storage.buffer.take count))).getD i 0)
  rw [received_not (length ▸ unconverted)] at inside after
  rw [← widened] at inside after
  rw [staging_eq (by simpa using inside), narrowed] at after
  have front := congrArg (List.take count) after
  rw [List.take_left' other_length] at front
  have empty := bump_eq_self front.symm
  rw [empty] at other_length
  have zero : count = 0 := by simpa using other_length.symm
  have positive : 0 < deviceElementSize host.hardware item.copied.2 :=
    deviceElementSize_pos (copied_defined _ _ _)
  have none : item.copied.1 = 0 := by
    rcases Nat.mul_eq_zero.mp (held.trans zero) with none | none
    · exact none
    · exact absurd none (by omega)
  refine unconverted (.inr (.inr (.inr ?_)))
  simp only [Item.copied, copiedAs] at none
  split at none
  · have whole := Nat.div_mul_cancel divides
    simp only at none
    rw [none, Nat.zero_mul] at whole
    exact whole.symm
  · exact none

theorem memory_of_read (lawful : host.Lawful) (device : item.storage.device = .gcu)
    (convertible : Convertible host item.elementSize item.storage.nbytes)
    (written : item.copied.1 * deviceElementSize host.hardware item.copied.2 ≤
      item.storage.buffer.length)
    (enough : item.storage.nbytes ≤ item.copied.1 * TorchGcu.elementSize item.copied.2) :
    item.copied.1 * TorchGcu.elementSize item.copied.2 = item.storage.nbytes ∧
      item.storage.buffer.length =
        item.copied.1 * deviceElementSize host.hardware item.copied.2 := by
  obtain ⟨inside, after⟩ := device_of_read valid divides length restored device
    item.target_bumped (fun _ => 0)
  rw [received_convertible (length ▸ convertible) (by simp [length])] at inside after
  have received_length := @encoded_length host _ _ valid.element (length ▸ divides)
  rw [length] at received_length
  have size : item.copied.1 * TorchGcu.elementSize item.copied.2 = item.storage.nbytes := by omega
  rw [List.take_of_length_le (by omega),
    lawful.toDevice_length (received_length.trans size.symm)] at after
  refine ⟨size, Nat.le_antisymm (List.drop_eq_nil_iff.mp (bump_eq_self ?_)) written⟩
  -- what follows the elements is what the storage held before, so nothing follows them
  have back := congrArg (List.drop (item.copied.1 *
    deviceElementSize host.hardware item.copied.2)) after
  rw [List.drop_left' (lawful.toDevice_length (received_length.trans size.symm))] at back
  rw [bump, List.map_drop]
  exact back.symm

/-- A storage that is read as it was is faithful. -/
theorem faithful_of_read (lawful : host.Lawful) {data : Bytes}
    (found : dataToWrite host item.storage item.elementSize item.dtype = .ok data)
    (enough : Convertible host item.elementSize item.storage.nbytes →
      item.storage.nbytes ≤ data.length) : item.Faithful host := by
  cases device : item.storage.device with
  | cpu =>
    exact ⟨divides, convertible_of_read_cpu valid divides length restored device, by simp [device]⟩
  | gcu =>
    simp only [dataToWrite, device] at found
    split at found
    · case h_1 elements taken =>
      obtain ⟨written, rfl⟩ := slice_inside taken
      cases found
      have convertible := convertible_of_read_gcu valid divides length restored lawful device
        (by simpa using written)
      refine ⟨divides, convertible, fun _ => memory_of_read valid divides length restored lawful
        device convertible (by simpa using written) ?_⟩
      have widened := @Host.Lawful.toCpu_length host lawful item.copied.2
        ((item.storage.buffer.drop 0).take (item.copied.1 *
          deviceElementSize host.hardware item.copied.2)) item.copied.1
        (by rw [List.length_take, List.length_drop]; exact Nat.min_eq_left (by simpa using written))
      exact widened ▸ enough convertible
    · cases found

end

end

/-! ### Streams of storages -/

theorem writeAll_append {items : List Item} {file written : Bytes}
    (all : writeAll fd host file items = .ok written) :
    ∃ bytes, written = file ++ bytes ∧ ∀ file', writeAll fd host file' items = .ok (file' ++ bytes) := by
  induction items generalizing file with
  | nil => exact ⟨[], by simpa [writeAll, eq_comm] using all, by simp [writeAll]⟩
  | cons item items ih =>
    cases one : writeFileRaw fd host file item.storage true item.elementSize item.dtype with
    | error fault => simp [writeAll, one] at all
    | ok next =>
      obtain ⟨_, body, _, rfl, _, again⟩ := writeFileRaw_append one
      simp only [writeAll, one] at all
      obtain ⟨bytes, rfl, more⟩ := ih all
      refine ⟨_ ++ bytes, List.append_assoc .., fun file' => ?_⟩
      rw [writeAll, again]
      simp only [more, List.append_assoc]

theorem readAll_cons {item : Item} {items : List Item} {file rest : Bytes} {storage : Storage}
    {storages : List Storage}
    (read : readAll fd host uninitialized file (item :: items) = .ok (storage :: storages, rest)) :
    ∃ next, readFileRaw fd host uninitialized file item.storage item.elementSize item.dtype =
        .ok (storage, next) ∧
      readAll fd host uninitialized next items = .ok (storages, rest) := by
  rw [readAll] at read
  split at read
  · cases read
  · case h_2 found =>
    split at read
    · case h_1 others =>
      cases read
      exact ⟨_, found, others⟩
    · cases read

theorem roundTrips_of_faithful {fd' : FileIO} {items : List Item} (lawful : host.Lawful)
    (valid : ∀ item ∈ items, item.Valid) (faithful : ∀ item ∈ items, item.Faithful host) :
    RoundTrips fd fd' host items := by
  induction items with
  | nil =>
    refine fun file => ⟨[], by simp [writeAll], fun targets rest uninitialized same => ?_⟩
    cases same
    simp [readAll]
  | cons item items ih =>
    intro file
    obtain ⟨one, writes, reads⟩ := @readFileRaw_written fd host fd' item lawful
      (valid item (by simp)) (faithful item (by simp))
    obtain ⟨bytes, written, back⟩ := ih (fun item found => valid item (by simp [found]))
      (fun item found => faithful item (by simp [found])) (file ++ one)
    refine ⟨one ++ bytes, by simp [writeAll, writes, written], fun targets rest _ same => ?_⟩
    cases same with
    | cons head tail =>
      rw [List.append_assoc, readAll, reads _ _ _ head]
      simp only [back _ _ _ tail, List.map_cons]

theorem faithful_of_roundTrips {fd' : FileIO} {items : List Item} (lawful : host.Lawful)
    (valid : ∀ item ∈ items, item.Valid) (roundTrips : RoundTrips fd fd' host items) :
    ∀ item ∈ items, item.Faithful host := by
  induction items with
  | nil => simp
  | cons item items ih =>
    obtain ⟨_, written, back⟩ := roundTrips []
    cases one : writeFileRaw fd host [] item.storage true item.elementSize item.dtype with
    | error fault => simp [writeAll, one] at written
    | ok next =>
      obtain ⟨data, body, found, rfl, lengths, again⟩ := writeFileRaw_append one
      simp only [writeAll, one] at written
      obtain ⟨bytes, rfl, more⟩ := writeAll_append written
      have head := valid item (by simp)
      have restored : Restored fd' host item (toLittleEndian 8
          (item.storage.nbytes / item.elementSize) ++ (body ++ bytes)) := by
        intro target uninitialized same
        have itself := List.forall₂_same.mpr fun item (_ : item ∈ items) => item.target_self
        have reads := back _ [] uninitialized (.cons same itself)
        obtain ⟨next, read, _⟩ := readAll_cons reads
        exact ⟨next, by simpa using read⟩
      obtain ⟨_, read⟩ := restored item (fun _ => 0) item.target_self
      have divides := divides_of_read head read
      obtain ⟨length, enough⟩ := lengths divides
      have faithful := faithful_of_read head divides length restored lawful found enough
      have tail : RoundTrips fd fd' host items := by
        refine fun file => ⟨bytes, more file, fun targets rest uninitialized same => ?_⟩
        obtain ⟨one', writes, reads⟩ := @readFileRaw_written fd host fd' item lawful head
          faithful
        have same_bytes := (writes []).symm.trans one
        simp only [List.nil_append, Except.ok.injEq] at same_bytes
        have both := back _ rest uninitialized (.cons item.target_self same)
        obtain ⟨next, read, others⟩ := readAll_cons both
        rw [List.nil_append, List.append_assoc, ← same_bytes, reads _ _ _ item.target_self] at read
        cases read
        exact others
      exact List.forall_mem_cons.mpr ⟨faithful,
        ih (fun item found => valid item (by simp [found])) tail⟩

/-- A stream of storages is written and read again exactly when each of them is faithful. -/
theorem legacy_stream_round_trips (fd fd' : FileIO) (host : Host) (items : List Item)
    (lawful : host.Lawful) (valid : ∀ item ∈ items, item.Valid) :
    RoundTrips fd fd' host items ↔ ∀ item ∈ items, item.Faithful host :=
  ⟨faithful_of_roundTrips lawful valid, roundTrips_of_faithful lawful valid⟩

/-! ### A little endian host whose device narrows 64-bit integers -/

def widen (dtype : ScalarType) (width : Nat) : Nat → Bytes → Bytes
  | 0, _ => []
  | n + 1, data =>
    let element := data.take width
    let fill := if dtype = .long ∧ 128 ≤ (element.getLast?.getD 0).toNat then 255 else 0
    element ++ List.replicate width fill ++ widen dtype width n (data.drop width)

def narrow (width : Nat) : Nat → Bytes → Bytes
  | 0, _ => []
  | n + 1, data => data.take width ++ narrow width n (data.drop (width + width))

theorem widen_length {dtype : ScalarType} {width n : Nat} {data : Bytes}
    (length : data.length = n * width) : (widen dtype width n data).length = n * (2 * width) := by
  induction n generalizing data with
  | zero => simp [widen]
  | succ n ih =>
    obtain ⟨chunk, rest, rfl, rfl, more⟩ := split_element length
    simp only [widen, List.take_left, List.drop_left, List.length_append, List.length_replicate,
      ih more]
    rw [Nat.add_mul]
    omega

theorem narrow_length {width n : Nat} {data : Bytes} (length : data.length = n * (2 * width)) :
    (narrow width n data).length = n * width := by
  induction n generalizing data with
  | zero => simp [narrow]
  | succ n ih =>
    rw [Nat.add_mul] at length
    rw [narrow, List.length_append, ih (by rw [List.length_drop]; omega), List.length_take,
      Nat.add_mul]
    omega

theorem narrow_widen {dtype : ScalarType} {width n : Nat} {data : Bytes}
    (length : data.length = n * width) : narrow width n (widen dtype width n data) = data := by
  induction n generalizing data with
  | zero => simp [narrow, List.length_eq_zero_iff.mp (by simpa using length)]
  | succ n ih =>
    obtain ⟨chunk, rest, rfl, rfl, more⟩ := split_element length
    simp only [widen, narrow, List.take_left, List.drop_left, List.append_assoc]
    rw [← List.append_assoc, List.drop_left' (by simp), ih more]

def narrowingHost : Host where
  bigEndian := false
  hardware := {}
  toCpu dtype data :=
    if isNarrowType {} dtype then
      widen dtype (deviceElementSize {} dtype) (data.length / deviceElementSize {} dtype) data
    else data
  toDevice dtype data :=
    if isNarrowType {} dtype then
      narrow (deviceElementSize {} dtype) (data.length / elementSize dtype) data
    else data

theorem narrowingHost_lawful : narrowingHost.Lawful := by
  have positive : ∀ {dtype}, isNarrowType {} dtype = true → 0 < deviceElementSize {} dtype := by
    intro dtype narrowed
    refine deviceElementSize_pos fun undefined => ?_
    simp [undefined, isNarrowType] at narrowed
  refine ⟨?_, ?_, ?_⟩
  · intro dtype data n length
    simp only [narrowingHost] at length ⊢
    split
    · case isTrue narrowed =>
      rw [length, Nat.mul_div_cancel n (positive narrowed), widen_length length,
        elementSize_narrow narrowed]
    · case isFalse wide => rw [length, elementSize_wide (by simpa using wide)]
  · intro dtype data n length
    simp only [narrowingHost] at length ⊢
    split
    · case isTrue narrowed =>
      have width := positive narrowed
      rw [length, Nat.mul_div_cancel n width, widen_length length, elementSize_narrow narrowed,
        Nat.mul_div_cancel n (by omega), narrow_widen length]
    · rfl
  · intro dtype data n length
    simp only [narrowingHost]
    split
    · case isTrue narrowed =>
      have width := positive narrowed
      rw [elementSize_narrow narrowed] at length ⊢
      rw [length, Nat.mul_div_cancel n (by omega), narrow_length length]
    · case isFalse wide =>
      rw [length, elementSize_wide (by simpa using wide)]

/-- A file that moves as much as it is asked to. -/
def wholeIO : FileIO := ⟨fun _ asked => asked, fun _ _ some => ⟨some, Nat.le_refl _⟩⟩

/-- Two integers on the device, and three bytes on the host. -/
def integersAndBytes : List Item :=
  [⟨⟨.gcu, 16, [1, 0, 0, 0, 255, 255, 255, 255]⟩, 8, .long⟩, ⟨⟨.cpu, 3, [7, 8, 9]⟩, 1, .byte⟩]

theorem integersAndBytes_round_trip :
    RoundTrips wholeIO wholeIO narrowingHost integersAndBytes := by
  have valid : ∀ item ∈ integersAndBytes, item.Valid := by
    simp only [integersAndBytes, List.forall_mem_cons]
    exact ⟨⟨by decide, by decide, by decide⟩, ⟨by decide, by decide, by decide⟩, by simp⟩
  refine (legacy_stream_round_trips wholeIO wholeIO narrowingHost integersAndBytes
    narrowingHost_lawful valid).mpr ?_
  simp only [integersAndBytes, List.forall_mem_cons]
  exact ⟨⟨by decide, .inr (.inl rfl), by decide⟩, ⟨by decide, .inl rfl, by decide⟩, by simp⟩

/-- A storage of three bytes that is written as elements of two. -/
def threeBytes : Item := ⟨⟨.cpu, 3, [7, 8, 9]⟩, 2, .half⟩

theorem three_bytes_do_not_round_trip :
    threeBytes.Valid ∧ narrowingHost.Lawful ∧
      ¬ RoundTrips wholeIO wholeIO narrowingHost [threeBytes] := by
  have valid : threeBytes.Valid := ⟨by decide, by decide, fun _ => rfl⟩
  refine ⟨valid, narrowingHost_lawful, fun roundTrips => ?_⟩
  have faithful := faithful_of_roundTrips narrowingHost_lawful (by simpa using valid) roundTrips
    threeBytes (by simp)
  have divides : 2 ∣ 3 := faithful.divides
  omega

end TorchGcu.StorageFile

import TorchGcu.Tensor.ScalarType

/-! The stream of storages that legacy serialization writes and reads: each storage is an element
count and its bytes, both little endian. -/
namespace TorchGcu.StorageFile

abbrev Bytes := List UInt8

inductive Fault where
  | outOfBounds
  | unexpectedEof (missing : Nat)
  | wrongByteSize (expected got : Nat)
  | invalidSize
deriving DecidableEq

/-! ### Files -/

/-- How much the next call of read or write moves, which may be less than asked. -/
structure FileIO where
  amount : Bytes → Nat → Nat
  moves : ∀ file asked, 0 < asked → 0 < amount file asked ∧ amount file asked ≤ asked

/-- Requires that exactly `nbytes` are read; the result is what was read and the file after it. -/
def doRead (fd : FileIO) (file : Bytes) (nbytes : Nat) : Except Fault (Bytes × Bytes) :=
  if nbytes = 0 then .ok ([], file)
  else
    let r := min (fd.amount file (min nbytes 1073741824)) file.length
    if r = 0 then .error (.unexpectedEof nbytes)
    else
      match doRead fd (file.drop r) (nbytes - r) with
      | .ok (bytes, rest) => .ok (file.take r ++ bytes, rest)
      | .error fault => .error fault
termination_by nbytes

/-- Appends `data` to a file. -/
def doWrite (fd : FileIO) (file data : Bytes) : Bytes :=
  if data = [] then file
  else
    let r := fd.amount file (min data.length 1073741824)
    if r = 0 then file
    else doWrite fd (file ++ data.take r) (data.drop r)
termination_by data.length
decreasing_by
  have nonempty := List.length_pos_iff.mpr ‹¬data = []›
  simp only [List.length_drop]
  omega

/-! ### Memory -/

/-- The bytes of a buffer at an offset. -/
def slice (buffer : Bytes) (offset count : Nat) : Except Fault Bytes :=
  if offset + count ≤ buffer.length then .ok ((buffer.drop offset).take count)
  else .error .outOfBounds

/-- A buffer after a write at an offset. -/
def overwrite (buffer : Bytes) (offset : Nat) (data : Bytes) : Except Fault Bytes :=
  if offset + data.length ≤ buffer.length then
    .ok (buffer.take offset ++ data ++ buffer.drop (offset + data.length))
  else .error .outOfBounds

def toLittleEndian : Nat → Nat → Bytes
  | 0, _ => []
  | width + 1, value => UInt8.ofNat (value % 256) :: toLittleEndian width (value / 256)

def ofLittleEndian : Bytes → Nat
  | [] => 0
  | byte :: bytes => byte.toNat + 256 * ofLittleEndian bytes

/-- The bytes of each element of a buffer in reverse order. -/
def swapElements (elementSize : Nat) (data : Bytes) : Bytes :=
  if elementSize = 0 ∨ data = [] then []
  else (data.take elementSize).reverse ++ swapElements elementSize (data.drop elementSize)
termination_by data.length
decreasing_by
  have more := not_or.mp ‹¬(elementSize = 0 ∨ data = [])›
  have nonempty := List.length_pos_iff.mpr more.2
  simp only [List.length_drop]
  omega

/-- The machine: its byte order, its device, and what a copy between host and device memory does
to the elements of a tensor, which are narrowed for the device. -/
structure Host where
  bigEndian : Bool
  hardware : Hardware
  toCpu : ScalarType → Bytes → Bytes
  toDevice : ScalarType → Bytes → Bytes

/-- The memory of a 64-bit integer. -/
def Host.memory (host : Host) (value : Nat) : Bytes :=
  if host.bigEndian then (toLittleEndian 8 value).reverse else toLittleEndian 8 value

def Host.integer (host : Host) (memory : Bytes) : Nat :=
  if host.bigEndian then ofLittleEndian memory.reverse else ofLittleEndian memory

inductive Device where
  | cpu
  | gcu
deriving DecidableEq, Repr

/-- A storage: its logical size, and its memory. -/
structure Storage where
  device : Device
  nbytes : Nat
  buffer : Bytes
deriving DecidableEq

/-- The tensor that a device storage is copied through: of its type, or of bytes when the type is
undefined. -/
def copiedAs (nbytes numel : Nat) (dtype : ScalarType) : Nat × ScalarType :=
  if dtype ≠ .undefined then (numel, dtype) else (nbytes, .byte)

/-- The element sizes for which big endian hosts convert elements. -/
def Converted (elementSize : Nat) : Bool := elementSize == 2 || elementSize == 4 || elementSize == 8

/-! ### The writer -/

/-- `data`: the storage's own memory, or that of a copy on the host. -/
def dataToWrite (host : Host) (self : Storage) (elementSize : Nat) (dtype : ScalarType) :
    Except Fault Bytes :=
  match self.device with
  | .cpu => .ok self.buffer
  | .gcu =>
    let (size, dtype) := copiedAs self.nbytes (self.nbytes / elementSize) dtype
    match slice self.buffer 0 (size * deviceElementSize host.hardware dtype) with
    | .ok elements => .ok (host.toCpu dtype elements)
    | .error fault => .error fault

def header (host : Host) (numel : Nat) : Bytes :=
  if host.bigEndian then swapElements 8 (host.memory numel) else host.memory numel

/-- `le_buffer` after the elements of a chunk were encoded into it, which happens for the
converted sizes only. -/
def encodeChunk (data : Bytes) (elementSize i toConvert : Nat) (leBuffer : Bytes) :
    Except Fault Bytes :=
  if Converted elementSize then
    match slice data (i * elementSize) (toConvert * elementSize) with
    | .ok chunk => overwrite leBuffer 0 (swapElements elementSize chunk)
    | .error fault => .error fault
  else .ok leBuffer

/-- The loop over chunks of at most `bufferSize` elements. -/
def writeChunks (fd : FileIO) (data : Bytes) (elementSize numel bufferSize i : Nat)
    (leBuffer file : Bytes) : Except Fault Bytes :=
  if i < numel ∧ 0 < bufferSize then
    let toConvert := min (numel - i) bufferSize
    match encodeChunk data elementSize i toConvert leBuffer with
    | .error fault => .error fault
    | .ok leBuffer =>
      match slice leBuffer 0 (toConvert * elementSize) with
      | .error fault => .error fault
      | .ok chunk =>
        writeChunks fd data elementSize numel bufferSize (i + bufferSize) leBuffer
          (doWrite fd file chunk)
  else .ok file
termination_by numel - i

/-- `THGPStorage_writeFileRaw`: the file with a storage written to its end. -/
def writeFileRaw (fd : FileIO) (host : Host) (file : Bytes) (self : Storage) (saveSize : Bool)
    (elementSize : Nat) (dtype : ScalarType) : Except Fault Bytes :=
  let numel := self.nbytes / elementSize
  match dataToWrite host self elementSize dtype with
  | .error fault => .error fault
  | .ok data =>
    let file := if saveSize then doWrite fd file (header host numel) else file
    -- fast track for bytes and little endian
    if elementSize = 1 ∨ host.bigEndian = false then
      match slice data 0 self.nbytes with
      | .error fault => .error fault
      | .ok bytes => .ok (doWrite fd file bytes)
    else
      let bufferSize := min numel 5000
      writeChunks fd data elementSize numel bufferSize 0
        (List.replicate (bufferSize * elementSize) 0) file

/-! ### The reader -/

/-- The storage's memory or the staging buffer after a chunk was decoded into it. -/
def decodeChunk (data : Bytes) (elementSize i : Nat) (chunk : Bytes) : Except Fault Bytes :=
  if Converted elementSize then overwrite data (i * elementSize) (swapElements elementSize chunk)
  else .ok data

def readChunks (fd : FileIO) (elementSize size bufferSize i : Nat) (data file : Bytes) :
    Except Fault (Bytes × Bytes) :=
  if i < size ∧ 0 < bufferSize then
    let toConvert := min (size - i) bufferSize
    match doRead fd file (elementSize * toConvert) with
    | .error fault => .error fault
    | .ok (chunk, file) =>
      match decodeChunk data elementSize i chunk with
      | .error fault => .error fault
      | .ok data => readChunks fd elementSize size bufferSize (i + bufferSize) data file
  else .ok (data, file)
termination_by size - i

/-- The bytes of a storage read into its memory or into the staging buffer. -/
def readData (fd : FileIO) (host : Host) (elementSize size nbytes : Nat) (data file : Bytes) :
    Except Fault (Bytes × Bytes) :=
  -- fast track for bytes and little endian
  if elementSize = 1 ∨ host.bigEndian = false then
    match doRead fd file nbytes with
    | .error fault => .error fault
    | .ok (bytes, file) =>
      match overwrite data 0 bytes with
      | .error fault => .error fault
      | .ok data => .ok (data, file)
  else if 2 ^ 63 ≤ size then .error .invalidSize
  else readChunks fd elementSize size (min size 5000) 0 data file

/-- The copy of the staging buffer to the device. -/
def copyToDevice (host : Host) (storage : Storage) (size : Nat) (dtype : ScalarType)
    (data : Bytes) : Except Fault Storage :=
  let (size, dtype) := copiedAs storage.nbytes size dtype
  if 2 ^ 63 ≤ size then .error .invalidSize
  else
    match slice data 0 (size * elementSize dtype) with
    | .error fault => .error fault
    | .ok elements =>
      match overwrite storage.buffer 0 (host.toDevice dtype elements) with
      | .error fault => .error fault
      | .ok buffer => .ok { storage with buffer }

/-- `THGPStorage_readFileRaw` of a storage that is given, as all callers do. The staging buffer
of a device storage is not initialised. -/
def readFileRaw (fd : FileIO) (host : Host) (uninitialized : Nat → UInt8) (file : Bytes)
    (storage : Storage) (elementSize : Nat) (dtype : ScalarType) :
    Except Fault (Storage × Bytes) :=
  match doRead fd file 8 with
  | .error fault => .error fault
  | .ok (count, file) =>
    let size := host.integer (if host.bigEndian then swapElements 8 count else count)
    let nbytes := elementSize * size % 2 ^ 64
    if storage.nbytes ≠ nbytes then .error (.wrongByteSize nbytes storage.nbytes)
    else
      match storage.device with
      | .cpu =>
        match readData fd host elementSize size nbytes storage.buffer file with
        | .error fault => .error fault
        | .ok (data, file) => .ok ({ storage with buffer := data }, file)
      | .gcu =>
        match readData fd host elementSize size nbytes ((List.range nbytes).map uninitialized)
            file with
        | .error fault => .error fault
        | .ok (data, file) =>
          match copyToDevice host storage size dtype data with
          | .error fault => .error fault
          | .ok storage => .ok (storage, file)

end TorchGcu.StorageFile

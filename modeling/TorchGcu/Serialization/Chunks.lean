import Mathlib.Tactic.Conv
import TorchGcu.Serialization.StorageFile

/-! What reads, writes and the loops over chunks of elements do, once their faults are out of the
way. -/
namespace TorchGcu.StorageFile

/-! ### Files -/

variable {fd : FileIO} {host : Host}

theorem doRead_eq {file : Bytes} {nbytes : Nat} (enough : nbytes ≤ file.length) :
    doRead fd file nbytes = .ok (file.take nbytes, file.drop nbytes) := by
  induction nbytes using Nat.strongRecOn generalizing file with
  | ind nbytes ih =>
    unfold doRead
    by_cases none : nbytes = 0
    · simp [none]
    · have moves := fd.moves file (min nbytes 1073741824) (by omega)
      generalize fd.amount file (min nbytes 1073741824) = amount at moves
      have some : ¬ min amount file.length = 0 := by omega
      have rest : nbytes - min amount file.length ≤ (file.drop (min amount file.length)).length := by
        simp only [List.length_drop]
        omega
      simp only [none, if_false, some, ih _ (by omega) rest]
      have whole : min amount file.length + (nbytes - min amount file.length) = nbytes := by omega
      congr 2
      · conv_rhs => rw [← whole, List.take_add]
      · rw [List.drop_drop, whole]

theorem doWrite_eq (file data : Bytes) : doWrite fd file data = file ++ data := by
  induction length : data.length using Nat.strongRecOn generalizing file data with
  | ind n ih =>
    unfold doWrite
    by_cases empty : data = []
    · simp [empty]
    · have pos := List.length_pos_iff.mpr empty
      have moves := fd.moves file (min data.length 1073741824) (by omega)
      have some : ¬ fd.amount file (min data.length 1073741824) = 0 := by omega
      simp only [empty, if_false, some]
      rw [ih _ _ _ _ rfl]
      · simp
      · simp only [List.length_drop]
        omega

/-! ### Memory -/

theorem slice_eq {buffer : Bytes} {offset count : Nat} (fits : offset + count ≤ buffer.length) :
    slice buffer offset count = .ok ((buffer.drop offset).take count) := by
  simp [slice, fits]

theorem slice_inside {buffer bytes : Bytes} {offset count : Nat}
    (found : slice buffer offset count = .ok bytes) :
    offset + count ≤ buffer.length ∧ bytes = (buffer.drop offset).take count := by
  simp only [slice] at found
  split at found
  · case isTrue fits =>
    cases found
    exact ⟨fits, rfl⟩
  · cases found

theorem overwrite_eq {buffer data : Bytes} {offset : Nat}
    (fits : offset + data.length ≤ buffer.length) : overwrite buffer offset data =
      .ok (buffer.take offset ++ data ++ buffer.drop (offset + data.length)) := by
  simp [overwrite, fits]

@[simp] theorem toLittleEndian_length (width value : Nat) :
    (toLittleEndian width value).length = width := by
  induction width generalizing value with
  | zero => rfl
  | succ width ih => simp [toLittleEndian, ih]

theorem ofLittleEndian_toLittleEndian (width value : Nat) :
    ofLittleEndian (toLittleEndian width value) = value % 256 ^ width := by
  induction width generalizing value with
  | zero => simp [toLittleEndian, ofLittleEndian, Nat.mod_one]
  | succ width ih =>
    have byte : value % 256 % 2 ^ 8 = value % 256 := Nat.mod_mod_of_dvd value (by decide)
    rw [toLittleEndian, ofLittleEndian, ih, UInt8.toNat_ofNat', byte, Nat.pow_succ', Nat.mod_mul]

theorem swapElements_append {elementSize : Nat} {chunk data : Bytes} (positive : 0 < elementSize)
    (one : chunk.length = elementSize) :
    swapElements elementSize (chunk ++ data) = chunk.reverse ++ swapElements elementSize data := by
  have some : ¬ (elementSize = 0 ∨ chunk ++ data = []) := by
    rintro (zero | empty)
    · omega
    · simp [List.append_eq_nil_iff.mp empty] at one
      omega
  rw [swapElements, if_neg some, ← one, List.take_left, List.drop_left]

@[simp] theorem swapElements_nil (elementSize : Nat) : swapElements elementSize [] = [] := by
  simp [swapElements]

/-- A buffer of whole elements is empty, or an element and a buffer of whole elements. -/
theorem split_element {elementSize n : Nat} {data : Bytes} (whole : data.length = (n + 1) * elementSize) :
    ∃ chunk rest, data = chunk ++ rest ∧ chunk.length = elementSize ∧
      rest.length = n * elementSize := by
  refine ⟨data.take elementSize, data.drop elementSize, (List.take_append_drop _ _).symm, ?_, ?_⟩
  · rw [List.length_take, whole, Nat.add_mul]
    omega
  · rw [List.length_drop, whole, Nat.add_mul]
    omega

theorem swapElements_length {elementSize n : Nat} {data : Bytes} (positive : 0 < elementSize)
    (whole : data.length = n * elementSize) :
    (swapElements elementSize data).length = data.length := by
  induction n generalizing data with
  | zero =>
    have empty : data = [] := List.length_eq_zero_iff.mp (by simpa using whole)
    simp [empty]
  | succ n ih =>
    obtain ⟨chunk, rest, rfl, one, more⟩ := split_element whole
    simp [swapElements_append positive one, ih more]

theorem swapElements_swapElements {elementSize n : Nat} {data : Bytes} (positive : 0 < elementSize)
    (whole : data.length = n * elementSize) :
    swapElements elementSize (swapElements elementSize data) = data := by
  induction n generalizing data with
  | zero =>
    have empty : data = [] := List.length_eq_zero_iff.mp (by simpa using whole)
    simp [empty]
  | succ n ih =>
    obtain ⟨chunk, rest, rfl, one, more⟩ := split_element whole
    rw [swapElements_append positive one,
      swapElements_append positive (by simpa using one), ih more, List.reverse_reverse]

theorem swapElements_append_whole {elementSize n : Nat} {front back : Bytes}
    (positive : 0 < elementSize) (whole : front.length = n * elementSize) :
    swapElements elementSize (front ++ back) =
      swapElements elementSize front ++ swapElements elementSize back := by
  induction n generalizing front with
  | zero =>
    have empty : front = [] := List.length_eq_zero_iff.mp (by simpa using whole)
    simp [empty]
  | succ n ih =>
    obtain ⟨chunk, rest, rfl, one, more⟩ := split_element whole
    rw [List.append_assoc, swapElements_append positive one, swapElements_append positive one,
      ih more, List.append_assoc]

theorem swapElements_one {elementSize : Nat} {chunk : Bytes} (positive : 0 < elementSize)
    (one : chunk.length = elementSize) : swapElements elementSize chunk = chunk.reverse := by
  have swapped : _ = chunk.reverse ++ swapElements elementSize [] := swapElements_append positive one
  simpa using swapped

/-! ### The count -/

theorem header_eq (numel : Nat) : header host numel = toLittleEndian 8 numel := by
  cases bigEndian : host.bigEndian with
  | false => simp [header, Host.memory, bigEndian]
  | true =>
    have one : (toLittleEndian 8 numel).reverse.length = 8 := by simp
    simp [header, Host.memory, bigEndian, swapElements_one (by decide) one]

/-- The reader gets the count that was written. -/
theorem integer_count {numel : Nat} (fits : numel < 2 ^ 64) :
    host.integer (if host.bigEndian then swapElements 8 (toLittleEndian 8 numel)
      else toLittleEndian 8 numel) = numel := by
  have value := (ofLittleEndian_toLittleEndian 8 numel).trans (Nat.mod_eq_of_lt (by omega))
  cases bigEndian : host.bigEndian with
  | false => simpa [Host.integer, bigEndian] using value
  | true =>
    have one : (toLittleEndian 8 numel).length = 8 := by simp
    simpa [Host.integer, bigEndian, swapElements_one (by decide) one] using value

/-! ### The loops over chunks -/

/-- The next chunk, and what is left after it. -/
theorem chunk_add_rest (numel bufferSize i : Nat) :
    numel - i = min (numel - i) bufferSize + (numel - (i + bufferSize)) := by
  omega

theorem chunk_split {data : Bytes} {elementSize numel bufferSize i : Nat} :
    (data.drop (i * elementSize)).take ((numel - i) * elementSize) =
      (data.drop (i * elementSize)).take (min (numel - i) bufferSize * elementSize) ++
        (data.drop ((i + bufferSize) * elementSize)).take
          ((numel - (i + bufferSize)) * elementSize) := by
  conv_lhs => rw [chunk_add_rest numel bufferSize i, Nat.add_mul, List.take_add]
  rw [List.drop_drop, ← Nat.add_mul]
  rcases Nat.le_total bufferSize (numel - i) with more | last
  · rw [Nat.min_eq_right more]
  · have none : numel - (i + bufferSize) = 0 := by omega
    simp [none]

theorem encodeChunk_eq {data leBuffer : Bytes} {elementSize i toConvert : Nat}
    (positive : 0 < elementSize) (converted : Converted elementSize = true)
    (inData : (i + toConvert) * elementSize ≤ data.length)
    (inBuffer : toConvert * elementSize ≤ leBuffer.length) :
    encodeChunk data elementSize i toConvert leBuffer =
      .ok (swapElements elementSize ((data.drop (i * elementSize)).take (toConvert * elementSize)) ++
        leBuffer.drop (toConvert * elementSize)) := by
  have ends := Nat.add_mul i toConvert elementSize
  have length : ((data.drop (i * elementSize)).take (toConvert * elementSize)).length =
      toConvert * elementSize := by
    rw [List.length_take, List.length_drop]
    omega
  have swapped := (swapElements_length positive length).trans length
  rw [encodeChunk, if_pos converted, slice_eq (by omega)]
  simp only
  rw [overwrite_eq (by omega), swapped]
  simp

/-- What the loop of the writer appends for the converted sizes. -/
theorem writeChunks_eq {data leBuffer file : Bytes} {elementSize numel bufferSize i : Nat}
    (positive : 0 < elementSize) (converted : Converted elementSize = true)
    (some : 0 < bufferSize) (inData : numel * elementSize ≤ data.length)
    (buffer : leBuffer.length = bufferSize * elementSize) :
    writeChunks fd data elementSize numel bufferSize i leBuffer file =
      .ok (file ++ swapElements elementSize
        ((data.drop (i * elementSize)).take ((numel - i) * elementSize))) := by
  induction left : numel - i using Nat.strongRecOn generalizing i leBuffer file with
  | ind left ih =>
    subst left
    unfold writeChunks
    by_cases more : i < numel
    · have within : min (numel - i) bufferSize * elementSize ≤ bufferSize * elementSize :=
        Nat.mul_le_mul_right _ (Nat.min_le_right _ _)
      have fits : min (numel - i) bufferSize * elementSize ≤ leBuffer.length := by omega
      have upTo : (i + min (numel - i) bufferSize) * elementSize ≤ numel * elementSize :=
        Nat.mul_le_mul_right _ (by omega)
      have ends := Nat.add_mul i (min (numel - i) bufferSize) elementSize
      have length : ((data.drop (i * elementSize)).take
          (min (numel - i) bufferSize * elementSize)).length =
            min (numel - i) bufferSize * elementSize := by
        rw [List.length_take, List.length_drop]
        omega
      have swapped := (swapElements_length positive length).trans length
      have encoded := @encodeChunk_eq data leBuffer _ _ _ positive converted
        (Nat.le_trans upTo inData) fits
      simp only [more, some, and_self, if_true, encoded]
      rw [slice_eq (by simp [swapped])]
      simp only [List.drop_zero, List.take_left' swapped]
      rw [ih _ (by omega) (by simp [swapped]; omega) rfl, doWrite_eq, List.append_assoc,
        ← swapElements_append_whole positive length, ← chunk_split]
    · have none : numel - i = 0 := by omega
      simp [more, none]

theorem encodeChunk_inside {data leBuffer chunk : Bytes} {elementSize i toConvert : Nat}
    (converted : Converted elementSize = true)
    (encoded : encodeChunk data elementSize i toConvert leBuffer = .ok chunk) :
    (i + toConvert) * elementSize ≤ data.length := by
  rw [encodeChunk, if_pos converted] at encoded
  cases found : slice data (i * elementSize) (toConvert * elementSize) with
  | error fault => simp [found] at encoded
  | ok bytes =>
    rw [Nat.add_mul]
    exact (slice_inside found).1

/-- The file only gets longer, by the same bytes wherever the storage stands in it. -/
theorem writeChunks_append {data leBuffer file bytes : Bytes}
    {elementSize numel bufferSize i : Nat} (some : 0 < bufferSize)
    (written : writeChunks fd data elementSize numel bufferSize i leBuffer file = .ok bytes) :
    ∃ body, bytes = file ++ body ∧ body.length = (numel - i) * elementSize ∧
      (Converted elementSize = true → i < numel → numel * elementSize ≤ data.length) ∧
      ∀ file', writeChunks fd data elementSize numel bufferSize i leBuffer file' =
        .ok (file' ++ body) := by
  induction left : numel - i using Nat.strongRecOn generalizing i leBuffer file with
  | ind left ih =>
    subst left
    unfold writeChunks at written ⊢
    by_cases more : i < numel
    · simp only [more, some, and_self, if_true] at written ⊢
      cases encoded : encodeChunk data elementSize i (min (numel - i) bufferSize) leBuffer with
      | error fault => simp [encoded] at written
      | ok encodedBuffer =>
        cases found : slice encodedBuffer 0 (min (numel - i) bufferSize * elementSize) with
        | error fault => simp [encoded, found] at written
        | ok chunk =>
          simp only [encoded, found, doWrite_eq] at written ⊢
          obtain ⟨body, rfl, length, inside, again⟩ := ih _ (by omega) written rfl
          obtain ⟨fits, rfl⟩ := slice_inside found
          have whole : numel - i = min (numel - i) bufferSize + (numel - (i + bufferSize)) :=
            chunk_add_rest _ _ _
          refine ⟨encodedBuffer.take (min (numel - i) bufferSize * elementSize) ++ body,
            by simp, ?_, ?_, ?_⟩
          · rw [List.length_append, List.length_take, length]
            conv_rhs => rw [whole, Nat.add_mul]
            omega
          · intro converted _
            by_cases last : numel ≤ i + bufferSize
            · have chunkInside := encodeChunk_inside converted encoded
              rwa [show i + min (numel - i) bufferSize = numel by omega] at chunkInside
            · exact inside converted (by omega)
          · intro file'
            rw [again, List.append_assoc, List.drop_zero]
    · have none : numel - i = 0 := by omega
      simp only [more, false_and, if_false, Except.ok.injEq] at written ⊢
      exact ⟨[], by simp [written], by simp [none], by simp, by simp⟩

theorem readChunks_done {data file : Bytes} {elementSize size bufferSize i : Nat} (done : size ≤ i) :
    readChunks fd elementSize size bufferSize i data file = .ok (data, file) := by
  rw [readChunks, if_neg (by omega)]

/-- The loop stops at the last element, also when the last chunk is short. -/
theorem readChunks_next {data file : Bytes} {elementSize size bufferSize i : Nat}
    (more : i < size) :
    readChunks fd elementSize size bufferSize (i + bufferSize) data file =
      readChunks fd elementSize size bufferSize (i + min (size - i) bufferSize) data file := by
  rcases Nat.le_total bufferSize (size - i) with whole | last
  · rw [Nat.min_eq_right whole]
  · rw [readChunks_done (by omega), readChunks_done (by omega)]

/-- The buffer of the reader after the elements from `i` on were read into it. -/
def decoded (elementSize i : Nat) (data bytes : Bytes) : Bytes :=
  if Converted elementSize then data.take (i * elementSize) ++ swapElements elementSize bytes
  else data

theorem decodeChunk_eq {data chunk : Bytes} {elementSize i toConvert : Nat}
    (positive : 0 < elementSize) (length : chunk.length = toConvert * elementSize)
    (inside : (i + toConvert) * elementSize ≤ data.length) :
    ∃ next, decodeChunk data elementSize i chunk = .ok next ∧ next.length = data.length ∧
      ∀ bytes, decoded elementSize (i + toConvert) next bytes =
        decoded elementSize i data (chunk ++ bytes) := by
  have ends := Nat.add_mul i toConvert elementSize
  by_cases converted : Converted elementSize = true
  · have swapped := (swapElements_length positive length).trans length
    rw [decodeChunk, if_pos converted, overwrite_eq (by omega)]
    refine ⟨_, rfl, ?_, fun bytes => ?_⟩
    · simp only [List.length_append, List.length_take, List.length_drop, swapped]
      omega
    · have front : (data.take (i * elementSize) ++ swapElements elementSize chunk).length =
          (i + toConvert) * elementSize := by
        rw [List.length_append, List.length_take, swapped]
        omega
      simp only [decoded, converted, if_true]
      rw [List.take_left' front, swapElements_append_whole positive length, List.append_assoc]
  · exact ⟨data, by simp [decodeChunk, converted], rfl, by simp [decoded, converted]⟩

/-- What the loop of the reader makes of a file that holds its elements. -/
theorem readChunks_eq {data bytes rest : Bytes} {elementSize size bufferSize i : Nat}
    (positive : 0 < elementSize) (some : 0 < bufferSize) (before : i ≤ size)
    (length : data.length = size * elementSize)
    (bytes_length : bytes.length = (size - i) * elementSize) :
    readChunks fd elementSize size bufferSize i data (bytes ++ rest) =
      .ok (decoded elementSize i data bytes, rest) := by
  induction left : size - i using Nat.strongRecOn generalizing i data bytes with
  | ind left ih =>
    subst left
    by_cases more : i < size
    · generalize count : min (size - i) bufferSize = toConvert
      have upTo : (i + toConvert) * elementSize ≤ size * elementSize :=
        Nat.mul_le_mul_right _ (by omega)
      have split : (size - i) * elementSize =
          toConvert * elementSize + (size - (i + toConvert)) * elementSize := by
        rw [← Nat.add_mul]
        congr 1
        omega
      have chunk_length : (bytes.take (toConvert * elementSize)).length =
          toConvert * elementSize := by
        rw [List.length_take]
        omega
      obtain ⟨next, decodes, next_length, buffer⟩ :=
        decodeChunk_eq positive chunk_length (length ▸ upTo)
      have read : doRead fd (bytes ++ rest) (elementSize * toConvert) =
          .ok (bytes.take (toConvert * elementSize),
            bytes.drop (toConvert * elementSize) ++ rest) := by
        rw [Nat.mul_comm, doRead_eq (by rw [List.length_append]; omega),
          List.take_append_of_le_length (by omega), List.drop_append_of_le_length (by omega)]
      rw [readChunks]
      simp only [more, some, and_self, if_true, count, read, decodes]
      rw [readChunks_next more, count,
        ih _ (by omega) (by omega) (next_length.trans length)
          (by rw [List.length_drop]; omega) rfl, buffer, List.take_append_drop]
    · have last : i = size := by omega
      subst last
      have empty : bytes = [] := List.length_eq_zero_iff.mp (by simpa using bytes_length)
      simp [readChunks_done (Nat.le_refl _), decoded, empty, ← length]

end TorchGcu.StorageFile

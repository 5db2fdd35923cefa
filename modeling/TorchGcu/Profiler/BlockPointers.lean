import TorchGcu.Profiler.AppendOnlyList

/-! The append-only list as it is stored: a position is a pointer into a block of a linked list,
and the cells behind the position are not constructed. -/
namespace TorchGcu.BlockPointers

/-- A pointer into the array of a block, or one past its last cell. -/
structure Pointer where
  block : Nat
  offset : Nat
deriving DecidableEq

inductive Fault where
  | nullPointer
  /-- A cell that is not in the block, or in no block. -/
  | outsideBlock
  | notConstructed
  /-- "Invalid access on AppendOnlyList." -/
  | invalidAccess
deriving DecidableEq

/-- The blocks of `chunkSize` cells, each empty until its element is constructed. -/
structure Buffer (α : Type) (chunkSize : Nat) where
  buffer : List (List (Option α))
  nBlocks : Nat
  nextPtr : Option Pointer
  endPtr : Option Pointer
  /-- The last block, and `before_begin()` when there is none. -/
  bufferLast : Option Nat

variable {α : Type} {chunkSize : Nat}

namespace Buffer

def empty : Buffer α chunkSize := ⟨[], 0, none, none, none⟩

/-- `end_ - next_`. -/
def room (l : Buffer α chunkSize) : Nat :=
  match l.nextPtr, l.endPtr with
  | some next, some stop => stop.offset - next.offset
  | _, _ => 0

def size (l : Buffer α chunkSize) : Nat := l.nBlocks * chunkSize - l.room

/-- Where `emplace_after(buffer_last_)` puts a block. -/
def afterLast (l : Buffer α chunkSize) : Nat :=
  match l.bufferLast with
  | none => 0
  | some last => last + 1

def maybeGrow (l : Buffer α chunkSize) : Buffer α chunkSize :=
  if l.nextPtr = l.endPtr then
    { buffer := l.buffer.insertIdx l.afterLast (List.replicate chunkSize none)
      nBlocks := l.nBlocks + 1
      nextPtr := some ⟨l.afterLast, 0⟩
      endPtr := some ⟨l.afterLast, chunkSize⟩
      bufferLast := some l.afterLast }
  else l

/-- Elements constructed from a pointer on, in its block. -/
def write (l : Buffer α chunkSize) (p : Pointer) (src : List α) :
    Except Fault (Buffer α chunkSize) :=
  match l.buffer[p.block]? with
  | none => .error .outsideBlock
  | some block =>
    let written := block.take p.offset ++ src.map some ++ block.drop (p.offset + src.length)
    if p.offset + src.length ≤ block.length then
      .ok { l with buffer := l.buffer.set p.block written }
    else .error .outsideBlock

/-- What is constructed at `next_`, which moves behind it. -/
def store (l : Buffer α chunkSize) (src : List α) : Except Fault (Buffer α chunkSize) :=
  match l.nextPtr with
  | none => .error .nullPointer
  | some next => do
    let written ← l.write next src
    return { written with nextPtr := some ⟨next.block, next.offset + src.length⟩ }

def emplaceBack (l : Buffer α chunkSize) (x : α) : Except Fault (Buffer α chunkSize) :=
  l.maybeGrow.store [x]

/-- `next_ && (next_ + n <= end_)`, of pointers into one block. -/
def fits (l : Buffer α chunkSize) (n : Nat) : Bool :=
  match l.nextPtr, l.endPtr with
  | some next, some stop => next.block = stop.block && next.offset + n ≤ stop.offset
  | _, _ => false

def copy (l : Buffer α chunkSize) (src : List α) : Except Fault (Buffer α chunkSize) :=
  if src.length = 0 then .ok l
  else if l.maybeGrow.fits src.length then l.maybeGrow.store src
  else src.foldlM emplaceBack l.maybeGrow

def clear (_ : Buffer α chunkSize) : Buffer α chunkSize := empty

end Buffer

/-- `block_` is null at the end of the linked list. -/
structure Iterator where
  block : Option Nat
  current : Nat
  size : Nat

namespace Iterator

/-- The node of a position, if the list goes on so far. -/
def node (l : Buffer α chunkSize) (i : Nat) : Option Nat :=
  if i < l.buffer.length then some i else none

def begin (l : Buffer α chunkSize) : Iterator := ⟨node l 0, 0, l.size⟩

def stop : Iterator := ⟨none, 0, 0⟩

def exhausted (it : Iterator) : Bool := it.current ≥ it.size

variable (l : Buffer α chunkSize)

/-- `operator++`, which goes to the next block after the last cell of one. -/
def next (it : Iterator) : Except Fault Iterator :=
  if (it.current + 1) % chunkSize = 0 then
    match it.block with
    | none => .error .nullPointer
    | some i => .ok ⟨node l (i + 1), it.current + 1, it.size⟩
  else .ok { it with current := it.current + 1 }

variable (chunkSize) in
/-- `address`, which dereferences `block_`. -/
def address (it : Iterator) : Except Fault (Option Pointer) :=
  if it.current ≥ it.size then .ok none
  else match it.block with
    | none => .error .nullPointer
    | some i => .ok (some ⟨i, it.current % chunkSize⟩)

/-- `operator*`. -/
def deref (it : Iterator) : Except Fault α := do
  match ← it.address chunkSize with
  | none => throw .invalidAccess
  | some p =>
    match l.buffer[p.block]?.bind (·[p.offset]?) with
    | none => throw .outsideBlock
    | some none => throw .notConstructed
    | some (some x) => return x

variable (chunkSize) in
/-- `operator==`, by the addresses. -/
def equal (a b : Iterator) : Except Fault Bool := do
  return (← a.address chunkSize) = (← b.address chunkSize)

end Iterator

/-- A loop over the list that ends when its test says so, with a bound on the turns it takes. -/
def iterate (l : Buffer α chunkSize) (done : Iterator → Except Fault Bool) :
    Nat → Iterator → Except Fault (Option (List α))
  | 0, _ => .ok none
  | turns + 1, it => do
    if ← done it then return some []
    else
      let x ← it.deref l
      let rest ← iterate l done turns (← it.next l)
      return rest.map (x :: ·)

/-! ### The list of blocks behind the pointers -/

section Represents

variable (chunkSize) in
def cells (block : List α) : List (Option α) :=
  block.map some ++ List.replicate (chunkSize - block.length) none

/-- How a list of blocks is stored. -/
def stored (l : AppendOnlyList α chunkSize) : Buffer α chunkSize where
  buffer := l.blocks.map (cells chunkSize)
  nBlocks := l.blocks.length
  nextPtr := l.blocks.getLast?.map fun block => ⟨l.blocks.length - 1, block.length⟩
  endPtr := l.blocks.getLast?.map fun _ => ⟨l.blocks.length - 1, chunkSize⟩
  bufferLast := l.blocks.getLast?.map fun _ => l.blocks.length - 1

variable {l : AppendOnlyList α chunkSize} {blocks : List (List α)} {block src : List α}

theorem length_cells (small : block.length ≤ chunkSize) :
    (cells chunkSize block).length = chunkSize := by
  simp only [cells, List.length_append, List.length_map, List.length_replicate]
  omega

@[simp] theorem stored_nil :
    stored (⟨[]⟩ : AppendOnlyList α chunkSize) = Buffer.empty := rfl

@[simp] theorem stored_snoc :
    stored (⟨blocks ++ [block]⟩ : AppendOnlyList α chunkSize) =
      ⟨blocks.map (cells chunkSize) ++ [cells chunkSize block], blocks.length + 1,
        some ⟨blocks.length, block.length⟩, some ⟨blocks.length, chunkSize⟩,
        some blocks.length⟩ := by
  simp [stored]

theorem stored_size : (stored l).size = l.size := by
  rcases l.cases_last with rfl | ⟨blocks, block, rfl⟩
  · rfl
  · simp [Buffer.size, Buffer.room, AppendOnlyList.size]

theorem stored_maybeGrow (filled : AppendOnlyList.Filled chunkSize l.blocks) :
    (stored l).maybeGrow = stored l.maybeGrow := by
  rcases l.cases_last with rfl | ⟨blocks, block, rfl⟩
  · simp [Buffer.maybeGrow, AppendOnlyList.maybeGrow, Buffer.afterLast, stored, cells]
  · obtain ⟨-, small⟩ := AppendOnlyList.Filled.snoc_iff.mp filled
    rw [Buffer.maybeGrow, AppendOnlyList.maybeGrow, AppendOnlyList.room_snoc]
    by_cases taken : block.length = chunkSize
    · have full : chunkSize - block.length = 0 := by omega
      have position : (blocks.map (cells chunkSize) ++ [cells chunkSize block]).length =
          blocks.length + 1 := by simp
      rw [if_pos full, stored_snoc, stored_snoc, if_pos (by rw [taken])]
      simp only [Buffer.afterLast, List.map_append, List.map_cons, List.map_nil, ← position,
        List.insertIdx_length_self]
      simp [cells]
    · have spare : chunkSize - block.length ≠ 0 := by omega
      rw [if_neg spare, stored_snoc, if_neg (by simpa using taken)]

/-- Elements that fit are constructed in the last block, behind those it has. -/
theorem stored_store (filled : AppendOnlyList.Filled chunkSize l.blocks) (some : l.blocks ≠ [])
    (fits : src.length ≤ l.room) : (stored l).store src = .ok (stored (l.store src)) := by
  rcases l.cases_last with rfl | ⟨blocks, block, rfl⟩
  · exact absurd rfl some
  · obtain ⟨-, small⟩ := AppendOnlyList.Filled.snoc_iff.mp filled
    rw [AppendOnlyList.room_snoc] at fits
    have there : (blocks.map (cells chunkSize) ++ [cells chunkSize block])[blocks.length]? =
        .some (cells chunkSize block) := by simp
    have inside : block.length + src.length ≤ (cells chunkSize block).length := by
      rw [length_cells small]
      omega
    have written : (cells chunkSize block).take block.length ++ src.map .some ++
        (cells chunkSize block).drop (block.length + src.length) =
        cells chunkSize (block ++ src) := by
      have before : (cells chunkSize block).take block.length = block.map .some := by
        simp [cells]
      have after : (cells chunkSize block).drop (block.length + src.length) =
          List.replicate (chunkSize - (block ++ src).length) none := by
        simp [cells, List.drop_append, Nat.sub_sub]
      rw [before, after, cells, List.map_append]
    simp only [stored_snoc, Buffer.store, Buffer.write, there, if_pos inside, written,
      AppendOnlyList.store_snoc, List.length_append]
    simp [bind, Except.bind, pure, Except.pure]

theorem stored_emplaceBack (positive : 0 < chunkSize)
    (filled : AppendOnlyList.Filled chunkSize l.blocks) (x : α) :
    (stored l).emplaceBack x = .ok (stored (l.emplaceBack x)) := by
  obtain ⟨blocks, block, grown, spare, full, -⟩ := filled.grow positive
  rw [Buffer.emplaceBack, stored_maybeGrow filled, AppendOnlyList.emplaceBack, grown]
  apply stored_store
  · exact AppendOnlyList.Filled.snoc_iff.mpr ⟨full, Nat.le_of_lt spare⟩
  · simp
  · rw [AppendOnlyList.room_snoc, List.length_singleton]
    omega

theorem stored_foldlM (positive : 0 < chunkSize)
    (filled : AppendOnlyList.Filled chunkSize l.blocks) (src : List α) :
    src.foldlM Buffer.emplaceBack (stored l) =
      .ok (stored (src.foldl AppendOnlyList.emplaceBack l)) := by
  induction src generalizing l with
  | nil => rfl
  | cons x src ih =>
    rw [List.foldlM_cons, stored_emplaceBack positive filled, List.foldl_cons]
    exact ih (filled.emplaceBack positive x).1

theorem stored_copy (positive : 0 < chunkSize)
    (filled : AppendOnlyList.Filled chunkSize l.blocks) (src : List α) :
    (stored l).copy src = .ok (stored (l.copy src)) := by
  obtain ⟨blocks, block, grown, spare, full, -⟩ := filled.grow positive
  have open' : AppendOnlyList.Filled chunkSize l.maybeGrow.blocks := by
    rw [grown]
    exact AppendOnlyList.Filled.snoc_iff.mpr ⟨full, Nat.le_of_lt spare⟩
  rw [Buffer.copy, AppendOnlyList.copy, stored_maybeGrow filled]
  by_cases none : src = []
  · simp [none]
  · have length : src.length ≠ 0 := fun zero => none (List.eq_nil_of_length_eq_zero zero)
    have isEmpty : ¬ src.isEmpty = true := by simpa using none
    rw [if_neg length, if_neg isEmpty]
    have same : (stored l.maybeGrow).fits src.length = true ↔ src.length ≤ l.maybeGrow.room := by
      rw [grown, stored_snoc, AppendOnlyList.room_snoc]
      simp [Buffer.fits]
      omega
    by_cases fits : src.length ≤ l.maybeGrow.room
    · rw [if_pos (same.mpr fits), if_pos fits]
      refine stored_store open' ?_ fits
      rw [grown]
      simp
    · rw [if_neg (same.not.mpr fits), if_neg fits, stored_foldlM positive open']

end Represents

/-! ### Iterators -/

section Iterators
variable {l : AppendOnlyList α chunkSize} {it : Iterator} {it' : AppendOnlyList.Iterator α chunkSize}
variable {x : α} {xs : List α}

/-- An iterator over what is stored is where one over the list of blocks is. -/
structure Follows (l : AppendOnlyList α chunkSize) (it : Iterator)
    (it' : AppendOnlyList.Iterator α chunkSize) : Prop where
  current : it.current = it'.current
  size : it.size = it'.size
  node : ∃ i, it'.block = l.blocks.drop i ∧ it.block = Iterator.node (stored l) i

theorem begin_follows : Follows l (.begin (stored l)) l.begin where
  current := rfl
  size := stored_size
  node := ⟨0, rfl, rfl⟩

/-- Where there is an element, the iterator is at a block. -/
theorem Follows.at_block (positive : 0 < chunkSize) (follows : Follows l it it')
    (reached : it'.At (x :: xs)) :
    ∃ i block, it'.block = l.blocks.drop i ∧ it.block = some i ∧
      Iterator.node (stored l) i = some i ∧ l.blocks[i]? = some block ∧
      block[it.current % chunkSize]? = some x := by
  obtain ⟨i, rest, isNode⟩ := follows.node
  obtain ⟨passed, after, others, shape, length, -⟩ := reached.block_cons positive
  have there : l.blocks[i]? = some (passed ++ x :: after) := by
    rw [← List.head?_drop, ← rest, shape]
    rfl
  have short : i < l.blocks.length := (List.getElem?_eq_some_iff.mp there).1
  have node : Iterator.node (stored l) i = some i := by
    rw [Iterator.node, if_pos]
    simpa [stored] using short
  refine ⟨i, _, rest, isNode.trans node, node, there, ?_⟩
  · rw [follows.current, ← length, List.getElem?_append_right (Nat.le_refl _), Nat.sub_self]
    rfl

theorem Follows.deref (positive : 0 < chunkSize) (follows : Follows l it it')
    (reached : it'.At (x :: xs)) : it.deref (stored l) = .ok x := by
  obtain ⟨i, block, -, isNode, -, there, held⟩ := follows.at_block positive reached
  have more : ¬ it.current ≥ it.size := by
    have counted := reached.counted
    rw [List.length_cons] at counted
    rw [follows.current, follows.size]
    omega
  have short : it.current % chunkSize < (block.map some).length := by
    simpa using (List.getElem?_eq_some_iff.mp held).1
  have read : ((stored l).buffer[i]?.bind (·[it.current % chunkSize]?)) = some (some x) := by
    simp only [stored, List.getElem?_map, there, Option.map_some, Option.bind_some, cells]
    rw [List.getElem?_append_left short, List.getElem?_map, held]
    rfl
  simp only [Iterator.deref, Iterator.address, if_neg more, isNode, bind, Except.bind, read]
  rfl

theorem Follows.next (positive : 0 < chunkSize) (follows : Follows l it it')
    (reached : it'.At (x :: xs)) :
    ∃ after, it.next (stored l) = .ok after ∧ Follows l after it'.next := by
  obtain ⟨i, block, rest, isNode, node, -⟩ := follows.at_block positive reached
  rw [Iterator.next, follows.current, isNode]
  by_cases last : (it'.current + 1) % chunkSize = 0
  · rw [if_pos last]
    refine ⟨_, rfl, rfl, follows.size, i + 1, ?_, rfl⟩
    rw [AppendOnlyList.Iterator.next, if_pos last, rest, List.tail_drop]
  · rw [if_neg last]
    refine ⟨_, rfl, rfl, follows.size, i, ?_, ?_⟩
    · rw [AppendOnlyList.Iterator.next, if_neg last, rest]
    · exact isNode.symm ▸ node.symm

/-- A loop whose test finds the end visits what is before the iterator. -/
theorem Follows.iterate (positive : 0 < chunkSize) {done : Iterator → Except Fault Bool}
    (finds : ∀ {it it' xs}, Follows l it it' → it'.At xs → done it = .ok xs.isEmpty)
    {turns : Nat} (enough : xs.length < turns) (follows : Follows l it it') (reached : it'.At xs) :
    iterate (stored l) done turns it = .ok (some xs) := by
  induction xs generalizing it it' turns with
  | nil =>
    obtain ⟨turns, rfl⟩ := Nat.exists_eq_succ_of_ne_zero (Nat.ne_of_gt enough)
    rw [BlockPointers.iterate, finds follows reached]
    rfl
  | cons x xs ih =>
    obtain ⟨turns, rfl⟩ := Nat.exists_eq_succ_of_ne_zero (Nat.ne_of_gt (Nat.zero_lt_of_lt enough))
    obtain ⟨after, isNext, followsNext⟩ := follows.next positive reached
    have rest := ih (Nat.lt_of_succ_lt_succ enough) followsNext (reached.next positive)
    rw [BlockPointers.iterate, finds follows reached, follows.deref positive reached, isNext]
    simp only [List.isEmpty_cons, bind, Except.bind, Bool.false_eq_true, if_false, rest]
    rfl

theorem exhausted_finds (follows : Follows l it it') (reached : it'.At xs) :
    (.ok it.exhausted : Except Fault Bool) = .ok xs.isEmpty := by
  rw [← reached.exhausted, Iterator.exhausted, follows.current, follows.size]
  rfl

theorem equal_finds (positive : 0 < chunkSize) (follows : Follows l it it')
    (reached : it'.At xs) : it.equal chunkSize .stop = .ok xs.isEmpty := by
  have ended : Iterator.stop.address chunkSize = .ok none := rfl
  have counted := reached.counted
  rw [← follows.current, ← follows.size] at counted
  cases xs with
  | nil =>
    have ends : it.current ≥ it.size := by
      rw [counted]
      exact Nat.le_refl _
    rw [Iterator.equal, ended, Iterator.address, if_pos ends]
    rfl
  | cons x xs =>
    have more : ¬ it.current ≥ it.size := by
      rw [List.length_cons] at counted
      omega
    obtain ⟨i, block, -, isNode, -⟩ := follows.at_block positive reached
    rw [Iterator.equal, ended, Iterator.address, if_neg more, isNode]
    rfl

end Iterators

/-! ### Runs -/

inductive Op (α : Type) where
  | emplaceBack (x : α)
  | copy (src : List α)
  | clear

section Runs
variable {l : AppendOnlyList α chunkSize}

def Op.perform (l : Buffer α chunkSize) : Op α → Except Fault (Buffer α chunkSize)
  | emplaceBack x => l.emplaceBack x
  | copy src => l.copy src
  | clear => .ok l.clear

def run (ops : List (Op α)) : Except Fault (Buffer α chunkSize) :=
  ops.foldlM Op.perform Buffer.empty

/-- What was appended since the last `clear`. -/
def Op.append (held : List α) : Op α → List α
  | emplaceBack x => held ++ [x]
  | copy src => held ++ src
  | clear => []

def appended (ops : List (Op α)) : List α := ops.foldl Op.append []

/-- The operation on the list of blocks. -/
def Op.onBlocks (l : AppendOnlyList α chunkSize) : Op α → AppendOnlyList α chunkSize
  | emplaceBack x => l.emplaceBack x
  | copy src => l.copy src
  | clear => .empty

theorem perform_stored (positive : 0 < chunkSize)
    (filled : AppendOnlyList.Filled chunkSize l.blocks) (op : Op α) :
    op.perform (stored l) = .ok (stored (op.onBlocks l)) ∧
      AppendOnlyList.Filled chunkSize (op.onBlocks l).blocks ∧
      (op.onBlocks l).toList = op.append l.toList := by
  cases op with
  | emplaceBack x => exact ⟨stored_emplaceBack positive filled x, filled.emplaceBack positive x⟩
  | copy src => exact ⟨stored_copy positive filled src, filled.copy positive src⟩
  | clear => exact ⟨rfl, .nil, rfl⟩

theorem run_stored (positive : 0 < chunkSize)
    (filled : AppendOnlyList.Filled chunkSize l.blocks) (ops : List (Op α)) :
    ∃ l' : AppendOnlyList α chunkSize, ops.foldlM Op.perform (stored l) = .ok (stored l') ∧
      AppendOnlyList.Filled chunkSize l'.blocks ∧ l'.toList = ops.foldl Op.append l.toList := by
  induction ops generalizing l with
  | nil => exact ⟨l, rfl, filled, rfl⟩
  | cons op ops ih =>
    obtain ⟨performed, kept, held⟩ := perform_stored positive filled op
    obtain ⟨l', ran, filled', all⟩ := ih kept
    refine ⟨l', ?_, filled', ?_⟩
    · rw [List.foldlM_cons, performed]
      exact ran
    · rw [List.foldl_cons, ← held, all]

/-- A run of appends and clears writes in its blocks only, and a loop over the list, with either
test for its end, visits what was appended since the last clear. -/
theorem visits_appended (positive : 0 < chunkSize) (ops : List (Op α)) :
    ∃ l : Buffer α chunkSize, run ops = .ok l ∧ l.size = (appended ops).length ∧
      ∀ turns, (appended ops).length < turns →
        iterate l (fun it => .ok it.exhausted) turns (.begin l) = .ok (some (appended ops)) ∧
        iterate l (fun it => it.equal chunkSize .stop) turns (.begin l) =
          .ok (some (appended ops)) := by
  have start : AppendOnlyList.Filled chunkSize ([] : List (List α)) := .nil
  obtain ⟨l, ran, filled, all⟩ := run_stored (l := ⟨[]⟩) positive start ops
  have held : l.toList = appended ops := all
  refine ⟨stored l, ran, ?_, fun turns enough => ?_⟩
  · rw [stored_size, filled.size_eq, held]
  · rw [← held] at enough ⊢
    exact ⟨begin_follows.iterate positive exhausted_finds enough filled.begin,
      begin_follows.iterate positive (equal_finds positive) enough filled.begin⟩

theorem visits_appended_two :
    ∃ l : Buffer Nat 2, run [.emplaceBack 1, .clear, .emplaceBack 2, .copy [3, 4, 5]] = .ok l ∧
      l.size = 4 ∧
      iterate l (fun it => .ok it.exhausted) 5 (.begin l) = .ok (some [2, 3, 4, 5]) := by
  obtain ⟨l, ran, size, visits⟩ := @visits_appended Nat 2 (by decide)
    [.emplaceBack 1, .clear, .emplaceBack 2, .copy [3, 4, 5]]
  exact ⟨l, ran, size, (visits 5 (by decide)).1⟩

end Runs


end TorchGcu.BlockPointers

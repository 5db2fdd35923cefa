import Mathlib.Data.List.Basic

/-! Lists that only grow at their end, in blocks of one size, and the iterators over them. -/
namespace TorchGcu

/-- `buffer_`. The last block holds what was constructed before `next_`. -/
structure AppendOnlyList (α : Type) (chunkSize : Nat) where
  blocks : List (List α)

namespace AppendOnlyList
variable {α : Type} {chunkSize : Nat}

def empty : AppendOnlyList α chunkSize := ⟨[]⟩

/-- `end_ - next_`. -/
def room (l : AppendOnlyList α chunkSize) : Nat :=
  match l.blocks.getLast? with
  | none => 0
  | some block => chunkSize - block.length

def size (l : AppendOnlyList α chunkSize) : Nat := l.blocks.length * chunkSize - l.room

def maybeGrow (l : AppendOnlyList α chunkSize) : AppendOnlyList α chunkSize :=
  if l.room = 0 then ⟨l.blocks ++ [[]]⟩ else l

/-- What is constructed at `next_`, which moves behind it. -/
def store (l : AppendOnlyList α chunkSize) (src : List α) : AppendOnlyList α chunkSize :=
  ⟨l.blocks.dropLast ++ [l.blocks.getLast?.getD [] ++ src]⟩

def emplaceBack (l : AppendOnlyList α chunkSize) (x : α) : AppendOnlyList α chunkSize :=
  l.maybeGrow.store [x]

def copy (l : AppendOnlyList α chunkSize) (src : List α) : AppendOnlyList α chunkSize :=
  if src.isEmpty then l
  else if src.length ≤ l.maybeGrow.room then l.maybeGrow.store src
  else src.foldl emplaceBack l.maybeGrow

inductive AccessError where
  /-- "Invalid access on AppendOnlyList." -/
  | invalidAccess
  /-- The block has ended, or its element was never constructed. -/
  | dangling
deriving DecidableEq, Repr

/-- The blocks from `block_` on, and what was counted when the iterator was made. -/
structure Iterator (α : Type) (chunkSize : Nat) where
  block : List (List α)
  current : Nat
  size : Nat

def begin (l : AppendOnlyList α chunkSize) : Iterator α chunkSize := ⟨l.blocks, 0, l.size⟩

namespace Iterator

def exhausted (it : Iterator α chunkSize) : Bool := it.current ≥ it.size

/-- `operator*`. -/
def deref (it : Iterator α chunkSize) : Except AccessError α :=
  if it.current ≥ it.size then .error .invalidAccess
  else match it.block with
    | [] => .error .dangling
    | block :: _ => match block[it.current % chunkSize]? with
      | none => .error .dangling
      | some x => .ok x

/-- `operator++`. -/
def next (it : Iterator α chunkSize) : Iterator α chunkSize where
  block := if (it.current + 1) % chunkSize = 0 then it.block.tail else it.block
  current := it.current + 1
  size := it.size

end Iterator

/-! ### What a list holds -/

/-- The elements in the order in which they were appended. -/
def toList (l : AppendOnlyList α chunkSize) : List α := l.blocks.flatten

/-- Only the last block may have room. -/
inductive Filled (chunkSize : Nat) : List (List α) → Prop where
  | nil : Filled chunkSize []
  | last {block} : block.length ≤ chunkSize → Filled chunkSize [block]
  | cons {block blocks} : block.length = chunkSize → Filled chunkSize blocks →
      Filled chunkSize (block :: blocks)

theorem Filled.snoc_iff {blocks : List (List α)} {block : List α} :
    Filled chunkSize (blocks ++ [block]) ↔
      (∀ full ∈ blocks, full.length = chunkSize) ∧ block.length ≤ chunkSize := by
  induction blocks with
  | nil =>
    constructor
    · intro filled
      cases filled with
      | last small => exact ⟨by simp, small⟩
      | cons full => exact ⟨by simp, Nat.le_of_eq full⟩
    · exact fun small => .last small.2
  | cons first blocks ih =>
    constructor
    · intro filled
      rw [List.cons_append] at filled
      generalize joined : blocks ++ [block] = rest at filled
      cases filled with
      | last => simp at joined
      | cons full filled =>
        subst joined
        have rest := ih.mp filled
        exact ⟨List.forall_mem_cons.mpr ⟨full, rest.1⟩, rest.2⟩
    · intro small
      have parts := List.forall_mem_cons.mp small.1
      exact .cons parts.1 (ih.mpr ⟨parts.2, small.2⟩)

/-- A list is empty, or its last block is apart. -/
theorem cases_last (l : AppendOnlyList α chunkSize) :
    l = ⟨[]⟩ ∨ ∃ blocks block, l = ⟨blocks ++ [block]⟩ := by
  rcases List.eq_nil_or_concat l.blocks with none | ⟨blocks, block, joined⟩
  · exact .inl (congrArg AppendOnlyList.mk none)
  · exact .inr ⟨blocks, block, congrArg AppendOnlyList.mk (joined.trans (List.concat_eq_append ..))⟩

section Snoc
variable (blocks : List (List α)) (block src : List α)

@[simp] theorem room_nil : (⟨[]⟩ : AppendOnlyList α chunkSize).room = 0 := rfl

@[simp] theorem room_snoc :
    (⟨blocks ++ [block]⟩ : AppendOnlyList α chunkSize).room = chunkSize - block.length := by
  simp [room]

@[simp] theorem store_snoc :
    (⟨blocks ++ [block]⟩ : AppendOnlyList α chunkSize).store src =
      ⟨blocks ++ [block ++ src]⟩ := by
  simp [store]

@[simp] theorem toList_snoc :
    (⟨blocks ++ [block]⟩ : AppendOnlyList α chunkSize).toList = blocks.flatten ++ block := by
  simp [toList]

end Snoc

theorem Filled.size_eq {l : AppendOnlyList α chunkSize} (filled : Filled chunkSize l.blocks) :
    l.size = l.toList.length := by
  rcases l.cases_last with rfl | ⟨blocks, block, rfl⟩
  · simp [size, toList]
  · obtain ⟨full, small⟩ := Filled.snoc_iff.mp filled
    have lengths : (blocks.map List.length).sum = blocks.length * chunkSize := by
      rw [List.map_congr_left full, List.map_const', List.sum_replicate_nat]
    simp only [size, room_snoc, toList_snoc, List.length_append, List.length_flatten, lengths,
      List.length_singleton, Nat.add_mul, Nat.one_mul]
    omega

/-- After a block was made where there was none, there is room for an element. -/
theorem Filled.grow {l : AppendOnlyList α chunkSize} (positive : 0 < chunkSize)
    (filled : Filled chunkSize l.blocks) :
    ∃ blocks block, l.maybeGrow = ⟨blocks ++ [block]⟩ ∧ block.length < chunkSize ∧
      (∀ full ∈ blocks, full.length = chunkSize) ∧ blocks.flatten ++ block = l.toList := by
  rcases l.cases_last with rfl | ⟨blocks, block, rfl⟩
  · exact ⟨[], [], by simp [maybeGrow], positive, by simp, rfl⟩
  · obtain ⟨full, small⟩ := Filled.snoc_iff.mp filled
    by_cases spare : block.length < chunkSize
    · have kept : chunkSize - block.length ≠ 0 := by omega
      exact ⟨blocks, block, by rw [maybeGrow, room_snoc, if_neg kept], spare, full,
        (toList_snoc ..).symm⟩
    · have taken : chunkSize - block.length = 0 := by omega
      refine ⟨blocks ++ [block], [], by rw [maybeGrow, room_snoc, if_pos taken], positive, ?_, ?_⟩
      · intro other member
        rcases List.mem_append.mp member with member | member
        · exact full other member
        · obtain rfl := List.mem_singleton.mp member
          omega
      · simp [toList]

/-- What fits is stored in the last block. -/
theorem Filled.store {l : AppendOnlyList α chunkSize} (positive : 0 < chunkSize)
    (filled : Filled chunkSize l.blocks) (src : List α) (fits : src.length ≤ l.maybeGrow.room) :
    Filled chunkSize (l.maybeGrow.store src).blocks ∧
      (l.maybeGrow.store src).toList = l.toList ++ src := by
  obtain ⟨blocks, block, grown, spare, full, held⟩ := filled.grow positive
  rw [grown, room_snoc] at fits
  rw [grown, store_snoc, toList_snoc, ← held, List.append_assoc]
  refine ⟨Filled.snoc_iff.mpr ⟨full, ?_⟩, rfl⟩
  rw [List.length_append]
  omega

theorem Filled.emplaceBack {l : AppendOnlyList α chunkSize} (positive : 0 < chunkSize)
    (filled : Filled chunkSize l.blocks) (x : α) :
    Filled chunkSize (l.emplaceBack x).blocks ∧ (l.emplaceBack x).toList = l.toList ++ [x] := by
  refine filled.store positive [x] ?_
  obtain ⟨blocks, block, grown, spare, -⟩ := filled.grow positive
  rw [grown, room_snoc, List.length_singleton]
  omega

theorem Filled.foldl {l : AppendOnlyList α chunkSize} (positive : 0 < chunkSize)
    (filled : Filled chunkSize l.blocks) (src : List α) :
    Filled chunkSize (src.foldl AppendOnlyList.emplaceBack l).blocks ∧
      (src.foldl AppendOnlyList.emplaceBack l).toList = l.toList ++ src := by
  induction src generalizing l with
  | nil => exact ⟨filled, (List.append_nil _).symm⟩
  | cons x src ih =>
    obtain ⟨stored, held⟩ := filled.emplaceBack positive x
    obtain ⟨filled, all⟩ := ih stored
    exact ⟨filled, by rw [List.foldl_cons, all, held, List.append_assoc, List.singleton_append]⟩

theorem Filled.copy {l : AppendOnlyList α chunkSize} (positive : 0 < chunkSize)
    (filled : Filled chunkSize l.blocks) (src : List α) :
    Filled chunkSize (l.copy src).blocks ∧ (l.copy src).toList = l.toList ++ src := by
  unfold AppendOnlyList.copy
  split
  · rename_i none
    rw [List.isEmpty_iff.mp none, List.append_nil]
    exact ⟨filled, rfl⟩
  · split
    · rename_i fits
      exact filled.store positive src fits
    · obtain ⟨blocks, block, grown, spare, full, held⟩ := filled.grow positive
      have opened : Filled chunkSize (maybeGrow l).blocks := by
        rw [grown]
        exact Filled.snoc_iff.mpr ⟨full, Nat.le_of_lt spare⟩
      have same : (maybeGrow l).toList = l.toList := by rw [grown, toList_snoc, held]
      rw [← same]
      exact opened.foldl positive src

/-! ### What an iterator has before it -/

/-- The iterator has the elements `xs` before it. -/
structure Iterator.At (it : Iterator α chunkSize) (xs : List α) : Prop where
  filled : Filled chunkSize it.block
  counted : it.size = it.current + xs.length
  held : ∃ passed, passed.length = it.current % chunkSize ∧ it.block.flatten = passed ++ xs

theorem Filled.begin {l : AppendOnlyList α chunkSize} (filled : Filled chunkSize l.blocks) :
    l.begin.At l.toList where
  filled := filled
  counted := filled.size_eq.trans (Nat.zero_add _).symm
  held := ⟨[], (Nat.zero_mod _).symm, rfl⟩

namespace Iterator.At
variable {it : Iterator α chunkSize} {x : α} {xs : List α}

theorem exhausted (reached : it.At xs) : it.exhausted = xs.isEmpty := by
  have counted := reached.counted
  unfold Iterator.exhausted
  cases xs with
  | nil => simpa using Nat.le_of_eq counted
  | cons x xs =>
    rw [List.length_cons] at counted
    simpa using by omega

/-- The first element is in the block of the iterator. -/
theorem block_cons (positive : 0 < chunkSize) (reached : it.At (x :: xs)) :
    ∃ passed rest blocks, it.block = (passed ++ x :: rest) :: blocks ∧
      passed.length = it.current % chunkSize ∧ rest ++ blocks.flatten = xs := by
  obtain ⟨passed, length, held⟩ := reached.held
  have short : passed.length < chunkSize := length ▸ Nat.mod_lt _ positive
  have filled := reached.filled
  cases shape : it.block with
  | nil => simp [shape] at held
  | cons block blocks =>
    rw [shape, List.flatten_cons] at held
    rw [shape] at filled
    have reaches : passed.length < block.length := by
      cases filled with
      | last =>
        have lengths := congrArg List.length held
        simp at lengths
        omega
      | cons full => omega
    obtain ⟨rest, rfl⟩ : ∃ rest, block = passed ++ rest :=
      ⟨block.drop passed.length, by
        have front := congrArg (List.take passed.length) held
        rw [List.take_append_of_le_length (Nat.le_of_lt reaches), List.take_left' rfl] at front
        conv_lhs => rw [← List.take_append_drop passed.length block, front]⟩
    rw [List.append_assoc, List.append_cancel_left_eq] at held
    cases rest with
    | nil => simp at reaches
    | cons y rest =>
      obtain ⟨rfl, rest_eq⟩ := List.cons.inj held
      exact ⟨passed, rest, blocks, rfl, length, rest_eq⟩

theorem deref (positive : 0 < chunkSize) (reached : it.At (x :: xs)) : it.deref = .ok x := by
  obtain ⟨passed, rest, blocks, shape, length, -⟩ := reached.block_cons positive
  have inside : ¬ it.current ≥ it.size := by
    have counted := reached.counted
    rw [List.length_cons] at counted
    omega
  have read : (passed ++ x :: rest)[it.current % chunkSize]? = some x := by
    rw [← length, List.getElem?_append_right (Nat.le_refl _), Nat.sub_self]
    rfl
  simp only [Iterator.deref, if_neg inside, shape, read]

theorem next (positive : 0 < chunkSize) (reached : it.At (x :: xs)) : it.next.At xs := by
  obtain ⟨passed, rest, blocks, shape, length, remaining⟩ := reached.block_cons positive
  have filled := reached.filled
  have counted : it.size = it.current + 1 + xs.length := by
    have counted := reached.counted
    rw [List.length_cons] at counted
    omega
  have short : passed.length < chunkSize := length ▸ Nat.mod_lt _ positive
  have position : (it.current + 1) % chunkSize = (passed.length + 1) % chunkSize := by
    rw [length, Nat.mod_add_mod]
  rw [shape] at filled
  rcases Nat.lt_or_eq_of_le (Nat.succ_le_of_lt short) with inside | ends
  · have position := position.trans (Nat.mod_eq_of_lt inside)
    have more : (it.current + 1) % chunkSize ≠ 0 := by omega
    have stays : it.next.block = it.block := by rw [Iterator.next, if_neg more]
    refine ⟨by rw [stays, shape]; exact filled, counted, passed ++ [x], ?_, ?_⟩
    · rw [List.length_append, List.length_singleton]
      exact position.symm
    · rw [stays, shape, ← remaining]
      simp
  · have position : (it.current + 1) % chunkSize = 0 := by
      rw [position, show passed.length + 1 = chunkSize from ends, Nat.mod_self]
    have moves : it.next.block = blocks := by
      rw [Iterator.next, if_pos position, shape, List.tail_cons]
    have small : (passed ++ x :: rest).length ≤ chunkSize := by
      cases filled with
      | last small => exact small
      | cons full => exact Nat.le_of_eq full
    have whole : rest = [] := by
      rw [List.length_append, List.length_cons] at small
      exact List.eq_nil_of_length_eq_zero (by omega)
    refine ⟨?_, counted, [], position.symm, ?_⟩
    · rw [moves]
      cases filled with
      | last => exact .nil
      | cons _ filled => exact filled
    · rw [moves, ← remaining, whole]
      rfl

end Iterator.At
end AppendOnlyList
end TorchGcu

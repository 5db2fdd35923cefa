import TorchGcu.CachingAllocator.Actions
import TorchGcu.Logic.Links
import Mathlib.Data.List.Perm.Basic

/-! The heap as a list of segments. A segment is a range of device memory with the
blocks that divide it; the sequence of blocks is ghost data that the links spell out. -/
namespace TorchGcu.GCUCachingAllocator
open LinkedList

/-! ### How splitting and merging change the blocks -/

section Updates
variable {st : State}

theorem block_of_some {b : BlockId} {k : Block} (found : st.blocks b = some k) :
    st.block b = k := by
  simp [State.block, found]

theorem some_of_live {b : BlockId} (live : st.Live b) : st.blocks b = some (st.block b) := by
  obtain ⟨k, found⟩ := Option.isSome_iff_exists.mp live
  rw [block_of_some found, found]

theorem modifyBlock_blocks (b : BlockId) (f : Block → Block) :
    (st.modifyBlock b f).blocks = Function.update st.blocks b ((st.blocks b).map f) := rfl

@[simp] theorem insertIntoBlocks_blocks (pool : PoolRef) (b : BlockId) :
    (st.insertIntoBlocks pool b).1.blocks = (st.modifyBlock b fun block =>
      { block with gcCountBase := (st.pools pool).getFreeBlocksCallCount }).blocks := by
  simp only [State.insertIntoBlocks]
  split <;> rfl

/-- What `alloc_found_block` leaves of the blocks when it splits `found`. -/
theorem splitBlock_blocks {params : AllocParams} {found : BlockId} (live : st.Live found)
    (old : found ≠ st.nextBlock) (prevOld : (st.block found).prev ≠ some st.nextBlock)
    (prevOther : (st.block found).prev ≠ some found) (b : BlockId) :
    (st.splitBlock params found).1.blocks b =
      if b = found then
        some { st.block found with
          prev := some st.nextBlock
          ptr := sizeAdd (st.block found).ptr params.size
          size := sizeSub (st.block found).size params.size
          gcCountBase := (st.pools params.pool).getFreeBlocksCallCount }
      else if b = st.nextBlock then
        some { device := params.device, stream := params.stream, size := params.size,
               pool := params.pool, ptr := (st.block found).ptr, prev := (st.block found).prev,
               next := some found }
      else if (st.block found).prev = some b then
        (st.blocks b).map fun k => { k with next := some st.nextBlock }
      else st.blocks b := by
  have cell := some_of_live live
  simp only [State.splitBlock, insertIntoBlocks_blocks, modifyBlock_blocks]
  by_cases isFound : b = found
  · subst isFound
    cases prevEq : (st.block b).prev with
    | none => simp [State.setNext, State.newBlock, old, cell, State.modifyBlock]
    | some p =>
      have other : b ≠ p := by
        rintro rfl
        exact prevOther prevEq
      simp [State.setNext, State.newBlock, old, cell, State.modifyBlock, other]
  by_cases isNew : b = st.nextBlock
  · subst isNew
    cases prevEq : (st.block found).prev with
    | none => simp [State.setNext, State.newBlock, isFound]
    | some p =>
      have other : st.nextBlock ≠ p := by
        rintro rfl
        exact prevOld prevEq
      simp [State.setNext, State.newBlock, isFound, State.modifyBlock, other]
  · cases prevEq : (st.block found).prev with
    | none => simp [State.setNext, State.newBlock, isFound, isNew]
    | some p =>
      by_cases isPrev : b = p
      · subst isPrev
        simp [State.setNext, State.newBlock, isFound, isNew, State.modifyBlock]
      · have differ : p ≠ b := Ne.symm isPrev
        simp [State.setNext, State.newBlock, isFound, isNew, State.modifyBlock, isPrev, differ]

/-- What `try_merge_blocks` leaves of the blocks when `src` lies before `dst`. -/
theorem mergeBlocks_left_blocks {dst src : BlockId} {pool : PoolRef} (live : st.Live dst)
    (before : (st.block dst).prev = some src) (srcOther : src ≠ dst)
    (prevOther : (st.block src).prev ≠ some dst) (b : BlockId) :
    (st.mergeBlocks dst src pool).blocks b =
      if b = src then none
      else if b = dst then
        some { st.block dst with
          ptr := (st.block src).ptr
          prev := (st.block src).prev
          size := sizeAdd (st.block dst).size (st.block src).size }
      else if (st.block src).prev = some b then
        (st.blocks b).map fun k => { k with next := some dst }
      else st.blocks b := by
  have cell := some_of_live live
  simp only [State.mergeBlocks, before, if_true, State.deleteBlock, State.eraseFromBlocks,
    State.modifyPool, modifyBlock_blocks]
  by_cases isSrc : b = src
  · simp [isSrc]
  by_cases isDst : b = dst
  · subst isDst
    cases prevEq : (st.block src).prev with
    | none => simp [State.setNext, isSrc, cell, State.modifyBlock]
    | some p =>
      have other : b ≠ p := by
        rintro rfl
        exact prevOther prevEq
      simp [State.setNext, isSrc, cell, State.modifyBlock, other]
  · cases prevEq : (st.block src).prev with
    | none => simp [State.setNext, isSrc, isDst, State.modifyBlock]
    | some p =>
      by_cases isPrev : b = p
      · subst isPrev
        simp [State.setNext, isSrc, isDst, State.modifyBlock]
      · have differ : p ≠ b := Ne.symm isPrev
        simp [State.setNext, isSrc, isDst, State.modifyBlock, isPrev, differ]

/-- What `try_merge_blocks` leaves of the blocks when `src` lies after `dst`. -/
theorem mergeBlocks_right_blocks {dst src : BlockId} {pool : PoolRef} (live : st.Live dst)
    (notBefore : (st.block dst).prev ≠ some src) (srcOther : src ≠ dst)
    (nextOther : (st.block src).next ≠ some dst) (b : BlockId) :
    (st.mergeBlocks dst src pool).blocks b =
      if b = src then none
      else if b = dst then
        some { st.block dst with
          next := (st.block src).next
          size := sizeAdd (st.block dst).size (st.block src).size }
      else if (st.block src).next = some b then
        (st.blocks b).map fun k => { k with prev := some dst }
      else st.blocks b := by
  have cell := some_of_live live
  simp only [State.mergeBlocks, notBefore, if_false, State.deleteBlock, State.eraseFromBlocks,
    State.modifyPool, modifyBlock_blocks]
  by_cases isSrc : b = src
  · simp [isSrc]
  by_cases isDst : b = dst
  · subst isDst
    cases nextEq : (st.block src).next with
    | none => simp [State.setPrev, isSrc, cell, State.modifyBlock]
    | some p =>
      have other : b ≠ p := by
        rintro rfl
        exact nextOther nextEq
      simp [State.setPrev, isSrc, cell, State.modifyBlock, other]
  · cases nextEq : (st.block src).next with
    | none => simp [State.setPrev, isSrc, isDst, State.modifyBlock]
    | some p =>
      by_cases isNext : b = p
      · subst isNext
        simp [State.setPrev, isSrc, isDst, State.modifyBlock]
      · have differ : p ≠ b := Ne.symm isNext
        simp [State.setPrev, isSrc, isDst, State.modifyBlock, isNext, differ]

end Updates

/-! ### Segments -/

def blockOf (blocks : BlockId → Option Block) (b : BlockId) : Block := (blocks b).getD {}

abbrev prevOf (blocks : BlockId → Option Block) (b : BlockId) : Option BlockId :=
  (blockOf blocks b).prev

abbrev nextOf (blocks : BlockId → Option Block) (b : BlockId) : Option BlockId :=
  (blockOf blocks b).next

abbrev ptrOf (blocks : BlockId → Option Block) (b : BlockId) : Nat := (blockOf blocks b).ptr

abbrev sizeOf (blocks : BlockId → Option Block) (b : BlockId) : Nat := (blockOf blocks b).size

structure Segment where
  range : Range
  pool : PoolRef
  stream : StreamId
  blocks : List BlockId

/-- The blocks of a segment are linked in their order, begin at its start, share its pool
and have its size modulo a word; in an exact heap they also share its stream and tile its
range. -/
structure Segment.Formed (exact : Prop) (blocks : BlockId → Option Block) (seg : Segment) :
    Prop where
  nonempty : seg.blocks ≠ []
  linked : Links (prevOf blocks) (nextOf blocks) none seg.blocks none
  base : ∀ b, seg.blocks.head? = some b → ptrOf blocks b = seg.range.base
  pool : ∀ b ∈ seg.blocks, (blockOf blocks b).pool = seg.pool
  words : ∀ b ∈ seg.blocks, sizeOf blocks b < 2 ^ 64
  summed : (seg.blocks.map (sizeOf blocks)).sum ≡ seg.range.size [MOD 2 ^ 64]
  stream : exact → ∀ b ∈ seg.blocks, (blockOf blocks b).stream = seg.stream
  tiled : exact → Tiles (ptrOf blocks) (sizeOf blocks) seg.range.base seg.blocks
    (seg.range.base + seg.range.size)

/-- What the links and the tilings of the segments depend on. -/
def Block.cell (b : Block) : Block :=
  { prev := b.prev, next := b.next, ptr := b.ptr, size := b.size, pool := b.pool,
    stream := b.stream, device := b.device }

/-- Blocks with one cell agree in each of its parts. -/
structure SameCell (a b : Block) : Prop where
  prev : a.prev = b.prev
  next : a.next = b.next
  ptr : a.ptr = b.ptr
  size : a.size = b.size
  pool : a.pool = b.pool
  stream : a.stream = b.stream
  device : a.device = b.device

theorem sameCell {a b : Block} (same : a.cell = b.cell) : SameCell a b where
  prev := (congrArg Block.prev same :)
  next := (congrArg Block.next same :)
  ptr := (congrArg Block.ptr same :)
  size := (congrArg Block.size same :)
  pool := (congrArg Block.pool same :)
  stream := (congrArg Block.stream same :)
  device := (congrArg Block.device same :)

theorem Segment.Formed.congr {exact : Prop} {blocks blocks' : BlockId → Option Block}
    {seg : Segment} (formed : seg.Formed exact blocks)
    (same : ∀ b ∈ seg.blocks, (blockOf blocks' b).cell = (blockOf blocks b).cell) :
    seg.Formed exact blocks' where
  nonempty := formed.nonempty
  linked := links_congr formed.linked (fun b member => (sameCell (same b member)).prev)
    (fun b member => (sameCell (same b member)).next)
  base b first :=
    (sameCell (same b (List.mem_of_head? first))).ptr.trans (formed.base b first)
  pool b member := (sameCell (same b member)).pool.trans (formed.pool b member)
  words b member := (sameCell (same b member)).size.trans_lt (formed.words b member)
  summed := by
    rw [sum_congr fun b member => (sameCell (same b member)).size]
    exact formed.summed
  stream isExact b member :=
    (sameCell (same b member)).stream.trans (formed.stream isExact b member)
  tiled isExact := tiles_congr (formed.tiled isExact)
    (fun b member => (sameCell (same b member)).ptr)
    (fun b member => (sameCell (same b member)).size)

def Range.Proper (range : Range) : Prop :=
  0 < range.base ∧ 0 < range.size ∧ range.base + range.size < 2 ^ 64

def Range.Apart (r s : Range) : Prop := r.base + r.size ≤ s.base ∨ s.base + s.size ≤ r.base

theorem Range.Apart.symm {r s : Range} (apart : r.Apart s) : s.Apart r := Or.symm apart

/-- The live blocks are exactly the blocks of the segments, and the segments are the live
allocations of the device. -/
structure Shape (exact : Prop) (blocks : BlockId → Option Block) (nextBlock : BlockId)
    (allocations : List Range) (segs : List Segment) : Prop where
  formed : ∀ seg ∈ segs, seg.Formed exact blocks
  live : ∀ b, (blocks b).isSome = true ↔ ∃ seg ∈ segs, b ∈ seg.blocks
  nodup : (segs.flatMap (·.blocks)).Nodup
  bound : ∀ b, (blocks b).isSome = true → b < nextBlock
  ranges : allocations.Perm (segs.map (·.range))
  proper : ∀ range ∈ allocations, range.Proper
  apart : allocations.Pairwise Range.Apart

namespace Shape
variable {exact : Prop} {blocks blocks' : BlockId → Option Block} {nextBlock nextBlock' : BlockId}
  {allocations : List Range} {segs segs' rest : List Segment} {seg : Segment}

theorem perm (shape : Shape exact blocks nextBlock allocations segs) (order : segs.Perm segs') :
    Shape exact blocks nextBlock allocations segs' where
  formed seg member := shape.formed seg (order.mem_iff.mpr member)
  live b := by
    rw [shape.live b]
    simp only [order.mem_iff]
  nodup := (order.flatMap_right _).nodup_iff.mp shape.nodup
  bound := shape.bound
  ranges := shape.ranges.trans (order.map _)
  proper := shape.proper
  apart := shape.apart

/-- A live block lies in a segment, which can be put first. -/
theorem focus (shape : Shape exact blocks nextBlock allocations segs) {b : BlockId}
    (live : (blocks b).isSome = true) :
    ∃ seg rest, segs.Perm (seg :: rest) ∧ b ∈ seg.blocks ∧
      Shape exact blocks nextBlock allocations (seg :: rest) := by
  obtain ⟨seg, member, inside⟩ := (shape.live b).mp live
  obtain ⟨left, right, rfl⟩ := List.append_of_mem member
  have order : (left ++ seg :: right).Perm (seg :: (left ++ right)) := List.perm_middle
  exact ⟨seg, left ++ right, order, inside, shape.perm order⟩

theorem congr (shape : Shape exact blocks nextBlock allocations segs)
    (same : ∀ b, (blocks' b).map Block.cell = (blocks b).map Block.cell) :
    Shape exact blocks' nextBlock allocations segs := by
  have some_iff : ∀ b, (blocks' b).isSome = true ↔ (blocks b).isSome = true := fun b => by
    have lengths := congrArg Option.isSome (same b)
    simp only [Option.isSome_map] at lengths
    rw [lengths]
  have cells : ∀ b, (blockOf blocks' b).cell = (blockOf blocks b).cell := fun b => by
    have cell := same b
    unfold blockOf
    cases was : blocks b <;> cases is : blocks' b <;> simp_all
  exact {
    formed := fun seg member => (shape.formed seg member).congr fun b _ => cells b
    live := fun b => (some_iff b).trans (shape.live b)
    nodup := shape.nodup
    bound := fun b live => shape.bound b ((some_iff b).mp live)
    ranges := shape.ranges
    proper := shape.proper
    apart := shape.apart }

theorem disjoint_rest (shape : Shape exact blocks nextBlock allocations (seg :: rest))
    {other : Segment} (member : other ∈ rest) {b : BlockId} (inside : b ∈ other.blocks) :
    b ∉ seg.blocks := by
  have nodup := shape.nodup
  rw [List.flatMap_cons] at nodup
  intro here
  exact List.disjoint_of_nodup_append nodup here (List.mem_flatMap.mpr ⟨other, member, inside⟩)

theorem nodup_head (shape : Shape exact blocks nextBlock allocations (seg :: rest)) :
    seg.blocks.Nodup := by
  have nodup := shape.nodup
  rw [List.flatMap_cons] at nodup
  exact nodup.of_append_left

/-- Rearranging the blocks of one segment. -/
theorem edit (shape : Shape exact blocks nextBlock allocations (seg :: rest))
    {list : List BlockId} (formed : Segment.Formed exact blocks' { seg with blocks := list })
    (others : ∀ b, b ∉ seg.blocks → b ∉ list → blocks' b = blocks b)
    (present : ∀ b ∈ list, (blocks' b).isSome = true)
    (gone : ∀ b ∈ seg.blocks, b ∉ list → blocks' b = none) (nodup : list.Nodup)
    (fresh : ∀ b ∈ list, b ∈ seg.blocks ∨ (blocks b = none ∧ b < nextBlock'))
    (grows : nextBlock ≤ nextBlock') :
    Shape exact blocks' nextBlock' allocations ({ seg with blocks := list } :: rest) := by
  have restLive : ∀ other ∈ rest, ∀ b ∈ other.blocks, (blocks b).isSome = true :=
    fun other member b inside => (shape.live b).mpr ⟨other, List.mem_cons_of_mem seg member, inside⟩
  have restApart : ∀ other ∈ rest, ∀ b ∈ other.blocks, b ∉ list := by
    intro other member b inside here
    rcases fresh b here with old | ⟨dead, _⟩
    · exact shape.disjoint_rest member inside old
    · have live := restLive other member b inside
      simp [dead] at live
  have restSame : ∀ other ∈ rest, ∀ b ∈ other.blocks, blocks' b = blocks b :=
    fun other member b inside =>
      others b (shape.disjoint_rest member inside) (restApart other member b inside)
  refine ⟨?_, ?_, ?_, ?_, shape.ranges, shape.proper, shape.apart⟩
  · intro other member
    rcases List.mem_cons.mp member with rfl | member
    · exact formed
    · refine (shape.formed other (List.mem_cons_of_mem seg member)).congr fun b inside => ?_
      rw [blockOf, restSame other member b inside, blockOf]
  · intro b
    constructor
    · intro live
      by_cases here : b ∈ list
      · exact ⟨_, List.mem_cons_self, here⟩
      by_cases was : b ∈ seg.blocks
      · simp [gone b was here] at live
      · rw [others b was here] at live
        obtain ⟨other, member, inside⟩ := (shape.live b).mp live
        rcases List.mem_cons.mp member with rfl | member
        · exact absurd inside was
        · exact ⟨other, List.mem_cons_of_mem _ member, inside⟩
    · rintro ⟨other, member, inside⟩
      rcases List.mem_cons.mp member with rfl | member
      · exact present b inside
      · rw [restSame other member b inside]
        exact restLive other member b inside
  · have before := shape.nodup
    rw [List.flatMap_cons] at before ⊢
    refine List.nodup_append'.mpr ⟨nodup, before.of_append_right, fun b here there => ?_⟩
    obtain ⟨other, member, inside⟩ := List.mem_flatMap.mp there
    exact restApart other member b inside here
  · intro b live
    by_cases here : b ∈ list
    · rcases fresh b here with old | ⟨_, below⟩
      · exact (shape.bound b ((shape.live b).mpr ⟨seg, List.mem_cons_self, old⟩)).trans_le grows
      · exact below
    by_cases was : b ∈ seg.blocks
    · simp [gone b was here] at live
    · rw [others b was here] at live
      exact (shape.bound b live).trans_le grows

theorem proper_head (shape : Shape exact blocks nextBlock allocations (seg :: rest)) :
    seg.range.Proper :=
  shape.proper seg.range (shape.ranges.mem_iff.mpr List.mem_cons_self)

theorem live_head (shape : Shape exact blocks nextBlock allocations (seg :: rest)) {b : BlockId}
    (inside : b ∈ seg.blocks) : (blocks b).isSome = true :=
  (shape.live b).mpr ⟨seg, List.mem_cons_self, inside⟩

end Shape

variable {exact : Prop} {allocations : List Range} {segs : List Segment} {st : State}

@[simp] theorem insertIntoBlocks_nextBlock (st : State) (pool : PoolRef) (b : BlockId) :
    (st.insertIntoBlocks pool b).1.nextBlock = st.nextBlock := by
  simp only [State.insertIntoBlocks]
  split <;> rfl

@[simp] theorem splitBlock_nextBlock (st : State) (params : AllocParams) (found : BlockId) :
    (st.splitBlock params found).1.nextBlock = st.nextBlock + 1 := by
  simp only [State.splitBlock, insertIntoBlocks_nextBlock]
  cases (st.block found).prev <;> rfl

/-- The predecessor of a block in its segment. -/
theorem prev_split {seg : Segment} {blocks : BlockId → Option Block} {a b : List BlockId}
    {found : BlockId} (formed : seg.Formed exact blocks) (list : seg.blocks = a ++ found :: b) :
    (blockOf blocks found).prev = a.getLast? := by
  have linked := formed.linked
  rw [list] at linked
  simpa using links_prev_eq linked

theorem next_split {seg : Segment} {blocks : BlockId → Option Block} {a b : List BlockId}
    {found : BlockId} (formed : seg.Formed exact blocks) (list : seg.blocks = a ++ found :: b) :
    (blockOf blocks found).next = b.head? := by
  have linked := formed.linked
  rw [list] at linked
  simpa using links_next_eq linked

/-! ### Neighbours -/

theorem Shape.next_neighbour {blocks : BlockId → Option Block} {nextBlock b c : BlockId}
    (shape : Shape exact blocks nextBlock allocations segs) (live : (blocks b).isSome = true)
    (link : (blockOf blocks b).next = some c) :
    (blocks c).isSome = true ∧ c ≠ b ∧ (blockOf blocks c).prev = some b ∧
      (blockOf blocks c).pool = (blockOf blocks b).pool := by
  obtain ⟨seg, rest, _, inside, shape⟩ := shape.focus live
  have formed := shape.formed seg List.mem_cons_self
  obtain ⟨l, r, list⟩ := links_successor formed.linked inside link
  have list' : seg.blocks = (l ++ [b]) ++ c :: r := by simp [list]
  have insideC : c ∈ seg.blocks := by simp [list]
  refine ⟨shape.live_head insideC, ?_, ?_, ?_⟩
  · have nodup : (l ++ b :: c :: r).Nodup := list ▸ shape.nodup_head
    simp [List.nodup_append, List.nodup_cons] at nodup
    exact Ne.symm nodup.2.1.1.1
  · simpa using prev_split formed list'
  · rw [formed.pool c insideC, formed.pool b inside]

theorem Shape.prev_neighbour {blocks : BlockId → Option Block} {nextBlock b c : BlockId}
    (shape : Shape exact blocks nextBlock allocations segs) (live : (blocks b).isSome = true)
    (link : (blockOf blocks b).prev = some c) :
    (blocks c).isSome = true ∧ c ≠ b ∧ (blockOf blocks c).next = some b ∧
      (blockOf blocks c).pool = (blockOf blocks b).pool := by
  obtain ⟨seg, rest, _, inside, shape⟩ := shape.focus live
  have formed := shape.formed seg List.mem_cons_self
  obtain ⟨l, r, list⟩ := links_predecessor formed.linked inside link
  have insideC : c ∈ seg.blocks := by simp [list]
  refine ⟨shape.live_head insideC, ?_, ?_, ?_⟩
  · have nodup : (l ++ c :: b :: r).Nodup := list ▸ shape.nodup_head
    simp [List.nodup_append, List.nodup_cons] at nodup
    exact nodup.2.1.1.1
  · simpa using next_split formed list
  · rw [formed.pool c insideC, formed.pool b inside]

/-- In an exact heap, two live blocks never overlap. -/
theorem Shape.blocks_apart {blocks : BlockId → Option Block} {nextBlock b c : BlockId}
    (shape : Shape True blocks nextBlock allocations segs) (liveB : (blocks b).isSome = true)
    (liveC : (blocks c).isSome = true) (differ : b ≠ c) :
    Range.Apart ⟨(blockOf blocks b).ptr, (blockOf blocks b).size⟩
      ⟨(blockOf blocks c).ptr, (blockOf blocks c).size⟩ := by
  obtain ⟨seg, rest, _, insideB, shape⟩ := shape.focus liveB
  have formed := shape.formed seg List.mem_cons_self
  have withinB := tiles_within (formed.tiled trivial) insideB
  by_cases insideC : c ∈ seg.blocks
  · have apart := tiles_apart (formed.tiled trivial) insideB insideC differ
    exact apart
  · obtain ⟨other, member, insideC'⟩ := (shape.live c).mp liveC
    rcases List.mem_cons.mp member with rfl | later
    · exact absurd insideC' insideC
    have withinC := tiles_within ((shape.formed other member).tiled trivial) insideC'
    have disjoint := (shape.ranges.pairwise_iff (fun apart => Range.Apart.symm apart)).mp shape.apart
    simp only [List.map_cons, List.pairwise_cons] at disjoint
    rcases disjoint.1 other.range (List.mem_map_of_mem later) with before | after
    · left
      simp only [ptrOf, sizeOf] at withinB withinC ⊢
      omega
    · right
      simp only [ptrOf, sizeOf] at withinB withinC ⊢
      omega

/-- Two blocks do not precede each other. -/
theorem Shape.prev_prev {blocks : BlockId → Option Block} {nextBlock b c : BlockId}
    (shape : Shape exact blocks nextBlock allocations segs) (live : (blocks b).isSome = true)
    (link : (blockOf blocks b).prev = some c) : (blockOf blocks c).prev ≠ some b := by
  obtain ⟨seg, rest, _, inside, shape⟩ := shape.focus live
  have formed := shape.formed seg List.mem_cons_self
  obtain ⟨l, r, list⟩ := links_predecessor formed.linked inside link
  have nodup : (l ++ c :: b :: r).Nodup := list ▸ shape.nodup_head
  rw [prev_split formed list]
  intro last
  simp [List.nodup_append, List.nodup_cons] at nodup
  exact (nodup.2.2 b (List.mem_of_getLast? last)).2.1 rfl

/-- A block is not both before and after another. -/
theorem Shape.prev_ne_next {blocks : BlockId → Option Block} {nextBlock b c : BlockId}
    (shape : Shape exact blocks nextBlock allocations segs) (live : (blocks b).isSome = true)
    (link : (blockOf blocks b).next = some c) : (blockOf blocks b).prev ≠ some c := by
  intro before
  have after := shape.next_neighbour live link
  exact shape.prev_prev live before after.2.2.1

theorem Shape.next_next {blocks : BlockId → Option Block} {nextBlock b c : BlockId}
    (shape : Shape exact blocks nextBlock allocations segs) (live : (blocks b).isSome = true)
    (link : (blockOf blocks b).next = some c) : (blockOf blocks c).next ≠ some b := by
  intro back
  have after := shape.next_neighbour live link
  exact shape.prev_ne_next after.1 back after.2.2.1

/-! ### The blocks after a split and after a merge -/

theorem Shape.splitBlock_blocks {found : BlockId}
    (shape : Shape exact st.blocks st.nextBlock allocations segs) (params : AllocParams) (live : st.Live found)
    (b : BlockId) :
    (st.splitBlock params found).1.blocks b =
      if b = found then
        some { st.block found with
          prev := some st.nextBlock
          ptr := sizeAdd (st.block found).ptr params.size
          size := sizeSub (st.block found).size params.size
          gcCountBase := (st.pools params.pool).getFreeBlocksCallCount }
      else if b = st.nextBlock then
        some { device := params.device, stream := params.stream, size := params.size,
               pool := params.pool, ptr := (st.block found).ptr, prev := (st.block found).prev,
               next := some found }
      else if (st.block found).prev = some b then
        (st.blocks b).map fun k => { k with next := some st.nextBlock }
      else st.blocks b := by
  refine GCUCachingAllocator.splitBlock_blocks live (shape.bound found live).ne ?_ ?_ b
  · intro link
    exact (shape.bound _ (shape.prev_neighbour live link).1).ne rfl
  · intro link
    exact (shape.prev_neighbour live link).2.1 rfl

theorem Shape.mergeLeft_blocks {dst src : BlockId} (pool : PoolRef)
    (shape : Shape exact st.blocks st.nextBlock allocations segs) (live : st.Live dst)
    (before : (st.block dst).prev = some src) (b : BlockId) :
    (st.mergeBlocks dst src pool).blocks b =
      if b = src then none
      else if b = dst then
        some { st.block dst with
          ptr := (st.block src).ptr
          prev := (st.block src).prev
          size := sizeAdd (st.block dst).size (st.block src).size }
      else if (st.block src).prev = some b then
        (st.blocks b).map fun k => { k with next := some dst }
      else st.blocks b :=
  mergeBlocks_left_blocks live before (shape.prev_neighbour live before).2.1
    (shape.prev_prev live before) b

theorem Shape.mergeRight_blocks {dst src : BlockId} (pool : PoolRef)
    (shape : Shape exact st.blocks st.nextBlock allocations segs) (live : st.Live dst)
    (after : (st.block dst).next = some src) (b : BlockId) :
    (st.mergeBlocks dst src pool).blocks b =
      if b = src then none
      else if b = dst then
        some { st.block dst with
          next := (st.block src).next
          size := sizeAdd (st.block dst).size (st.block src).size }
      else if (st.block src).next = some b then
        (st.blocks b).map fun k => { k with prev := some dst }
      else st.blocks b :=
  mergeBlocks_right_blocks live (shape.prev_ne_next live after)
    (shape.next_neighbour live after).2.1 (shape.next_next live after) b

/-! ### Split and merged segments -/

theorem mem_middle {α : Type} {a b : List α} {x c : α} (member : c ∈ a ++ x :: b) :
    c ∈ a ++ b ∨ c = x :=
  (List.mem_cons.mp (List.perm_middle.mem_iff.mp member)).symm

/-- Splitting a block divides its segment further. -/
theorem Shape.carve {found : BlockId}
    (shape : Shape exact st.blocks st.nextBlock allocations segs) (params : AllocParams) (live : st.Live found)
    (pool : (st.block found).pool = params.pool) (word : params.size < 2 ^ 64)
    (matches_ : exact → (st.block found).stream = params.stream ∧
      params.size ≤ (st.block found).size) :
    ∃ segs', Shape exact (st.splitBlock params found).1.blocks (st.nextBlock + 1) allocations segs' ∧
      (segs'.map (·.pool)).Perm (segs.map (·.pool)) := by
  obtain ⟨seg, rest, order, inside, shape⟩ := shape.focus live
  obtain ⟨a, b, list⟩ := List.append_of_mem inside
  have formed := shape.formed seg List.mem_cons_self
  have nodup : (a ++ found :: b).Nodup := list ▸ shape.nodup_head
  have prevEq : (st.block found).prev = a.getLast? := prev_split formed list
  have oldIn : ∀ c ∈ a ++ b, c ∈ seg.blocks := fun c member =>
    list ▸ ((List.sublist_cons_self found b).append_left a).subset member
  have liveIn : ∀ c ∈ a ++ b, st.Live c := fun c member => shape.live_head (oldIn c member)
  have below : ∀ c, st.Live c → c ≠ st.nextBlock := fun c live => (shape.bound c live).ne
  have dead : st.blocks st.nextBlock = none := by
    by_contra alive
    exact below st.nextBlock (Option.isSome_iff_ne_none.mpr alive) rfl
  have foundOut : found ∉ a ++ b := by
    intro member
    simp [List.nodup_append, List.nodup_cons] at nodup member
    rcases member with left | right
    · exact (nodup.2.2 found left).1 rfl
    · exact nodup.2.1.1 right
  have updated := shape.splitBlock_blocks params live
  generalize (st.splitBlock params found).1.blocks = blocks' at updated
  have differ : ∀ c ∈ a ++ b, c ≠ found ∧ c ≠ st.nextBlock := fun c member =>
    ⟨fun same => foundOut (same ▸ member), below c (liveIn c member)⟩
  have atFound := updated found
  rw [if_pos rfl] at atFound
  have atCreated := updated st.nextBlock
  rw [if_neg (below found live).symm, if_pos rfl] at atCreated
  have atBefore : ∀ c ∈ a ++ b, a.getLast? = some c →
      blocks' c = some { st.block c with next := some st.nextBlock } := fun c member last => by
    rw [updated c, if_neg (differ c member).1, if_neg (differ c member).2, prevEq, if_pos last,
      some_of_live (liveIn c member)]
    rfl
  have atOther : ∀ c ∈ a ++ b, a.getLast? ≠ some c → blocks' c = st.blocks c := fun c member other => by
    rw [updated c, if_neg (differ c member).1, if_neg (differ c member).2, prevEq, if_neg other]
  -- The neighbour only gets another successor.
  have kept : ∀ c ∈ a ++ b, (blockOf blocks' c).prev = (st.block c).prev ∧
      (blockOf blocks' c).ptr = (st.block c).ptr ∧ (blockOf blocks' c).size = (st.block c).size ∧
      (blockOf blocks' c).pool = (st.block c).pool ∧
      (blockOf blocks' c).stream = (st.block c).stream := fun c member => by
    by_cases last : a.getLast? = some c
    · simp [blockOf, atBefore c member last]
    · simp [blockOf, atOther c member last, State.block]
  have members : ∀ c ∈ a ++ st.nextBlock :: found :: b,
      c ∈ a ++ b ∨ c = st.nextBlock ∨ c = found := by
    intro c member
    rcases mem_middle member with rest | isNew
    · exact (mem_middle rest).imp_right .inr
    · exact .inr (.inl isNew)
  refine ⟨{ seg with blocks := a ++ st.nextBlock :: found :: b } :: rest, ?_, ?_⟩
  · refine shape.edit ⟨by simp, ?_, ?_, ?_, ?_, ?_, ?_, ?_⟩ ?_ ?_ ?_ ?_ ?_ (Nat.le_succ _)
    · refine links_insert nodup (list ▸ formed.linked) ?_ ?_ ?_ ?_ ?_ ?_ ?_
      · simp [prevOf, blockOf, atCreated, State.block]
      · simp [nextOf, blockOf, atCreated]
      · simp [prevOf, blockOf, atFound]
      · simp [nextOf, blockOf, atFound, State.block]
      · exact fun c member => (kept c member).1
      · intro c member other
        simp [nextOf, blockOf, atOther c member other]
      · intro c last
        simp [nextOf, blockOf, atBefore c (List.mem_append_left b (List.mem_of_getLast? last)) last]
    · intro c first
      cases a with
      | nil =>
        obtain rfl : st.nextBlock = c := by simpa using first
        have base := formed.base found (by simp [list])
        simpa [ptrOf, blockOf, atCreated, State.block] using base
      | cons d a =>
        obtain rfl : d = c := by simpa using first
        exact (kept d (by simp)).2.1.trans (formed.base d (by simp [list]))
    · intro c member
      have foundPool : (st.block found).pool = seg.pool := formed.pool found inside
      rcases members c member with old | rfl | rfl
      · rw [(kept c old).2.2.2.1]
        exact formed.pool c (oldIn c old)
      · simp [blockOf, atCreated, ← pool, foundPool]
      · simp [blockOf, atFound, foundPool]
    · intro c member
      rcases members c member with old | rfl | rfl
      · exact (kept c old).2.2.1.trans_lt (formed.words c (oldIn c old))
      · simpa [sizeOf, blockOf, atCreated] using word
      · simpa [sizeOf, blockOf, atFound] using sizeSub_lt _ _
    · refine (sum_insert ?_ fun c member => (kept c member).2.2.1).trans (list ▸ formed.summed)
      simp only [blockOf, atCreated, atFound, Option.getD_some]
      exact sizeSub_modEq _ word
    · intro isExact c member
      have foundStream : (st.block found).stream = seg.stream := formed.stream isExact found inside
      rcases members c member with old | rfl | rfl
      · rw [(kept c old).2.2.2.2]
        exact formed.stream isExact c (oldIn c old)
      · simpa [blockOf, atCreated, ← (matches_ isExact).1] using foundStream
      · simpa [blockOf, atFound] using foundStream
    · intro isExact
      have tiled := formed.tiled isExact
      have within := tiles_within tiled inside
      have proper := shape.proper_head
      have enough := (matches_ isExact).2
      have word : (st.block found).ptr + (st.block found).size < 2 ^ 64 :=
        lt_of_le_of_lt within.2 proper.2.2
      rw [list] at tiled
      refine tiles_insert tiled ?_ ?_ ?_ (fun c member => (kept c member).2.1)
        (fun c member => (kept c member).2.2.1)
      · simp [ptrOf, blockOf, atCreated, State.block]
      · simp only [ptrOf, sizeOf, blockOf, atFound, atCreated, Option.getD_some]
        exact sizeAdd_of_lt ((Nat.add_le_add_left enough _).trans_lt word)
      · simp only [sizeOf, blockOf, atFound, atCreated, Option.getD_some]
        rw [sizeSub_of_le enough ((Nat.le_add_left _ _).trans_lt word)]
        exact Nat.add_sub_cancel' enough
    · intro c outside notIn
      simp only [list, List.mem_append, List.mem_cons, not_or] at outside notIn
      rw [updated c, if_neg outside.2.1, if_neg notIn.2.1, prevEq, if_neg]
      exact fun last => outside.1 (List.mem_of_getLast? last)
    · intro c member
      by_cases old : c ∈ a ++ b
      · by_cases last : a.getLast? = some c
        · simp [atBefore c old last]
        · rw [atOther c old last]
          exact liveIn c old
      · rcases (members c member).resolve_left old with rfl | rfl
        · simp [atCreated]
        · simp [atFound]
    · intro c was notIn
      rw [list] at was
      exact absurd (((List.sublist_cons_self _ _).append_left a).subset was) notIn
    · have freshIn : st.nextBlock ∉ a ++ found :: b := by
        intro member
        exact below _ (shape.live_head (by rw [list]; exact member)) rfl
      refine (List.perm_middle.nodup_iff).mpr (List.nodup_cons.mpr ⟨freshIn, nodup⟩)
    · intro c member
      rcases members c member with old | isNew | rfl
      · exact .inl (oldIn c old)
      · exact .inr ⟨isNew ▸ dead, isNew ▸ Nat.lt_succ_self _⟩
      · exact .inl inside
  · exact (order.map Segment.pool).symm

@[simp] theorem mergeBlocks_nextBlock (st : State) (dst src : BlockId) (pool : PoolRef) :
    (st.mergeBlocks dst src pool).nextBlock = st.nextBlock := by
  simp only [State.mergeBlocks]
  split <;> cases (st.block src).prev <;> cases (st.block src).next <;> rfl

/-- A block swallows its predecessor. -/
theorem Shape.mergeLeft {dst src : BlockId} (pool : PoolRef)
    (shape : Shape exact st.blocks st.nextBlock allocations segs) (live : st.Live dst)
    (before : (st.block dst).prev = some src) :
    ∃ segs', Shape exact (st.mergeBlocks dst src pool).blocks st.nextBlock allocations segs' ∧
      (segs'.map (·.pool)).Perm (segs.map (·.pool)) := by
  obtain ⟨seg, rest, order, inside, shape⟩ := shape.focus live
  have formed := shape.formed seg List.mem_cons_self
  obtain ⟨a, b, list⟩ := links_predecessor formed.linked inside before
  have nodup : (a ++ src :: dst :: b).Nodup := list ▸ shape.nodup_head
  have srcPrev : (st.block src).prev = a.getLast? := prev_split formed list
  have oldIn : ∀ c ∈ a ++ b, c ∈ seg.blocks := fun c member =>
    list ▸ ((List.sublist_append_right [src, dst] b).append_left a).subset member
  have liveIn : ∀ c ∈ a ++ b, st.Live c := fun c member => shape.live_head (oldIn c member)
  have differ : ∀ c ∈ a ++ b, c ≠ src ∧ c ≠ dst := by
    intro c member
    simp [List.nodup_append, List.nodup_cons] at nodup
    constructor <;> rintro rfl <;> rcases List.mem_append.mp member with left | right
    · exact (nodup.2.2 c left).1 rfl
    · exact nodup.2.1.1.2 right
    · exact (nodup.2.2 c left).2.1 rfl
    · exact nodup.2.1.2.1 right
  have srcOther : src ≠ dst := by
    simp [List.nodup_append, List.nodup_cons] at nodup
    exact nodup.2.1.1.1
  have updated := shape.mergeLeft_blocks pool live before
  generalize (st.mergeBlocks dst src pool).blocks = blocks' at updated
  have atDst := updated dst
  rw [if_neg srcOther.symm, if_pos rfl] at atDst
  have atBefore : ∀ c ∈ a ++ b, a.getLast? = some c →
      blocks' c = some { st.block c with next := some dst } := fun c member last => by
    rw [updated c, if_neg (differ c member).1, if_neg (differ c member).2, srcPrev, if_pos last,
      some_of_live (liveIn c member)]
    rfl
  have atOther : ∀ c ∈ a ++ b, a.getLast? ≠ some c → blocks' c = st.blocks c :=
    fun c member other => by
      rw [updated c, if_neg (differ c member).1, if_neg (differ c member).2, srcPrev, if_neg other]
  have kept : ∀ c ∈ a ++ b, (blockOf blocks' c).prev = (st.block c).prev ∧
      (blockOf blocks' c).ptr = (st.block c).ptr ∧ (blockOf blocks' c).size = (st.block c).size ∧
      (blockOf blocks' c).pool = (st.block c).pool ∧
      (blockOf blocks' c).stream = (st.block c).stream := fun c member => by
    by_cases last : a.getLast? = some c
    · simp [blockOf, atBefore c member last]
    · simp [blockOf, atOther c member last, State.block]
  have members : ∀ c ∈ a ++ dst :: b, c ∈ a ++ b ∨ c = dst := fun c => mem_middle
  refine ⟨{ seg with blocks := a ++ dst :: b } :: rest, ?_, (order.map Segment.pool).symm⟩
  refine shape.edit ⟨by simp, ?_, ?_, ?_, ?_, ?_, ?_, ?_⟩ ?_ ?_ ?_ ?_ ?_ le_rfl
  · refine links_remove_prev nodup (list ▸ formed.linked) ?_ ?_ ?_ ?_ ?_
    · simp [prevOf, blockOf, atDst, State.block]
    · simp [nextOf, blockOf, atDst, State.block]
    · exact fun c member => (kept c member).1
    · intro c member other
      simp [nextOf, blockOf, atOther c member other]
    · intro c last
      simp [nextOf, blockOf, atBefore c (List.mem_append_left b (List.mem_of_getLast? last)) last]
  · intro c first
    cases a with
    | nil =>
      obtain rfl : dst = c := by simpa using first
      have base := formed.base src (by simp [list])
      simpa [ptrOf, blockOf, atDst, State.block] using base
    | cons d a =>
      obtain rfl : d = c := by simpa using first
      exact (kept d (by simp)).2.1.trans (formed.base d (by simp [list]))
  · intro c member
    rcases members c member with old | rfl
    · rw [(kept c old).2.2.2.1]
      exact formed.pool c (oldIn c old)
    · simpa [blockOf, atDst, State.block] using formed.pool c inside
  · intro c member
    rcases members c member with old | rfl
    · exact (kept c old).2.2.1.trans_lt (formed.words c (oldIn c old))
    · simpa [sizeOf, blockOf, atDst] using sizeAdd_lt _ _
  · have summed : ((a ++ [src, dst] ++ b).map (sizeOf st.blocks)).sum ≡ seg.range.size [MOD 2 ^ 64] := by
      simpa [list] using formed.summed
    refine (sum_remove ?_ fun c member => (kept c member).2.2.1).trans summed
    simpa [sizeOf, blockOf, atDst, State.block, Nat.add_comm] using sizeAdd_modEq _ _
  · intro isExact c member
    rcases members c member with old | rfl
    · rw [(kept c old).2.2.2.2]
      exact formed.stream isExact c (oldIn c old)
    · simpa [blockOf, atDst, State.block] using formed.stream isExact c inside
  · intro isExact
    have tiled := formed.tiled isExact
    have proper := shape.proper_head
    rw [list] at tiled
    have parts := tiles_split tiled
    have within := tiles_within tiled (c := dst) (by simp)
    have word : (st.block dst).size + (st.block src).size < 2 ^ 64 := by
      have start := parts.2.1
      have lower := tiles_le parts.1
      simp only [ptrOf, sizeOf] at start lower within
      have total : (blockOf st.blocks dst).size + (blockOf st.blocks src).size < 2 ^ 64 := by
        have bound := proper.2.2
        omega
      exact total
    refine tiles_remove_prev tiled ?_ ?_ (fun c member => (kept c member).2.1)
      (fun c member => (kept c member).2.2.1)
    · simp [ptrOf, blockOf, atDst, State.block]
    · simp only [sizeOf, blockOf, atDst, Option.getD_some]
      exact sizeAdd_of_lt word
  · intro c outside notIn
    simp only [list, List.mem_append, List.mem_cons, not_or] at outside notIn
    rw [updated c, if_neg outside.2.1, if_neg notIn.2.1, srcPrev, if_neg]
    exact fun last => outside.1 (List.mem_of_getLast? last)
  · intro c member
    by_cases old : c ∈ a ++ b
    · by_cases last : a.getLast? = some c
      · simp [atBefore c old last]
      · rw [atOther c old last]
        exact liveIn c old
    · obtain rfl : c = dst := (members c member).resolve_left old
      simp [atDst]
  · intro c was notIn
    obtain rfl : c = src := (mem_middle (list ▸ was)).resolve_left notIn
    rw [updated c, if_pos rfl]
  · exact nodup.sublist ((List.sublist_cons_self _ _).append_left a)
  · intro c member
    exact .inl (list ▸ ((List.sublist_cons_self _ _).append_left a).subset member)

/-- A block swallows its successor. -/
theorem Shape.mergeRight {dst src : BlockId} (pool : PoolRef)
    (shape : Shape exact st.blocks st.nextBlock allocations segs) (live : st.Live dst)
    (after : (st.block dst).next = some src) :
    ∃ segs', Shape exact (st.mergeBlocks dst src pool).blocks st.nextBlock allocations segs' ∧
      (segs'.map (·.pool)).Perm (segs.map (·.pool)) := by
  obtain ⟨seg, rest, order, inside, shape⟩ := shape.focus live
  have formed := shape.formed seg List.mem_cons_self
  obtain ⟨a, b, list⟩ := links_successor formed.linked inside after
  have nodup : (a ++ dst :: src :: b).Nodup := list ▸ shape.nodup_head
  have list' : seg.blocks = (a ++ [dst]) ++ src :: b := by simp [list]
  have srcNext : (st.block src).next = b.head? := next_split formed list'
  have oldIn : ∀ c ∈ a ++ b, c ∈ seg.blocks := fun c member =>
    list ▸ ((List.sublist_append_right [dst, src] b).append_left a).subset member
  have liveIn : ∀ c ∈ a ++ b, st.Live c := fun c member => shape.live_head (oldIn c member)
  have differ : ∀ c ∈ a ++ b, c ≠ src ∧ c ≠ dst := by
    intro c member
    simp [List.nodup_append, List.nodup_cons] at nodup
    constructor <;> rintro rfl <;> rcases List.mem_append.mp member with left | right
    · exact (nodup.2.2 c left).2.1 rfl
    · exact nodup.2.1.2.1 right
    · exact (nodup.2.2 c left).1 rfl
    · exact nodup.2.1.1.2 right
  have srcOther : src ≠ dst := by
    simp [List.nodup_append, List.nodup_cons] at nodup
    exact Ne.symm nodup.2.1.1.1
  have updated := shape.mergeRight_blocks pool live after
  generalize (st.mergeBlocks dst src pool).blocks = blocks' at updated
  have atDst := updated dst
  rw [if_neg srcOther.symm, if_pos rfl] at atDst
  have atAfter : ∀ c ∈ a ++ b, b.head? = some c →
      blocks' c = some { st.block c with prev := some dst } := fun c member first => by
    rw [updated c, if_neg (differ c member).1, if_neg (differ c member).2, srcNext, if_pos first,
      some_of_live (liveIn c member)]
    rfl
  have atOther : ∀ c ∈ a ++ b, b.head? ≠ some c → blocks' c = st.blocks c :=
    fun c member other => by
      rw [updated c, if_neg (differ c member).1, if_neg (differ c member).2, srcNext, if_neg other]
  have kept : ∀ c ∈ a ++ b, (blockOf blocks' c).next = (st.block c).next ∧
      (blockOf blocks' c).ptr = (st.block c).ptr ∧ (blockOf blocks' c).size = (st.block c).size ∧
      (blockOf blocks' c).pool = (st.block c).pool ∧
      (blockOf blocks' c).stream = (st.block c).stream := fun c member => by
    by_cases first : b.head? = some c
    · simp [blockOf, atAfter c member first]
    · simp [blockOf, atOther c member first, State.block]
  have members : ∀ c ∈ a ++ dst :: b, c ∈ a ++ b ∨ c = dst := fun c => mem_middle
  refine ⟨{ seg with blocks := a ++ dst :: b } :: rest, ?_, (order.map Segment.pool).symm⟩
  refine shape.edit ⟨by simp, ?_, ?_, ?_, ?_, ?_, ?_, ?_⟩ ?_ ?_ ?_ ?_ ?_ le_rfl
  · refine links_remove_next (list ▸ formed.linked) ?_ ?_ ?_ ?_ ?_
    · simp [prevOf, blockOf, atDst, State.block]
    · simp [nextOf, blockOf, atDst, State.block]
    · intro c member
      have old : c ∈ a ++ b := by
        rcases List.mem_append.mp member with left | right
        · exact List.mem_append_left b left
        · exact List.mem_append_right a (List.mem_of_mem_tail right)
      have other : b.head? ≠ some c := by
        intro first
        cases b with
        | nil => simp at first
        | cons d b =>
          obtain rfl : d = c := by simpa using first
          simp [List.nodup_append, List.nodup_cons] at nodup
          rcases List.mem_append.mp member with left | right
          · exact (nodup.2.2 d left).2.2.1 rfl
          · exact nodup.2.1.2.2.1 right
      simp [prevOf, blockOf, atOther c old other]
    · exact fun c member => (kept c member).1
    · intro c first
      simp [prevOf, blockOf, atAfter c (List.mem_append_right a (List.mem_of_head? first)) first]
  · intro c first
    cases a with
    | nil =>
      obtain rfl : dst = c := by simpa using first
      have base := formed.base dst (by simp [list])
      simpa [ptrOf, blockOf, atDst, State.block] using base
    | cons d a =>
      obtain rfl : d = c := by simpa using first
      exact (kept d (by simp)).2.1.trans (formed.base d (by simp [list]))
  · intro c member
    rcases members c member with old | rfl
    · rw [(kept c old).2.2.2.1]
      exact formed.pool c (oldIn c old)
    · simpa [blockOf, atDst, State.block] using formed.pool c inside
  · intro c member
    rcases members c member with old | rfl
    · exact (kept c old).2.2.1.trans_lt (formed.words c (oldIn c old))
    · simpa [sizeOf, blockOf, atDst] using sizeAdd_lt _ _
  · have summed : ((a ++ [dst, src] ++ b).map (sizeOf st.blocks)).sum ≡ seg.range.size [MOD 2 ^ 64] := by
      simpa [list] using formed.summed
    refine (sum_remove ?_ fun c member => (kept c member).2.2.1).trans summed
    simpa [sizeOf, blockOf, atDst, State.block] using sizeAdd_modEq _ _
  · intro isExact c member
    rcases members c member with old | rfl
    · rw [(kept c old).2.2.2.2]
      exact formed.stream isExact c (oldIn c old)
    · simpa [blockOf, atDst, State.block] using formed.stream isExact c inside
  · intro isExact
    have tiled := formed.tiled isExact
    have proper := shape.proper_head
    rw [list] at tiled
    have parts := tiles_split tiled
    have within := tiles_within tiled (c := src) (by simp)
    have word : (st.block dst).size + (st.block src).size < 2 ^ 64 := by
      have start := parts.2.1
      have lower := tiles_le parts.1
      simp only [ptrOf, sizeOf] at start lower within
      have total : (blockOf st.blocks dst).size + (blockOf st.blocks src).size < 2 ^ 64 := by
        have bound := proper.2.2
        omega
      exact total
    refine tiles_remove_next tiled ?_ ?_ (fun c member => (kept c member).2.1)
      (fun c member => (kept c member).2.2.1)
    · simp [ptrOf, blockOf, atDst, State.block]
    · simp only [sizeOf, blockOf, atDst, Option.getD_some]
      exact sizeAdd_of_lt word
  · intro c outside notIn
    simp only [list, List.mem_append, List.mem_cons, not_or] at outside notIn
    rw [updated c, if_neg outside.2.2.1, if_neg notIn.2.1, srcNext, if_neg]
    exact fun first => notIn.2.2 (List.mem_of_head? first)
  · intro c member
    by_cases old : c ∈ a ++ b
    · by_cases first : b.head? = some c
      · simp [atAfter c old first]
      · rw [atOther c old first]
        exact liveIn c old
    · obtain rfl : c = dst := (members c member).resolve_left old
      simp [atDst]
  · intro c was notIn
    obtain rfl : c = src :=
      (mem_middle (list' ▸ was)).resolve_left (List.append_cons a dst b ▸ notIn)
    rw [updated c, if_pos rfl]
  · exact nodup.sublist (((List.sublist_cons_self _ _).cons_cons dst).append_left a)
  · intro c member
    exact .inl (list ▸ (((List.sublist_cons_self _ _).cons_cons dst).append_left a).subset member)

/-! ### New and returned segments -/

theorem newSegment_blocks (st : State) (cfg : GCUAllocatorConfig) (params : AllocParams)
    (ptr : Nat) : (st.newSegment cfg params ptr).blocks =
      Function.update st.blocks st.nextBlock (some
        { device := params.device, stream := params.stream, size := params.allocSize,
          pool := params.pool, ptr := ptr }) := by
  simp only [State.newSegment]
  cases params.pool.ownerPrivatePool <;> rfl

@[simp] theorem newSegment_nextBlock (st : State) (cfg : GCUAllocatorConfig)
    (params : AllocParams) (ptr : Nat) :
    (st.newSegment cfg params ptr).nextBlock = st.nextBlock + 1 := by
  simp only [State.newSegment]
  cases params.pool.ownerPrivatePool <;> rfl

@[simp] theorem newSegment_allocations (st : State) (cfg : GCUAllocatorConfig)
    (params : AllocParams) (ptr : Nat) :
    (st.newSegment cfg params ptr).allocations = ⟨ptr, params.allocSize⟩ :: st.allocations := by
  simp only [State.newSegment]
  cases params.pool.ownerPrivatePool <;> rfl

theorem Shape.obtain (cfg : GCUAllocatorConfig) {params : AllocParams} {ptr : Nat}
    (shape : Shape exact st.blocks st.nextBlock st.allocations segs)
    (fresh : Fresh st.allocations ptr params.allocSize) :
    Shape exact (st.newSegment cfg params ptr).blocks (st.nextBlock + 1)
      (⟨ptr, params.allocSize⟩ :: st.allocations)
      (⟨⟨ptr, params.allocSize⟩, params.pool, params.stream, [st.nextBlock]⟩ :: segs) := by
  have old : ∀ b, (st.blocks b).isSome = true → b ≠ st.nextBlock :=
    fun b live => (shape.bound b live).ne
  have same : ∀ seg ∈ segs, ∀ b ∈ seg.blocks,
      (st.newSegment cfg params ptr).blocks b = st.blocks b := fun seg member b inside => by
    rw [newSegment_blocks, Function.update_of_ne]
    exact old b ((shape.live b).mpr ⟨seg, member, inside⟩)
  have here : (st.newSegment cfg params ptr).blocks st.nextBlock = some
      { device := params.device, stream := params.stream, size := params.allocSize,
        pool := params.pool, ptr := ptr } := by
    rw [newSegment_blocks, Function.update_self]
  refine ⟨?_, ?_, ?_, ?_, shape.ranges.cons _, ?_, ?_⟩
  · intro seg member
    rcases List.mem_cons.mp member with rfl | member
    · refine ⟨by simp, ?_, ?_, ?_, ?_, ?_, fun _ => ?_, fun _ => ?_⟩
      · simp [Links, prevOf, nextOf, blockOf, here]
      · simp [ptrOf, blockOf, here]
      · simp [blockOf, here]
      · simpa [sizeOf, blockOf, here] using (Nat.le_add_left _ _).trans_lt fresh.2.2.1
      · simp [sizeOf, blockOf, here, Nat.ModEq]
      · simp [blockOf, here]
      · simp [Tiles, ptrOf, sizeOf, blockOf, here]
    · refine (shape.formed seg member).congr fun b inside => ?_
      rw [blockOf, same seg member b inside, blockOf]
  · intro b
    by_cases isNew : b = st.nextBlock
    · subst isNew
      simp [here]
    · rw [newSegment_blocks, Function.update_of_ne isNew, shape.live b]
      simp [isNew]
  · rw [List.flatMap_cons]
    refine List.nodup_append'.mpr ⟨by simp, shape.nodup, ?_⟩
    intro b here there
    obtain rfl : b = st.nextBlock := by simpa using here
    obtain ⟨seg, member, inside⟩ := List.mem_flatMap.mp there
    exact old st.nextBlock ((shape.live _).mpr ⟨seg, member, inside⟩) rfl
  · intro b live
    by_cases isNew : b = st.nextBlock
    · exact isNew ▸ Nat.lt_succ_self _
    · rw [newSegment_blocks, Function.update_of_ne isNew] at live
      exact (shape.bound b live).trans (Nat.lt_succ_self _)
  · intro range member
    rcases List.mem_cons.mp member with rfl | member
    · exact ⟨fresh.1, fresh.2.1, fresh.2.2.1⟩
    · exact shape.proper range member
  · exact List.pairwise_cons.mpr ⟨fresh.2.2.2, shape.apart⟩

/-- Ranges that lie apart have different bases. -/
theorem Shape.base_ne {blocks : BlockId → Option Block} {nextBlock : BlockId} {seg : Segment}
    {rest : List Segment} (shape : Shape exact blocks nextBlock allocations (seg :: rest))
    {range : Range} (member : range ∈ rest.map (·.range)) : range.base ≠ seg.range.base := by
  have order : allocations.Perm (seg.range :: rest.map (·.range)) := shape.ranges
  have disjoint := (order.pairwise_iff (fun apart => Range.Apart.symm apart)).mp shape.apart
  have properHere := shape.proper_head
  have properThere := shape.proper range (order.mem_iff.mpr (List.mem_cons_of_mem _ member))
  intro same
  rcases (List.pairwise_cons.mp disjoint).1 range member with before | after
  · have positive := properHere.2.1
    omega
  · have positive := properThere.2.1
    omega

theorem Shape.filter_base {blocks : BlockId → Option Block} {nextBlock : BlockId} {seg : Segment}
    {rest : List Segment} (shape : Shape exact blocks nextBlock allocations (seg :: rest)) :
    (allocations.filter (·.base ≠ seg.range.base)).Perm (rest.map (·.range)) := by
  have order : allocations.Perm (seg.range :: rest.map (·.range)) := shape.ranges
  have rest_same : (rest.map (·.range)).filter (·.base ≠ seg.range.base) = rest.map (·.range) :=
    List.filter_eq_self.mpr fun range member => by simpa using shape.base_ne member
  have filtered := order.filter (fun range => decide (range.base ≠ seg.range.base))
  rwa [List.filter_cons_of_neg (by simp), rest_same] at filtered

/-- An unsplit block is a segment, and its release returns the segment. -/
theorem Shape.release {blocks : BlockId → Option Block} {nextBlock b : BlockId}
    (shape : Shape exact blocks nextBlock allocations segs) (live : (blocks b).isSome = true)
    (unsplit : (blockOf blocks b).isSplit = false) :
    ∃ seg rest, segs.Perm (seg :: rest) ∧ seg.pool = (blockOf blocks b).pool ∧
      seg.range ∈ allocations ∧ seg.range.base = (blockOf blocks b).ptr ∧
      seg.range.size = (blockOf blocks b).size ∧
      Shape exact (Function.update blocks b none) nextBlock
        (allocations.filter (·.base ≠ (blockOf blocks b).ptr)) rest := by
  obtain ⟨seg, rest, order, inside, shape⟩ := shape.focus live
  have formed := shape.formed seg List.mem_cons_self
  have ends : (blockOf blocks b).prev = none ∧ (blockOf blocks b).next = none := by
    simpa [Block.isSplit] using unsplit
  have list : seg.blocks = [b] := links_alone formed.linked inside ends.1 ends.2
  have base : (blockOf blocks b).ptr = seg.range.base := formed.base b (by simp [list])
  have others : ∀ other ∈ rest, ∀ c ∈ other.blocks, Function.update blocks b none c = blocks c :=
    fun other member c there => by
      rw [Function.update_of_ne]
      rintro rfl
      exact shape.disjoint_rest member there (by simp [list])
  have filtered := shape.filter_base
  refine ⟨seg, rest, order, (formed.pool b inside).symm,
    shape.ranges.mem_iff.mpr List.mem_cons_self, base.symm, ?_, ?_⟩
  · have summed : (blockOf blocks b).size ≡ seg.range.size [MOD 2 ^ 64] := by
      simpa [list] using formed.summed
    have proper := shape.proper_head
    exact (summed.eq_of_lt_of_lt (formed.words b inside)
      ((Nat.le_add_left _ _).trans_lt proper.2.2)).symm
  · rw [base]
    refine ⟨?_, ?_, ?_, ?_, filtered, ?_, ?_⟩
    · intro other member
      refine (shape.formed other (List.mem_cons_of_mem seg member)).congr fun c inside => ?_
      rw [blockOf, others other member c inside, blockOf]
    · intro c
      constructor
      · intro live
        by_cases same : c = b
        · subst same
          simp at live
        · rw [Function.update_of_ne same] at live
          obtain ⟨other, member, there⟩ := (shape.live c).mp live
          rcases List.mem_cons.mp member with rfl | member
          · exact absurd (by simpa [list] using there) same
          · exact ⟨other, member, there⟩
      · rintro ⟨other, member, inside⟩
        rw [others other member c inside]
        exact (shape.live c).mpr ⟨other, List.mem_cons_of_mem seg member, inside⟩
    · have nodup := shape.nodup
      rw [List.flatMap_cons] at nodup
      exact nodup.of_append_right
    · intro c live
      by_cases same : c = b
      · subst same
        simp at live
      · rw [Function.update_of_ne same] at live
        exact shape.bound c live
    · exact fun range member => shape.proper range (List.mem_filter.mp member).1
    · exact shape.apart.filter _

end TorchGcu.GCUCachingAllocator

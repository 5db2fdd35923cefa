import TorchGcu.CachingAllocator.Accounting
import TorchGcu.CachingAllocator.Releases

/-! Where the blocks of a tiled heap are: each is active or in its pool, an active one has a
reason to be, and no two neighbours are cached next to each other. -/
namespace TorchGcu.GCUCachingAllocator
open ProgramLogic LinkedList

/-- The block whose fields need not make sense yet. -/
def Hand.subject : Hand → Option BlockId
  | .empty => none
  | .taken _ _ => none
  | .ready _ b => some b
  | .givenUp b => some b
  | .freeing b => some b
  | .merging b _ _ _ => some b
  | .recording b _ => some b

/-- The block that has left its pool and is not active yet. -/
def Hand.loose : Hand → Option BlockId
  | .taken _ b => some b
  | .ready _ b => some b
  | _ => none

variable {mode : Mode} {cfg : GCUAllocatorConfig} {rt : Runtime} {h h' : Hand} {st st' : State}

/-- What a side of the block in the hand says of the neighbour there. -/
def Side.Settled (side : Side) (st : State) (link : Option BlockId) : Prop :=
  ∀ size, side = .merged size → ∀ c, link = some c → (st.block c).busy = true

theorem Side.settled_pending (neighbour link : Option BlockId) :
    (Side.pending neighbour).Settled st link := by
  intro _ merged
  cases merged

/-- What is known of the block in the hand. -/
def HandOrdered (st : State) : Hand → Prop
  | .empty => True
  | .taken params b => params.err = none ∧ (st.block b).ptr ≠ 0
  | .ready _ _ => True
  | .givenUp b => b ∈ st.activeBlocks
  | .freeing b => b ∈ st.activeBlocks
  | .merging b _ left right => b ∈ st.activeBlocks ∧ left.Settled st (st.block b).prev ∧
      right.Settled st (st.block b).next
  | .recording b streams => b ∈ st.activeBlocks ∧ (streams = [] → 0 < (st.block b).eventCount)

/-- Every block is where it belongs. Only a block without bytes can be outside every list. -/
structure Ordered (h : Hand) (st : State) : Prop where
  listed : ∀ b, st.Live b → h.loose = some b ∨ b ∈ (st.pools (st.block b).pool).blocks ∨
    b ∈ st.activeBlocks ∨ ((st.block b).size = 0 ∧ (st.block b).busy = false)
  awaited : ∀ b ∈ st.activeBlocks, h.subject = some b ∨ (st.block b).busy = true
  apart : ∀ b c, (st.block b).next = some c → h.subject = some b ∨ h.subject = some c ∨
    (st.block b).busy = true ∨ (st.block c).busy = true
  hand : HandOrdered st h

/-! ### Keys and pool sets -/

/-- In a tiled heap only blocks without bytes can share their key. -/
theorem Sound.size_of_key (sound : Sound True h st) {x y : BlockId} (liveX : st.Live x)
    (liveY : st.Live y) (differ : x ≠ y)
    (same : equivalentKeys (st.block x) (st.block y) = true) :
    (st.block x).size = 0 ∧ (st.block y).size = 0 := by
  obtain ⟨segs, shape, _⟩ := sound.heap
  have away := shape.blocks_apart liveX liveY differ
  have keys : (st.block x).size = (st.block y).size ∧ (st.block x).ptr = (st.block y).ptr := by
    simp only [equivalentKeys, blockComparatorSize, Bool.and_eq_true, Bool.not_eq_true'] at same
    by_cases streams : (st.block x).stream = (st.block y).stream
    · by_cases sizes : (st.block x).size = (st.block y).size
      · simp only [streams, sizes, ne_eq, not_true_eq_false, if_false, decide_eq_false_iff_not]
          at same
        exact ⟨sizes, by omega⟩
      · simp only [streams, sizes, Ne.symm sizes, ne_eq, not_true_eq_false, not_false_eq_true,
          if_false, if_true, decide_eq_false_iff_not] at same
        omega
    · simp only [streams, Ne.symm streams, ne_eq, not_false_eq_true, if_true,
        decide_eq_false_iff_not, not_lt] at same
      exact absurd (le_antisymm same.2 same.1) streams
  simp only [Range.Apart] at away
  have sizes : (blockOf st.blocks x).size = (st.block x).size := rfl
  have sizes' : (blockOf st.blocks y).size = (st.block y).size := rfl
  have starts : (blockOf st.blocks x).ptr = (st.block x).ptr := rfl
  have starts' : (blockOf st.blocks y).ptr = (st.block y).ptr := rfl
  omega

/-- What is left of a block that is split has some bytes. -/
theorem shouldSplit_rest {block : Block} {size : Nat} (cut : shouldSplit cfg block size = true) :
    0 < sizeSub block.size size := by
  simp only [shouldSplit, kMinBlockSize, kSmallSize] at cut
  split at cut
  · have large := of_decide_eq_true cut
    omega
  · have large := of_decide_eq_true (Bool.and_eq_true_iff.mp cut).2
    omega

theorem live_of_next {b c : BlockId} (link : (st.block b).next = some c) : st.Live b := by
  by_contra dead
  simp [State.block, Option.not_isSome_iff_eq_none.mp dead] at link

/-- A block that goes with the key of another has no bytes, whether or not that one lives. -/
theorem Sound.size_of_erased (sound : Sound True h st) {pool : PoolRef} {x y : BlockId}
    (member : x ∈ (st.pools pool).blocks) (differ : x ≠ y)
    (same : equivalentKeys (st.block x) (st.block y) = true) : (st.block x).size = 0 := by
  by_cases live : st.Live y
  · exact (sound.size_of_key (sound.pooled.block member).1 live differ same).1
  · have gone : st.block y = {} := by
      simp [State.block, Option.not_isSome_iff_eq_none.mp live]
    rw [gone] at same
    simp only [equivalentKeys, blockComparatorSize, Bool.and_eq_true, Bool.not_eq_true'] at same
    by_contra bytes
    have positive : 0 < (st.block x).size := Nat.pos_of_ne_zero bytes
    by_cases streams : (st.block x).stream = 0
    · simp [streams, bytes, Ne.symm bytes, positive] at same
    · have later : 0 < (st.block x).stream := Nat.pos_of_ne_zero streams
      simp [streams, Ne.symm streams, later] at same

/-- No block of a tiled heap begins at null. -/
theorem Sound.ptr_pos (sound : Sound True h st) {b : BlockId} (live : st.Live b) :
    0 < (st.block b).ptr := by
  obtain ⟨segs, shape, _⟩ := sound.heap
  obtain ⟨seg, member, inside⟩ := (shape.live b).mp live
  have within := tiles_within ((shape.formed seg member).tiled trivial) inside
  have proper := shape.proper seg.range (shape.ranges.mem_iff.mpr (List.mem_map_of_mem member))
  exact proper.1.trans_le within.1

/-- No block waits for less than nothing. -/
theorem Sound.eventCount_nonneg {exact : Prop} (sound : Sound exact h st) (b : BlockId) :
    0 ≤ (st.block b).eventCount :=
  (Int.natCast_nonneg _).trans (sound.waiting.counts b)

theorem mem_eraseFromBlocks_or {pool p : PoolRef} {b x : BlockId}
    (member : x ∈ (st.pools p).blocks) :
    x ∈ ((st.eraseFromBlocks pool b).pools p).blocks ∨
      equivalentKeys (st.block x) (st.block b) = true := by
  by_cases same : p = pool
  · subst same
    simp only [State.eraseFromBlocks, State.modifyPool, Function.update_self, List.mem_filter,
      member, true_and]
    cases equivalentKeys (st.block x) (st.block b) <;> simp
  · left
    simpa [State.eraseFromBlocks, State.modifyPool, Function.update_of_ne same] using member

/-- What the order of a pool set depends on. -/
def Block.key (b : Block) : StreamId × Nat × Nat := (b.stream, b.size, b.ptr)

theorem equivalentKeys_congr {a a' b b' : Block} (left : a.key = a'.key) (right : b.key = b'.key) :
    equivalentKeys a b = equivalentKeys a' b' := by
  simp only [Block.key, Prod.mk.injEq] at left right
  simp only [equivalentKeys, blockComparatorSize, left.1, left.2.1, left.2.2, right.1, right.2.1,
    right.2.2]

theorem modifyBlock_key {b x : BlockId} {f : Block → Block}
    (same : x = b → ∀ k, (f k).key = k.key) :
    ((st.modifyBlock b f).block x).key = (st.block x).key := by
  by_cases here : x = b
  · subst here
    cases found : st.blocks x with
    | none => simp [State.block, State.modifyBlock, found]
    | some k => simp [State.block, State.modifyBlock, found, same rfl]
  · simp [State.block, State.modifyBlock, here]

theorem setNext_key (b link : Option BlockId) (x : BlockId) :
    ((st.setNext b link).block x).key = (st.block x).key := by
  cases b with
  | none => rfl
  | some b => exact modifyBlock_key fun _ _ => rfl

theorem setPrev_key (b link : Option BlockId) (x : BlockId) :
    ((st.setPrev b link).block x).key = (st.block x).key := by
  cases b with
  | none => rfl
  | some b => exact modifyBlock_key fun _ _ => rfl

/-- A merge takes only the key of the swallowed block out of the pool. -/
theorem mem_mergeBlocks_of_mem {dst src : BlockId} {pool p : PoolRef} {x : BlockId}
    (member : x ∈ (st.pools p).blocks) (other : x ≠ dst) (apart : src ≠ dst) :
    x ∈ ((st.mergeBlocks dst src pool).pools p).blocks ∨
      equivalentKeys (st.block x) (st.block src) = true := by
  have erased : ∀ st₂ : State, (st₂.pools p).blocks = (st.pools p).blocks →
      (∀ y, y ≠ dst → (st₂.block y).key = (st.block y).key) →
      x ∈ (((st₂.eraseFromBlocks pool src).deleteBlock src).pools p).blocks ∨
        equivalentKeys (st.block x) (st.block src) = true := fun st₂ same keys => by
    have still : x ∈ (st₂.pools p).blocks := same ▸ member
    refine (mem_eraseFromBlocks_or still).imp_right fun key => ?_
    rwa [equivalentKeys_congr (keys x other) (keys src apart)] at key
  simp only [State.mergeBlocks]
  split
  · refine erased _ ?_ fun y differ => ?_
    · simp [State.modifyBlock, setNext_pools]
    · rw [modifyBlock_key (absurd · differ), setNext_key,
        modifyBlock_key (absurd · differ)]
  · refine erased _ ?_ fun y differ => ?_
    · simp [State.modifyBlock, setPrev_pools]
    · rw [modifyBlock_key (absurd · differ), setPrev_key,
        modifyBlock_key (absurd · differ)]

theorem mem_insertIntoBlocks_of_mem {pool p : PoolRef} {b x : BlockId}
    (member : x ∈ (st.pools p).blocks) : x ∈ ((st.insertIntoBlocks pool b).1.pools p).blocks := by
  simp only [State.insertIntoBlocks]
  split
  · exact member
  · by_cases same : p = pool
    · subst same
      simp only [State.modifyPool, Function.update_self, List.mem_orderedInsert]
      exact .inr member
    · simp only [State.modifyPool, Function.update_of_ne same]
      exact member

theorem mem_splitBlock_of_mem {params : AllocParams} {p : PoolRef} {b x : BlockId}
    (member : x ∈ (st.pools p).blocks) : x ∈ ((st.splitBlock params b).1.pools p).blocks := by
  simp only [State.splitBlock]
  apply mem_insertIntoBlocks_of_mem
  simpa [State.modifyBlock, setNext_pools, State.newBlock] using member

theorem mem_insertIntoBlocks_self {pool : PoolRef} {b : BlockId}
    (inserted : (st.insertIntoBlocks pool b).2 = true) :
    b ∈ ((st.insertIntoBlocks pool b).1.pools pool).blocks := by
  simp only [State.insertIntoBlocks] at inserted ⊢
  split at inserted
  · simp at inserted
  · rename_i fresh
    rw [if_neg fresh]
    simp [State.modifyPool]

/-- The insertion is refused only where the key is taken. -/
theorem insertIntoBlocks_refused {pool : PoolRef} {b : BlockId}
    (refused : (st.insertIntoBlocks pool b).2 = false) :
    ∃ x ∈ (st.pools pool).blocks,
      equivalentKeys ((st.insertIntoBlocks pool b).1.block x)
        ((st.insertIntoBlocks pool b).1.block b) = true := by
  simp only [State.insertIntoBlocks] at refused ⊢
  split at refused
  · rename_i taken
    rw [if_pos taken]
    exact List.any_eq_true.mp taken
  · simp at refused

theorem busy_live {b : BlockId} (busy : (st.block b).busy = true) : st.Live b := by
  by_contra dead
  simp [State.block, Option.not_isSome_iff_eq_none.mp dead, Block.busy] at busy

/-- A field that is kept where a block is written. -/
theorem written_field {α : Type} {g : Block → α} {b : BlockId} {f : Block → Block}
    (blocks : st'.blocks = written st.blocks b f) (keeps : ∀ k, g (f k) = g k) (c : BlockId) :
    g (st'.block c) = g (st.block c) := by
  by_cases here : c = b
  · subst here
    cases found : st.blocks c with
    | none => simp [State.block, blocks, written_dead found]
    | some k => simp [State.block, blocks, written, found, keeps]
  · simp only [State.block, blocks, written_of_ne here]

/-- A block is written if it has a link. -/
theorem relinked {link : Option BlockId} {b : BlockId} {f : Block → Block}
    (written : st'.blocks b = if link = some b then (st.blocks b).map f else st.blocks b)
    (live : link = some b → st.Live b) :
    st'.block b = if link = some b then f (st.block b) else st.block b := by
  simp only [State.block, written]
  split
  · rename_i linked
    obtain ⟨k, was⟩ := Option.isSome_iff_exists.mp (live linked)
    simp [was]
  · rfl

namespace Ordered

/-- A busy block that is not in the hand is active. -/
theorem active_of_busy {exact : Prop} (ordered : Ordered h st) (sound : Sound exact h st)
    (held : h.loose = none) {b : BlockId} (busy : (st.block b).busy = true) :
    b ∈ st.activeBlocks := by
  rcases ordered.listed b (busy_live busy) with loose | pooled | active | ⟨_, idle⟩
  · simp [held] at loose
  · exact absurd pooled (sound.pooled.unpooled busy _)
  · exact active
  · simp [idle] at busy

/-- Nothing has changed but the hand. -/
theorem regrip (ordered : Ordered h st) (loose : ∀ b, h.loose = some b → h'.loose = some b)
    (subject : ∀ b, h.subject = some b → h'.subject = some b ∨ (st.block b).busy = true)
    (hand : HandOrdered st h') : Ordered h' st where
  listed b live := (ordered.listed b live).imp_left (loose b)
  awaited b active := (ordered.awaited b active).elim (subject b) .inr
  apart b c link := by
    rcases ordered.apart b c link with here | there | busy
    · exact (subject b here).imp_right (fun busy => .inr (.inl busy))
    · exact (subject c there).elim (fun held => .inr (.inl held)) fun busy => .inr (.inr (.inr busy))
    · exact .inr (.inr busy)
  hand := hand

/-- Fields of one active block are written, and none that link it to others. -/
theorem write {b : BlockId} {f : Block → Block} (ordered : Ordered h st)
    (cells : ∀ k, (f k).cell = k.cell) (blocks : st'.blocks = written st.blocks b f)
    (pools : st'.pools = st.pools) (grows : st.activeBlocks ⊆ st'.activeBlocks)
    (active : b ∈ st'.activeBlocks) (added : ∀ c ∈ st'.activeBlocks, c ≠ b → c ∈ st.activeBlocks)
    (loose : ∀ c, h.loose = some c → c = b) (subject : ∀ c, h.subject = some c → c = b)
    (after : h'.subject = some b ∨ (st'.block b).busy = true) (hand : HandOrdered st' h') :
    Ordered h' st' := by
  have other : ∀ c, c ≠ b → st'.block c = st.block c := fun c differ => by
    simp only [State.block, blocks, written_of_ne differ]
  have cell : ∀ c, (st'.block c).cell = (st.block c).cell := written_field blocks cells
  have live : ∀ c, st'.Live c ↔ st.Live c := fun c => by
    simp only [State.Live, blocks, written_isSome]
  refine ⟨fun c alive => ?_, fun c member => ?_, fun c d link => ?_, hand⟩
  · by_cases here : c = b
    · exact .inr (.inr (.inl (here ▸ active)))
    · rcases ordered.listed c ((live c).mp alive) with held | pooled | old | lost
      · exact absurd (loose c held) here
      · exact .inr (.inl (by rw [other c here, pools]; exact pooled))
      · exact .inr (.inr (.inl (grows old)))
      · exact .inr (.inr (.inr (by rw [other c here]; exact lost)))
  · by_cases here : c = b
    · exact here ▸ after
    · rcases ordered.awaited c (added c member here) with held | busy
      · exact absurd (subject c held) here
      · exact .inr (by rw [other c here]; exact busy)
  · rw [(sameCell (cell c)).next] at link
    by_cases hereC : c = b
    · exact (hereC ▸ after).imp_right (fun busy => .inr (.inl busy))
    by_cases hereD : d = b
    · exact (hereD ▸ after).elim (fun held => .inr (.inl held)) fun busy => .inr (.inr (.inr busy))
    rw [other c hereC, other d hereD]
    rcases ordered.apart c d link with held | held | busy
    · exact absurd (subject c held) hereC
    · exact absurd (subject d held) hereD
    · exact .inr (.inr busy)

/-! ### Allocation -/

theorem take {params : AllocParams} {found : BlockId} (ordered : Ordered .empty st)
    (sound : Sound True .empty st) (clear : params.err = none)
    (pooled : found ∈ (st.pools params.pool).blocks) :
    Ordered (.taken { params with block := some found } found)
      (st.modifyPool params.pool fun p => { p with blocks := p.blocks.filter (· ≠ found) }) where
  listed b live := by
    by_cases here : b = found
    · exact .inl (by rw [here]; rfl)
    rcases ordered.listed b live with held | member | rest
    · cases held
    · refine .inr (.inl ?_)
      change b ∈ (Function.update st.pools params.pool _ (st.block b).pool).blocks
      by_cases same : (st.block b).pool = params.pool
      · rw [same] at member ⊢
        simpa [here] using member
      · rw [Function.update_of_ne same]
        exact member
    · exact .inr (.inr rest)
  awaited := ordered.awaited
  apart := ordered.apart
  hand := ⟨clear, (sound.ptr_pos (sound.pooled.block pooled).1).ne'⟩

/-- Where a key is erased from a pool, only that block and blocks without bytes leave it. -/
theorem erase (ordered : Ordered .empty st) (sound : Sound True .empty st) {pool : PoolRef}
    {b c : BlockId} (differ : c ≠ b) (live : st.Live c) :
    c ∈ ((st.eraseFromBlocks pool b).pools (st.block c).pool).blocks ∨ c ∈ st.activeBlocks ∨
      ((st.block c).size = 0 ∧ (st.block c).busy = false) := by
  rcases ordered.listed c live with held | member | rest
  · cases held
  · rcases mem_eraseFromBlocks_or member with left | key
    · exact .inl left
    · exact .inr (.inr ⟨sound.size_of_erased member differ key, (sound.pooled.block member).2.2⟩)
  · exact .inr rest

theorem pick {params : AllocParams} {curr : BlockId} (ordered : Ordered .empty st)
    (sound : Sound True .empty st) (clear : params.err = none) (live : st.Live curr) :
    Ordered (.taken params curr) (st.eraseFromBlocks params.pool curr) where
  listed b alive := by
    by_cases here : b = curr
    · exact .inl (by rw [here]; rfl)
    · exact .inr (ordered.erase sound here alive)
  awaited := ordered.awaited
  apart := ordered.apart
  hand := ⟨clear, (sound.ptr_pos live).ne'⟩

theorem unpool (ordered : Ordered .empty st) (sound : Sound True .empty st) (pool : PoolRef)
    {curr : BlockId} (dead : ¬ st.Live curr) : Ordered .empty (st.eraseFromBlocks pool curr) where
  listed _ alive := .inr (ordered.erase sound (fun same => dead (same ▸ alive)) alive)
  awaited := ordered.awaited
  apart := ordered.apart
  hand := trivial

theorem obtain {params : AllocParams} {ptr : Nat} (ordered : Ordered .empty st)
    (sound : Sound True .empty st) (fresh : Fresh st.allocations ptr params.allocSize) :
    Ordered (.taken { params with block := some st.nextBlock, err := none } st.nextBlock)
      (st.newSegment cfg params ptr) := by
  have blocks := newSegment_blocks st cfg params ptr
  have here : (st.newSegment cfg params ptr).block st.nextBlock =
      { device := params.device, stream := params.stream, size := params.allocSize,
        pool := params.pool, ptr := ptr } := by
    simp [State.block, blocks]
  have other : ∀ b, b ≠ st.nextBlock → (st.newSegment cfg params ptr).block b = st.block b :=
    fun b old => by simp [State.block, blocks, old]
  obtain ⟨segs, shape, _⟩ := sound.heap
  refine ⟨fun b live => ?_, fun b active => ?_, fun b c link => ?_, rfl, ?_⟩
  · by_cases new : b = st.nextBlock
    · exact .inl (by rw [new]; rfl)
    · rw [other b new, newSegment_pools, newSegment_activeBlocks]
      have was : st.Live b := by simpa [State.Live, blocks, new] using live
      rcases ordered.listed b was with held | rest
      · cases held
      · exact .inr rest
  · rw [newSegment_activeBlocks] at active
    rw [other b (sound.listed.bound b active).ne]
    rcases ordered.awaited b active with held | busy
    · cases held
    · exact .inr busy
  · by_cases new : b = st.nextBlock
    · rw [new, here] at link
      cases link
    · rw [other b new] at link ⊢
      have old : c ≠ st.nextBlock := (shape.bound c (shape.next_neighbour (live_of_next link) link).1).ne
      rw [other c old]
      rcases ordered.apart b c link with held | held | busy
      · cases held
      · cases held
      · exact .inr (.inr busy)
  · rw [here]
    exact fresh.1.ne'

/-- The rest of a block that has been cut goes to its pool. -/
theorem carve {params : AllocParams} {found : BlockId} (ordered : Ordered (.taken params found) st)
    (sound : Sound True (.taken params found) st)
    (cut : shouldSplit cfg (st.block found) params.size = true) :
    Ordered (.ready params st.nextBlock) (st.carved params found) := by
  obtain ⟨⟨live, idle, pool, unpooled, inactive⟩, word, sized⟩ := sound.hand
  have sound' : Sound True (.ready params st.nextBlock) (st.carved params found) := sound.carve
  obtain ⟨segs, shape, _⟩ := sound.heap
  have blocks : (st.carved params found).blocks = (st.splitBlock params found).1.blocks :=
    Spared.carved_blocks st params found
  have after := shape.splitBlock_blocks params live
  have foundOld := (shape.bound found live).ne
  have pools : (st.carved params found).pools = (st.splitBlock params found).1.pools := by
    simp only [State.carved]
    split <;> rfl
  have active : (st.carved params found).activeBlocks = st.activeBlocks := by
    simp only [State.carved, State.splitBlock, State.insertIntoBlocks]
    split <;> split <;> cases (st.block found).prev <;> rfl
  have use : ∀ b, b ≠ st.nextBlock → ((st.carved params found).Live b ↔ st.Live b) ∧
      SameUse ((st.carved params found).block b) (st.block b) := fun b old => by
    obtain ⟨alive, same⟩ := use_of_map (splitBlock_use st params found old)
    rw [← blocks] at alive same
    exact ⟨by simp only [State.Live, alive], same⟩
  have rest : (st.carved params found).block found = { st.block found with
      prev := some st.nextBlock
      ptr := sizeAdd (st.block found).ptr params.size
      size := sizeSub (st.block found).size params.size
      gcCountBase := (st.pools params.pool).getFreeBlocksCallCount } := by
    simp [State.block, blocks, after]
  have bytes : 0 < ((st.carved params found).block found).size := by
    rw [rest]
    exact shouldSplit_rest cut
  have inserted : found ∈ ((st.carved params found).pools params.pool).blocks := by
    rw [pools]
    by_contra out
    have refused := (Bool.eq_false_iff.mpr fun inserted => out (mem_insertIntoBlocks_self inserted))
    obtain ⟨x, member, key⟩ := insertIntoBlocks_refused refused
    have member' : x ∈ ((st.carved params found).pools params.pool).blocks := by
      rw [pools]
      exact mem_insertIntoBlocks_of_mem member
    have differ : x ≠ found := by
      rintro rfl
      exact out (mem_insertIntoBlocks_of_mem member)
    have key' : equivalentKeys ((st.carved params found).block x)
        ((st.carved params found).block found) = true := by
      simp only [State.block, blocks]
      exact key
    have liveFound : (st.carved params found).Live found := ((use found foundOld).1).mpr live
    exact bytes.ne' (sound'.size_of_key (sound'.pooled.block member').1 liveFound differ key').2
  have kept : ∀ b, b ≠ found → b ≠ st.nextBlock →
      ((st.carved params found).block b).size = (st.block b).size ∧
        (((st.carved params found).block b).next = some st.nextBlock ∨
          (st.block found).prev ≠ some b ∧
            ((st.carved params found).block b).next = (st.block b).next) := fun b old new => by
    have written : (st.carved params found).block b = if (st.block found).prev = some b
        then { st.block b with next := some st.nextBlock } else st.block b :=
      relinked (f := fun k => { k with next := some st.nextBlock })
        (by rw [blocks, after, if_neg old, if_neg new])
        fun link => (shape.prev_neighbour live link).1
    rw [written]
    split
    · exact ⟨rfl, .inl rfl⟩
    · exact ⟨rfl, .inr ⟨‹_›, rfl⟩⟩
  refine ⟨fun b alive => ?_, fun b member => ?_, fun b c link => ?_, trivial⟩
  · by_cases new : b = st.nextBlock
    · exact .inl (by rw [new]; rfl)
    by_cases here : b = found
    · rw [here, (use found foundOld).2.pool.trans pool]
      exact .inr (.inl inserted)
    obtain ⟨lives, same⟩ := use b new
    rw [same.pool, (kept b here new).1, same.busy, active, pools]
    rcases ordered.listed b (lives.mp alive) with held | member | listed | lost
    · exact absurd (Option.some.inj held).symm here
    · exact .inr (.inl (mem_splitBlock_of_mem member))
    · exact .inr (.inr (.inl listed))
    · exact .inr (.inr (.inr lost))
  · rw [active] at member
    rw [(use b (sound.listed.bound b member).ne).2.busy]
    rcases ordered.awaited b member with held | busy
    · cases held
    · exact .inr busy
  · by_cases newB : b = st.nextBlock
    · exact .inl (by rw [newB]; rfl)
    by_cases newC : c = st.nextBlock
    · exact .inr (.inl (by rw [newC]; rfl))
    rw [(use b newB).2.busy, (use c newC).2.busy]
    have old : (st.block b).next = some c → _ := ordered.apart b c
    by_cases hereB : b = found
    · subst hereB
      rw [rest] at link
      rcases old link with held | held | busy
      · cases held
      · cases held
      · exact .inr (.inr busy)
    · rcases (kept b hereB newB).2 with new | ⟨_, same⟩
      · exact absurd (Option.some.inj (link.symm.trans new)) newC
      · rcases old (same ▸ link) with held | held | busy
        · cases held
        · cases held
        · exact .inr (.inr busy)

theorem keep {params : AllocParams} {found : BlockId}
    (ordered : Ordered (.taken params found) st) :
    Ordered (.ready params found) (st.kept params found) := by
  have ready : Ordered (.ready params found) st := ordered.regrip (fun _ => id)
    (fun _ held => by cases held) trivial
  simp only [State.kept]
  split <;> exact ⟨ready.listed, ready.awaited, ready.apart, trivial⟩

theorem handOut {params : AllocParams} {block : BlockId} {origSize : Nat}
    (ordered : Ordered (.ready params block) st) (sound : Sound True (.ready params block) st) :
    Ordered .empty (st.handedOut cfg params origSize block) := by
  have live : st.Live block := sound.hand.1.live
  have active : ∀ b, b ∈ (st.handedOut cfg params origSize block).activeBlocks ↔
      b = block ∨ b ∈ st.activeBlocks := fun b => by
    simp only [State.handedOut, State.insertActive, State.modifyStats]
    split
    · rename_i old
      exact ⟨.inr, fun either => either.elim (fun same => same ▸ old) id⟩
    · simp [State.modifyBlock]
  refine ordered.write (b := block) (f := fun b => { b with allocated := true, requestedSize := origSize })
    (fun _ => rfl) rfl rfl (fun b old => (active b).mpr (.inr old)) ((active block).mpr (.inl rfl))
    (fun b member differ => ((active b).mp member).resolve_left differ)
    (fun b held => (Option.some.inj held).symm) (fun b held => (Option.some.inj held).symm)
    (.inr ?_) trivial
  obtain ⟨k, found⟩ := Option.isSome_iff_exists.mp live
  simp [State.handedOut, State.insertActive, State.modifyStats, State.modifyBlock, State.block,
    Block.busy, found]

/-! ### Freeing -/

theorem giveUp {block : BlockId} (ordered : Ordered .empty st) (sound : Sound True .empty st)
    (allocated : (st.block block).allocated = true) :
    Ordered (.givenUp block) (st.givenUp cfg block) := by
  have busy : (st.block block).busy = true := by simp [Block.busy, allocated]
  have active := ordered.active_of_busy sound rfl busy
  exact ordered.write (b := block) (f := fun b => { b with allocated := false }) (fun _ => rfl) rfl
    rfl (fun _ => id) active (fun _ member _ => member) (fun _ held => by cases held)
    (fun _ held => by cases held) (.inl rfl) active

theorem record {block : BlockId} (ordered : Ordered h st) (active : block ∈ st.activeBlocks)
    (loose : h.loose = none) (subject : ∀ b, h.subject = some b → b = block)
    (used : (st.block block).streamUses ≠ []) :
    Ordered (.recording block (st.block block).streamUses) (st.usesTaken block) :=
  ordered.write (b := block) (f := fun b => { b with streamUses := [] }) (fun _ => rfl) rfl rfl
    (fun _ => id) active (fun _ member _ => member) (fun _ held => by simp [loose] at held) subject
    (.inl rfl) ⟨active, fun none_ => absurd none_ used⟩

theorem push {block : BlockId} {stream : GCUStream} {streams : List GCUStream}
    (ordered : Ordered (.recording block (stream :: streams)) st)
    (sound : Sound True (.recording block (stream :: streams)) st) :
    Ordered (.recording block streams) (st.pushEvent stream block) := by
  obtain ⟨active, _⟩ := ordered.hand
  obtain ⟨k, found⟩ := Option.isSome_iff_exists.mp sound.hand.1
  have count := sound.eventCount_nonneg block
  refine ordered.write (b := block) (f := fun b => { b with eventCount := b.eventCount + 1 })
    (fun _ => rfl) rfl rfl (fun _ => id) active (fun _ member _ => member)
    (fun _ held => by cases held) (fun b held => (Option.some.inj held).symm) (.inl rfl)
    ⟨active, fun _ => ?_⟩
  simp only [State.block, found, Option.getD_some] at count
  simp only [State.pushEvent, State.log, State.modifyBlock, State.block, found, Option.map_some,
    Function.update_self, Option.getD_some]
  omega

theorem recorded {block : BlockId} (ordered : Ordered (.recording block []) st) :
    Ordered .empty st := by
  have waits := ordered.hand.2 rfl
  refine ordered.regrip (fun _ held => by cases held) (fun b held => .inr ?_) trivial
  rw [← Option.some.inj held]
  simp [Block.busy, waits]

/-- A block that cannot be cached yet is active. -/
theorem dropFreeing {block : BlockId} (ordered : Ordered (.freeing block) st)
    (sound : Sound True (.freeing block) st) (active : (st.block block).quiescent = false) :
    Ordered .empty st := by
  refine ordered.regrip (fun _ held => by cases held) (fun b held => .inr ?_) trivial
  rw [← Option.some.inj held]
  have count := sound.eventCount_nonneg block
  by_contra idle
  simp only [Block.busy, Bool.or_eq_true, decide_eq_true_eq, not_or, Bool.not_eq_true,
    Bool.not_eq_false'] at idle
  have none_ : (st.block block).eventCount = 0 := by omega
  simp [Block.quiescent, idle.1.1, none_, idle.2] at active

/-- A neighbour is swallowed: nothing changes for the other blocks, but for one link. -/
theorem swallow {block src : BlockId} {pool : PoolRef} (ordered : Ordered h st)
    (sound : Sound True h st) (loose : h.loose = none) (subject : h.subject = some block)
    (subject' : h'.subject = some block) (active : block ∈ st.activeBlocks) (apart : src ≠ block)
    (liveSrc : st.Live src) (idle : (st.block src).busy = false)
    (sizes : ∀ b, b ≠ src → b ≠ block →
      ((st.mergeBlocks block src pool).block b).size = (st.block b).size)
    (links : ∀ b c, b ≠ src → b ≠ block → c ≠ block →
      ((st.mergeBlocks block src pool).block b).next = some c →
        (st.block b).next = some c ∧ c ≠ src)
    (hand : HandOrdered (st.mergeBlocks block src pool) h') :
    Ordered h' (st.mergeBlocks block src pool) := by
  have actives : (st.mergeBlocks block src pool).activeBlocks = st.activeBlocks :=
    Sound.mergeBlocks_activeBlocks block src pool
  have gone := mergeBlocks_gone st block src pool
  have use : ∀ b, b ≠ src → _ := fun b other => use_of_map (mergeBlocks_use st block src pool other)
  have dead : ¬ (st.mergeBlocks block src pool).Live src := by simp [State.Live, gone]
  refine ⟨fun b live => ?_, fun b member => ?_, fun b c link => ?_, hand⟩
  · have other : b ≠ src := fun same => dead (same ▸ live)
    obtain ⟨alive, same⟩ := use b other
    rw [actives]
    by_cases here : b = block
    · exact .inr (.inr (.inl (here ▸ active)))
    rcases ordered.listed b (alive.symm.trans live) with held | member | listed | lost
    · simp [loose] at held
    · have pooled := sound.pooled.block member
      rcases mem_mergeBlocks_of_mem member here apart with left | key
      · exact .inr (.inl ((show (State.block _ b).pool = _ from same.pool) ▸ left))
      · have bytes := (sound.size_of_key pooled.1 liveSrc other key).1
        exact .inr (.inr (.inr ⟨(sizes b other here).trans bytes, same.busy.trans pooled.2.2⟩))
    · exact .inr (.inr (.inl listed))
    · exact .inr (.inr (.inr ⟨(sizes b other here).trans lost.1, same.busy.trans lost.2⟩))
  · rw [actives] at member
    have other : b ≠ src := by
      rintro rfl
      rcases ordered.awaited b member with held | busy
      · exact apart (Option.some.inj (held.symm.trans subject))
      · simp [idle] at busy
    rcases ordered.awaited b member with held | busy
    · exact .inl (subject'.trans (subject.symm.trans held))
    · exact .inr ((use b other).2.busy.trans busy)
  · by_cases hereB : b = block
    · exact .inl (hereB ▸ subject')
    by_cases hereC : c = block
    · exact .inr (.inl (hereC ▸ subject'))
    have otherB : b ≠ src := by
      rintro rfl
      exact dead (live_of_next link)
    obtain ⟨was, otherC⟩ := links b c otherB hereB hereC link
    rcases ordered.apart b c was with held | held | busy | busy
    · exact absurd (Option.some.inj (held.symm.trans subject)) hereB
    · exact absurd (Option.some.inj (held.symm.trans subject)) hereC
    · exact .inr (.inr (.inl ((use b otherB).2.busy.trans busy)))
    · exact .inr (.inr (.inr ((use c otherC).2.busy.trans busy)))

theorem mergeLeft {block src : BlockId} {origin : Block} {right : Side}
    (ordered : Ordered (.merging block origin (.pending (some src)) right) st)
    (sound : Sound True (.merging block origin (.pending (some src)) right) st)
    (idle : (st.block src).busy = false) :
    Ordered (.merging block origin (.merged (st.block src).size) right)
      (st.mergeBlocks block src origin.pool) := by
  obtain ⟨live, _, _, left, _⟩ := sound.hand
  obtain ⟨active, _, settled⟩ := ordered.hand
  obtain ⟨segs, shape, _⟩ := sound.heap
  have before : (st.block block).prev = some src := left _ rfl
  have neighbour := shape.prev_neighbour live before
  have spelled := shape.mergeLeft_blocks origin.pool live before
  have here : (st.mergeBlocks block src origin.pool).block block = { st.block block with
      ptr := (st.block src).ptr
      prev := (st.block src).prev
      size := sizeAdd (st.block block).size (st.block src).size } := by
    simp [State.block, spelled, neighbour.2.1.symm]
  have others : ∀ b, b ≠ src → b ≠ block →
      (st.mergeBlocks block src origin.pool).block b =
        if (st.block src).prev = some b then { st.block b with next := some block }
        else st.block b := fun b other differ =>
    relinked (f := fun k => { k with next := some block }) (by rw [spelled, if_neg other, if_neg differ])
      fun link => (shape.prev_neighbour neighbour.1 link).1
  have busy : ∀ c, c ≠ src → ((st.mergeBlocks block src origin.pool).block c).busy =
      (st.block c).busy := fun c other =>
    (use_of_map (mergeBlocks_use st block src origin.pool other)).2.busy
  refine ordered.swallow sound rfl rfl rfl active neighbour.2.1 neighbour.1 idle
    (fun b other differ => ?_) (fun b c other differ differ' link => ?_) ⟨?_, ?_, ?_⟩
  · rw [others b other differ]
    split <;> rfl
  · rw [others b other differ] at link
    split at link
    · exact absurd (Option.some.inj link).symm differ'
    · rename_i away
      refine ⟨link, ?_⟩
      rintro rfl
      exact away (shape.next_neighbour (live_of_next link) link).2.2.1
  · rw [Sound.mergeBlocks_activeBlocks]
    exact active
  · intro size _ c link
    rw [here] at link
    have previous := shape.prev_neighbour neighbour.1 link
    rw [busy c previous.2.1]
    rcases ordered.apart c src previous.2.2.1 with held | held | busy | busy
    · exact absurd (Option.some.inj held ▸ link) (shape.prev_prev live before)
    · exact absurd (Option.some.inj held).symm neighbour.2.1
    · exact busy
    · simp [idle] at busy
  · intro size merged c link
    rw [here] at link
    have other : c ≠ src := by
      rintro rfl
      exact shape.prev_ne_next live link before
    rw [busy c other]
    exact settled size merged c link

theorem mergeRight {block src : BlockId} {origin : Block} {left : Nat}
    (ordered : Ordered (.merging block origin (.merged left) (.pending (some src))) st)
    (sound : Sound True (.merging block origin (.merged left) (.pending (some src))) st)
    (idle : (st.block src).busy = false) :
    Ordered (.merging block origin (.merged left) (.merged (st.block src).size))
      (st.mergeBlocks block src origin.pool) := by
  obtain ⟨live, _, _, _, right⟩ := sound.hand
  obtain ⟨active, settled, _⟩ := ordered.hand
  obtain ⟨segs, shape, _⟩ := sound.heap
  have after : (st.block block).next = some src := right _ rfl
  have neighbour := shape.next_neighbour live after
  have spelled := shape.mergeRight_blocks origin.pool live after
  have here : (st.mergeBlocks block src origin.pool).block block = { st.block block with
      next := (st.block src).next
      size := sizeAdd (st.block block).size (st.block src).size } := by
    simp [State.block, spelled, neighbour.2.1.symm]
  have others : ∀ b, b ≠ src → b ≠ block →
      (st.mergeBlocks block src origin.pool).block b =
        if (st.block src).next = some b then { st.block b with prev := some block }
        else st.block b := fun b other differ =>
    relinked (f := fun k => { k with prev := some block }) (by rw [spelled, if_neg other, if_neg differ])
      fun link => (shape.next_neighbour neighbour.1 link).1
  have busy : ∀ c, c ≠ src → ((st.mergeBlocks block src origin.pool).block c).busy =
      (st.block c).busy := fun c other =>
    (use_of_map (mergeBlocks_use st block src origin.pool other)).2.busy
  refine ordered.swallow sound rfl rfl rfl active neighbour.2.1 neighbour.1 idle
    (fun b other differ => ?_) (fun b c other differ differ' link => ?_) ⟨?_, ?_, ?_⟩
  · rw [others b other differ]
    split <;> rfl
  · have link' : (st.block b).next = some c := by
      rw [others b other differ] at link
      split at link <;> exact link
    refine ⟨link', ?_⟩
    rintro rfl
    have previous := (shape.next_neighbour (live_of_next link') link').2.2.1
    exact differ (Option.some.inj (previous.symm.trans neighbour.2.2.1))
  · rw [Sound.mergeBlocks_activeBlocks]
    exact active
  · intro size merged c link
    rw [here] at link
    have other : c ≠ src := by
      rintro rfl
      exact shape.prev_ne_next live after link
    rw [busy c other]
    exact settled size merged c link
  · intro size _ c link
    rw [here] at link
    have next := shape.next_neighbour neighbour.1 link
    rw [busy c next.2.1]
    rcases ordered.apart src c link with held | held | busy | busy
    · exact absurd (Option.some.inj held).symm neighbour.2.1
    · exact absurd (Option.some.inj held ▸ link) (shape.next_next live after)
    · simp [idle] at busy
    · exact busy

/-- Between busy neighbours the block goes to its pool, unless it has no bytes. -/
theorem insert {block : BlockId} {origin : Block} {left right : Nat}
    (ordered : Ordered (.merging block origin (.merged left) (.merged right)) st)
    (sound : Sound True (.merging block origin (.merged left) (.merged right)) st) :
    Ordered .empty ((st.eraseActive block).insertIntoBlocks origin.pool block).1 := by
  obtain ⟨live, quiet, pool, _, _⟩ := sound.hand
  obtain ⟨_, before, after⟩ := ordered.hand
  have sound' := sound.insert
  have idle : (st.block block).busy = false := by
    simp only [Block.quiescent, Bool.and_eq_true, Bool.not_eq_true', beq_iff_eq] at quiet
    simp only [Block.busy, State.block, blockOf] at quiet ⊢
    simp [quiet.1.1, quiet.1.2, quiet.2]
  have active : ((st.eraseActive block).insertIntoBlocks origin.pool block).1.activeBlocks =
      st.activeBlocks.filter (· ≠ block) := by
    simp only [State.insertIntoBlocks]
    split <;> rfl
  let st₁ := ((st.eraseActive block).insertIntoBlocks origin.pool block).1
  have use : ∀ b, _ := fun b =>
    use_of_map (insertIntoBlocks_use (st.eraseActive block) origin.pool block (b := b))
  have cell : ∀ b, (st₁.block b).cell = (st.block b).cell := fun b => by
    simp only [st₁, State.block, insertIntoBlocks_blocks, State.modifyBlock]
    by_cases here : b = block
    · subst here
      cases found : (st.eraseActive b).blocks b with
      | none =>
        have found' : st.blocks b = none := found
        simp [found']
      | some k =>
        have found' : st.blocks b = some k := found
        simp [found', Block.cell]
    · simp [here, State.eraseActive]
  have busy : ∀ b, (st₁.block b).busy = (st.block b).busy := fun b => (use b).2.busy
  have present : ∀ b, st₁.Live b ↔ st.Live b := fun b => by
    simp only [State.Live]
    rw [(use b).1]
    rfl
  refine ⟨fun b alive => ?_, fun b member => ?_, fun b c link => ?_, trivial⟩
  · rw [(sameCell (cell b)).pool, (sameCell (cell b)).size, busy b, active]
    by_cases here : b = block
    · subst here
      cases inserted : ((st.eraseActive b).insertIntoBlocks origin.pool b).2 with
      | true =>
        refine .inr (.inl ?_)
        rw [show (st.block b).pool = origin.pool from pool]
        exact mem_insertIntoBlocks_self inserted
      | false =>
        obtain ⟨x, member, key⟩ := insertIntoBlocks_refused inserted
        have differ : x ≠ b := by
          rintro rfl
          exact sound.listed.apart _ x member ordered.hand.1
        have member' := @mem_insertIntoBlocks_of_mem (st.eraseActive b) origin.pool _ b x member
        have bytes := (sound'.size_of_key (sound'.pooled.block member').1 alive differ key).2
        exact .inr (.inr (.inr ⟨(sameCell (cell b)).size ▸ bytes, idle⟩))
    · rcases ordered.listed b ((present b).mp alive) with held | member | listed | lost
      · cases held
      · exact .inr (.inl (mem_insertIntoBlocks_of_mem member))
      · exact .inr (.inr (.inl (List.mem_filter.mpr ⟨listed, by simpa using here⟩)))
      · exact .inr (.inr (.inr lost))
  · rw [active] at member
    obtain ⟨member, differ⟩ := List.mem_filter.mp member
    rw [busy b]
    rcases ordered.awaited b member with held | busy
    · simp [← Option.some.inj held] at differ
    · exact .inr busy
  · rw [(sameCell (cell b)).next] at link
    rw [busy b, busy c]
    rcases ordered.apart b c link with held | held | busy
    · obtain rfl : block = b := Option.some.inj held
      exact .inr (.inr (.inr (after right rfl c link)))
    · obtain rfl : block = c := Option.some.inj held
      obtain ⟨segs, shape, _⟩ := sound.heap
      have link' := (shape.next_neighbour (live_of_next link) link).2.2.1
      exact .inr (.inr (.inl (before left rfl b link')))
    · exact .inr (.inr busy)

/-! ### Events and releases -/

theorem complete {e : PendingEvent} {event : EventId} (ordered : Ordered .empty st)
    (sound : Sound True .empty st) (queued : e ∈ st.gcuEvents) (pending : e.event = some event) :
    Ordered (.freeing e.block) (st.eventCompleted e event) := by
  have awaits := (sound.waiting.live queued pending).2
  have busy : (st.block e.block).busy = true := by
    have waits : 0 < (st.block e.block).eventCount := awaits
    simp [Block.busy, waits]
  have active := ordered.active_of_busy sound rfl busy
  exact ordered.write (b := e.block) (f := fun b => { b with eventCount := b.eventCount - 1 })
    (fun _ => rfl) rfl rfl (fun _ => id) active (fun _ member _ => member)
    (fun _ held => by cases held) (fun _ held => by cases held) (.inl rfl) active

/-- A block that is used on another stream is allocated. -/
theorem use {block : BlockId} {f : Block → Block} (ordered : Ordered .empty st)
    (sound : Sound True .empty st) (allocated : (st.block block).allocated = true)
    (cells : ∀ k, (f k).cell = k.cell) (keeps : ∀ k, (f k).allocated = k.allocated) :
    Ordered .empty (st.modifyBlock block f) := by
  have busy : (st.block block).busy = true := by simp [Block.busy, allocated]
  have active := ordered.active_of_busy sound rfl busy
  refine ordered.write cells rfl rfl (fun _ => id) active (fun _ member _ => member)
    (fun _ held => by cases held) (fun _ held => by cases held) (.inr ?_) trivial
  obtain ⟨k, found⟩ := Option.isSome_iff_exists.mp (busy_live busy)
  have given : k.allocated = true := by simpa [State.block, found] using allocated
  simp [State.block, State.modifyBlock, found, Block.busy, keeps, given]

theorem release {block : BlockId} {pool : PoolRef} (ordered : Ordered .empty st)
    (sound : Sound True .empty st) (pooled : block ∈ (st.pools pool).blocks)
    (unsplit : (st.block block).isSplit = false) : Ordered .empty (st.released cfg block) := by
  obtain ⟨segs, shape, _⟩ := sound.heap
  have inactive : block ∉ st.activeBlocks := sound.listed.apart pool block pooled
  have ends : (st.block block).prev = none ∧ (st.block block).next = none := by
    simpa [Block.isSplit] using unsplit
  have other : ∀ b, b ≠ block → (st.released cfg block).block b = st.block b := fun b differ => by
    simp [State.block, released_blocks, differ]
  have gone : (st.released cfg block).block block = {} := by
    simp [State.block, released_blocks]
  refine ⟨fun b alive => ?_, fun b member => ?_, fun b c link => ?_, trivial⟩
  · have differ : b ≠ block := by
      rintro rfl
      simp [State.Live, released_blocks] at alive
    have live : st.Live b := by simpa [State.Live, released_blocks, differ] using alive
    rw [other b differ, released_pools, released_activeBlocks]
    exact .inr (ordered.erase sound differ live)
  · rw [released_activeBlocks] at member
    have differ : b ≠ block := by
      rintro rfl
      exact inactive member
    rw [other b differ]
    exact ordered.awaited b member
  · have differ : b ≠ block := by
      rintro rfl
      rw [gone] at link
      cases link
    rw [other b differ] at link ⊢
    have differ' : c ≠ block := by
      rintro rfl
      have back := (shape.next_neighbour (live_of_next link) link).2.2.1
      exact absurd (ends.1.symm.trans back) (by simp)
    rw [other c differ']
    exact ordered.apart b c link

end Ordered

/-- Without restores, and while the events that a block awaits can be recorded. -/
def orderedMode : Mode where
  exact := True
  whole := True
  steady := True
  cut := fun _ _ => False

theorem Sound.closed_ordered : Closed orderedMode cfg rt (Sound True) :=
  @Sound.closed orderedMode cfg rt trivial

theorem Ordered.closed :
    Closed orderedMode cfg rt fun h st => Sound True h st ∧ Ordered h st := by
  intro h st h' st' holds act
  have sound' : Sound True h' st' := Sound.closed_ordered holds.1 act
  refine ⟨sound', ?_⟩
  obtain ⟨sound, ordered⟩ := holds
  have same : ∀ {st' : State}, st'.blocks = st.blocks →
      (∀ pool, (st'.pools pool).blocks = (st.pools pool).blocks) →
      st'.activeBlocks = st.activeBlocks → h = .empty → Ordered .empty st' := by
    intro st' blocks pools active held
    subst held
    have block : ∀ b, st'.block b = st.block b := fun b => by simp only [State.block, blocks]
    refine ⟨fun b live => ?_, fun b member => ?_, fun b c link => ?_, trivial⟩
    · rw [block b, pools, active]
      exact ordered.listed b (by simpa only [State.Live, blocks] using live)
    · rw [block b]
      exact ordered.awaited b (active ▸ member)
    · rw [block b] at link ⊢
      rw [block c]
      exact ordered.apart b c link
  cases act with
  | searched _ pool =>
    refine same rfl (fun p => ?_) rfl rfl
    by_cases here : p = pool
    · subst here
      simp [State.modifyPool]
    · simp [State.modifyPool, here]
  | take _ params found request clear pooled stream fits open_ oversize =>
    exact ordered.take sound clear pooled
  | obtain _ params ptr request fresh owned spends => exact ordered.obtain sound fresh
  | pick _ params curr chosen clear live idle inactive pool open_ word exact =>
    exact ordered.pick sound clear live
  | unpool _ pool curr dead => exact ordered.unpool sound pool dead
  | carve _ params found cut => exact ordered.carve sound (cut.resolve_right id)
  | keep _ params found => exact ordered.keep
  | handOut _ params origSize block => exact ordered.handOut sound
  | dropTaken _ params found null =>
    exact absurd null (by simp [ordered.hand.1, ordered.hand.2])
  | giveUp _ block live exact => exact ordered.giveUp sound (exact trivial)
  | free _ block unused => exact ordered.regrip (fun _ => id) (fun _ => .inl) ordered.hand
  | defer _ block used =>
    have dropped : Ordered .empty st := ordered.regrip (fun _ held => by cases held)
      (fun b held => .inr (Option.some.inj held ▸ Sound.used_busy used)) trivial
    exact ⟨dropped.listed, dropped.awaited, dropped.apart, trivial⟩
  | dropGivenUp _ block used =>
    exact ordered.regrip (fun _ held => by cases held)
      (fun b held => .inr (Option.some.inj held ▸ Sound.used_busy used)) trivial
  | record _ block used =>
    exact ordered.record ordered.hand rfl (fun _ held => (Option.some.inj held).symm) used
  | recordDeferred _ block waiting used =>
    exact ordered.record (ordered.active_of_busy sound rfl (Sound.used_busy used)) rfl
      (fun _ held => by cases held) used
  | push _ block stream streams => exact ordered.push sound
  | recorded _ block => exact ordered.recorded
  | dropRecording _ block streams failed => exact absurd trivial failed
  | startMerging _ block idle =>
    exact ordered.regrip (fun _ => id) (fun _ => .inl)
      ⟨ordered.hand, Side.settled_pending _ _, Side.settled_pending _ _⟩
  | dropFreeing _ block active => exact ordered.dropFreeing sound active
  | passLeft _ block origin src right apart =>
    have reads : (st.block block).prev = src := sound.hand.2.2.2.1 _ rfl
    exact ordered.regrip (fun _ => id) (fun _ => .inl)
      ⟨ordered.hand.1, fun _ _ c link => apart c (reads.symm.trans link), ordered.hand.2.2⟩
  | mergeLeft _ block origin src right idle split => exact ordered.mergeLeft sound idle
  | passRight _ block origin src left apart =>
    have reads : (st.block block).next = src := sound.hand.2.2.2.2 _ rfl
    exact ordered.regrip (fun _ => id) (fun _ => .inl)
      ⟨ordered.hand.1, ordered.hand.2.1, fun _ _ c link => apart c (reads.symm.trans link)⟩
  | mergeRight _ block origin src left idle split => exact ordered.mergeRight sound idle
  | dropMerging _ block origin left right src side unsplit =>
    obtain ⟨live, _, _, leftReads, rightReads⟩ := sound.hand
    obtain ⟨segs, shape, _⟩ := sound.heap
    have linked : (st.block block).isSplit = true ∧ (st.block src).isSplit = true := by
      rcases side with here | here
      · have link : (st.block block).prev = some src := leftReads _ here
        have back : (st.block src).next = some block := (shape.prev_neighbour live link).2.2.1
        simp [Block.isSplit, link, back]
      · have link : (st.block block).next = some src := rightReads _ here
        have back : (st.block src).prev = some block := (shape.next_neighbour live link).2.2.1
        simp [Block.isSplit, link, back]
    simp [linked.1, linked.2] at unsplit
  | settle _ block origin left right inserted =>
    have inserted := ordered.insert sound
    exact ⟨inserted.listed, inserted.awaited, inserted.apart, trivial⟩
  | dropSettling _ block origin left right refused => exact ordered.insert sound
  | complete _ e event queued pending last => exact ordered.complete sound queued pending
  | completeMore _ e event queued pending more =>
    have freeing := ordered.complete sound queued pending
    have awaits : (((st.eventCompleted e event).block e.block).quiescent) = false := by
      simp [Block.quiescent, more]
    exact freeing.dropFreeing (sound.complete queued pending) awaits
  | release _ pool block may freed counted =>
    exact ordered.release sound may.pooled (may.unsplit trivial)
  | releaseStuck _ pool block may owner owned uncounted =>
    exact absurd (sound.counted_pos may.pooled owned) (by omega)
  | use _ block stream allocated other =>
    exact ordered.use sound allocated (fun _ => rfl) fun _ => rfl
  | _ => exact same rfl (fun _ => rfl) rfl rfl

/-! ### Runs -/

def State.rangeOf (st : State) (b : BlockId) : Range := ⟨(st.block b).ptr, (st.block b).size⟩

theorem written_rangeOf {b : BlockId} {f : Block → Block}
    (blocks : st'.blocks = written st.blocks b f)
    (keeps : ∀ k : Block, ((f k).ptr, (f k).size) = (k.ptr, k.size)) (c : BlockId) :
    st'.rangeOf c = st.rangeOf c :=
  congrArg (fun both => Range.mk both.1 both.2)
    (written_field (g := fun k => (k.ptr, k.size)) blocks keeps c)

theorem Sound.blocks_apart (sound : Sound True h st) {b c : BlockId} (liveB : st.Live b)
    (liveC : st.Live c) (differ : b ≠ c) : (st.rangeOf b).Apart (st.rangeOf c) := by
  obtain ⟨segs, shape, _⟩ := sound.heap
  exact shape.blocks_apart liveB liveC differ

/-- The representation invariant of `DeviceCachingAllocator` between two operations. -/
structure State.WellFormed (st : State) : Prop where
  /-- The blocks of each segment are one linked list that tiles it. -/
  tiled : ∃ segs, Shape True st.blocks st.nextBlock st.allocations segs
  disjoint : ∀ b c, st.Live b → st.Live c → b ≠ c → (st.rangeOf b).Apart (st.rangeOf c)
  counted : st.totalAllocatedMemory = (st.allocations.map (·.size)).sum
  /-- No list has a block twice, and a pool set has blocks of its own pool only. -/
  poolSets : ∀ pool, (st.pools pool).blocks.Nodup ∧
    ∀ b ∈ (st.pools pool).blocks, st.Live b ∧ (st.block b).pool = pool
  activeBlocks : st.activeBlocks.Nodup ∧ ∀ b ∈ st.activeBlocks, st.Live b
  /-- A block is in its pool set or active, and never both. -/
  listed : ∀ b, st.Live b → 0 < (st.block b).size →
    (b ∈ (st.pools (st.block b).pool).blocks ↔ b ∉ st.activeBlocks)
  /-- It is in its pool set as soon as nobody uses it or waits for it. -/
  cached : ∀ b, st.Live b → 0 < (st.block b).size →
    (b ∈ (st.pools (st.block b).pool).blocks ↔ (st.block b).quiescent = true)
  /-- No two neighbours are cached. -/
  coalesced : ∀ b c, (st.block b).next = some c →
    b ∈ (st.pools (st.block b).pool).blocks → c ∉ (st.pools (st.block c).pool).blocks

theorem Ordered.wellFormed (sound : Sound True .empty st) (accounted : Accounted st)
    (ordered : Ordered .empty st) : st.WellFormed := by
  have active : ∀ b, (st.block b).busy = true → b ∈ st.activeBlocks := fun b =>
    ordered.active_of_busy sound rfl
  have busy : ∀ b ∈ st.activeBlocks, (st.block b).busy = true := fun b member =>
    (ordered.awaited b member).resolve_left fun held => by cases held
  have pooled : ∀ pool, ∀ b ∈ (st.pools pool).blocks, st.Live b ∧ (st.block b).pool = pool ∧
      (st.block b).busy = false := fun pool b => sound.pooled.block
  have present : ∀ b, st.Live b → 0 < (st.block b).size →
      b ∈ (st.pools (st.block b).pool).blocks ∨ b ∈ st.activeBlocks := fun b live bytes => by
    rcases ordered.listed b live with held | member | member | ⟨none_, _⟩
    · cases held
    · exact .inl member
    · exact .inr member
    · omega
  have quiescent : ∀ b, (st.block b).quiescent = true ↔ (st.block b).busy = false := fun b => by
    have count := sound.eventCount_nonneg b
    simp only [Block.quiescent, Block.busy, Bool.and_eq_true, Bool.not_eq_true', beq_iff_eq,
      Bool.or_eq_false_iff, decide_eq_false_iff_not, Bool.not_eq_false', and_congr_left_iff,
      and_congr_right_iff]
    omega
  obtain ⟨segs, shape, _⟩ := sound.heap
  refine ⟨⟨segs, shape⟩, fun b c => sound.blocks_apart, accounted, fun pool => ?_, ?_,
    fun b live bytes => ?_, fun b live bytes => ?_, fun b c link cachedB cachedC => ?_⟩
  · exact ⟨sound.listed.poolSets pool, fun b member => ⟨(pooled pool b member).1,
      (pooled pool b member).2.1⟩⟩
  · exact ⟨sound.listed.activeBlocks, fun b member => busy_live (busy b member)⟩
  · constructor
    · exact sound.listed.apart _ b
    · exact (present b live bytes).resolve_right
  · rw [quiescent b]
    constructor
    · exact fun member => (pooled _ b member).2.2
    · intro idle
      refine (present b live bytes).resolve_right fun member => ?_
      simp [busy b member] at idle
  · rcases ordered.apart b c link with held | held | used | used
    · cases held
    · cases held
    · simp [(pooled _ b cachedB).2.2] at used
    · simp [(pooled _ c cachedC).2.2] at used

/-- A step that restores no checkpoint, whose events can be recorded, and in which
`release_available_cached_blocks` finds no split block to choose. -/
structure Step.Orderly (step : Step) (st : State) : Prop where
  fresh : step.op.isRestore = false
  steady : step.rt.Steady
  unsplit : step.OversizeUnsplit st

theorem Step.Orderly.safe {step : Step} (orderly : step.Orderly st) : step.Safe orderedMode st :=
  fun device origSize stream asks params st' ran limited b candidate =>
    ⟨fun _ => orderly.unsplit device origSize stream asks params st' ran limited b candidate,
      False.elim⟩

/-- An invariant of the actions that makes the heap sound serves an orderly step. -/
theorem Step.Orderly.servable {step : Step} {P : Hand → State → Prop}
    (orderly : step.Orderly st)
    (closed : Closed orderedMode step.cfg step.rt fun h st => Sound True h st ∧ P h st) :
    Servable orderedMode step.cfg step.rt fun h st => Sound True h st ∧ P h st :=
  ⟨closed, fun _ => id, id, id, fun _ => orderly.steady, fun _ holds => holds.1.distinct⟩

/-- What the actions keep holds in every state of an orderly run. -/
theorem Reachable.orderly {w : World} {P : Hand → State → Prop}
    (run : Reachable (fun w step => step.Orderly w.st) w)
    (closed : ∀ cfg rt, Closed orderedMode cfg rt fun h st => Sound True h st ∧ P h st)
    (start : P .empty {}) : Sound True .empty w.st ∧ P .empty w.st := by
  induction run with
  | start => exact ⟨.init _, start⟩
  | next _ legal orderly ih =>
    exact World.next_keeps (orderly.servable (closed _ _)) (fun _ => id) legal orderly.safe
      orderly.fresh ih

theorem Ordered.init : Ordered .empty {} := by
  have blank : ∀ b, State.block {} b = {} := fun _ => rfl
  exact ⟨by simp [State.Live], by simp, by simp [blank], trivial⟩

theorem Reachable.ordered {w : World} (run : Reachable (fun w step => step.Orderly w.st) w) :
    Sound True .empty w.st ∧ Accounted w.st ∧ Ordered .empty w.st := by
  have closed : ∀ cfg rt, Closed orderedMode cfg rt fun h st =>
      Sound True h st ∧ Accounted st ∧ Ordered h st := fun cfg rt _ _ _ _ holds act =>
    ⟨Sound.closed_ordered holds.1 act,
      (@Accounted.closed orderedMode cfg rt trivial _ _ _ _ ⟨holds.1, holds.2.1⟩ act).2,
      (Ordered.closed ⟨holds.1, holds.2.2⟩ act).2⟩
  exact run.orderly closed ⟨by simp [Accounted], .init⟩

/-- The heap is well formed in every state of a run of orderly steps, whatever the runtime
answers besides and however the operations end. -/
theorem heap_well_formed {w : World} (run : Reachable (fun w step => step.Orderly w.st) w) :
    w.st.WellFormed := by
  obtain ⟨sound, accounted, ordered⟩ := run.ordered
  exact ordered.wellFormed sound accounted

theorem roomAt_steady {base : Nat} : (Runtime.roomAt base).Steady :=
  ⟨fun _ => rfl, fun _ => rfl, fun _ => rfl⟩

theorem full_steady : Runtime.full.Steady := ⟨fun _ => rfl, fun _ => rfl, fun _ => rfl⟩

/-- A legal run without restores, limits on splits or unsteady events. -/
theorem Reachable.plain {steps : List Step} (legal : World.legalRun {} steps = true)
    (plain : ∀ step ∈ steps, step.op.isRestore = false ∧ step.cfg.maxSplitSize = sizeMax)
    (steady : ∀ step ∈ steps, step.rt.Steady) :
    Reachable (fun w step => step.Orderly w.st) (World.run {} steps) :=
  Reachable.start.steps legal fun _ step member =>
    ⟨(plain step member).1, steady step member, oversizeUnsplit_unlimited (plain step member).2⟩

/-- One of two blocks of a segment is used on another stream, and both are freed. -/
def awaitedNeighbour : List Step :=
  [⟨{}, .roomAt 4096, .malloc 0 512 1⟩, ⟨{}, .full, .malloc 0 1024 1⟩,
    ⟨{}, .full, .recordStream 1 ⟨0, 2⟩⟩, ⟨{}, .full, .free 1⟩, ⟨{}, .full, .free 2⟩]

theorem awaitedNeighbour_reached :
    Reachable (fun w step => step.Orderly w.st) (World.run {} awaitedNeighbour) :=
  .plain (by decide +kernel) (by decide +kernel)
    (by simpa [awaitedNeighbour] using ⟨roomAt_steady, full_steady⟩)

theorem heap_well_formed_awaitedNeighbour :
    ((World.run {} awaitedNeighbour).st.activeBlocks = [1] ∧
      ((World.run {} awaitedNeighbour).st.pools smallBlocks).blocks = [2]) ∧
      (World.run {} awaitedNeighbour).st.WellFormed :=
  ⟨by decide +kernel, heap_well_formed awaitedNeighbour_reached⟩

end TorchGcu.GCUCachingAllocator

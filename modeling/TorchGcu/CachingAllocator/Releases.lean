import TorchGcu.CachingAllocator.Runs

/-! What is given back to the device: whole idle segments, and none of a private pool in
use, as long as `release_available_cached_blocks` finds no block it should not choose. -/
namespace TorchGcu.GCUCachingAllocator
open ProgramLogic

variable {mode : Mode} {cfg : GCUAllocatorConfig} {rt : Runtime} {h h' : Hand} {st st' : State}

/-- Every call of `release_block` is one the actions allow. -/
theorem Act.released (act : Act mode cfg rt h st h' st') {call : ReleaseCall}
    (member : .releaseBlock call ∈ st'.history) :
    .releaseBlock call ∈ st.history ∨
      ∃ pool block, Releasable mode st pool block ∧ call = st.releaseCall block := by
  rcases act.history with same | ⟨event, logs, added⟩
  · exact .inl (same ▸ member)
  · rw [added] at member
    rcases List.mem_cons.mp member with rfl | old
    · cases logs with
      | releaseBlock pool block may => exact .inr ⟨pool, block, may, rfl⟩
    · exact .inl old

/-- The calls of `release_block` so far. -/
def State.releaseCalls (st : State) : List ReleaseCall :=
  st.history.filterMap fun event =>
    match event with
    | .releaseBlock call => some call
    | _ => none

theorem mem_releaseCalls {call : ReleaseCall} :
    call ∈ st.releaseCalls ↔ .releaseBlock call ∈ st.history := by
  simp only [State.releaseCalls, List.mem_filterMap]
  constructor
  · rintro ⟨event, member, same⟩
    cases event <;> simp only [Option.some.injEq, reduceCtorEq] at same
    exact same ▸ member
  · exact fun member => ⟨_, member, rfl⟩

/-! ### Whole segments -/

/-- `release_block` was given a block that is alone in its segment, cached, and at an address
that the device had allocated and not freed since. -/
def ReleaseCall.Whole (call : ReleaseCall) : Prop :=
  call.block.prev = none ∧ call.block.next = none ∧ call.pooled = true ∧ call.whole = true

instance (call : ReleaseCall) : Decidable call.Whole := inferInstanceAs (Decidable (_ ∧ _ ∧ _ ∧ _))

theorem Sound.releaseCall_whole {exact : Prop} (sound : Sound exact h st) {pool : PoolRef}
    {block : BlockId} (pooled : block ∈ (st.pools pool).blocks)
    (unsplit : (st.block block).isSplit = false) : (st.releaseCall block).Whole := by
  have ends : (st.block block).prev = none ∧ (st.block block).next = none := by
    simpa [Block.isSplit] using unsplit
  obtain ⟨live, poolEq, _⟩ := sound.pooled.block pooled
  have inPool : (st.block block).pool = pool := poolEq
  obtain ⟨segs, shape, _⟩ := sound.heap
  obtain ⟨seg, rest, _, _, listed, base, _⟩ := shape.release live unsplit
  refine ⟨ends.1, ends.2, ?_, ?_⟩
  · simpa [State.releaseCall, inPool] using pooled
  · simp only [State.releaseCall, List.any_eq_true, decide_eq_true_eq]
    exact ⟨seg.range, listed, base⟩

theorem wholeReleases_closed (whole : mode.whole) : Closed mode cfg rt fun h st =>
    Sound mode.exact h st ∧ ∀ call ∈ st.releaseCalls, call.Whole := by
  intro h st h' st' holds act
  refine ⟨Sound.closed whole holds.1 act, fun call member => ?_⟩
  rcases act.released (mem_releaseCalls.mp member) with old | ⟨pool, block, may, rfl⟩
  · exact holds.2 call (mem_releaseCalls.mpr old)
  · exact holds.1.releaseCall_whole may.pooled (may.unsplit whole)

/-- Where a `malloc` gets as far as `release_available_cached_blocks`, no block it may choose
there is split. -/
def Step.OversizeUnsplit (step : Step) (st : State) : Prop :=
  ∀ device origSize stream, step.op = .malloc device origSize stream →
    ∀ params st', (mallocFirst step.cfg step.rt device origSize stream).run st =
        .ok (false, params) st' →
      step.cfg.maxSplitSize ≠ sizeMax →
        ∀ b, Candidate step.cfg params st' b → (st'.block b).isSplit = false

/-- Every block given to `release_block` is a whole idle segment of the device, in every run in
which `release_available_cached_blocks` never finds a split block to choose. -/
theorem releases_whole_segments {w : World}
    (run : Reachable (fun w step => step.OversizeUnsplit w.st) w) :
    ∀ call ∈ w.st.releaseCalls, call.Whole := by
  have invariant : (Sound False .empty w.st ∧ ∀ call ∈ w.st.releaseCalls, call.Whole) ∧
      w.Genuine := by
    induction run with
    | start => exact ⟨⟨.init _, by simp [State.releaseCalls]⟩, by simp [World.Genuine]⟩
    | next _ legal met ih =>
      refine World.next_keeps_inexact { whole := True }
        (fun h st => Sound False h st ∧ ∀ call ∈ st.releaseCalls, call.Whole) (fun spares => ?_)
        id id (fun _ => id) legal ?_ ih.2 ih.1
      · exact ⟨wholeReleases_closed trivial, fun _ _ holds => holds.1, id, fun _ _ => trivial,
          False.elim⟩
      · intro device origSize stream asks params st' ran limited b candidate
        exact ⟨fun _ => met device origSize stream asks params st' ran limited b candidate,
          False.elim⟩
  exact invariant.1.2

/-- Without a `max_split_size` there is nothing to choose. -/
theorem oversizeUnsplit_unlimited {step : Step} (unlimited : step.cfg.maxSplitSize = sizeMax) :
    step.OversizeUnsplit st :=
  fun _ _ _ _ _ _ _ limited => absurd unlimited limited

/-- A segment is allocated, freed and given back. -/
def freedSegment : List Step :=
  [⟨{}, .roomAt 4096, .malloc 0 512 1⟩, ⟨{}, .full, .free 1⟩, ⟨{}, .full, .emptyCache⟩]

theorem releases_whole_segments_freedSegment :
    (World.run {} freedSegment).st.releaseCalls ≠ [] ∧
      ∀ call ∈ (World.run {} freedSegment).st.releaseCalls, call.Whole := by
  have unlimited : ∀ step ∈ freedSegment, step.cfg.maxSplitSize = sizeMax := by decide +kernel
  have run : Reachable (fun w step => step.OversizeUnsplit w.st) (World.run {} freedSegment) :=
    Reachable.start.steps (by decide +kernel)
      fun _ step member => oversizeUnsplit_unlimited (unlimited step member)
  exact ⟨by decide +kernel, releases_whole_segments run⟩

/-- `max_split_size` is lowered while the rest of a split segment is cached, and the head of
that segment is released. -/
def loweredLimit : List Step :=
  [⟨{}, .roomAt 268435456, .malloc 0 104857600 1⟩, ⟨{}, .full, .free 0⟩,
    ⟨{}, .full, .malloc 0 10485760 1⟩,
    ⟨{ maxSplitSize := 30 * 1024 * 1024 }, .full, .malloc 0 209715200 1⟩]

theorem loweredLimit_releases_split : (∀ step ∈ loweredLimit, step.cfg.Parsed) ∧
    Reachable (fun _ step => step.cfg.Parsed) (World.run {} loweredLimit) ∧
      ¬ ∀ call ∈ (World.run {} loweredLimit).st.releaseCalls, call.Whole := by
  have parsed : ∀ step ∈ loweredLimit, step.cfg.Parsed := by
    intro step member
    simp only [loweredLimit, List.mem_cons, List.not_mem_nil, or_false] at member
    rcases member with rfl | rfl | rfl | rfl
    · exact .inl rfl
    · exact .inl rfl
    · exact .inl rfl
    · exact .inr ⟨30, by decide, by decide, rfl⟩
  exact ⟨parsed, Reachable.start.steps (by decide +kernel) fun _ => parsed, by decide +kernel⟩

/-! ### Private pools in use -/

/-- The private pool the block came from, if any, had no use left. -/
def ReleaseCall.Unused (call : ReleaseCall) : Prop := ∀ uses, call.useCount = some uses → uses ≤ 0

instance (call : ReleaseCall) : Decidable call.Unused :=
  decidable_of_iff (call.useCount.getD 0 ≤ 0) <| by
    unfold ReleaseCall.Unused
    cases call.useCount <;> simp

/-- A block that lives at `b` belongs to `pool`. -/
def State.Belongs (st : State) (pool : PoolRef) (b : BlockId) : Prop :=
  b < st.nextBlock ∧ ∀ k, st.blocks b = some k → k.pool = pool

/-- What is known of the block in the hand when nothing is known of the heap. -/
def HandFiled (st : State) : Hand → Prop
  | .empty => True
  | .taken params b => st.Belongs params.pool b
  | .ready params b => st.Belongs params.pool b
  | .givenUp b => b < st.nextBlock
  | .freeing b => b < st.nextBlock
  | .merging b origin _ _ => st.Belongs origin.pool b
  | .recording b _ => b < st.nextBlock

/-- Each pool set holds blocks of its own pool only, also where the heap is corrupted. -/
structure Filed (h : Hand) (st : State) : Prop where
  bound : ∀ b k, st.blocks b = some k → b < st.nextBlock
  pooled : ∀ pool, ∀ b ∈ (st.pools pool).blocks, st.Belongs pool b
  events : ∀ e ∈ st.gcuEvents, e.block < st.nextBlock
  hand : HandFiled st h

namespace Filed

/-- No id is reused, and no block changes its pool while it lives. -/
structure Later (st st' : State) : Prop where
  next : st.nextBlock ≤ st'.nextBlock
  pool : ∀ b < st.nextBlock, ∀ k, st'.blocks b = some k →
    ∃ k', st.blocks b = some k' ∧ k.pool = k'.pool
  born : ∀ b k, st'.blocks b = some k → st.nextBlock ≤ b → b < st'.nextBlock

theorem Later.belongs (later : Later st st') {pool : PoolRef} {b : BlockId}
    (belongs : st.Belongs pool b) : st'.Belongs pool b := by
  refine ⟨belongs.1.trans_le later.next, fun k found => ?_⟩
  obtain ⟨k', was, same⟩ := later.pool b belongs.1 k found
  exact same.trans (belongs.2 k' was)

theorem Later.hand (later : Later st st') (filed : HandFiled st h) : HandFiled st' h := by
  cases h with
  | empty => trivial
  | taken params b => exact later.belongs filed
  | ready params b => exact later.belongs filed
  | givenUp b => exact lt_of_lt_of_le filed later.next
  | freeing b => exact lt_of_lt_of_le filed later.next
  | merging b origin left right => exact later.belongs filed
  | recording b streams => exact lt_of_lt_of_le filed later.next

/-- The uses of the blocks have not changed, but some may have been deleted. -/
theorem Later.of_uses (next : st'.nextBlock = st.nextBlock)
    (bound : ∀ b k, st.blocks b = some k → b < st.nextBlock)
    (uses : ∀ b, st'.blocks b = none ∨
      (st'.blocks b).map (·.pool) = (st.blocks b).map (·.pool)) : Later st st' := by
  have same : ∀ b k, st'.blocks b = some k → ∃ k', st.blocks b = some k' ∧ k.pool = k'.pool := by
    intro b k found
    rcases uses b with gone | use
    · simp [gone] at found
    · rw [found] at use
      obtain ⟨k', was, poolEq⟩ := Option.map_eq_some_iff.mp use.symm
      exact ⟨k', was, poolEq.symm⟩
  refine ⟨next.ge, fun b _ => same b, fun b k found _ => ?_⟩
  obtain ⟨k', was, _⟩ := same b k found
  exact next ▸ bound b k' was

theorem later (filed : Filed h st) (later : Later st st')
    (pooled : ∀ pool, ∀ b ∈ (st'.pools pool).blocks,
      b ∈ (st.pools pool).blocks ∨ st'.Belongs pool b)
    (events : ∀ e' ∈ st'.gcuEvents, (∃ e ∈ st.gcuEvents, e.block = e'.block) ∨
      e'.block < st'.nextBlock)
    (hand : HandFiled st' h') : Filed h' st' where
  bound b k found := by
    by_cases old : b < st.nextBlock
    · exact old.trans_le later.next
    · exact later.born b k found (not_lt.mp old)
  pooled pool b member :=
    (pooled pool b member).elim (fun old => later.belongs (filed.pooled pool b old)) id
  events e' member := by
    rcases events e' member with ⟨e, old, same⟩ | new
    · rw [← same]
      exact (filed.events e old).trans_le later.next
    · exact new
  hand := hand

/-- Neither the blocks nor the pool sets nor the events have changed. -/
theorem same (filed : Filed h st) (next : st'.nextBlock = st.nextBlock)
    (blocks : st'.blocks = st.blocks)
    (pools : ∀ pool, (st'.pools pool).blocks ⊆ (st.pools pool).blocks)
    (events : ∀ e' ∈ st'.gcuEvents, ∃ e ∈ st.gcuEvents, e.block = e'.block)
    (hand : HandFiled st h') : Filed h' st' :=
  have later : Later st st' := .of_uses next filed.bound fun b => .inr (by rw [blocks])
  filed.later later (fun pool b member => .inl (pools pool member))
    (fun e' member => .inl (events e' member)) (later.hand hand)

/-- One block is written, but not its pool. -/
theorem write (filed : Filed h st) {c : BlockId} {f : Block → Block}
    (keeps : ∀ k, (f k).pool = k.pool) (hand : HandFiled st h') :
    Filed h' (st.modifyBlock c f) := by
  have later : Later st (st.modifyBlock c f) := .of_uses rfl filed.bound fun b => .inr (by
    by_cases here : b = c
    · subst here
      simp [State.modifyBlock, Function.comp_def, keeps]
    · simp [State.modifyBlock, here])
  exact filed.later later (fun _ _ => .inl) (fun e member => .inl ⟨e, member, rfl⟩)
    (later.hand hand)

theorem merge (filed : Filed h st) (dst src : BlockId) (pool : PoolRef)
    (hand : HandFiled st h') : Filed h' (st.mergeBlocks dst src pool) := by
  have later : Later st (st.mergeBlocks dst src pool) :=
    .of_uses (Sound.mergeBlocks_nextBlock dst src pool) filed.bound fun b => by
      by_cases here : b = src
      · exact .inl (here ▸ mergeBlocks_gone st dst src pool)
      · have use := mergeBlocks_use st dst src pool here
        refine .inr ?_
        have pools := congrArg (Option.map (·.pool)) use
        simpa [Option.map_map, Function.comp_def, Block.use] using pools
  refine filed.later later (fun p b member => .inl (mem_mergeBlocks member).1) (fun e member => ?_)
    (later.hand hand)
  rw [(mergeBlocks_local st dst src pool).gcuEvents] at member
  exact .inl ⟨e, member, rfl⟩

theorem insert (filed : Filed h st) {block : BlockId} {pool : PoolRef}
    (belongs : st.Belongs pool block) :
    Filed .empty ((st.eraseActive block).insertIntoBlocks pool block).1 := by
  have later : Later st ((st.eraseActive block).insertIntoBlocks pool block).1 :=
    .of_uses (by simp [State.eraseActive]) filed.bound fun b => by
      have pools := congrArg (Option.map (·.pool))
        (insertIntoBlocks_use (st.eraseActive block) pool block (b := b))
      refine .inr ?_
      rw [Option.map_map, Option.map_map] at pools
      exact pools
  refine filed.later later (fun p b member => ?_) (fun e member => ?_) trivial
  · rcases mem_insertIntoBlocks member with old | ⟨rfl, rfl⟩
    · exact .inl old
    · exact .inr (later.belongs belongs)
  · rw [(insertIntoBlocks_local (st.eraseActive block) pool block).gcuEvents] at member
    exact .inl ⟨e, member, rfl⟩

theorem belongs_of_live (filed : Filed h st) {b : BlockId} (live : st.Live b) :
    st.Belongs (st.block b).pool b := by
  have found := some_of_live live
  refine ⟨filed.bound b _ found, fun k is => ?_⟩
  rw [found] at is
  cases is
  rfl

theorem obtain (filed : Filed .empty st) (params : AllocParams) (ptr : Nat) :
    Filed (.taken { params with block := some st.nextBlock, err := none } st.nextBlock)
      (st.newSegment cfg params ptr) := by
  have blocks := newSegment_blocks st cfg params ptr
  have later : Later st (st.newSegment cfg params ptr) := by
    refine ⟨by simp, fun b old k found => ?_, fun b k found new => ?_⟩
    · rw [blocks, Function.update_of_ne old.ne] at found
      exact ⟨k, found, rfl⟩
    · rw [newSegment_nextBlock]
      by_cases here : b = st.nextBlock
      · exact here ▸ Nat.lt_succ_self _
      · rw [blocks, Function.update_of_ne here] at found
        exact (filed.bound b k found).trans (Nat.lt_succ_self _)
  refine filed.later later (fun pool b member => .inl (by simpa using member))
    (fun e member => .inl ⟨e, by simpa using member, rfl⟩) ⟨by simp, fun k found => ?_⟩
  rw [blocks, Function.update_self] at found
  cases found
  rfl

theorem carve {params : AllocParams} {found : BlockId} (filed : Filed (.taken params found) st) :
    Filed (.ready params st.nextBlock) (st.carved params found) := by
  have belongs : st.Belongs params.pool found := filed.hand
  have next := Spared.carved_nextBlock st params found
  have blocks := Spared.carved_blocks st params found
  have pools : (st.carved params found).pools = (st.splitBlock params found).1.pools := by
    simp only [State.carved]
    split <;> rfl
  have later : Later st (st.carved params found) := by
    refine ⟨by rw [next]; exact Nat.le_succ _, fun b old k is => ?_, fun b k is new => ?_⟩
    · have use := splitBlock_use st params found old.ne
      rw [← blocks, is] at use
      obtain ⟨k', was, same⟩ := Option.map_eq_some_iff.mp use.symm
      exact ⟨k', was, (sameUse same).pool.symm⟩
    · rw [next]
      by_cases here : b = st.nextBlock
      · exact here ▸ Nat.lt_succ_self _
      · have use := splitBlock_use st params found here
        rw [← blocks, is] at use
        obtain ⟨k', was, _⟩ := Option.map_eq_some_iff.mp use.symm
        exact (filed.bound b k' was).trans (Nat.lt_succ_self _)
  refine filed.later later (fun pool b member => ?_) (fun e member => ?_)
    ⟨by rw [next]; exact Nat.lt_succ_self _, fun k is => ?_⟩
  · rw [pools] at member
    rcases mem_splitBlock member with old | ⟨rfl, rfl⟩
    · exact .inl old
    · exact .inr (later.belongs belongs)
  · rw [(carved_local st params found).gcuEvents] at member
    exact .inl ⟨e, member, rfl⟩
  · have born := splitBlock_born st params found
    rw [← blocks, is] at born
    exact (sameUse (Option.some.inj born)).pool

theorem release (filed : Filed .empty st) (block : BlockId) :
    Filed .empty (st.released cfg block) := by
  have later : Later st (st.released cfg block) :=
    .of_uses (released_nextBlock st cfg block) filed.bound fun b => by
      rw [released_blocks]
      by_cases here : b = block
      · exact .inl (by rw [here, Function.update_self])
      · exact .inr (by rw [Function.update_of_ne here])
  refine filed.later later (fun pool b member => ?_) (fun e member => ?_) trivial
  · rw [released_pools] at member
    exact .inl (mem_eraseFromBlocks member).1
  · rw [released_gcuEvents] at member
    exact .inl ⟨e, member, rfl⟩

theorem withoutEvent (filed : Filed h st) {event : EventId} {e : PendingEvent}
    (member : e ∈ (st.takeEvent event).gcuEvents) : e.block < st.nextBlock := by
  obtain ⟨old, queued, rfl⟩ := List.mem_map.mp member
  have bound := filed.events old queued
  split <;> exact bound

theorem closed : Closed mode cfg rt Filed := by
  intro h st h' st' filed act
  have kept : ∀ {h' : Hand} {st' : State}, st'.nextBlock = st.nextBlock → st'.blocks = st.blocks →
      st'.pools = st.pools → st'.gcuEvents = st.gcuEvents → HandFiled st h' → Filed h' st' :=
    fun next blocks pools events hand =>
      filed.same next blocks (fun pool => by rw [pools]; exact List.Subset.refl _)
        (fun e member => ⟨e, events ▸ member, rfl⟩) hand
  have fewer : ∀ {h' : Hand} {st' : State}, st'.nextBlock = st.nextBlock →
      st'.blocks = st.blocks → (∀ pool, (st'.pools pool).blocks ⊆ (st.pools pool).blocks) →
      st'.gcuEvents = st.gcuEvents → HandFiled st h' → Filed h' st' :=
    fun next blocks pools events hand =>
      filed.same next blocks pools (fun e member => ⟨e, events ▸ member, rfl⟩) hand
  cases act with
  | searched _ pool =>
    refine fewer rfl rfl (fun p => ?_) rfl trivial
    by_cases here : p = pool
    · subst here
      simp [State.modifyPool]
    · simp [State.modifyPool, here]
  | take _ params found request clear pooled stream fits open_ oversize =>
    refine fewer rfl rfl (fun p => ?_) rfl (filed.pooled _ found pooled)
    by_cases here : p = params.pool
    · subst here
      simp [State.modifyPool]
    · simp [State.modifyPool, here]
  | obtain _ params ptr request fresh owned spends => exact filed.obtain params ptr
  | pick _ params curr chosen clear live idle inactive pool open_ exact =>
    refine fewer rfl rfl (fun p => (eraseFromBlocks_sublist st _ curr p).subset) rfl ?_
    have belongs := filed.belongs_of_live live
    rwa [pool] at belongs
  | unpool _ pool curr dead =>
    exact fewer rfl rfl (fun p => (eraseFromBlocks_sublist st _ curr p).subset) rfl trivial
  | carve _ params found cut => exact filed.carve
  | keep _ params found =>
    simp only [State.kept]
    split
    · exact kept rfl rfl rfl rfl filed.hand
    · exact kept rfl rfl rfl rfl filed.hand
  | handOut _ params origSize block =>
    have written : Filed .empty (st.modifyBlock block fun b =>
        { b with allocated := true, requestedSize := origSize }) :=
      filed.write (fun _ => rfl) trivial
    exact ⟨written.bound, written.pooled, written.events, trivial⟩
  | giveUp _ block live exact =>
    have written : Filed (.givenUp block) (st.modifyBlock block fun b =>
        { b with allocated := false }) :=
      filed.write (fun _ => rfl) (filed.belongs_of_live live).1
    exact ⟨written.bound, written.pooled, written.events, written.hand⟩
  | free _ block unused => exact kept rfl rfl rfl rfl filed.hand
  | record _ block used => exact filed.write (fun _ => rfl) filed.hand
  | recordDeferred _ block waiting used =>
    exact filed.write (fun _ => rfl) (filed.belongs_of_live (Sound.used_live used)).1
  | push _ block stream streams =>
    have written : Filed (.recording block streams) (st.modifyBlock block fun b =>
        { b with eventCount := b.eventCount + 1 }) := filed.write (fun _ => rfl) filed.hand
    refine ⟨written.bound, written.pooled, fun e member => ?_, written.hand⟩
    rcases List.mem_append.mp member with old | new
    · exact written.events e old
    · obtain rfl := List.mem_singleton.mp new
      exact written.hand
  | startMerging _ block idle =>
    refine kept rfl rfl rfl rfl ⟨filed.hand, fun k found => ?_⟩
    rw [block_of_some found]
  | passLeft _ block origin src right apart => exact kept rfl rfl rfl rfl filed.hand
  | mergeLeft _ block origin src right idle split =>
    exact filed.merge block src origin.pool filed.hand
  | passRight _ block origin src left apart => exact kept rfl rfl rfl rfl filed.hand
  | mergeRight _ block origin src left idle split =>
    exact filed.merge block src origin.pool filed.hand
  | settle _ block origin left right inserted =>
    have inserted : Filed .empty ((st.eraseActive block).insertIntoBlocks origin.pool block).1 :=
      filed.insert filed.hand
    exact ⟨inserted.bound, inserted.pooled, inserted.events, trivial⟩
  | dropSettling _ block origin left right refused => exact filed.insert filed.hand
  | complete _ e event queued pending last =>
    have written : Filed (.freeing e.block) (st.modifyBlock e.block fun b =>
        { b with eventCount := b.eventCount - 1 }) :=
      filed.write (fun _ => rfl) (filed.events e queued)
    refine ⟨written.bound, written.pooled, fun e' member => ?_, written.hand⟩
    exact filed.withoutEvent member
  | completeMore _ e event queued pending more =>
    have written : Filed .empty (st.modifyBlock e.block fun b =>
        { b with eventCount := b.eventCount - 1 }) := filed.write (fun _ => rfl) trivial
    refine ⟨written.bound, written.pooled, fun e' member => ?_, trivial⟩
    exact filed.withoutEvent member
  | lose _ event =>
    exact ⟨filed.bound, filed.pooled, fun e' member => filed.withoutEvent member, trivial⟩
  | popFront _ stream =>
    exact ⟨filed.bound, filed.pooled, fun e' member =>
      filed.events e' (List.eraseP_sublist.subset member), trivial⟩
  | clearEvents _ => exact ⟨filed.bound, filed.pooled, by simp, trivial⟩
  | release _ pool block may freed counted => exact filed.release block
  | use _ block stream allocated other => exact filed.write (fun _ => rfl) trivial
  | _ => exact kept rfl rfl rfl rfl trivial

end Filed

/-- What makes the loops over the queues and over the freeable pools meet nothing twice. -/
structure Tidy (st : State) : Prop where
  queued : Queued st.gcuEvents st.nextEvent
  freeable : (st.graphPoolsFreeable.map (·.1)).Nodup

theorem Tidy.closed : Closed mode cfg rt fun _ st => Tidy st := by
  intro h st h' st' tidy act
  have same : ∀ {st' : State}, Local st st' → Tidy st' := fun frame =>
    ⟨by rw [frame.gcuEvents, frame.nextEvent]; exact tidy.queued,
      by rw [frame.graphPoolsFreeable]; exact tidy.freeable⟩
  cases act with
  | obtain _ params ptr request fresh owned spends =>
    exact ⟨by simpa using tidy.queued, by simpa using tidy.freeable⟩
  | carve _ params found cut => exact same (carved_local st params found)
  | keep _ params found => exact same (kept_local st params found)
  | mergeLeft _ block origin src right idle split => exact same (mergeBlocks_local st _ _ _)
  | mergeRight _ block origin src left idle split => exact same (mergeBlocks_local st _ _ _)
  | settle _ block origin left right inserted => exact same (settled_local st _ _ _ _)
  | dropSettling _ block origin left right refused =>
    have inserted := insertIntoBlocks_local (st.eraseActive block) origin.pool block
    exact same ⟨inserted.1, inserted.2, inserted.3, inserted.4, inserted.5, inserted.6, inserted.7,
      inserted.8, inserted.9, inserted.10, inserted.11, inserted.12, inserted.13⟩
  | push _ block stream streams => exact ⟨tidy.queued.push stream block, tidy.freeable⟩
  | complete _ e event queued pending last => exact ⟨tidy.queued.lose event, tidy.freeable⟩
  | completeMore _ e event queued pending more => exact ⟨tidy.queued.lose event, tidy.freeable⟩
  | lose _ event => exact ⟨tidy.queued.lose event, tidy.freeable⟩
  | popFront _ stream => exact ⟨tidy.queued.sublist List.eraseP_sublist, tidy.freeable⟩
  | clearEvents _ => exact ⟨tidy.queued.sublist (List.nil_sublist _), tidy.freeable⟩
  | release _ pool block may freed counted =>
    exact ⟨by simpa using tidy.queued, by simpa using tidy.freeable⟩
  | erasePool _ id owner pool freeable vacant present moves =>
    exact ⟨tidy.queued, tidy.freeable.sublist (List.filter_sublist.map _)⟩
  | markFreeable _ id pool present absent unused moves calls =>
    refine ⟨tidy.queued, ?_⟩
    simp only [State.poolFreeable, List.map_append, List.map_cons, List.map_nil]
    refine List.nodup_append'.mpr ⟨tidy.freeable, by simp, ?_⟩
    simpa using findPool_none absent
  | _ => exact ⟨tidy.queued, tidy.freeable⟩

/-- No release of a block from the pool of a use that goes on. -/
theorem unusedReleases_closed (quiet : mode.quiet) : Closed mode cfg rt fun h st =>
    Filed h st ∧ Tidy st ∧ ∀ call ∈ st.releaseCalls, call.Unused := by
  intro h st h' st' holds act
  refine ⟨Filed.closed holds.1 act, Tidy.closed holds.2.1 act, fun call member => ?_⟩
  rcases act.released (mem_releaseCalls.mp member) with old | ⟨pool, block, may, rfl⟩
  · exact holds.2.2 call (mem_releaseCalls.mpr old)
  · have belongs := holds.1.pooled pool block may.pooled
    intro uses count
    simp only [State.releaseCall, State.useCount] at count
    cases found : st.blocks block with
    | none => simp [State.block, found] at count
    | some k =>
      rw [block_of_some found, belongs.2 k found] at count
      obtain ⟨owner, owns, counted⟩ := Option.bind_eq_some_iff.mp count
      have unused := may.unused quiet owner owns
      simpa [counted] using unused

/-- Where a `malloc` gets as far as `release_available_cached_blocks`, it chooses no block of a
private pool in use. -/
def Step.OversizeUnused (step : Step) (st : State) : Prop :=
  ∀ device origSize stream, step.op = .malloc device origSize stream →
    ∀ params st', (mallocFirst step.cfg step.rt device origSize stream).run st =
        .ok (false, params) st' →
      step.cfg.maxSplitSize ≠ sizeMax →
        ∀ b, Candidate step.cfg params st' b → st'.Unused params.pool.ownerPrivatePool

/-- No block of a private pool in use is given to `release_block`, in every run without restores
in which `release_available_cached_blocks` never finds such a block to choose. -/
theorem releases_unused_pools {w : World} (run : Reachable
      (fun w step => step.op.isRestore = false ∧ step.OversizeUnused w.st) w) :
    ∀ call ∈ w.st.releaseCalls, call.Unused := by
  have invariant : Filed .empty w.st ∧ Tidy w.st ∧ ∀ call ∈ w.st.releaseCalls, call.Unused := by
    induction run with
    | start =>
      exact ⟨⟨by simp, by simp, by simp, trivial⟩, ⟨⟨by simp, by simp⟩, by simp⟩,
        by simp [State.releaseCalls]⟩
    | @next w step _ legal met ih =>
      have servable : Servable { quiet := True } step.cfg step.rt _ :=
        ⟨unusedReleases_closed trivial, fun _ => id, id, id, False.elim,
          fun _ holds => ⟨holds.2.1.queued.distinct, holds.2.1.freeable⟩⟩
      refine World.next_keeps servable (fun _ => id) legal ?_ met.1 ih
      intro device origSize stream asks params st' ran limited b candidate
      exact ⟨False.elim,
        fun _ => met.2 device origSize stream asks params st' ran limited b candidate⟩
  exact invariant.2.2

/-- A graph allocates in its pool, frees, lets the pool go, and the cache is emptied. -/
def retiredPool : List Step :=
  [⟨{}, .full, .beginAllocateToPool (0, 1) fun _ => true⟩, ⟨{}, .roomAt 4096, .malloc 0 512 1⟩,
    ⟨{}, .full, .endAllocateToPool (0, 1)⟩, ⟨{}, .full, .free 1⟩, ⟨{}, .full, .releasePool (0, 1)⟩,
    ⟨{}, .full, .emptyCache⟩]

theorem releases_unused_pools_retiredPool :
    (World.run {} retiredPool).st.releaseCalls.map (·.useCount) = [some 0] ∧
      ∀ call ∈ (World.run {} retiredPool).st.releaseCalls, call.Unused := by
  have plain : ∀ step ∈ retiredPool, step.op.isRestore = false ∧ step.cfg.maxSplitSize = sizeMax := by
    decide +kernel
  have run : Reachable (fun w step => step.op.isRestore = false ∧ step.OversizeUnused w.st)
      (World.run {} retiredPool) :=
    Reachable.start.steps (by decide +kernel) fun _ step member => ⟨(plain step member).1,
      fun _ _ _ _ _ _ _ limited => absurd (plain step member).2 limited⟩
  exact ⟨by decide +kernel, releases_unused_pools run⟩

/-- A graph that is still being captured frees a block and then runs out of memory. -/
def exhaustedCapture : List Step :=
  let cfg : GCUAllocatorConfig := { maxSplitSize := 21 * 1024 * 1024 }
  [⟨cfg, .full, .beginAllocateToPool (0, 1) fun _ => true⟩,
    ⟨cfg, .roomAt 268435456, .malloc 0 31457280 1⟩, ⟨cfg, .full, .free 0⟩,
    ⟨cfg, .full, .malloc 0 62914560 1⟩]

theorem exhaustedCapture_releases_pool_in_use :
    Reachable (fun _ step => step.op.isRestore = false ∧ step.cfg.Parsed)
        (World.run {} exhaustedCapture) ∧
      ¬ ∀ call ∈ (World.run {} exhaustedCapture).st.releaseCalls, call.Unused := by
  have parsed : ∀ step ∈ exhaustedCapture, step.op.isRestore = false ∧ step.cfg.Parsed := by
    have limit : (⟨21 * 1024 * 1024, List.replicate 16 0, 0, false⟩ : GCUAllocatorConfig).Parsed :=
      .inr ⟨21, by decide, by decide, rfl⟩
    intro step member
    simp only [exhaustedCapture, List.mem_cons, List.not_mem_nil, or_false] at member
    rcases member with rfl | rfl | rfl | rfl <;> exact ⟨rfl, limit⟩
  exact ⟨Reachable.start.steps (by decide +kernel) fun _ => parsed, by decide +kernel⟩

end TorchGcu.GCUCachingAllocator

import TorchGcu.CachingAllocator.Soundness

/-! Restoring a checkpoint as actions, for every recorded state whose segments begin at
different addresses. Nothing is assumed of the state it is restored in, so the restore may
raise halfway. -/
namespace TorchGcu.GCUCachingAllocator
open ProgramLogic

variable {mode : Mode} {cfg : GCUAllocatorConfig} {rt : Runtime} {P : Hand → State → Prop}
  {st : State} {b : BlockId}

/-! ### Blocks nobody takes -/

/-- The hand is about to make the block busy. -/
def Hand.Takes (b : BlockId) : Hand → Prop
  | .taken _ block => block = b
  | .ready _ block => block = b
  | .recording block _ => block = b
  | _ => False

/-- The block has been deleted, or it is idle and stays so while nobody takes it. -/
structure Spared (b : BlockId) (h : Hand) (st : State) : Prop where
  old : b < st.nextBlock
  idle : (st.block b).busy = false
  inactive : b ∉ st.activeBlocks
  free : ¬ h.Takes b

namespace Spared
variable {h h' : Hand} {st' : State}

/-- The use of the block has not changed, and no block has become active. -/
theorem same (spared : Spared b h st) (old : st.nextBlock ≤ st'.nextBlock)
    (use : SameUse (st'.block b) (st.block b)) (active : b ∈ st'.activeBlocks → b ∈ st.activeBlocks)
    (free : ¬ h'.Takes b) : Spared b h' st' :=
  ⟨spared.old.trans_le old, use.busy.trans spared.idle, fun member => spared.inactive (active member),
    free⟩

/-- Only a block that is busy already is written. -/
theorem other (spared : Spared b h st) {c : BlockId} {f : Block → Block}
    (busy : (st.block c).busy = true ∨ c ≠ b) (free : ¬ h'.Takes b) :
    Spared b h' (st.modifyBlock c f) := by
  have differ : b ≠ c := by
    rintro rfl
    rcases busy with busy | differ
    · simp [spared.idle] at busy
    · exact differ rfl
  refine ⟨spared.old, ?_, spared.inactive, free⟩
  have block : (st.modifyBlock c f).block b = st.block b := by
    simp [State.block, State.modifyBlock, differ]
  rw [block]
  exact spared.idle

/-- A write that makes no block busy. -/
theorem calm (spared : Spared b h st) {c : BlockId} {f : Block → Block}
    (keeps : ∀ k : Block, k.busy = false → (f k).busy = false) (free : ¬ h'.Takes b) :
    Spared b h' (st.modifyBlock c f) := by
  refine ⟨spared.old, ?_, spared.inactive, free⟩
  by_cases here : b = c
  · subst here
    have idle := spared.idle
    cases found : st.blocks b with
    | none => simp [State.block, State.modifyBlock, found, Block.busy]
    | some k =>
      simp only [State.block, found, Option.getD_some] at idle
      simpa [State.block, State.modifyBlock, found] using keeps k idle
  · have block : (st.modifyBlock c f).block b = st.block b := by
      simp [State.block, State.modifyBlock, here]
    rw [block]
    exact spared.idle

theorem delete (spared : Spared b h st) (src : BlockId) (old : st.nextBlock ≤ st'.nextBlock)
    (gone : st'.blocks src = none)
    (uses : ∀ c, c ≠ src → (st'.blocks c).map Block.use = (st.blocks c).map Block.use)
    (active : b ∈ st'.activeBlocks → b ∈ st.activeBlocks) (free : ¬ h'.Takes b) : Spared b h' st' := by
  by_cases here : b = src
  · subst here
    refine ⟨spared.old.trans_le old, ?_, fun member => spared.inactive (active member), free⟩
    simp [State.block, gone, Block.busy]
  · exact spared.same old (use_of_map (uses b here)).2 active free

theorem carved_active (st : State) (params : AllocParams) (found : BlockId) :
    (st.carved params found).activeBlocks = st.activeBlocks := by
  simp only [State.carved, State.splitBlock, State.insertIntoBlocks]
  split <;> split <;> cases (st.block found).prev <;> rfl

theorem carved_blocks (st : State) (params : AllocParams) (found : BlockId) :
    (st.carved params found).blocks = (st.splitBlock params found).1.blocks := by
  simp only [State.carved]
  split <;> rfl

theorem carved_nextBlock (st : State) (params : AllocParams) (found : BlockId) :
    (st.carved params found).nextBlock = st.nextBlock + 1 := by
  rw [← splitBlock_nextBlock st params found]
  simp only [State.carved]
  split <;> rfl

theorem insertIntoBlocks_active (st : State) (pool : PoolRef) (c : BlockId) :
    (st.insertIntoBlocks pool c).1.activeBlocks = st.activeBlocks := by
  simp only [State.insertIntoBlocks]
  split <;> rfl

theorem completed_idle {k : Block} (idle : k.busy = false) :
    ({ k with eventCount := k.eventCount - 1 } : Block).busy = false := by
  simp only [Block.busy, Bool.or_eq_false_iff, decide_eq_false_iff_not] at idle ⊢
  exact ⟨⟨idle.1.1, by omega⟩, idle.2⟩

/-- Nothing but a hand that takes it makes an idle block busy. -/
theorem closed : Closed { mode with spares := (· = b) } cfg rt (Spared b) := by
  intro h st h' st' spared act
  have still : ∀ {st' : State}, st'.nextBlock = st.nextBlock → st'.blocks = st.blocks →
      st'.activeBlocks = st.activeBlocks → ¬ h'.Takes b → Spared b h' st' := by
    intro st' next blocks active free
    refine spared.same next.ge ?_ (fun member => active ▸ member) free
    simp only [State.block, blocks]
    exact sameUse rfl
  cases act with
  | take _ params found request clear pooled stream fits open_ oversize => exact still rfl rfl rfl open_
  | obtain _ params ptr request fresh owned spends =>
    have old := spared.old.ne
    refine spared.same (by simp) ?_ (by rw [newSegment_activeBlocks]; exact id) old.symm
    simp only [State.block, newSegment_blocks, Function.update_of_ne old]
    exact sameUse rfl
  | pick _ params curr chosen clear live idle inactive pool open_ word exact =>
    exact still rfl rfl rfl open_
  | carve _ params found cut =>
    have old := spared.old.ne
    refine spared.same (by rw [carved_nextBlock]; exact Nat.le_succ _) ?_
      (by rw [carved_active]; exact id) old.symm
    have use := (use_of_map (splitBlock_use st params found old)).2
    rw [← carved_blocks] at use
    exact use
  | keep _ params found =>
    simp only [State.kept]
    split
    · exact still rfl rfl rfl spared.free
    · exact still rfl rfl rfl spared.free
  | handOut _ params origSize block =>
    have differ : block ≠ b := spared.free
    have written : Spared b .empty (st.modifyBlock block fun k =>
        { k with allocated := true, requestedSize := origSize }) := spared.other (.inr differ) id
    refine ⟨written.old, written.idle, ?_, id⟩
    simp only [State.handedOut, State.insertActive]
    split
    · exact spared.inactive
    · exact List.not_mem_cons_of_ne_of_not_mem differ.symm spared.inactive
  | giveUp _ block live exact =>
    have written : Spared b (.givenUp block) (st.modifyBlock block fun k =>
        { k with allocated := false }) := spared.calm
      (fun k idle => by simp only [Block.busy, Bool.or_eq_false_iff] at idle ⊢; tauto) id
    exact ⟨written.old, written.idle, written.inactive, id⟩
  | record _ block used =>
    have differ : block ≠ b := by
      rintro rfl
      exact absurd spared.idle (by simp [Sound.used_busy used])
    exact spared.other (.inr differ) differ
  | recordDeferred _ block waiting used =>
    have differ : block ≠ b := by
      rintro rfl
      exact absurd spared.idle (by simp [Sound.used_busy used])
    exact spared.other (.inr differ) differ
  | push _ block stream streams =>
    have differ : block ≠ b := spared.free
    have written : Spared b (.recording block streams) (st.modifyBlock block fun k =>
        { k with eventCount := k.eventCount + 1 }) := spared.other (.inr differ) differ
    exact ⟨written.old, written.idle, written.inactive, differ⟩
  | mergeLeft _ block origin src right idle split =>
    exact spared.delete src (Sound.mergeBlocks_nextBlock _ _ _).ge (mergeBlocks_gone _ _ _ _)
      (fun c other => mergeBlocks_use _ _ _ _ other) (by rw [Sound.mergeBlocks_activeBlocks]; exact id) id
  | mergeRight _ block origin src left idle split =>
    exact spared.delete src (Sound.mergeBlocks_nextBlock _ _ _).ge (mergeBlocks_gone _ _ _ _)
      (fun c other => mergeBlocks_use _ _ _ _ other) (by rw [Sound.mergeBlocks_activeBlocks]; exact id) id
  | settle _ block origin left right inserted =>
    refine spared.same (by simp [State.settled, State.modifyStats, State.eraseActive]) ?_ ?_ id
    · exact (use_of_map (insertIntoBlocks_use (st.eraseActive block) origin.pool block)).2
    · simp only [State.settled, State.modifyStats, insertIntoBlocks_active]
      exact fun member => (List.mem_filter.mp member).1
  | dropSettling _ block origin left right refused =>
    refine spared.same (by simp [State.eraseActive]) ?_ ?_ id
    · exact (use_of_map (insertIntoBlocks_use (st.eraseActive block) origin.pool block)).2
    · rw [insertIntoBlocks_active]
      exact fun member => (List.mem_filter.mp member).1
  | complete _ e event queued pending last =>
    have written : Spared b (.freeing e.block) (st.modifyBlock e.block fun k =>
        { k with eventCount := k.eventCount - 1 }) := spared.calm (fun k idle => completed_idle idle) id
    exact ⟨written.old, written.idle, written.inactive, id⟩
  | completeMore _ e event queued pending more =>
    have written : Spared b .empty (st.modifyBlock e.block fun k =>
        { k with eventCount := k.eventCount - 1 }) := spared.calm (fun k idle => completed_idle idle) id
    exact ⟨written.old, written.idle, written.inactive, id⟩
  | release _ pool block may freed counted =>
    refine spared.delete block (by simp) (by simp) (fun c other => ?_) (by simp) id
    rw [released_blocks, Function.update_of_ne other]
  | use _ block stream allocated other =>
    exact spared.other (.inl (by simp [Block.busy, allocated])) id
  | _ => exact still rfl rfl rfl id

end Spared

/-! ### The segments of the checkpoint -/

/-- What an assertion has to be like for a restore to keep it. -/
structure Restorable (mode : Mode) (cfg : GCUAllocatorConfig) (rt : Runtime)
    (P : Hand → State → Prop) : Prop where
  closed : Closed mode cfg rt P
  sound : ∀ ⦃h st⦄, P h st → Sound mode.exact h st
  inexact : ¬ mode.exact
  cuts : ∀ block size, mode.cut block size
  steady : mode.steady → rt.Steady

/-- A live block that may be taken out of its pool. -/
structure Pickable (st : State) (pool : PoolRef) (b : BlockId) : Prop where
  idle : (st.block b).busy = false
  inactive : b ∉ st.activeBlocks
  pool : (st.block b).pool = pool

/-- After a split, the rest of the block follows the new one and may be taken in turn. -/
theorem Sound.remainder {exact : Prop} {params : AllocParams} {found : BlockId}
    (sound : Sound exact (.taken params found) st) (origSize : Nat) {st' : State}
    (handed : st' = (st.carved params found).handedOut cfg params origSize st.nextBlock) :
    (st'.block st.nextBlock).next = some found ∧ st'.Live found ∧
      Pickable st' params.pool found := by
  obtain ⟨live, idle, pool, _, inactive⟩ := sound.hand.1
  obtain ⟨segs, shape, _⟩ := sound.heap
  have isLive : st.Live found := live
  have older : found ≠ st.nextBlock := (shape.bound found live).ne
  have blocks : st'.blocks = written (st.splitBlock params found).1.blocks st.nextBlock
      fun b => { b with allocated := true, requestedSize := origSize } := by
    rw [← Spared.carved_blocks, handed]
    rfl
  have created := shape.splitBlock_blocks params isLive st.nextBlock
  rw [if_neg older.symm, if_pos rfl] at created
  obtain ⟨alive, use⟩ := use_of_map (splitBlock_use st params found older)
  have same : st'.block found = blockOf (st.splitBlock params found).1.blocks found := by
    rw [State.block, blocks]
    exact blockOf_written_of_ne older
  refine ⟨?_, ?_, ?_, ?_, ?_⟩
  · rw [State.block, blocks]
    have alive : ((st.splitBlock params found).1.blocks st.nextBlock).isSome = true := by
      simp [created]
    have here : blockOf (written (st.splitBlock params found).1.blocks st.nextBlock fun b =>
        { b with allocated := true, requestedSize := origSize }) st.nextBlock = _ :=
      written_self alive
    simp only [blockOf] at here
    simp [here, created]
  · rw [State.Live, blocks, written_isSome]
    exact alive.trans live
  · rw [same]
    exact use.busy.trans idle
  · rw [handed]
    simp only [State.handedOut, State.modifyStats, State.insertActive, State.modifyBlock,
      Spared.carved_active]
    split
    · exact inactive
    · exact List.not_mem_cons_of_ne_of_not_mem older inactive
  · rw [same]
    exact use.pool.trans pool

theorem block_dead (dead : ¬ st.Live b) : st.block b = {} := by
  simp [State.block, Option.not_isSome_iff_eq_none.mp dead]

theorem allocateRecorded_keeps (restorable : Restorable mode cfg rt P) {block : BlockId}
    (open_ : ¬ mode.spares block) (pool : PoolRef) (states : List BlockState) {last : BlockId}
    (words : ∀ state ∈ states, state.size < 2 ^ 64) (holds : P .empty st) (pickable : st.Live block → Pickable st pool block)
    (lastLive : states = [] → st.Live last) :
    wp (allocateRecorded cfg pool states (some block) last)
      (fun last st' => P .empty st' ∧ st'.Live last) (fun _ st' => P .empty st') st := by
  induction states generalizing st last with
  | nil => exact ⟨holds, lastLive rfl⟩
  | cons state rest ih =>
    simp only [allocateRecorded, wp_bind, wp_modify]
    generalize paramsEq : (⟨state.device, state.size, state.stream, pool, state.size, some block,
      none⟩ : AllocParams) = params
    have chosen : params.block = some block := by rw [← paramsEq]
    have poolEq : params.pool = pool := by rw [← paramsEq]
    by_cases live : st.Live block
    · obtain ⟨idle, inactive, ofPool⟩ := pickable live
      have picked := restorable.closed holds (.pick st params block chosen (by rw [← paramsEq]) live
        idle inactive (ofPool.trans poolEq.symm) open_
        (by rw [← paramsEq]; exact words state List.mem_cons_self)
        fun exact => absurd exact restorable.inexact)
      rw [poolEq] at picked
      have kept : ∀ split, wp (allocFoundBlock cfg params state.size split)
          (fun _ st' => P .empty st') (fun _ st' => P .empty st') (st.eraseFromBlocks pool block) :=
        fun _ => allocFoundBlock_keeps restorable.closed chosen
          (fun _ => .inr (restorable.cuts _ _)) picked
      cases rest with
      | nil =>
        refine wp_mono (wp_and (kept _) (allocFoundBlock_kept state.size chosen _))
          (fun b st' both => ?_) (fun _ _ raised => raised.1)
        obtain ⟨holds', same, _, handed⟩ := both
        have alive : st'.Live b := by
          rw [handed, same, State.Live]
          simp only [State.handedOut, State.kept]
          split <;> exact (modifyBlock_isSome st).trans live
        simp only [wp_get, wp_torchCheck]
        exact ⟨fun _ => ⟨fun _ => ⟨fun _ => ⟨holds', alive⟩, fun _ => holds'⟩, fun _ => holds'⟩,
          fun _ => holds'⟩
      | cons next rest =>
        refine wp_mono (wp_and (kept _) (allocFoundBlock_carved state.size chosen _))
          (fun b st' both => ?_) (fun _ _ raised => raised.1)
        obtain ⟨holds', same, _, handed⟩ := both
        obtain ⟨link, _, after⟩ := (restorable.sound picked).remainder state.size handed
        rw [poolEq] at after
        rw [← same] at link
        simp only [wp_get, wp_torchCheck]
        refine ⟨fun _ => ⟨fun _ => ⟨fun _ => ?_, fun _ => holds'⟩, fun _ => holds'⟩,
          fun _ => holds'⟩
        rw [link]
        exact ih (fun later member => words later (List.mem_cons_of_mem _ member)) holds'
          (fun _ => after) (fun none_ => by simp at none_)
    · have unpooled := restorable.closed holds (.unpool st pool block live)
      have null : ((st.eraseFromBlocks pool block).block block).ptr = 0 := by
        have dead : ¬ (st.eraseFromBlocks pool block).Live block := live
        rw [block_dead dead]
      have raises : wp (allocFoundBlock cfg params state.size (!rest.isEmpty)) (fun _ _ => False)
          (fun _ st' => P .empty st') (st.eraseFromBlocks pool block) := by
        cases (!rest.isEmpty) with
        | true =>
          exact wp_mono (allocFoundBlock_carved state.size chosen _)
            (fun _ _ ended => ended.2.1 null) (fun _ _ same => same.1 ▸ unpooled)
        | false =>
          exact wp_mono (allocFoundBlock_kept state.size chosen _)
            (fun _ _ ended => ended.2.1 null) (fun _ _ same => same.1 ▸ unpooled)
      exact wp_mono raises (fun _ _ impossible => impossible.elim) (fun _ _ => id)

/-- The neighbours of a block, dead or alive, are live. -/
theorem Sound.next_live {exact : Prop} {h : Hand} (sound : Sound exact h st) {c : BlockId}
    (link : (st.block b).next = some c) : st.Live c := by
  obtain ⟨segs, shape, _⟩ := sound.heap
  have live : st.Live b := by
    by_contra dead
    simp [block_dead dead] at link
  exact (shape.next_neighbour live link).1

theorem Sound.prev_live {exact : Prop} {h : Hand} (sound : Sound exact h st) {c : BlockId}
    (link : (st.block b).prev = some c) : st.Live c := by
  obtain ⟨segs, shape, _⟩ := sound.heap
  have live : st.Live b := by
    by_contra dead
    simp [block_dead dead] at link
  exact (shape.prev_neighbour live link).1

theorem Sound.headOf_live {exact : Prop} {h : Hand} (sound : Sound exact h st) (fuel : Nat) (live : st.Live b) :
    st.Live (st.headOf fuel b) := by
  induction fuel generalizing b with
  | zero => exact live
  | succ fuel ih =>
    simp only [State.headOf]
    split
    · exact live
    · rename_i prev link
      exact ih (sound.prev_live link)

theorem freeRecorded_keeps (restorable : Restorable mode cfg rt P) (states : List BlockState)
    {curr : Option BlockId} {rr : RestoreResult} (holds : P .empty st)
    (live : ∀ b, curr = some b → st.Live b) :
    wp (freeRecorded cfg rt states curr rr) (fun _ st' => P .empty st')
      (fun _ st' => P .empty st') st := by
  induction states generalizing st curr rr with
  | nil => exact holds
  | cons state rest ih =>
    cases curr with
    | none => exact holds
    | some b =>
      simp only [freeRecorded, wp_bind, wp_ite, wp_get, wp_torchCheck]
      refine ⟨fun _ => ih holds fun c link => (restorable.sound holds).next_live link, fun _ => ?_⟩
      refine wp_mono (free_keeps restorable.closed restorable.steady (live b rfl)
        (fun exact => absurd exact restorable.inexact) holds) (fun _ st' freed => ?_) (fun _ _ => id)
      exact ⟨fun _ => ⟨fun _ => ⟨fun _ => ih freed fun c link =>
        (restorable.sound freed).next_live link, fun _ => freed⟩, fun _ => freed⟩, fun _ => freed⟩

theorem setSegmentStateToCheckpoint_keeps (restorable : Restorable mode cfg rt P)
    {block : BlockId} (open_ : ¬ mode.spares block) {segment : SegmentState}
    (nonempty : segment.blocks ≠ []) (words : ∀ state ∈ segment.blocks, state.size < 2 ^ 64)
    (rr : RestoreResult) (pickable : st.Live block → Pickable st (st.block block).pool block) (holds : P .empty st) :
    wp (setSegmentStateToCheckpoint cfg rt block segment rr) (fun _ st' => P .empty st')
      (fun _ st' => P .empty st') st := by
  simp only [setSegmentStateToCheckpoint, wp_bind, wp_get]
  refine wp_mono (allocateRecorded_keeps restorable open_ _ _ words holds pickable
    (fun empty => absurd empty nonempty)) (fun last st' allocated => ?_) (fun _ _ => id)
  refine freeRecorded_keeps restorable _ allocated.1 fun b same => ?_
  cases same
  exact (restorable.sound allocated.1).headOf_live _ allocated.2

/-! ### The whole restore -/

theorem freeFollowing_keeps (restorable : Restorable mode cfg rt P) (fuel : Nat)
    (curr : Option BlockId) (rr : RestoreResult) :
    Keeps P (freeFollowing cfg rt fuel curr rr) := by
  induction fuel generalizing curr rr with
  | zero => exact .pure _
  | succ fuel ih =>
    cases curr with
    | none => exact .pure _
    | some b =>
      intro st holds
      simp only [freeFollowing, wp_bind, wp_get, wp_ite, wp_pure, wp_torchCheck]
      refine ⟨fun allocated => ⟨fun _ => ?_, fun _ => holds⟩, fun _ => ih _ _ st holds⟩
      refine wp_mono (free_keeps restorable.closed restorable.steady (live_of_allocated allocated)
        (fun _ => allocated) holds) (fun _ st' freed => ?_) (fun _ _ => id)
      exact ⟨fun _ => ih _ _ st' freed, fun _ => freed⟩

theorem freeSegments_keeps (restorable : Restorable mode cfg rt P) (heads : List BlockId)
    (rr : RestoreResult) : Keeps P (freeSegments cfg rt heads rr) := by
  induction heads generalizing rr with
  | nil => exact .pure _
  | cons head rest ih =>
    exact .get_bind fun _ => .bind (freeFollowing_keeps restorable _ _ _) fun _ => ih _

theorem freeBlocksAllocatedToPool_keeps (restorable : Restorable mode cfg rt P)
    (pool : PrivatePoolId) : Keeps P (freeBlocksAllocatedToPool cfg rt pool) :=
  .get_bind fun _ => .bind (freeSegments_keeps restorable _ _) fun _ => .get_bind fun _ =>
    .bind (.check_torch _ _) fun _ => .pure _

theorem blockAt_mem {ptrsToBlocks : List (Nat × BlockId)} {ptr : Nat}
    (found : blockAt ptrsToBlocks ptr = some b) : (ptr, b) ∈ ptrsToBlocks := by
  simp only [blockAt, Option.map_eq_some_iff] at found
  obtain ⟨entry, found, rfl⟩ := found
  have key : entry.1 = ptr := by simpa using List.find?_some found
  exact key ▸ List.mem_reverse.mp (List.mem_of_find?_eq_some found)

/-- The address at which a recorded segment begins. -/
def SegmentState.start (segment : SegmentState) : Option Nat := segment.blocks.head?.map (·.ptr)

/-- What every checkpoint is like: no two of its segments begin at one address, and its
sizes are words. -/
structure PrivatePoolState.Proper (pps : PrivatePoolState) : Prop where
  starts : (pps.segments.map (·.start)).Nodup
  words : ∀ segment ∈ pps.segments, ∀ state ∈ segment.blocks, state.size < 2 ^ 64

theorem Restorable.spare (restorable : ∀ spares, Restorable { mode with spares } cfg rt P)
    (b : BlockId) : Restorable { mode with spares := (· = b) } cfg rt
      fun h st => P h st ∧ Spared b h st :=
  have base := restorable (· = b)
  { closed := fun _ _ _ _ holds act => ⟨base.closed holds.1 act, Spared.closed holds.2 act⟩
    sound := fun _ _ holds => base.sound holds.1
    inexact := base.inexact
    cuts := base.cuts
    steady := base.steady }

theorem restoreSegments_keeps (restorable : ∀ spares, Restorable { mode with spares } cfg rt P)
    {ptrsToBlocks : List (Nat × BlockId)}
    (functional : ∀ e ∈ ptrsToBlocks, ∀ e' ∈ ptrsToBlocks, e.2 = e'.2 → e.1 = e'.1)
    (segments : List SegmentState) (starts : (segments.map (·.start)).Nodup)
    (words : ∀ segment ∈ segments, ∀ state ∈ segment.blocks, state.size < 2 ^ 64)
    (rr : RestoreResult) (holds : P .empty st)
    (spared : ∀ segment ∈ segments, ∀ ptr b, segment.start = some ptr →
      (ptr, b) ∈ ptrsToBlocks → Spared b .empty st) :
    wp (restoreSegments cfg rt ptrsToBlocks segments rr) (fun _ st' => P .empty st')
      (fun _ st' => P .empty st') st := by
  induction segments generalizing st rr with
  | nil => exact holds
  | cons segment rest ih =>
    obtain ⟨fresh, starts⟩ := List.nodup_cons.mp starts
    simp only [restoreSegments]
    cases head : segment.blocks.head? with
    | none => exact holds
    | some first =>
      have nonempty : segment.blocks ≠ [] := by
        rintro none_
        simp [none_] at head
      have start : segment.start = some first.ptr := by simp [SegmentState.start, head]
      simp only
      cases found : blockAt ptrsToBlocks first.ptr with
      | none => exact holds
      | some block =>
        have here := blockAt_mem found
        have ours := spared segment List.mem_cons_self first.ptr block start here
        have pickable : st.Live block → Pickable st (st.block block).pool block :=
          fun _ => ⟨ours.idle, ours.inactive, rfl⟩
        have wordsHere := words segment List.mem_cons_self
        have kept := setSegmentStateToCheckpoint_keeps (restorable fun _ => False) id nonempty
          wordsHere rr pickable holds
        -- The blocks of the later segments are spared while this one is restored.
        have spares : ∀ other ∈ rest, ∀ ptr b, other.start = some ptr →
            (ptr, b) ∈ ptrsToBlocks → Spared b .empty st ∧ block ≠ b := by
          intro other member ptr b otherStart there
          refine ⟨spared other (List.mem_cons_of_mem _ member) ptr b otherStart there, ?_⟩
          rintro rfl
          have same : first.ptr = ptr := functional _ here _ there rfl
          exact fresh (List.mem_map.mpr ⟨other, member, by rw [otherStart, ← same]; exact start.symm⟩)
        simp only [wp_bind]
        refine wp_of_runs (fun rr' st' ran => ?_) (fun _ _ ran => (wp_error kept ran :))
        have holds' : P .empty st' := (wp_ok kept ran :)
        refine ih starts (fun other member => words other (List.mem_cons_of_mem _ member)) rr' holds'
          fun other member ptr b otherStart there => ?_
        obtain ⟨before, differ⟩ := spares other member ptr b otherStart there
        have both := setSegmentStateToCheckpoint_keeps (Restorable.spare restorable b) differ
          nonempty wordsHere rr pickable ⟨holds, before⟩
        have after := (wp_ok both ran :)
        exact after.2

/-- A restore keeps what the actions keep, whatever state it is applied to. -/
theorem setCheckpointPoolState_keeps (restorable : ∀ spares, Restorable { mode with spares } cfg rt P)
    {pps : PrivatePoolState} (proper : pps.Proper) :
    Keeps P (setCheckpointPoolState cfg rt pps) := by
  intro st holds
  simp only [setCheckpointPoolState, wp_bind, wp_get, wp_torchCheck]
  refine ⟨fun _ => ?_, fun _ => holds⟩
  split
  · rename_i pool present
    simp only [wp_bind, wp_get]
    refine wp_mono (freeBlocksAllocatedToPool_keeps (restorable mode.spares) pool st holds)
      (fun rr st₁ freed => ?_) (fun _ _ => id)
    have sound : Sound mode.exact .empty st₁ := (restorable mode.spares).sound freed
    refine restoreSegments_keeps restorable ?_ _ proper.starts proper.words rr freed ?_
    · intro e member e' member' same
      obtain ⟨b, _, rfl⟩ := List.mem_map.mp member
      obtain ⟨b', _, rfl⟩ := List.mem_map.mp member'
      simp only at same
      rw [same]
    · intro segment _ ptr b _ listed
      obtain ⟨b', member, same⟩ := List.mem_map.mp listed
      obtain rfl : b' = b := congrArg Prod.snd same
      obtain ⟨segs, shape, _⟩ := sound.heap
      have pooled : ∃ pool, b' ∈ (st₁.pools pool).blocks := by
        rcases List.mem_append.mp member with small | large
        · exact ⟨_, small⟩
        · exact ⟨_, large⟩
      obtain ⟨pool, member⟩ := pooled
      obtain ⟨live, _, idle⟩ := sound.pooled.block member
      exact ⟨shape.bound b' live, idle, sound.listed.apart pool b' member, id⟩
  · exact holds

end TorchGcu.GCUCachingAllocator

import TorchGcu.CachingAllocator.EntryPoints
import TorchGcu.CachingAllocator.HeapOrder

/-! No memory is handed out again while a stream may still use it. What a stream is owed is
kept for a block until an event of that stream, recorded after the block was freed, has
completed: by the uses of the block, by an event it awaits, or by the operation that is
recording its events. -/
namespace TorchGcu.GCUCachingAllocator
open ProgramLogic

variable {mode : Mode} {cfg : GCUAllocatorConfig} {rt : Runtime} {h h' : Hand} {st st' : State}
  {waits : EventId → BlockId}

/-- An event was recorded on the stream, and it has completed. -/
def Synchronized (events : List Event) (stream : GCUStream) : Prop :=
  ∃ event, .recorded event stream ∈ events ∧ .completed event ∈ events

/-- The events recorded for a block that have not completed. -/
def State.outstanding (st : State) (waits : EventId → BlockId) (b : BlockId) : Finset EventId :=
  (Finset.range st.nextEvent).filter fun event =>
    waits event = b ∧ Event.completed event ∉ st.history

theorem mem_outstanding {b : BlockId} {event : EventId} : event ∈ st.outstanding waits b ↔
    event < st.nextEvent ∧ waits event = b ∧ Event.completed event ∉ st.history := by
  simp [State.outstanding]

/-- Each block counts at least the events that are outstanding for it. -/
structure Awaiting (waits : EventId → BlockId) (st : State) : Prop where
  counts : ∀ b, ((st.outstanding waits b).card : Int) ≤ (st.block b).eventCount
  queued : ∀ e ∈ st.gcuEvents, ∀ event, e.event = some event →
    event ∈ st.outstanding waits e.block
  completed : ∀ event, .completed event ∈ st.history → event < st.nextEvent

/-- What keeps a block for a stream. -/
inductive Held (waits : EventId → BlockId) (h : Hand) (st : State) (recent : List Event)
    (b : BlockId) (stream : GCUStream) : Prop where
  | used (given : (st.block b).allocated = false) (uses : stream ∈ (st.block b).streamUses)
  | awaited (event : EventId) (recorded : .recorded event stream ∈ recent)
      (outstanding : event ∈ st.outstanding waits b)
  | recording (streams : List GCUStream) (hand : h = .recording b streams)
      (left : stream ∈ streams)

/-- For each block freed so far, each stream that used it has been synchronized since then, or
the block is kept. -/
def Owed (waits : EventId → BlockId) (h : Hand) (st : State) : Prop :=
  ∀ recent range streams earlier, st.history = recent ++ .freeRequested range streams :: earlier →
    ∀ stream ∈ streams, Synchronized recent stream ∨
      ∃ b, st.Live b ∧ st.rangeOf b = range ∧ Held waits h st recent b stream

/-- The streams are protected, whichever blocks the events were recorded for. -/
def Protected (h : Hand) (st : State) : Prop :=
  ∃ waits, Awaiting waits st ∧ Owed waits h st

/-- Events that neither free a block nor record or complete an event. -/
def Event.Neutral : Event → Prop
  | .freeRequested _ _ => False
  | .recorded _ _ => False
  | .completed _ => False
  | _ => True

theorem Synchronized.cons {events : List Event} {stream : GCUStream} (event : Event)
    (done : Synchronized events stream) : Synchronized (event :: events) stream := by
  obtain ⟨e, recorded, completed⟩ := done
  exact ⟨e, List.mem_cons_of_mem _ recorded, List.mem_cons_of_mem _ completed⟩

/-- A block with outstanding events waits for them. -/
theorem Awaiting.busy (awaiting : Awaiting waits st) {b : BlockId} {event : EventId}
    (outstanding : event ∈ st.outstanding waits b) : (st.block b).busy = true := by
  have some_ : 0 < (st.outstanding waits b).card := Finset.card_pos.mpr ⟨event, outstanding⟩
  have count := awaiting.counts b
  have waiting : 0 < (st.block b).eventCount := by omega
  simp [Block.busy, waiting]

/-- A block that is kept is busy, or the operation is recording its events. -/
theorem Held.busy (awaiting : Awaiting waits st) {recent : List Event} {b : BlockId}
    {stream : GCUStream} (held : Held waits h st recent b stream) :
    (st.block b).busy = true ∨ ∃ streams, h = .recording b streams ∧ stream ∈ streams := by
  cases held with
  | used given uses =>
    have used : (st.block b).streamUses ≠ [] := List.ne_nil_of_mem uses
    exact .inl (Sound.used_busy used)
  | awaited event recorded outstanding => exact .inl (awaiting.busy outstanding)
  | recording streams hand left => exact .inr ⟨streams, hand, left⟩

/-- What keeps a block goes on doing so. -/
theorem Held.map {waits' : EventId → BlockId} {recent recent' : List Event} {b : BlockId}
    {stream : GCUStream} (held : Held waits h st recent b stream)
    (given : (st.block b).allocated = false → (st'.block b).allocated = false)
    (uses : (st.block b).streamUses ⊆ (st'.block b).streamUses) (events : recent ⊆ recent')
    (outstanding : st.outstanding waits b ⊆ st'.outstanding waits' b)
    (hands : ∀ streams, h = .recording b streams → stream ∈ streams → h' = h) :
    Held waits' h' st' recent' b stream := by
  cases held with
  | used free used => exact .used (given free) (uses used)
  | awaited event recorded waiting => exact .awaited event (events recorded) (outstanding waiting)
  | recording streams hand left =>
    exact .recording streams ((hands streams hand left).trans hand) left

/-- One more event, none of a block that is freed. -/
theorem Owed.logged {waits' : EventId → BlockId} {event : Event} (owed : Owed waits h st)
    (history : st'.history = event :: st.history)
    (other : ∀ range streams, event ≠ .freeRequested range streams)
    (keeps : ∀ recent b stream, st.Live b → Held waits h st recent b stream →
      Synchronized (event :: recent) stream ∨ (st'.Live b ∧ st'.rangeOf b = st.rangeOf b ∧
        Held waits' h' st' (event :: recent) b stream)) :
    Owed waits' h' st' := by
  intro recent range streams earlier split stream used
  rw [history] at split
  cases recent with
  | nil => exact absurd (List.cons.inj split).1 (other range streams)
  | cons first rest =>
    obtain ⟨same, later⟩ := List.cons.inj split
    subst same
    rcases owed rest range streams earlier later stream used with done | ⟨b, live, there, held⟩
    · exact .inl (done.cons _)
    · rcases keeps rest b stream live held with done | ⟨live', same, held'⟩
      · exact .inl done
      · exact .inr ⟨b, live', same.trans there, held'⟩

/-- No more events. -/
theorem Owed.silent {waits' : EventId → BlockId} (owed : Owed waits h st)
    (history : st'.history = st.history)
    (keeps : ∀ recent b stream, st.Live b → Held waits h st recent b stream →
      st'.Live b ∧ st'.rangeOf b = st.rangeOf b ∧ Held waits' h' st' recent b stream) :
    Owed waits' h' st' := by
  intro recent range streams earlier split stream used
  rw [history] at split
  rcases owed recent range streams earlier split stream used with done | ⟨b, live, there, held⟩
  · exact .inl done
  · obtain ⟨live', same, held'⟩ := keeps recent b stream live held
    exact .inr ⟨b, live', same.trans there, held'⟩

/-- An action that leaves the blocks alone that are kept, and the events they await. -/
structure Neutral (h : Hand) (st : State) (h' : Hand) (st' : State) : Prop where
  history : st'.history = st.history ∨
    ∃ event : Event, event.Neutral ∧ st'.history = event :: st.history
  nextEvent : st'.nextEvent = st.nextEvent
  counts : ∀ b, (st'.block b).eventCount = (st.block b).eventCount
  queued : ∀ e' ∈ st'.gcuEvents, ∀ event, e'.event = some event →
    ∃ e ∈ st.gcuEvents, e.event = some event ∧ e.block = e'.block
  kept : ∀ b, (st.block b).busy = true ∨ (∃ stream streams, h = .recording b (stream :: streams)) →
    st.Live b → st'.Live b ∧ st'.rangeOf b = st.rangeOf b ∧
      ((st.block b).allocated = false → (st'.block b).allocated = false) ∧
        (st.block b).streamUses ⊆ (st'.block b).streamUses
  hands : ∀ b stream streams, h = .recording b (stream :: streams) → h' = h

theorem Neutral.outstanding (neutral : Neutral h st h' st') (b : BlockId) :
    st'.outstanding waits b = st.outstanding waits b := by
  ext event
  rw [mem_outstanding, mem_outstanding, neutral.nextEvent]
  rcases neutral.history with same | ⟨logged, plain, added⟩
  · rw [same]
  · have other : Event.completed event ≠ logged := by
      rintro rfl
      exact plain
    simp [added, other]

theorem Protected.neutral (kept : Protected h st) (neutral : Neutral h st h' st') :
    Protected h' st' := by
  obtain ⟨waits, awaiting, owed⟩ := kept
  have keeps : ∀ recent b stream, st.Live b → Held waits h st recent b stream →
      st'.Live b ∧ st'.rangeOf b = st.rangeOf b ∧ Held waits h' st' recent b stream := by
    intro recent b stream live held
    have busy : (st.block b).busy = true ∨ ∃ s ss, h = .recording b (s :: ss) := by
      rcases held.busy awaiting with busy | ⟨streams, hand, left⟩
      · exact .inl busy
      · obtain ⟨s, ss, rfl⟩ := List.exists_cons_of_ne_nil (List.ne_nil_of_mem left)
        exact .inr ⟨s, ss, hand⟩
    obtain ⟨live', range, given', uses'⟩ := neutral.kept b busy live
    refine ⟨live', range, held.map given' uses' (List.Subset.refl _)
      (neutral.outstanding b).symm.subset fun streams hand left => ?_⟩
    obtain ⟨s, ss, rfl⟩ := List.exists_cons_of_ne_nil (List.ne_nil_of_mem left)
    exact neutral.hands b s ss hand
  refine ⟨waits, ⟨fun b => ?_, fun e' member event pending => ?_, fun event completed => ?_⟩, ?_⟩
  · rw [neutral.outstanding, neutral.counts]
    exact awaiting.counts b
  · obtain ⟨e, old, same, block⟩ := neutral.queued e' member event pending
    rw [neutral.outstanding, ← block]
    exact awaiting.queued e old event same
  · rw [neutral.nextEvent]
    rcases neutral.history with same | ⟨logged, plain, added⟩
    · exact awaiting.completed event (same ▸ completed)
    · rw [added] at completed
      rcases List.mem_cons.mp completed with rfl | old
      · exact plain.elim
      · exact awaiting.completed event old
  · rcases neutral.history with same | ⟨logged, plain, added⟩
    · exact owed.silent same keeps
    · refine owed.logged added (fun range streams same => ?_) fun recent b stream live held => ?_
      · rw [same] at plain
        exact plain
      · obtain ⟨live', range, held'⟩ := keeps recent b stream live held
        exact .inr ⟨live', range, held'.map id (List.Subset.refl _) (List.subset_cons_self _ _)
          (Finset.Subset.refl _) fun _ _ _ => rfl⟩

/-! ### Actions that leave what is kept alone -/

namespace Neutral

/-- No block changes, and no event is recorded or completed. -/
theorem still (blocks : st'.blocks = st.blocks) (nextEvent : st'.nextEvent = st.nextEvent)
    (history : st'.history = st.history ∨
      ∃ event : Event, event.Neutral ∧ st'.history = event :: st.history)
    (queued : ∀ e' ∈ st'.gcuEvents, ∀ event, e'.event = some event →
      ∃ e ∈ st.gcuEvents, e.event = some event ∧ e.block = e'.block)
    (hands : ∀ b stream streams, h = .recording b (stream :: streams) → h' = h) :
    Neutral h st h' st' := by
  have same : ∀ b, st'.block b = st.block b := fun b => by simp only [State.block, blocks]
  refine ⟨history, nextEvent, fun b => by rw [same], queued, fun b _ live => ?_, hands⟩
  refine ⟨by simpa only [State.Live, blocks] using live, ?_, ?_, ?_⟩
  · simp only [State.rangeOf, same]
  · rw [same]
    exact id
  · rw [same]
    exact List.Subset.refl _

/-- Blocks change that nobody keeps. -/
theorem idle (nextEvent : st'.nextEvent = st.nextEvent)
    (history : st'.history = st.history ∨
      ∃ event : Event, event.Neutral ∧ st'.history = event :: st.history)
    (queued : st'.gcuEvents = st.gcuEvents)
    (counts : ∀ b, (st'.block b).eventCount = (st.block b).eventCount)
    (kept : ∀ b, (st.block b).busy = true → st.Live b → st'.Live b ∧
      (st'.block b).key = (st.block b).key ∧ SameUse (st'.block b) (st.block b))
    (hands : ∀ b stream streams, h ≠ .recording b (stream :: streams)) :
    Neutral h st h' st' := by
  refine ⟨history, nextEvent, counts, fun e member event pending =>
    ⟨e, queued ▸ member, pending, rfl⟩, fun b held live => ?_, fun b s ss hand =>
    absurd hand (hands b s ss)⟩
  have busy : (st.block b).busy = true := by
    rcases held with busy | ⟨s, ss, hand⟩
    · exact busy
    · exact absurd hand (hands b s ss)
  obtain ⟨live', key, use⟩ := kept b busy live
  simp only [Block.key, Prod.mk.injEq] at key
  refine ⟨live', ?_, ?_, ?_⟩
  · simp only [State.rangeOf, key.2.1, key.2.2]
  · rw [use.allocated]
    exact id
  · rw [use.streamUses]
    exact List.Subset.refl _

end Neutral

theorem eventCount_of_idle {exact : Prop} (sound : Sound exact h st) {b : BlockId}
    (idle : (st.block b).busy = false) : (st.block b).eventCount = 0 := by
  have count := sound.eventCount_nonneg b
  simp only [Block.busy, Bool.or_eq_false_iff, decide_eq_false_iff_not] at idle
  omega

theorem mergeBlocks_key {dst src : BlockId} {pool : PoolRef} {x : BlockId} (other : x ≠ dst)
    (left : x ≠ src) : ((st.mergeBlocks dst src pool).block x).key = (st.block x).key := by
  have deleted : ∀ st₂ : State, (st₂.block x).key = (st.block x).key →
      (((st₂.eraseFromBlocks pool src).deleteBlock src).block x).key = (st.block x).key :=
    fun st₂ same => by
      rw [← same]
      simp [State.block, State.deleteBlock, State.eraseFromBlocks, State.modifyPool, left]
  simp only [State.mergeBlocks]
  split
  · refine deleted _ ?_
    rw [modifyBlock_key (absurd · other), setNext_key,
      modifyBlock_key (absurd · other)]
  · refine deleted _ ?_
    rw [modifyBlock_key (absurd · other), setPrev_key,
      modifyBlock_key (absurd · other)]

theorem splitBlock_key {params : AllocParams} {found x : BlockId} (other : x ≠ found)
    (old : x ≠ st.nextBlock) :
    ((st.splitBlock params found).1.block x).key = (st.block x).key := by
  simp only [State.splitBlock]
  rw [State.block, insertIntoBlocks_blocks, ← State.block,
    modifyBlock_key (absurd · other), modifyBlock_key (absurd · other),
    setNext_key]
  simp [State.block, State.newBlock, old]

/-- A block that has not been written. -/
theorem untouched {b : BlockId} (same : st'.blocks b = st.blocks b) (live : st.Live b) :
    st'.Live b ∧ (st'.block b).key = (st.block b).key ∧ SameUse (st'.block b) (st.block b) := by
  have block : st'.block b = st.block b := by simp only [State.block, same]
  rw [block]
  exact ⟨by simpa only [State.Live, same] using live, rfl, sameUse rfl⟩

namespace Protected

/-- A block is swallowed by one that is about to be cached. -/
theorem merge {dst src : BlockId} {pool : PoolRef} {origin : Block} {left right left' right' : Side}
    (kept : Protected (.merging dst origin left right) st)
    (sound : Sound True (.merging dst origin left right) st)
    (idle : (st.block src).busy = false) :
    Protected (.merging dst origin left' right') (st.mergeBlocks dst src pool) := by
  have rest := mergeBlocks_local st dst src pool
  have quiet : (st.block dst).busy = false := by
    have quiescent : (st.block dst).quiescent = true := sound.hand.2.1
    simp only [Block.quiescent, Bool.and_eq_true, Bool.not_eq_true', beq_iff_eq] at quiescent
    simp [Block.busy, quiescent.1.1, quiescent.1.2, quiescent.2]
  refine kept.neutral (.idle rest.nextEvent (.inl rest.history) rest.gcuEvents (fun b => ?_)
    (fun b busy live => ?_) (fun b s ss hand => by cases hand))
  · by_cases here : b = src
    · rw [here, eventCount_of_idle sound idle]
      simp [State.block, mergeBlocks_gone]
    · exact (use_of_map (mergeBlocks_use st dst src pool here)).2.eventCount
  · have other : b ≠ src := by
      rintro rfl
      simp [idle] at busy
    have differ : b ≠ dst := by
      rintro rfl
      simp [quiet] at busy
    obtain ⟨alive, use⟩ := use_of_map (mergeBlocks_use st dst src pool other)
    exact ⟨alive.trans live, mergeBlocks_key differ other, use⟩

theorem carve {params : AllocParams} {found : BlockId} (kept : Protected (.taken params found) st)
    (sound : Sound True (.taken params found) st) :
    Protected (.ready params st.nextBlock) (st.carved params found) := by
  have rest := carved_local st params found
  have blocks := Spared.carved_blocks st params found
  obtain ⟨segs, shape, _⟩ := sound.heap
  have dead := shape.next_dead
  have created := shape.splitBlock_blocks params sound.hand.1.live st.nextBlock
  have foundOld := (shape.bound found sound.hand.1.live).ne
  rw [if_neg foundOld.symm, if_pos rfl] at created
  refine kept.neutral (.idle rest.nextEvent (.inl rest.history) rest.gcuEvents (fun b => ?_)
    (fun b busy live => ?_) (fun b s ss hand => by cases hand))
  · by_cases new : b = st.nextBlock
    · subst new
      simp [State.block, blocks, created, dead]
    · simp only [State.block, blocks]
      exact (use_of_map (splitBlock_use st params found new)).2.eventCount
  · have other : b ≠ found := by
      rintro rfl
      have idle : (st.block b).busy = false := sound.hand.1.idle
      simp [idle] at busy
    have old : b ≠ st.nextBlock := (shape.bound b live).ne
    obtain ⟨alive, use⟩ := use_of_map (splitBlock_use st params found old)
    have key := @splitBlock_key _ params _ _ other old
    simp only [State.block, State.Live, blocks] at key ⊢
    exact ⟨alive.trans live, key, use⟩

theorem obtain {params : AllocParams} {ptr : Nat} (kept : Protected .empty st)
    (sound : Sound True .empty st) :
    Protected (.taken { params with block := some st.nextBlock, err := none } st.nextBlock)
      (st.newSegment cfg params ptr) := by
  obtain ⟨segs, shape, _⟩ := sound.heap
  have dead := shape.next_dead
  have other : ∀ b, b ≠ st.nextBlock → (st.newSegment cfg params ptr).blocks b = st.blocks b :=
    fun b old => by simp [newSegment_blocks, old]
  refine kept.neutral (.idle (by simp) (.inr ⟨.allocBlock _ _ _, trivial, newSegment_history st cfg params ptr⟩)
    (by simp) (fun b => ?_) (fun b _ live => ?_) (fun b s ss hand => by cases hand))
  · by_cases new : b = st.nextBlock
    · subst new
      simp [State.block, newSegment_blocks, dead]
    · simp only [State.block, other b new]
  · exact untouched (other b (shape.bound b live).ne) live

/-- A block in the pool order is only given another age. -/
theorem settle {block : BlockId} {origin : Block} {left right : Side}
    (kept : Protected (.merging block origin left right) st) :
    Protected .empty ((st.eraseActive block).insertIntoBlocks origin.pool block).1 := by
  have rest := insertIntoBlocks_local (st.eraseActive block) origin.pool block
  have use : ∀ b, _ := fun b =>
    use_of_map (insertIntoBlocks_use (st.eraseActive block) origin.pool block (b := b))
  refine kept.neutral (.idle rest.nextEvent (.inl rest.history) rest.gcuEvents
    (fun b => (use b).2.eventCount) (fun b _ live => ⟨(use b).1.trans live, ?_, (use b).2⟩)
    (fun b s ss hand => by cases hand))
  have aged : ((((st.eraseActive block).modifyBlock block fun k =>
      { k with gcCountBase := (st.pools origin.pool).getFreeBlocksCallCount }).block b).key) =
        ((st.eraseActive block).block b).key := modifyBlock_key fun _ _ => rfl
  rw [State.block, insertIntoBlocks_blocks, ← State.block]
  exact aged

theorem release {block : BlockId} {pool : PoolRef} (kept : Protected .empty st)
    (sound : Sound True .empty st) (pooled : block ∈ (st.pools pool).blocks) :
    Protected .empty (st.released cfg block) := by
  have idle : (st.block block).busy = false := (sound.pooled.block pooled).2.2
  have same : ∀ b, b ≠ block → (st.released cfg block).blocks b = st.blocks b := fun b differ => by
    simp [released_blocks, differ]
  refine kept.neutral (.idle (by simp) (.inr ⟨.releaseBlock _, trivial, released_history st cfg block⟩) (by simp)
    (fun b => ?_) (fun b busy live => ?_) (fun b s ss hand => by cases hand))
  · by_cases here : b = block
    · rw [here, eventCount_of_idle sound idle]
      simp [State.block, released_blocks]
    · simp only [State.block, same b here]
  · have differ : b ≠ block := by
      rintro rfl
      simp [idle] at busy
    exact untouched (same b differ) live

theorem handOut {params : AllocParams} {block : BlockId} {origSize : Nat}
    (kept : Protected (.ready params block) st) (sound : Sound True (.ready params block) st) :
    Protected .empty (st.handedOut cfg params origSize block) := by
  have idle : (st.block block).busy = false := sound.hand.1.idle
  have blocks : (st.handedOut cfg params origSize block).blocks = written st.blocks block fun b =>
      { b with allocated := true, requestedSize := origSize } := rfl
  refine kept.neutral (.idle rfl (.inl rfl) rfl (fun b => ?_) (fun b busy live => ?_)
    (fun b s ss hand => by cases hand))
  · by_cases here : b = block
    · have given : (st.handedOut cfg params origSize block).block block =
          { st.block block with allocated := true, requestedSize := origSize } :=
        written_self sound.hand.1.live
      rw [here, given]
    · simp only [State.block, blocks, written_of_ne here]
  · have differ : b ≠ block := by
      rintro rfl
      simp [idle] at busy
    exact untouched (by rw [blocks, written_of_ne differ]) live

/-! ### Freeing a block, and recording and completing its events -/

theorem giveUp {block : BlockId} (kept : Protected .empty st) (live : st.Live block) :
    Protected (.givenUp block) (st.givenUp cfg block) := by
  obtain ⟨waits, awaiting, owed⟩ := kept
  have blocks : (st.givenUp cfg block).blocks =
      written st.blocks block fun b => { b with allocated := false } := rfl
  have history : (st.givenUp cfg block).history =
      .freeRequested (st.rangeOf block) (st.block block).streamUses :: st.history := rfl
  have here : (st.givenUp cfg block).block block = { st.block block with allocated := false } :=
    written_self live
  have present : ∀ b, (st.givenUp cfg block).Live b ↔ st.Live b := fun b => by
    simp only [State.Live, blocks, written_isSome]
  have uses : ∀ b, ((st.givenUp cfg block).block b).streamUses = (st.block b).streamUses :=
    written_field blocks fun _ => rfl
  have ranges : ∀ b, (st.givenUp cfg block).rangeOf b = st.rangeOf b := written_rangeOf blocks
    fun _ => rfl
  have given : ∀ b, (st.block b).allocated = false →
      ((st.givenUp cfg block).block b).allocated = false := fun b free => by
    by_cases same : b = block
    · rw [same, here]
    · simpa only [State.block, blocks, written_of_ne same] using free
  have outstanding : ∀ b, (st.givenUp cfg block).outstanding waits b = st.outstanding waits b :=
    fun b => by
      ext event
      simp [mem_outstanding, history, show (st.givenUp cfg block).nextEvent = st.nextEvent from rfl]
  refine ⟨waits, ⟨fun b => ?_, fun e member event pending => ?_, fun event completed => ?_⟩, ?_⟩
  · rw [outstanding, written_field (g := Block.eventCount) blocks fun _ => rfl]
    exact awaiting.counts b
  · rw [outstanding]
    exact awaiting.queued e member event pending
  · rw [history] at completed
    exact awaiting.completed event (by simpa using completed)
  · intro recent range streams earlier split stream used
    rw [history] at split
    cases recent with
    | nil =>
      obtain ⟨freed, _⟩ := List.cons.inj split
      obtain ⟨rfl, rfl⟩ := Event.freeRequested.inj freed
      refine .inr ⟨block, (present block).mpr live, ranges block, .used ?_ ?_⟩
      · rw [here]
      · rw [here]
        exact used
    | cons first rest =>
      obtain ⟨same, later⟩ := List.cons.inj split
      rcases owed rest range streams earlier later stream used with done | ⟨b, alive, there, held⟩
      · exact .inl (done.cons _)
      · exact .inr ⟨b, (present b).mpr alive, (ranges b).trans there, held.map (given b)
          (fun _ => uses b ▸ id) (List.subset_cons_self _ _) (outstanding b).symm.subset
          fun _ hand => by cases hand⟩

/-- The uses of a block become the events that are to be recorded. -/
theorem record {block : BlockId} (kept : Protected h st)
    (hands : ∀ b streams, h ≠ .recording b streams) :
    Protected (.recording block (st.block block).streamUses) (st.usesTaken block) := by
  obtain ⟨waits, awaiting, owed⟩ := kept
  have blocks : (st.usesTaken block).blocks =
      written st.blocks block fun b => { b with streamUses := [] } := rfl
  have other : ∀ b, b ≠ block → (st.usesTaken block).block b = st.block b := fun b differ => by
    simp only [State.block, blocks, written_of_ne differ]
  refine ⟨waits, ⟨fun b => ?_, awaiting.queued, awaiting.completed⟩,
    owed.silent rfl fun recent b stream live held =>
      ⟨?_, written_rangeOf blocks (fun _ => rfl) b, ?_⟩⟩
  · rw [written_field (g := Block.eventCount) blocks fun _ => rfl]
    exact awaiting.counts b
  · simpa only [State.Live, blocks, written_isSome] using live
  · cases held with
    | used given uses =>
      by_cases same : b = block
      · subst same
        exact .recording _ rfl uses
      · exact .used (by rw [other b same]; exact given) (by rw [other b same]; exact uses)
    | awaited event recorded waiting => exact .awaited event recorded waiting
    | recording streams hand left => exact absurd hand (hands b streams)

theorem push {block : BlockId} {stream : GCUStream} {streams : List GCUStream}
    (kept : Protected (.recording block (stream :: streams)) st) (live : st.Live block) :
    Protected (.recording block streams) (st.pushEvent stream block) := by
  obtain ⟨waits, awaiting, owed⟩ := kept
  have blocks : (st.pushEvent stream block).blocks =
      written st.blocks block fun b => { b with eventCount := b.eventCount + 1 } := rfl
  have history : (st.pushEvent stream block).history =
      .recorded st.nextEvent stream :: st.history := rfl
  have next : (st.pushEvent stream block).nextEvent = st.nextEvent + 1 := rfl
  have here : (st.pushEvent stream block).block block =
      { st.block block with eventCount := (st.block block).eventCount + 1 } := written_self live
  have other : ∀ b, b ≠ block → (st.pushEvent stream block).block b = st.block b :=
    fun b differ => by simp only [State.block, blocks, written_of_ne differ]
  have unseen : Event.completed st.nextEvent ∉ st.history := fun completed =>
    (awaiting.completed _ completed).ne rfl
  let waits' : EventId → BlockId := Function.update waits st.nextEvent block
  have old : ∀ b event, event ∈ st.outstanding waits b →
      event ∈ (st.pushEvent stream block).outstanding waits' b := fun b event outstanding => by
    obtain ⟨below, waiting, open_⟩ := mem_outstanding.mp outstanding
    refine mem_outstanding.mpr ⟨by rw [next]; exact below.trans (Nat.lt_succ_self _), ?_, ?_⟩
    · simpa [waits', below.ne] using waiting
    · simpa [history] using open_
  have new : st.nextEvent ∈ (st.pushEvent stream block).outstanding waits' block :=
    mem_outstanding.mpr ⟨by rw [next]; exact Nat.lt_succ_self _, by simp [waits'],
      by simpa [history] using unseen⟩
  have covered : ∀ b, (st.pushEvent stream block).outstanding waits' b ⊆
      if b = block then insert st.nextEvent (st.outstanding waits b)
      else st.outstanding waits b := fun b event outstanding => by
    obtain ⟨below, waiting, open_⟩ := mem_outstanding.mp outstanding
    rw [next] at below
    rw [history] at open_
    by_cases fresh : event = st.nextEvent
    · subst fresh
      have same : b = block := by simpa [waits'] using waiting.symm
      simp [same]
    · have was : event ∈ st.outstanding waits b := mem_outstanding.mpr
        ⟨lt_of_le_of_ne (Nat.lt_succ_iff.mp below) fresh, by simpa [waits', fresh] using waiting,
          by simpa using open_⟩
      split
      · exact Finset.mem_insert_of_mem was
      · exact was
  refine ⟨waits', ⟨fun b => ?_, fun e member event pending => ?_, fun event completed => ?_⟩,
    owed.logged history (fun _ _ same => by cases same) fun recent b s alive held => .inr ⟨?_, ?_, ?_⟩⟩
  · have count := awaiting.counts b
    have fewer := Finset.card_le_card (covered b)
    by_cases same : b = block
    · rw [if_pos same] at fewer
      have more := Finset.card_insert_le st.nextEvent (st.outstanding waits b)
      rw [same, here]
      rw [same] at count fewer more
      simp only
      omega
    · rw [if_neg same] at fewer
      rw [other b same]
      omega
  · rcases List.mem_append.mp member with queued | new_
    · exact old _ event (awaiting.queued e queued event pending)
    · obtain rfl := List.mem_singleton.mp new_
      obtain rfl := Option.some.inj pending
      exact new
  · rw [history] at completed
    rw [next]
    exact (awaiting.completed event (by simpa using completed)).trans (Nat.lt_succ_self _)
  · simpa only [State.Live, blocks, written_isSome] using alive
  · exact written_rangeOf blocks (fun _ => rfl) b
  · cases held with
    | used given uses =>
      exact .used (by rwa [written_field (g := Block.allocated) blocks fun _ => rfl])
        (by rwa [written_field (g := Block.streamUses) blocks fun _ => rfl])
    | awaited event recorded outstanding =>
      exact .awaited event (List.mem_cons_of_mem _ recorded) (old b event outstanding)
    | recording ss hand left =>
      obtain ⟨rfl, rfl⟩ := Hand.recording.inj hand
      rcases List.mem_cons.mp left with rfl | later
      · exact .awaited st.nextEvent List.mem_cons_self new
      · exact .recording streams rfl later

theorem complete {e : PendingEvent} {event : EventId} (kept : Protected .empty st)
    (live : st.Live e.block) (queued : e ∈ st.gcuEvents) (pending : e.event = some event) (h' : Hand) :
    Protected h' (st.eventCompleted e event) := by
  obtain ⟨waits, awaiting, owed⟩ := kept
  have blocks : (st.eventCompleted e event).blocks =
      written st.blocks e.block fun b => { b with eventCount := b.eventCount - 1 } := rfl
  have history : (st.eventCompleted e event).history = .completed event :: st.history := rfl
  have here : (st.eventCompleted e event).block e.block =
      { st.block e.block with eventCount := (st.block e.block).eventCount - 1 } := written_self live
  have other : ∀ b, b ≠ e.block → (st.eventCompleted e event).block b = st.block b :=
    fun b differ => by simp only [State.block, blocks, written_of_ne differ]
  have outstanding : ∀ b, (st.eventCompleted e event).outstanding waits b =
      (st.outstanding waits b).erase event := fun b => by
    ext event'
    have next : (st.eventCompleted e event).nextEvent = st.nextEvent := rfl
    rw [Finset.mem_erase, mem_outstanding, mem_outstanding, history, next]
    simp only [List.mem_cons, Event.completed.injEq, not_or]
    tauto
  have waiting := awaiting.queued e queued event pending
  refine ⟨waits, ⟨fun b => ?_, fun e' member event' pending' => ?_, fun event' completed => ?_⟩,
    owed.logged history (fun _ _ same => by cases same) fun recent b stream alive held => ?_⟩
  · rw [outstanding]
    by_cases same : b = e.block
    · subst same
      have count := awaiting.counts e.block
      have one := Finset.card_erase_add_one waiting
      rw [here]
      simp only
      omega
    · rw [other b same]
      have count := awaiting.counts b
      have fewer := Finset.card_erase_le (s := st.outstanding waits b) (a := event)
      omega
  · obtain ⟨old, was, rfl⟩ := List.mem_map.mp member
    split at pending'
    · cases pending'
    · rename_i kept
      rw [if_neg kept, outstanding]
      refine Finset.mem_erase.mpr ⟨?_, awaiting.queued old was event' pending'⟩
      rintro rfl
      exact kept pending'
  · rw [history] at completed
    rcases List.mem_cons.mp completed with same | old
    · obtain rfl := Event.completed.inj same
      exact (mem_outstanding.mp waiting).1
    · exact awaiting.completed event' old
  · have present : (st.eventCompleted e event).Live b := by
      simpa only [State.Live, blocks, written_isSome] using alive
    have range := written_rangeOf blocks (fun _ => rfl) b
    cases held with
    | used given uses =>
      exact .inr ⟨present, range, .used
        (by rwa [written_field (g := Block.allocated) blocks fun _ => rfl])
        (by rwa [written_field (g := Block.streamUses) blocks fun _ => rfl])⟩
    | awaited event' recorded left =>
      by_cases same : event' = event
      · subst same
        exact .inl ⟨event', List.mem_cons_of_mem _ recorded, List.mem_cons_self⟩
      · refine .inr ⟨present, range, .awaited event' (List.mem_cons_of_mem _ recorded) ?_⟩
        rw [outstanding]
        exact Finset.mem_erase.mpr ⟨same, left⟩
    | recording streams hand left => cases hand

/-- Only an allocated block gets another use. -/
theorem use {block : BlockId} {stream : GCUStream} (kept : Protected .empty st) :
    Protected .empty (st.modifyBlock block fun b =>
      { b with
        streamUses := if stream ∈ b.streamUses then b.streamUses else b.streamUses ++ [stream] }) := by
  let f : Block → Block := fun b =>
    { b with streamUses := if stream ∈ b.streamUses then b.streamUses else b.streamUses ++ [stream] }
  have grows : ∀ k : Block, k.streamUses ⊆ (f k).streamUses := fun k => by
    simp only [f]
    split
    · exact List.Subset.refl _
    · exact List.subset_append_left _ _
  have blocks : (st.modifyBlock block f).blocks = written st.blocks block f := rfl
  refine kept.neutral ⟨.inl rfl, rfl, written_field blocks fun _ => rfl, fun e member event pending =>
    ⟨e, member, pending, rfl⟩, fun b _ live => ⟨(modifyBlock_isSome st).trans live,
      written_rangeOf blocks (fun _ => rfl) b, fun free => ?_, ?_⟩, fun _ _ _ hand => by cases hand⟩
  · rwa [written_field (g := Block.allocated) blocks fun _ => rfl]
  · by_cases same : b = block
    · subst same
      cases found : st.blocks b with
      | none => simp [State.block, State.modifyBlock, found]
      | some k => simpa [State.block, State.modifyBlock, found] using grows k
    · simp [State.block, State.modifyBlock, same]

end Protected

/-- What the streams are owed survives every action of a heap without restores. -/
theorem Protected.closed :
    Closed orderedMode cfg rt fun h st => Sound True h st ∧ Protected h st := by
  intro h st h' st' holds act
  have sound' : Sound True h' st' := Sound.closed_ordered holds.1 act
  refine ⟨sound', ?_⟩
  obtain ⟨sound, kept⟩ := holds
  have same : ∀ {h' : Hand} {st' : State}, st'.blocks = st.blocks →
      st'.nextEvent = st.nextEvent → st'.history = st.history → st'.gcuEvents = st.gcuEvents →
      (∀ b stream streams, h = .recording b (stream :: streams) → h' = h) → Protected h' st' :=
    fun blocks next history events hands => kept.neutral (.still blocks next (.inl history)
      (fun e member event pending => ⟨e, events ▸ member, pending, rfl⟩) hands)
  have logged : ∀ {st' : State} (event : Event), event.Neutral → st'.blocks = st.blocks →
      st'.nextEvent = st.nextEvent → st'.history = event :: st.history →
      st'.gcuEvents = st.gcuEvents →
      (∀ b stream streams, h ≠ .recording b (stream :: streams)) → Protected .empty st' :=
    fun event plain blocks next history events hands => kept.neutral
      (.still blocks next (.inr ⟨event, plain, history⟩)
        (fun e member event pending => ⟨e, events ▸ member, pending, rfl⟩)
        fun b s ss hand => absurd hand (hands b s ss))
  cases act with
  | obtain _ params ptr request fresh owned spends => exact kept.obtain sound
  | carve _ params found cut => exact kept.carve sound
  | keep _ params found =>
    have rest := kept_local st params found
    refine same ?_ rest.nextEvent rest.history rest.gcuEvents fun _ _ _ hand => by cases hand
    simp only [State.kept]
    split <;> rfl
  | handOut _ params origSize block => exact kept.handOut sound
  | giveUp _ block live exact => exact kept.giveUp live
  | record _ block used => exact kept.record fun _ _ hand => by cases hand
  | recordDeferred _ block waiting used => exact kept.record fun _ _ hand => by cases hand
  | push _ block stream streams => exact kept.push sound.hand.1
  | dropRecording _ block streams failed => exact absurd trivial failed
  | mergeLeft _ block origin src right idle split => exact kept.merge sound idle
  | mergeRight _ block origin src left idle split => exact kept.merge sound idle
  | settle _ block origin left right inserted =>
    exact kept.settle.neutral (.still rfl rfl (.inl rfl)
      (fun e member event pending => ⟨e, member, pending, rfl⟩) fun _ _ _ hand => by cases hand)
  | dropSettling _ block origin left right refused => exact kept.settle
  | complete _ e event queued pending last =>
    exact kept.complete (sound.waiting.live queued pending).1 queued pending _
  | completeMore _ e event queued pending more =>
    exact kept.complete (sound.waiting.live queued pending).1 queued pending _
  | lose _ event =>
    refine kept.neutral (.still rfl rfl (.inl rfl) (fun e' member event' pending => ?_)
      fun _ _ _ hand => by cases hand)
    obtain ⟨old, was, rfl⟩ := List.mem_map.mp member
    split at pending
    · cases pending
    · rename_i left
      exact ⟨old, was, pending, by rw [if_neg left]⟩
  | popFront _ stream =>
    exact kept.neutral (.still rfl rfl (.inl rfl) (fun e member event pending =>
      ⟨e, List.eraseP_sublist.subset member, pending, rfl⟩) fun _ _ _ hand => by cases hand)
  | clearEvents _ =>
    exact kept.neutral (.still rfl rfl (.inl rfl) (fun e member => by cases member)
      fun _ _ _ hand => by cases hand)
  | release _ pool block may freed counted => exact kept.release sound may.pooled
  | releaseFailed _ pool block may failed =>
    exact logged (.releaseBlock _) trivial rfl rfl rfl rfl fun _ _ _ hand => by cases hand
  | releaseStuck _ pool block may owner owned uncounted =>
    exact absurd (sound.counted_pos may.pooled owned) (by omega)
  | beginCapture _ id pool filter present moves calls =>
    exact logged (.poolBegun pool) trivial rfl rfl rfl rfl fun _ _ _ hand => by cases hand
  | logReleased _ pool calls =>
    exact logged (.poolReleased pool) trivial rfl rfl rfl rfl fun _ _ _ hand => by cases hand
  | use _ block stream allocated other => exact kept.use
  | _ => exact same rfl rfl rfl rfl fun _ _ _ hand => by cases hand

/-! ### What `malloc` hands out -/

/-- Attempts to serve a request keep the stream it asks for. -/
def ForStream (stream : StreamId) (m : M (Bool × AllocParams)) : Prop :=
  ∀ st, wp m (fun result _ => result.2.stream = stream) (fun _ _ => True) st

namespace ForStream
variable {stream : StreamId} {params : AllocParams}

theorem bind {m : M (Bool × AllocParams)} {next : Bool × AllocParams → M (Bool × AllocParams)}
    (first : ForStream stream m)
    (second : ∀ result, result.2.stream = stream → ForStream stream (next result)) :
    ForStream stream (m >>= next) := by
  intro st
  rw [wp_bind]
  exact wp_mono (first st) (fun result st' same => second result same st') fun _ _ => id

theorem after {α : Type} {m : M α} {next : α → M (Bool × AllocParams)}
    (second : ∀ a, ForStream stream (next a)) : ForStream stream (m >>= next) := by
  intro st
  rw [wp_bind]
  exact wp_intro (fun a st' => second a st') fun _ _ => trivial

theorem pure {result : Bool × AllocParams} (same : result.2.stream = stream) :
    ForStream stream (Pure.pure result) := fun _ => same

theorem ite {c : Prop} [Decidable c] {m n : M (Bool × AllocParams)} (first : ForStream stream m)
    (second : ForStream stream n) : ForStream stream (if c then m else n) := by
  split
  · exact first
  · exact second

theorem getFreeBlock (same : params.stream = stream) :
    ForStream stream (GCUCachingAllocator.getFreeBlock cfg params) := by
  intro st
  simp only [GCUCachingAllocator.getFreeBlock, wp_bind, wp_modify, wp_get]
  split
  · exact same
  · simp only [wp_ite, wp_pure, wp_bind, wp_set]
    exact ⟨fun _ => same, fun _ => ⟨fun _ => same, fun _ => ⟨fun _ => same, fun _ => same⟩⟩⟩

theorem searchPool (same : params.stream = stream) :
    ForStream stream (GCUCachingAllocator.searchPool cfg rt params) :=
  .bind (.getFreeBlock same) fun _ same' => .ite (.pure same')
    (.after fun _ => .ite (.getFreeBlock same') (.pure same'))

theorem allocBlock (call : Nat) (isRetry : Bool) (same : params.stream = stream) :
    ForStream stream (GCUCachingAllocator.allocBlock cfg rt call params isRetry) := by
  have ended : ∀ answer, ForStream stream (allocBlockEnd cfg params answer) := by
    intro answer st
    unfold allocBlockEnd
    split
    · exact same
    · trivial
    · simp only [wp_bind, wp_get, wp_modify, wp_pure]
      exact same
  exact .after fun _ => .ite (.after fun _ => ended _) (.pure same)

theorem mallocFirst (device : DeviceIndex) (origSize : Nat) :
    ForStream stream (GCUCachingAllocator.mallocFirst cfg rt device origSize stream) := by
  intro st
  rw [GCUCachingAllocator.mallocFirst, wp_bind]
  have asks : ∀ st, wp (allocParams cfg rt device origSize stream)
      (fun params _ => params.stream = stream) (fun _ _ => True) st := fun st => by
    have pool : ∀ st, wp (getPool (roundSize cfg origSize) stream) (fun _ _ => True)
        (fun _ _ => True) st := fun st => wp_intro (fun _ _ => trivial) fun _ _ => trivial
    simp only [allocParams, wp_bind, wp_get, wp_ite, wp_pure]
    exact ⟨fun _ => wp_intro (fun _ st' => pool st') fun _ _ => trivial, fun _ => pool st⟩
  refine wp_mono (asks st) (fun params st' same => ?_) fun _ _ => id
  refine ForStream.bind (.searchPool same) (fun result same => ?_) st'
  refine .ite (.pure same) (.after fun _ => ?_)
  exact .ite (.after fun _ => .allocBlock _ _ same) (.allocBlock _ _ same)

theorem mallocSearch (device : DeviceIndex) (origSize : Nat) :
    ForStream stream (GCUCachingAllocator.mallocSearch cfg rt device origSize stream) := by
  refine .bind (.mallocFirst device origSize) fun result same => .ite (.pure same) ?_
  refine .bind ?_ fun result same => .ite (.pure same) (.after fun _ => .ite ?_ (.pure same))
  · exact .after fun _ => .ite (.allocBlock _ _ same) (.pure same)
  · exact .after fun _ => .allocBlock _ _ same

end ForStream

/-- A block that `malloc` returns was ready in the hand, for the stream of the request. -/
theorem malloc_hands {P : Hand → State → Prop} (servable : Servable mode cfg rt P)
    {device : DeviceIndex} {origSize : Nat} {stream : StreamId} (word : origSize < 2 ^ 64)
    (safe : MallocSafe mode cfg rt device origSize stream st) (holds : P .empty st) :
    wp (malloc cfg rt device origSize stream)
      (fun b st' => P .empty st' ∧ ∃ st₁ params, P (.ready params b) st₁ ∧ params.stream = stream ∧
        st' = st₁.handedOut cfg params origSize b)
      (fun _ _ => True) st := by
  rw [malloc, wp_bind]
  refine wp_mono (wp_and (mallocSearch_keeps servable word safe holds)
    (ForStream.mallocSearch device origSize st)) (fun result st₁ searched => ?_) fun _ _ _ => trivial
  obtain ⟨found, params⟩ := result
  obtain ⟨searched, same⟩ := searched
  cases found with
  | false =>
    have raised : wp (reportOutOfMemory (α := BlockId) rt params) (fun _ _ => False)
        (fun _ _ => True) st₁ := reportOutOfMemory_raises
    exact wp_mono raised (fun _ _ => False.elim) fun _ _ _ => trivial
  | true =>
    obtain ⟨found, chosen, taken⟩ := searched.1 rfl
    simp only at chosen taken same
    simp only [Bool.not_true, Bool.false_eq_true, if_false, wp_bind, wp_get, chosen,
      Option.getD_some]
    cases cut : shouldSplit cfg (st₁.block found) params.size with
    | true =>
      refine wp_mono (allocFoundBlock_carved origSize chosen st₁) (fun b st' handed => ?_)
        fun _ _ _ => trivial
      obtain ⟨rfl, _, rfl⟩ := handed
      have ready := servable.closed taken (.carve st₁ params found (.inl cut))
      exact ⟨servable.closed ready (.handOut _ params origSize _), _, params, ready, same, rfl⟩
    | false =>
      refine wp_mono (allocFoundBlock_kept origSize chosen st₁) (fun b st' handed => ?_)
        fun _ _ _ => trivial
      obtain ⟨rfl, _, rfl⟩ := handed
      have ready := servable.closed taken (.keep st₁ params b)
      exact ⟨servable.closed ready (.handOut _ params origSize _), _, params, ready, same, rfl⟩

theorem Protected.init : Protected .empty {} := by
  refine ⟨fun _ => 0, ⟨fun b => ?_, by simp, by simp⟩, ?_⟩
  · simp [State.outstanding, State.block]
  · intro recent range streams earlier split
    simp at split

/-- No reuse of memory that is still in use on another stream: in an orderly run, whatever the
order in which events complete, `malloc` returns a block of the stream asked for, and for every
block freed before that overlaps it, each stream that had used that block has had an event
recorded since, which has completed. -/
theorem no_reuse_before_events {w : World} (run : Reachable (fun w step => step.Orderly w.st) w)
    {cfg : GCUAllocatorConfig} {rt : Runtime} {device : DeviceIndex} {origSize : Nat}
    {stream : StreamId} (legal : Legal w ⟨cfg, rt, .malloc device origSize stream⟩)
    (orderly : Step.Orderly ⟨cfg, rt, .malloc device origSize stream⟩ w.st) {b : BlockId}
    {st' : State} (returned : (malloc cfg rt device origSize stream).run w.st = .ok b st') :
    (st'.block b).stream = stream ∧ ∀ recent range streams earlier,
      st'.history = recent ++ .freeRequested range streams :: earlier →
        ¬ range.Apart (st'.rangeOf b) → ∀ user ∈ streams, Synchronized recent user := by
  have hands := wp_ok (malloc_hands (orderly.servable Protected.closed) legal.admissible
    (orderly.safe _ _ _ rfl) (run.orderly (fun _ _ => Protected.closed) .init)) returned
  obtain ⟨⟨sound, waits, awaiting, owed⟩, st₁, params, ⟨ready, _⟩, same, handed⟩ := hands
  obtain ⟨loose, exact⟩ := ready.hand
  have given : st'.block b = { st₁.block b with allocated := true, requestedSize := origSize } := by
    rw [handed]
    exact written_self loose.live
  have free : (st'.block b).eventCount = 0 := by
    rw [given]
    exact eventCount_of_idle ready loose.idle
  refine ⟨?_, fun recent range streams earlier split overlap user used => ?_⟩
  · rw [given]
    exact (exact trivial).1.trans same
  · refine (owed recent range streams earlier split user used).resolve_right ?_
    rintro ⟨c, live, rfl, held⟩
    by_cases here : c = b
    · subst here
      cases held with
      | used free uses => simp [given] at free
      | awaited event recorded outstanding =>
        have some_ : 0 < (st'.outstanding waits c).card := Finset.card_pos.mpr ⟨event, outstanding⟩
        have count := awaiting.counts c
        omega
      | recording streams hand left => cases hand
    · have busy : (st'.block b).busy = true := by simp [given, Block.busy]
      exact overlap (sound.blocks_apart live (busy_live busy) here)

/-- The block that an event reports as freed, and the streams that used it. -/
def Event.freed : Event → Option (Range × List GCUStream)
  | .freeRequested range streams => some (range, streams)
  | _ => none

/-- A block is used on stream 2 and freed. -/
def usedElsewhere : List Step :=
  [⟨{}, .roomAt 4096, .malloc 0 512 1⟩, ⟨{}, .full, .recordStream 1 ⟨0, 2⟩⟩, ⟨{}, .full, .free 1⟩]

theorem no_reuse_before_events_usedElsewhere :
    let reused := after (malloc {} .full 0 512 1) (World.run {} usedElsewhere).st
    reused.history.filterMap Event.freed = [(⟨4096, 512⟩, [⟨0, 2⟩])] ∧
      (reused.rangeOf 2 = ⟨4096, 512⟩ ∧ (reused.block 2).stream = 1) ∧
      ∀ recent range streams earlier,
        reused.history = recent ++ .freeRequested range streams :: earlier →
          ¬ range.Apart (reused.rangeOf 2) → ∀ user ∈ streams, Synchronized recent user := by
  have run : Reachable (fun w step => step.Orderly w.st) (World.run {} usedElsewhere) :=
    .plain (by decide +kernel) (by decide +kernel)
      (by simpa [usedElsewhere] using ⟨roomAt_steady, full_steady⟩)
  have returned : answer (malloc {} .full 0 512 1) (World.run {} usedElsewhere).st = some 2 := by
    decide +kernel
  have orderly : Step.Orderly ⟨{}, .full, .malloc 0 512 1⟩ (World.run {} usedElsewhere).st :=
    ⟨rfl, full_steady, oversizeUnsplit_unlimited rfl⟩
  have reuse := no_reuse_before_events run ⟨by decide, trivial⟩ orderly (run_of_answer returned)
  exact ⟨by decide +kernel, ⟨by decide +kernel, reuse.1⟩, reuse.2⟩

end TorchGcu.GCUCachingAllocator

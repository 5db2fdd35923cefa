import TorchGcu.CachingAllocator.Releases

/-! The reference counts of private pools. They are exact in every run in which no graph
begins an allocation it has begun already and no pool is released more often than begun. -/
namespace TorchGcu.GCUCachingAllocator
open ProgramLogic

variable {mode : Mode} {cfg : GCUAllocatorConfig} {rt : Runtime} {h h' : Hand} {st st' : State}
  {exact : Prop}

namespace State

def begins (st : State) (pool : PrivatePoolId) : Nat :=
  st.history.countP fun event => decide (event = .poolBegun pool)

def releases (st : State) (pool : PrivatePoolId) : Nat :=
  st.history.countP fun event => decide (event = .poolReleased pool)

def uses (st : State) (pool : PrivatePoolId) : Option Int :=
  (st.privatePools pool).map (·.useCount)

/-- The first blocks of the segments of a private pool. -/
def segmentsOf (st : State) (pool : PrivatePoolId) : List BlockId :=
  (List.range st.nextBlock).filter fun b =>
    decide (st.Live b ∧ (st.block b).prev = none ∧ (st.block b).pool.ownerPrivatePool = some pool)

end State

/-- Each use count is the number of successful begins less the releases, and the freeable pools
are those whose count is zero. -/
structure CountsExact (st : State) : Prop where
  uses : ∀ pool p, st.privatePools pool = some p →
    p.useCount = st.begins pool - st.releases pool
  nonneg : ∀ pool p, st.privatePools pool = some p → 0 ≤ p.useCount
  fresh : ∀ pool, st.nextPrivatePool ≤ pool → st.begins pool = 0 ∧ st.releases pool = 0
  freeable : ∀ id pool, (id, pool) ∈ st.graphPoolsFreeable ↔
    (id, pool) ∈ st.graphPools ∧ st.uses pool = some 0

namespace CountsExact

/-- Nothing the counts depend on has changed. -/
theorem same (counts : CountsExact st) (graphPools : st'.graphPools = st.graphPools)
    (freeable : st'.graphPoolsFreeable = st.graphPoolsFreeable)
    (uses : ∀ pool, st'.uses pool = st.uses pool)
    (next : st'.nextPrivatePool = st.nextPrivatePool)
    (begins : ∀ pool, st'.begins pool = st.begins pool)
    (releases : ∀ pool, st'.releases pool = st.releases pool) : CountsExact st' := by
  have before : ∀ pool p, st'.privatePools pool = some p →
      ∃ q, st.privatePools pool = some q ∧ q.useCount = p.useCount := by
    intro pool p found
    have count := uses pool
    simp only [State.uses, found, Option.map_some] at count
    exact Option.map_eq_some_iff.mp count.symm
  refine ⟨fun pool p found => ?_, fun pool p found => ?_, fun pool new => ?_, fun id pool => ?_⟩
  · obtain ⟨q, was, same⟩ := before pool p found
    rw [begins, releases, ← same, counts.uses pool q was]
  · obtain ⟨q, was, same⟩ := before pool p found
    exact same ▸ counts.nonneg pool q was
  · rw [begins, releases]
    exact counts.fresh pool (next ▸ new)
  · rw [freeable, graphPools, uses]
    exact counts.freeable id pool

theorem frame (counts : CountsExact st) (frame : Local st st') : CountsExact st' :=
  counts.same frame.graphPools frame.graphPoolsFreeable
    (fun pool => by rw [State.uses, frame.privatePools, State.uses]) frame.nextPrivatePool
    (fun pool => by rw [State.begins, frame.history, State.begins])
    (fun pool => by rw [State.releases, frame.history, State.releases])

theorem modify_uses {privatePools : PrivatePoolId → Option PrivatePool} {f : PrivatePool → PrivatePool}
    {owner : PrivatePoolId} (keeps : ∀ p, (f p).useCount = p.useCount) (pool : PrivatePoolId) :
    (Function.update privatePools owner ((privatePools owner).map f) pool).map (·.useCount) =
      (privatePools pool).map (·.useCount) := by
  by_cases here : pool = owner
  · subst here
    simp [Function.comp_def, keeps]
  · simp [here]

theorem obtain (counts : CountsExact st) (params : AllocParams) (ptr : Nat) :
    CountsExact (st.newSegment cfg params ptr) := by
  refine counts.same (by simp) (by simp) (fun pool => ?_) (by simp) (fun pool => ?_) (fun pool => ?_)
  · rw [State.uses, newSegment_privatePools]
    cases params.pool.ownerPrivatePool with
    | none => rfl
    | some owner =>
      refine modify_uses ?_ pool
      exact fun _ => rfl
  · rw [State.begins, newSegment_history]
    rfl
  · rw [State.releases, newSegment_history]
    rfl

theorem release (counts : CountsExact st) (block : BlockId) :
    CountsExact (st.released cfg block) := by
  refine counts.same (by simp) (by simp) (fun pool => ?_) (by simp) (fun pool => ?_) (fun pool => ?_)
  · rw [State.uses, released_privatePools]
    cases (st.block block).pool.ownerPrivatePool with
    | none => rfl
    | some owner =>
      refine modify_uses ?_ pool
      exact fun _ => rfl
  · rw [State.begins, released_history]
    rfl
  · rw [State.releases, released_history]
    rfl

theorem erase (counts : CountsExact st)
    (tables : Tables st.graphPools st.graphPoolsFreeable st.privatePools st.nextPrivatePool)
    {id : MempoolId} {pool : PrivatePoolId}
    (present : State.findPool st.graphPools id = some pool) :
    CountsExact ((st.poolErased id (some pool)).poolForgotten id) := by
  have before : ∀ other p, Function.update st.privatePools pool none other = some p →
      other ≠ pool ∧ st.privatePools other = some p := by
    intro other p found
    by_cases here : other = pool
    · simp [here] at found
    · exact ⟨here, by simpa [here] using found⟩
  refine ⟨fun other p found => counts.uses other p (before other p found).2,
    fun other p found => counts.nonneg other p (before other p found).2, counts.fresh,
    fun other otherPool => ?_⟩
  simp only [State.poolForgotten, State.poolErased, List.mem_filter, State.uses,
    counts.freeable other otherPool, decide_eq_true_eq]
  constructor
  · rintro ⟨⟨listed, zero⟩, differ⟩
    have notErased : otherPool ≠ pool := by
      rintro rfl
      have same := tables.unique_pool listed (findPool_mem present) rfl
      exact differ (congrArg Prod.fst same)
    exact ⟨⟨listed, differ⟩, by rwa [Function.update_of_ne notErased]⟩
  · rintro ⟨⟨listed, differ⟩, zero⟩
    have notErased : otherPool ≠ pool := by
      rintro rfl
      simp at zero
    rw [Function.update_of_ne notErased] at zero
    exact ⟨⟨listed, zero⟩, differ⟩

/-- No action of the allocations, the releases and the events touches a use count. -/
theorem closed (whole : mode.whole) (serving : mode.serving) :
    Closed mode cfg rt fun h st => Sound mode.exact h st ∧ CountsExact st := by
  intro h st h' st' holds act
  refine ⟨Sound.closed whole holds.1 act, ?_⟩
  have counts := holds.2
  have logged : ∀ {st' : State} {event : Event}, (∀ pool, event ≠ .poolBegun pool) →
      (∀ pool, event ≠ .poolReleased pool) → st'.history = event :: st.history →
      st'.graphPools = st.graphPools → st'.graphPoolsFreeable = st.graphPoolsFreeable →
      st'.privatePools = st.privatePools → st'.nextPrivatePool = st.nextPrivatePool →
      CountsExact st' := by
    intro st' event noBegin noRelease history graphPools freeable privatePools next
    exact counts.same graphPools freeable (fun pool => by rw [State.uses, privatePools, State.uses])
      next (fun pool => by simp [State.begins, history, noBegin])
      (fun pool => by simp [State.releases, history, noRelease])
  cases act with
  | obtain _ params ptr request fresh owned spends => exact counts.obtain params ptr
  | carve _ params found cut => exact counts.frame (carved_local st params found)
  | keep _ params found => exact counts.frame (kept_local st params found)
  | giveUp _ block live exact => exact logged (by simp) (by simp) rfl rfl rfl rfl rfl
  | push _ block stream streams => exact logged (by simp) (by simp) rfl rfl rfl rfl rfl
  | mergeLeft _ block origin src right idle split => exact counts.frame (mergeBlocks_local st _ _ _)
  | mergeRight _ block origin src left idle split => exact counts.frame (mergeBlocks_local st _ _ _)
  | settle _ block origin left right inserted => exact counts.frame (settled_local st _ _ _ _)
  | dropSettling _ block origin left right refused =>
    have inserted := insertIntoBlocks_local (st.eraseActive block) origin.pool block
    exact counts.frame ⟨inserted.1, inserted.2, inserted.3, inserted.4, inserted.5, inserted.6,
      inserted.7, inserted.8, inserted.9, inserted.10, inserted.11, inserted.12, inserted.13⟩
  | complete _ e event queued pending last => exact logged (by simp) (by simp) rfl rfl rfl rfl rfl
  | completeMore _ e event queued pending more =>
    exact logged (by simp) (by simp) rfl rfl rfl rfl rfl
  | release _ pool block may freed counted => exact counts.release block
  | releaseFailed _ pool block may failed => exact logged (by simp) (by simp) rfl rfl rfl rfl rfl
  | releaseStuck _ pool block may owner owned uncounted =>
    exact logged (by simp) (by simp) rfl rfl rfl rfl rfl
  | erasePool _ id owner pool freeable vacant present moves =>
    exact counts.erase holds.1.tables present
  | eraseMissing _ id absent moves =>
    have same : st.graphPools.filter (·.1 ≠ id) = st.graphPools :=
      List.filter_eq_self.mpr fun entry member => by
        simp only [ne_eq, decide_eq_true_eq]
        rintro rfl
        exact findPool_none absent (List.mem_map_of_mem member)
    exact counts.same same rfl (fun _ => rfl) rfl (fun _ => rfl) (fun _ => rfl)
  | openPool _ id absent moves calls => exact absurd serving calls
  | sharePool _ id pool present used moves calls => exact absurd serving calls
  | beginCapture _ id pool filter present moves calls => exact absurd serving calls
  | endCapture _ id moves calls => exact absurd serving calls
  | dropUse _ id pool present moves calls => exact absurd serving calls
  | markFreeable _ id pool present absent unused moves calls => exact absurd serving calls
  | logReleased _ pool calls => exact absurd serving calls
  | _ => exact counts.same rfl rfl (fun _ => rfl) rfl (fun _ => rfl) (fun _ => rfl)

/-! ### The three calls -/

theorem count_cons (event : Event) (history : List Event) (p : Event → Bool) :
    ((event :: history).countP p : Int) = history.countP p + (if p event then 1 else 0) := by
  rw [List.countP_cons]
  split <;> simp

/-- One use more or less of one pool, with its event. -/
theorem recount (counts : CountsExact st) {pool : PrivatePoolId} {q : PrivatePool}
    (f : PrivatePool → PrivatePool) (event : Event) (was : st.privatePools pool = some q)
    (old : pool < st.nextPrivatePool)
    (change : (f q).useCount = q.useCount + (if event = .poolBegun pool then 1 else 0) -
      (if event = .poolReleased pool then 1 else 0))
    (nonneg : 0 ≤ (f q).useCount)
    (others : ∀ p, p ≠ pool → event ≠ .poolBegun p ∧ event ≠ .poolReleased p)
    (history : st'.history = event :: st.history)
    (privatePools : st'.privatePools =
      Function.update st.privatePools pool ((st.privatePools pool).map f))
    (next : st'.nextPrivatePool = st.nextPrivatePool)
    (freeable : ∀ id p, (id, p) ∈ st'.graphPoolsFreeable ↔
      (id, p) ∈ st'.graphPools ∧ st'.uses p = some 0) : CountsExact st' := by
  have here : st'.privatePools pool = some (f q) := by simp [privatePools, was]
  have there : ∀ p, p ≠ pool → st'.privatePools p = st.privatePools p := fun p other => by
    simp [privatePools, other]
  refine ⟨fun p k found => ?_, fun p k found => ?_, fun p new => ?_, freeable⟩
  · rw [State.begins, State.releases, history, count_cons, count_cons]
    simp only [decide_eq_true_eq]
    by_cases same : p = pool
    · subst same
      obtain rfl : f q = k := Option.some.inj (here.symm.trans found)
      rw [change, counts.uses p q was, State.begins, State.releases]
      ring
    · rw [there p same] at found
      rw [if_neg (others p same).1, if_neg (others p same).2, counts.uses p k found,
        State.begins, State.releases]
      ring
  · by_cases same : p = pool
    · subst same
      obtain rfl : f q = k := Option.some.inj (here.symm.trans found)
      exact nonneg
    · rw [there p same] at found
      exact counts.nonneg p k found
  · rw [next] at new
    have differ : p ≠ pool := fun same => absurd (same ▸ new) (Nat.not_le.mpr old)
    have zero := counts.fresh p new
    simp only [State.begins, State.releases] at zero ⊢
    simp [history, (others p differ).1, (others p differ).2, zero]

/-- A pool in use is not among the freeable ones, before and after its count has changed. -/
theorem freeable_used (counts : CountsExact st) {pool : PrivatePoolId} {q : PrivatePool}
    {f : PrivatePool → PrivatePool} (was : st.privatePools pool = some q)
    (before : q.useCount ≠ 0) (after : (f q).useCount ≠ 0) (id : MempoolId) (p : PrivatePoolId) :
    (id, p) ∈ st.graphPoolsFreeable ↔
      (id, p) ∈ st.graphPools ∧ (st.modifyPrivatePool pool f).uses p = some 0 := by
  rw [counts.freeable]
  refine and_congr_right fun _ => ?_
  by_cases same : p = pool
  · subst same
    simp [State.uses, State.modifyPrivatePool, was, before, after]
  · simp [State.uses, State.modifyPrivatePool, same]

/-- The pool whose last use goes becomes the only new one among the freeable ones. -/
theorem freeable_last (counts : CountsExact st)
    (tables : Tables st.graphPools st.graphPoolsFreeable st.privatePools st.nextPrivatePool)
    {pool : PrivatePoolId} {q : PrivatePool} {f : PrivatePool → PrivatePool} {id : MempoolId}
    (listed : (id, pool) ∈ st.graphPools) (was : st.privatePools pool = some q)
    (before : q.useCount ≠ 0) (after : (f q).useCount = 0) (id' : MempoolId) (p : PrivatePoolId) :
    (id', p) ∈ st.graphPoolsFreeable ++ [(id, pool)] ↔
      (id', p) ∈ st.graphPools ∧ (st.modifyPrivatePool pool f).uses p = some 0 := by
  rw [List.mem_append, List.mem_singleton, counts.freeable]
  by_cases same : p = pool
  · subst same
    have now : (st.modifyPrivatePool p f).uses p = some 0 := by
      simp [State.uses, State.modifyPrivatePool, was, after]
    have then_ : st.uses p ≠ some 0 := by simp [State.uses, was, before]
    simp only [now, then_, and_false, false_or, and_true]
    constructor
    · intro same
      exact same ▸ listed
    · intro listed'
      exact tables.unique_pool listed' listed rfl
  · have other : (st.modifyPrivatePool pool f).uses p = st.uses p := by
      simp [State.uses, State.modifyPrivatePool, same]
    simp [other, same]

theorem opened (counts : CountsExact st)
    (tables : Tables st.graphPools st.graphPoolsFreeable st.privatePools st.nextPrivatePool)
    (id : MempoolId) (filter : StreamId → Bool) :
    CountsExact ((st.poolOpened id).captureBegun id st.nextPrivatePool filter) := by
  have fresh := counts.fresh st.nextPrivatePool le_rfl
  have gone := tables.fresh
  simp only [State.captureBegun, State.poolOpened, State.log]
  refine ⟨fun pool p found => ?_, fun pool p found => ?_, fun pool new => ?_, fun id' pool => ?_⟩
  · simp only [State.begins, State.releases, count_cons] at fresh ⊢
    by_cases here : pool = st.nextPrivatePool
    · subst here
      simp only [Function.update_self, Option.some.injEq] at found
      subst found
      simp [fresh]
    · simp only [Function.update_of_ne here] at found
      have count := counts.uses pool p found
      simp only [State.begins, State.releases] at count
      simp [count, Ne.symm here]
  · by_cases here : pool = st.nextPrivatePool
    · subst here
      simp only [Function.update_self, Option.some.injEq] at found
      subst found
      decide
    · simp only [Function.update_of_ne here] at found
      exact counts.nonneg pool p found
  · have old := counts.fresh pool (Nat.le_of_succ_le new)
    have differ : st.nextPrivatePool ≠ pool := (Nat.lt_of_succ_le new).ne
    simp only [State.begins, State.releases, List.countP_cons] at old ⊢
    simp [old, differ]
  · have old := counts.freeable id' pool
    simp only [State.uses, List.mem_append, List.mem_singleton, Prod.mk.injEq] at old ⊢
    rw [old]
    constructor
    · rintro ⟨listed, zero⟩
      exact ⟨.inl listed, by rwa [Function.update_of_ne (tables.bound _ listed).ne]⟩
    · rintro ⟨listed | ⟨rfl, rfl⟩, zero⟩
      · rw [Function.update_of_ne (tables.bound _ listed).ne] at zero
        exact ⟨listed, zero⟩
      · simp at zero

/-- A begin that returns counts one use more, and one that raises changes nothing, unless the id
is under capture already. -/
theorem beginAllocateToPool_result (counts : CountsExact st)
    (tables : Tables st.graphPools st.graphPoolsFreeable st.privatePools st.nextPrivatePool)
    (id : MempoolId) (filter : StreamId → Bool)
    (free : ∀ entry ∈ st.capturesUnderway, entry.1 ≠ id) :
    wp (beginAllocateToPool id filter) (fun _ st' => CountsExact st') (fun _ st' => st' = st) st := by
  have notRecording : (st.capturesUnderway.all fun entry => decide (entry.1 ≠ id)) = true :=
    List.all_eq_true.mpr fun entry member => decide_eq_true (free entry member)
  simp only [beginAllocateToPool, wp_bind, wp_get]
  split
  · simp only [wp_bind, wp_set, wp_pure, wp_get, wp_torchCheck, wp_modify]
    refine ⟨fun _ => counts.opened tables id filter, fun recording => ?_⟩
    exact absurd (recording.symm.trans notRecording) (by decide)
  · rename_i pool present
    simp only [wp_bind, wp_set, wp_pure, wp_get, wp_torchCheck, wp_modify, wp_internalAssert]
    refine ⟨fun live => ⟨fun _ => ?_, fun recording => ?_⟩, fun _ => trivial⟩
    · have listed := findPool_mem present
      obtain ⟨q, was⟩ := Option.isSome_iff_exists.mp (tables.present _ listed)
      simp only at was
      have positive : 0 < q.useCount := by simpa [was] using live
      refine counts.recount (fun p => { p with useCount := p.useCount + 1 }) (.poolBegun pool) was
        (tables.bound _ listed) (by simp) (by simp only; omega)
        (fun p other => by simp [Ne.symm other]) rfl rfl rfl ?_
      exact counts.freeable_used was positive.ne' (by simp only; omega)
    · exact absurd (recording.symm.trans notRecording) (by decide)

theorem endAllocateToPool_result (counts : CountsExact st) (id : MempoolId) :
    wp (endAllocateToPool id) (fun _ st' => CountsExact st') (fun _ st' => st' = st) st := by
  simp only [endAllocateToPool, wp_bind, wp_get, wp_ite, wp_set, wp_throw]
  exact ⟨fun _ => counts.same rfl rfl (fun _ => rfl) rfl (fun _ => rfl) (fun _ => rfl),
    fun _ => trivial⟩

/-- A release of a pool in use counts one use less, and one that raises changes nothing. -/
theorem releasePool_result (counts : CountsExact st)
    (tables : Tables st.graphPools st.graphPoolsFreeable st.privatePools st.nextPrivatePool)
    (id : MempoolId) (used : ∀ pool, State.findPool st.graphPools id = some pool →
      st.uses pool ≠ some 0) :
    wp (releasePool id) (fun _ st' => CountsExact st') (fun _ st' => st' = st) st := by
  simp only [releasePool, wp_bind, wp_get]
  split
  · rfl
  · rename_i pool present
    have listed := findPool_mem present
    obtain ⟨q, was⟩ := Option.isSome_iff_exists.mp (tables.present _ listed)
    simp only at was
    have positive : 0 < q.useCount := by
      have differ : q.useCount ≠ 0 := by simpa [State.uses, was] using used pool present
      have nonneg := counts.nonneg pool q was
      omega
    have dropped : ((st.useDropped pool).privatePools pool) =
        some { q with useCount := q.useCount - 1 } := by
      simp [State.useDropped, State.modifyPrivatePool, was]
    have recounted : ∀ {st'' : State}, st''.history = .poolReleased pool :: st.history →
        st''.privatePools = (st.useDropped pool).privatePools →
        st''.nextPrivatePool = st.nextPrivatePool →
        (∀ id p, (id, p) ∈ st''.graphPoolsFreeable ↔
          (id, p) ∈ st''.graphPools ∧ st''.uses p = some 0) → CountsExact st'' :=
      fun history pools next freeable =>
        counts.recount (fun p => { p with useCount := p.useCount - 1 }) (.poolReleased pool) was
          (tables.bound _ listed) (by simp) (by simp only; omega)
          (fun p other => by simp [Ne.symm other]) history pools next freeable
    have count : (((st.useDropped pool).privatePools pool).getD {}).useCount = q.useCount - 1 := by
      simp [dropped]
    -- The pool was in use, so it is not freeable yet.
    have unmarked : State.findPool st.graphPoolsFreeable id = none := by
      by_contra marked
      obtain ⟨p, found⟩ := Option.ne_none_iff_exists'.mp marked
      obtain ⟨listed', zero⟩ := (counts.freeable id p).mp (findPool_mem found)
      obtain rfl : p = pool := congrArg Prod.snd (tables.unique listed' listed rfl)
      simp [State.uses, was] at zero
      omega
    simp only [wp_bind, wp_modify, wp_get, wp_internalAssert, wp_ite]
    have drops : (st.modifyPrivatePool pool fun p => { p with useCount := p.useCount - 1 }) =
        st.useDropped pool := rfl
    rw [drops, count]
    have still : (st.useDropped pool).graphPoolsFreeable = st.graphPoolsFreeable := rfl
    simp only [still, unmarked, Option.isNone_none, forall_const, not_true_eq_false,
      false_implies, and_true, reduceCtorEq]
    refine ⟨fun _ => ⟨fun last => ?_, fun more => ?_⟩, fun negative => ?_⟩
    · exact recounted rfl rfl rfl (counts.freeable_last tables listed was positive.ne' last)
    · exact recounted rfl rfl rfl (counts.freeable_used was positive.ne' more)
    · simp at negative
      omega

end CountsExact

/-! ### Segments -/

theorem Sound.segmentsOf_length (sound : Sound exact h st) {pool : PrivatePoolId} {p : PrivatePool}
    (found : st.privatePools pool = some p) :
    p.topsMallocCount = (st.segmentsOf pool).length := by
  obtain ⟨segs, shape, counted⟩ := sound.heap
  have formed := shape.formed
  let heads := (segs.filter fun seg => decide (seg.pool.ownerPrivatePool = some pool)).map
    fun seg => seg.blocks.head?.getD 0
  have head_mem : ∀ seg ∈ segs, seg.blocks.head? = some (seg.blocks.head?.getD 0) := by
    intro seg member
    cases list : seg.blocks with
    | nil => exact absurd list (formed seg member).nonempty
    | cons b rest => rfl
  have apart : segs.Pairwise fun s t => s.blocks.head?.getD 0 ≠ t.blocks.head?.getD 0 := by
    have disjoint := (List.nodup_flatMap.mp shape.nodup).2
    refine disjoint.imp_of_mem fun {s t} memberS memberT disjoint same => ?_
    have inS := List.mem_of_head? (head_mem s memberS)
    have inT := List.mem_of_head? (head_mem t memberT)
    exact disjoint inS (same ▸ inT)
  have nodup : heads.Nodup := List.Pairwise.map _ (fun _ _ differ => differ) (apart.filter _)
  have same : heads.Perm (st.segmentsOf pool) := by
    refine (List.perm_ext_iff_of_nodup nodup (List.nodup_range.filter _)).mpr fun b => ?_
    simp only [heads, List.mem_map, List.mem_filter, decide_eq_true_eq,
      List.mem_range]
    constructor
    · rintro ⟨seg, ⟨member, owned⟩, rfl⟩
      have first := head_mem seg member
      have inside := List.mem_of_head? first
      have live := (shape.live _).mpr ⟨seg, member, inside⟩
      refine ⟨shape.bound _ live, live, ?_, ?_⟩
      · obtain ⟨rest, list⟩ := List.head?_eq_some_iff.mp first
        exact prev_split (a := []) (formed seg member) list
      · have ofPool := (formed seg member).pool _ inside
        rw [State.block]
        exact ofPool ▸ owned
    · rintro ⟨_, live, first, owned⟩
      obtain ⟨seg, member, head, _⟩ := shape.head_seg live first
      have ofPool := (formed seg member).pool b (List.mem_of_head? head)
      refine ⟨seg, ⟨member, ?_⟩, by rw [head]; rfl⟩
      rw [← ofPool]
      exact owned
  rw [counted.count pool p found, List.countP_map, List.countP_eq_length_filter, ← same.length_eq,
    List.length_map]
  rfl

theorem Sound.owner_present (sound : Sound exact h st) {b : BlockId} {k : Block}
    (found : st.blocks b = some k) {owner : PrivatePoolId}
    (owned : k.pool.ownerPrivatePool = some owner) : (st.privatePools owner).isSome = true := by
  obtain ⟨segs, shape, counted⟩ := sound.heap
  obtain ⟨seg, member, inside⟩ := (shape.live b).mp (by simp [found])
  have ofPool := (shape.formed seg member).pool b inside
  simp only [blockOf, found, Option.getD_some] at ofPool
  exact counted.present _ (List.mem_map_of_mem member) owner (ofPool ▸ owned)

/-! ### Runs -/

/-- The tables of private pools say how often each pool is used and how many segments it has. -/
structure PoolsExact (st : State) : Prop where
  uses : ∀ pool p, st.privatePools pool = some p →
    p.useCount = st.begins pool - st.releases pool
  freeable : ∀ id pool, (id, pool) ∈ st.graphPoolsFreeable ↔
    (id, pool) ∈ st.graphPools ∧ st.uses pool = some 0
  segments : ∀ pool p, st.privatePools pool = some p →
    p.topsMallocCount = (st.segmentsOf pool).length
  owners : ∀ b k, st.blocks b = some k → ∀ owner, k.pool.ownerPrivatePool = some owner →
    (st.privatePools owner).isSome = true

/-- No graph begins under an id that is under capture, and no pool without uses is released. -/
def Step.Balanced (step : Step) (st : State) : Prop :=
  match step.op with
  | .beginAllocateToPool id _ => ∀ entry ∈ st.capturesUnderway, entry.1 ≠ id
  | .releasePool id => ∀ pool, State.findPool st.graphPools id = some pool →
      st.uses pool ≠ some 0
  | _ => True

theorem CountsExact.poolCall {step : Step} (counts : CountsExact st)
    (tables : Tables st.graphPools st.graphPoolsFreeable st.privatePools st.nextPrivatePool)
    (call : step.op.isPoolCall = true) (balanced : step.Balanced st) :
    wp step.run (fun _ st' => CountsExact st') (fun _ st' => st' = st) st := by
  obtain ⟨cfg, rt, op⟩ := step
  cases op <;> simp only [Op.isPoolCall, Bool.false_eq_true] at call
  case beginAllocateToPool id filter =>
    simp only [Step.run, wp_bind, wp_pure]
    exact beginAllocateToPool_result counts tables id filter balanced
  case endAllocateToPool id =>
    simp only [Step.run, wp_bind, wp_pure]
    exact endAllocateToPool_result counts id
  case releasePool id =>
    simp only [Step.run, wp_bind, wp_pure]
    exact releasePool_result counts tables id balanced

/-- In every run whose begins and releases are balanced, a begin, an end or a release that raises
changes nothing, and the reference counts are exact. -/
theorem private_pool_counts_exact {w : World}
    (run : Reachable (fun w step => step.Balanced w.st ∧ step.OversizeUnsplit w.st) w) :
    PoolsExact w.st ∧ ∀ step : Step, step.op.isPoolCall = true → step.Balanced w.st →
      ∀ error st', step.run.run w.st = .error error st' → st' = w.st := by
  have invariant : (Sound False .empty w.st ∧ CountsExact w.st) ∧ w.Genuine := by
    induction run with
    | start =>
      exact ⟨⟨.init _, by simp, by simp, by simp [State.begins, State.releases], by simp⟩,
        by simp [World.Genuine]⟩
    | @next w step _ legal met ih =>
      obtain ⟨⟨sound, counts⟩, genuine⟩ := ih
      have safe : ∀ mode : Mode, (mode.quiet → False) → step.Safe mode w.st :=
        fun mode loud device origSize stream asks params st' ran limited b candidate =>
          ⟨fun _ => met.2 device origSize stream asks params st' ran limited b candidate,
            fun quiet => (loud quiet).elim⟩
      cases call : step.op.isPoolCall with
      | false =>
        refine World.next_keeps_inexact { whole := True, serving := True }
          (fun h st => Sound False h st ∧ CountsExact st) (fun spares => ?_) id id
          (fun here => by simp [call] at here) legal (safe _ id) genuine ⟨sound, counts⟩
        exact ⟨CountsExact.closed trivial trivial, fun _ _ holds => holds.1, id,
          fun _ _ => trivial, False.elim⟩
      | true =>
        have kept := World.next_keeps_inexact { whole := True } (Sound False)
          (fun spares => ⟨Sound.closed trivial, fun _ _ => id, id, fun _ _ => trivial, False.elim⟩)
          id id (fun _ => id) legal (safe _ id) genuine sound
        refine ⟨⟨kept.1, World.next_state ?_⟩, kept.2⟩
        exact wp_mono (counts.poolCall sound.tables call met.1) (fun _ _ => id)
          (fun _ _ same => same ▸ counts)
  obtain ⟨⟨sound, counts⟩, _⟩ := invariant
  refine ⟨⟨counts.uses, counts.freeable, fun pool p found => sound.segmentsOf_length found,
    fun b k found owner owned => sound.owner_present found owned⟩, ?_⟩
  intro step call balanced error st' ran
  exact (wp_error (counts.poolCall sound.tables call balanced) ran :)

/-- Two graphs share a pool, and one of them lets it go. -/
def sharedPool : List Step :=
  [⟨{}, .full, .beginAllocateToPool (0, 1) fun _ => true⟩, ⟨{}, .roomAt 4096, .malloc 0 512 1⟩,
    ⟨{}, .full, .endAllocateToPool (0, 1)⟩, ⟨{}, .full, .beginAllocateToPool (0, 1) fun _ => true⟩,
    ⟨{}, .full, .endAllocateToPool (0, 1)⟩, ⟨{}, .full, .releasePool (0, 1)⟩]

instance (step : Step) (st : State) : Decidable (step.Balanced st) := by
  unfold Step.Balanced
  split
  · infer_instance
  · rename_i id _
    cases found : State.findPool st.graphPools id with
    | none => exact .isTrue fun pool same => by simp at same
    | some pool =>
      exact decidable_of_iff (st.uses pool ≠ some 0)
        ⟨fun used p same => Option.some.inj same ▸ used, fun used => used pool rfl⟩
  · infer_instance

/-- Whether the operations of a run are balanced where they are issued. -/
def World.balancedRun : World → List Step → Bool
  | _, [] => true
  | w, step :: steps => decide (step.Balanced w.st) && (w.next step).balancedRun steps

theorem Reachable.balanced {meets : World → Step → Prop} {w : World} (run : Reachable meets w)
    {steps : List Step} (legal : w.legalRun steps = true) (balanced : w.balancedRun steps = true)
    (met : ∀ w, ∀ step ∈ steps, step.Balanced w.st → meets w step) :
    Reachable meets (w.run steps) := by
  induction steps generalizing w with
  | nil => exact run
  | cons step steps ih =>
    simp only [World.legalRun, World.balancedRun, Bool.and_eq_true, decide_eq_true_eq]
      at legal balanced
    exact ih (.next run legal.1 (met w step List.mem_cons_self balanced.1)) legal.2 balanced.2
      fun w step member => met w step (List.mem_cons_of_mem _ member)

theorem private_pool_counts_exact_sharedPool :
    (World.run {} sharedPool).st.uses 0 = some 1 ∧ PoolsExact (World.run {} sharedPool).st := by
  have unlimited : ∀ step ∈ sharedPool, step.cfg.maxSplitSize = sizeMax := by decide +kernel
  have run : Reachable (fun w step => step.Balanced w.st ∧ step.OversizeUnsplit w.st)
      (World.run {} sharedPool) :=
    Reachable.start.balanced (by decide +kernel) (by decide +kernel) fun _ step member balanced =>
      ⟨balanced, oversizeUnsplit_unlimited (unlimited step member)⟩
  exact ⟨by decide +kernel, (private_pool_counts_exact run).1⟩

/-- A begin under an id that is being captured raises, after it has counted one use more. -/
def doubleBegin : List Step :=
  [⟨{}, .full, .beginAllocateToPool (0, 1) fun _ => true⟩,
    ⟨{}, .full, .beginAllocateToPool (0, 1) fun _ => true⟩]

theorem doubleBegin_counts_raised_begin :
    Reachable (fun _ step => step.cfg.maxSplitSize = sizeMax) (World.run {} doubleBegin) ∧
      (World.run {} doubleBegin).st.uses 0 = some 2 ∧
      (World.run {} doubleBegin).st.begins 0 = 1 ∧ ¬ PoolsExact (World.run {} doubleBegin).st := by
  have used : (World.run {} doubleBegin).st.uses 0 = some 2 := by decide +kernel
  have begun : (World.run {} doubleBegin).st.begins 0 = 1 := by decide +kernel
  refine ⟨Reachable.start.steps (by decide +kernel) fun _ => by decide +kernel, used, begun, ?_⟩
  intro exact
  obtain ⟨p, found, count⟩ := Option.map_eq_some_iff.mp used
  have uses := exact.uses 0 p found
  rw [count, begun] at uses
  omega

end TorchGcu.GCUCachingAllocator

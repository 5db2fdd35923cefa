import TorchGcu.CachingAllocator.Operations

/-! The operations of the client as actions: `malloc` with its search and its retries,
and the calls that begin, end and release private pools. -/
namespace TorchGcu.GCUCachingAllocator
open ProgramLogic

variable {mode : Mode} {cfg : GCUAllocatorConfig} {rt : Runtime} {P : Hand → State → Prop}
  {st : State} {params : AllocParams}

/-- Splitting: the new block is handed out, the rest of the block found goes to its pool. -/
theorem allocFoundBlock_carved {found : BlockId} (origSize : Nat)
    (chosen : params.block = some found) (st : State) :
    wp (allocFoundBlock cfg params origSize true)
      (fun b st' => b = st.nextBlock ∧ (st.block found).ptr ≠ 0 ∧
        st' = (st.carved params found).handedOut cfg params origSize st.nextBlock)
      (fun _ st' => st' = st ∧ (params.err ≠ none ∨ (st.block found).ptr = 0)) st := by
  simp only [allocFoundBlock, chosen, wp_bind, wp_get, wp_internalAssert]
  refine ⟨fun valid => ?_, fun null => ⟨trivial, ?_⟩⟩
  · have nonnull : (st.block found).ptr ≠ 0 := by
      simpa using (Bool.and_eq_true_iff.mp valid).2
    simp only [wp_bind, wp_get, wp_set, wp_ite, wp_modify, wp_pure, if_true]
    refine ⟨fun already => ⟨rfl, nonnull, ?_⟩, fun first => ⟨rfl, nonnull, ?_⟩⟩
    · simp only [State.carved, already, if_true]
      rfl
    · simp only [State.carved, first]
      rfl
  · by_contra valid
    simp only [not_or, not_not] at valid
    simp [valid] at null

/-- Not splitting: the block found is handed out as it is. -/
theorem allocFoundBlock_kept {found : BlockId} (origSize : Nat)
    (chosen : params.block = some found) (st : State) :
    wp (allocFoundBlock cfg params origSize false)
      (fun b st' => b = found ∧ (st.block found).ptr ≠ 0 ∧
        st' = (st.kept params found).handedOut cfg params origSize found)
      (fun _ st' => st' = st ∧ (params.err ≠ none ∨ (st.block found).ptr = 0)) st := by
  simp only [allocFoundBlock, chosen, wp_bind, wp_get, wp_internalAssert]
  refine ⟨fun valid => ?_, fun null => ⟨trivial, ?_⟩⟩
  · have nonnull : (st.block found).ptr ≠ 0 := by
      simpa using (Bool.and_eq_true_iff.mp valid).2
    simp only [wp_bind, wp_get, wp_ite, wp_modify, wp_pure, Bool.false_eq_true, if_false]
    refine ⟨fun already => ⟨trivial, nonnull, ?_⟩,
      fun first => ⟨trivial, nonnull, ?_⟩⟩
    · simp only [State.kept, already, if_true]
      rfl
    · simp only [State.kept, first]
      rfl
  · by_contra valid
    simp only [not_or, not_not] at valid
    simp [valid] at null

theorem allocFoundBlock_keeps (closed : Closed mode cfg rt P) {found : BlockId} {origSize : Nat}
    {split : Bool} (chosen : params.block = some found)
    (cut : split = true → shouldSplit cfg (st.block found) params.size = true ∨
      mode.cut (st.block found) params.size)
    (holds : P (.taken params found) st) :
    wp (allocFoundBlock cfg params origSize split) (fun _ st' => P .empty st')
      (fun _ st' => P .empty st') st := by
  have dropped : ∀ st', st' = st ∧ (params.err ≠ none ∨ (st.block found).ptr = 0) →
      P .empty st' := by
    rintro _ ⟨rfl, null⟩
    exact closed holds (.dropTaken _ params found null)
  cases split with
  | true =>
    have carved := closed holds (.carve st params found (cut rfl))
    have handed := closed carved (.handOut _ params origSize st.nextBlock)
    exact wp_mono (allocFoundBlock_carved origSize chosen st)
      (fun _ _ ended => ended.2.2 ▸ handed) (fun _ st' => dropped st')
  | false =>
    have kept := closed holds (.keep st params found)
    have handed := closed kept (.handOut _ params origSize found)
    exact wp_mono (allocFoundBlock_kept origSize chosen st)
      (fun _ _ ended => ended.2.2 ▸ handed) (fun _ st' => dropped st')

/-! ### The private pools stay while a request is served -/

theorem still_keeps_pools (still : mode.still) (cfg : GCUAllocatorConfig) (rt : Runtime)
    (graphPools : List (MempoolId × PrivatePoolId))
    (captures : List (MempoolId × (StreamId → Bool))) :
    Closed mode cfg rt (fun _ st' =>
      st'.graphPools = graphPools ∧ st'.capturesUnderway = captures) := by
  have step : ∀ {st st' : State}, Local st st' →
      st.graphPools = graphPools ∧ st.capturesUnderway = captures →
      st'.graphPools = graphPools ∧ st'.capturesUnderway = captures := fun same holds =>
    ⟨same.graphPools.trans holds.1, same.capturesUnderway.trans holds.2⟩
  intro h st h' st' holds act
  cases act
  case obtain => simpa using holds
  case carve => exact step (carved_local _ _ _) holds
  case keep => exact step (kept_local _ _ _) holds
  case mergeLeft => exact step (mergeBlocks_local _ _ _ _) holds
  case mergeRight => exact step (mergeBlocks_local _ _ _ _) holds
  case settle => exact step (settled_local _ _ _ _ _) holds
  case dropSettling => exact step (insertIntoBlocks_local _ _ _) holds
  case release => simpa using holds
  case erasePool => exact absurd still ‹_›
  case eraseMissing => exact absurd still ‹_›
  case openPool => exact absurd still ‹_›
  case beginCapture => exact absurd still ‹_›
  case endCapture => exact absurd still ‹_›
  all_goals exact holds

/-- A request that is served without touching the private pools leaves them alone. -/
theorem stays_still (cfg : GCUAllocatorConfig) (rt : Runtime)
    (graphPools : List (MempoolId × PrivatePoolId))
    (captures : List (MempoolId × (StreamId → Bool))) :
    Closed { still := True } cfg rt (fun _ st' =>
      st'.graphPools = graphPools ∧ st'.capturesUnderway = captures) :=
  still_keeps_pools trivial cfg rt graphPools captures

/-! ### `malloc` -/

/-- The private pool of a request is one of those the captures use. -/
def Owned (params : AllocParams) (st : State) : Prop :=
  ∀ owner, params.pool.ownerPrivatePool = some owner →
    owner ∈ st.graphPools.map (·.2) ∧ st.capturesUnderway ≠ []

/-- The parameters of one request, before and after an attempt to serve it. -/
structure SameRequest (params params' : AllocParams) : Prop where
  size : params'.size = params.size
  stream : params'.stream = params.stream
  pool : params'.pool = params.pool
  allocSize : params'.allocSize = params.allocSize

theorem SameRequest.ofRequest {params' : AllocParams} (same : SameRequest params params')
    (request : params.OfRequest) : params'.OfRequest := by
  constructor
  · rw [same.size]; exact request.word
  · rw [same.allocSize, same.size]; exact request.allocSize
  · rw [same.pool, same.size]; exact request.pool

/-- The end of an attempt: the block is in the hand, or the request is still open. -/
def Attempted (P : Hand → State → Prop) (params : AllocParams) (result : Bool × AllocParams)
    (st : State) : Prop :=
  (result.1 = true → ∃ found, result.2.block = some found ∧ P (.taken result.2 found) st) ∧
    (result.1 = false → P .empty st ∧ SameRequest params result.2)

theorem getFreeBlock_keeps (closed : Closed mode cfg rt P) (open_ : ∀ b, ¬ mode.spares b) (request : params.OfRequest)
    (clear : params.err = none) (holds : P .empty st) :
    wp (getFreeBlock cfg params)
      (fun result st' => Attempted P params result st' ∧ (result.1 = false → result.2 = params))
      (fun _ st' => P .empty st') st := by
  have counted : P .empty (st.countSearch cfg params.pool) := by
    unfold State.countSearch
    split
    · exact closed holds (.searched st params.pool)
    · exact holds
  simp only [getFreeBlock, wp_bind, wp_modify, wp_get]
  generalize st.countSearch cfg params.pool = st at counted ⊢
  have stillOpen : Attempted P params (false, params) st ∧ (True → True) :=
    ⟨⟨fun impossible => by simp at impossible, fun _ => ⟨counted, rfl, rfl, rfl, rfl⟩⟩, id⟩
  split
  · simpa using stillOpen
  · rename_i found lower
    simp only [wp_ite, wp_pure, wp_bind, wp_set]
    refine ⟨fun _ => stillOpen, fun stream => ⟨fun _ => stillOpen, fun oversize =>
      ⟨fun _ => stillOpen, fun _ => ?_⟩⟩⟩
    obtain ⟨pooled, size⟩ := lowerBound_some lower
    have stream : (st.block found).stream = params.stream := not_not.mp stream
    have taken := closed counted
      (.take st params found request clear pooled stream (size stream) (open_ found) oversize)
    exact ⟨⟨fun _ => ⟨found, rfl, taken⟩, fun impossible => by simp at impossible⟩,
      fun impossible => by simp at impossible⟩

theorem allocBlockBegin_keeps (closed : Closed mode cfg rt P) (params : AllocParams) (call : Nat)
    (isRetry : Bool) :
    Keeps P (allocBlockBegin rt call params isRetry) := by
  intro st holds
  simp only [allocBlockBegin, wp_bind, wp_gcuCheck, wp_ite, wp_modify, wp_get, wp_pure]
  exact ⟨fun _ => ⟨fun _ => closed holds (.counted st _), fun _ => holds⟩, fun _ _ => holds⟩

theorem allocBlockEnd_keeps (closed : Closed mode cfg rt P) (spends : ¬ mode.frugal)
    (request : params.OfRequest) (owned : Owned params st) {call : Nat} (holds : P .empty st) :
    wp (allocBlockEnd cfg params (rt.topsMalloc call st.allocations params.allocSize))
      (fun result st' => Attempted P params result st') (fun _ st' => P .empty st') st := by
  unfold allocBlockEnd
  cases answer : rt.topsMalloc call st.allocations params.allocSize with
  | error error =>
    cases error
    · exact ⟨fun impossible => by simp at impossible, fun _ => ⟨holds, rfl, rfl, rfl, rfl⟩⟩
    · exact holds
    · exact holds
  | ok ptr =>
    have fresh := rt.topsMalloc_fresh call _ _ ptr answer
    have obtained := closed holds
      (.obtain st params ptr request fresh (fun owner same => (owned owner same).1) spends)
    simp only [wp_bind, wp_get, wp_modify, wp_pure]
    exact ⟨fun _ => ⟨st.nextBlock, rfl, obtained⟩, fun impossible => by simp at impossible⟩

theorem allocBlock_keeps (closed : Closed mode cfg rt P) (spends : ¬ mode.frugal)
    (request : params.OfRequest) (owned : Owned params st) (call : Nat) (isRetry : Bool) (holds : P .empty st) :
    wp (allocBlock cfg rt call params isRetry) (fun result st' => Attempted P params result st')
      (fun _ st' => P .empty st') st := by
  have still := allocBlockBegin_keeps
    (stays_still cfg rt st.graphPools st.capturesUnderway) params call isRetry st ⟨rfl, rfl⟩
  simp only [allocBlock, wp_bind, wp_ite, wp_get, wp_pure]
  refine wp_mono (wp_and (allocBlockBegin_keeps closed params call isRetry st holds) still)
    (fun _ st₁ begun => ⟨fun _ => ?_, fun _ => ?_⟩) (fun _ _ raised => raised.1)
  · have owned₁ : Owned params st₁ := by
      unfold Owned
      rw [begun.2.1, begun.2.2]
      exact owned
    exact allocBlockEnd_keeps closed spends request owned₁ begun.1
  · exact ⟨fun impossible => by simp at impossible, fun _ => ⟨begun.1, rfl, rfl, rfl, rfl⟩⟩

theorem live_of_allocated {block : BlockId} (allocated : (st.block block).allocated = true) :
    st.Live block := by
  by_contra dead
  have gone : st.blocks block = none := by simpa [State.Live] using dead
  simp [State.block, gone] at allocated

theorem executeCallback_keeps (closed : Closed mode cfg rt P) (steady : mode.steady → rt.Steady)
    (blocks : List BlockId) : Keeps P (executeCallback cfg rt blocks) := by
  induction blocks with
  | nil => exact .pure _
  | cons block rest ih =>
    intro st holds
    simp only [executeCallback, wp_bind, wp_get, wp_ite]
    refine ⟨fun allocated => ?_, fun _ => ih st holds⟩
    exact wp_mono (free_keeps closed steady (live_of_allocated allocated) (fun _ => allocated) holds)
      (fun _ st' kept => ih st' kept) (fun _ _ => id)

theorem triggerFreeMemoryCallbacks_keeps (closed : Closed mode cfg rt P)
    (steady : mode.steady → rt.Steady) (callbacks : List (List BlockId × Bool)) (freed : Bool) :
    Keeps P (triggerFreeMemoryCallbacks cfg rt callbacks freed) := by
  induction callbacks generalizing freed with
  | nil => exact .pure _
  | cons callback rest ih =>
    exact .bind (executeCallback_keeps closed steady callback.1) fun _ => ih _

theorem searchPool_keeps (closed : Closed mode cfg rt P) (open_ : ∀ b, ¬ mode.spares b)
    (steady : mode.steady → rt.Steady) (request : params.OfRequest) (clear : params.err = none) (holds : P .empty st) :
    wp (searchPool cfg rt params)
      (fun result st' => Attempted P params result st' ∧ (result.1 = false → result.2 = params))
      (fun _ st' => P .empty st') st := by
  simp only [searchPool, wp_bind]
  refine wp_mono (getFreeBlock_keeps closed open_ request clear holds) (fun result st₁ first => ?_)
    (fun _ _ => id)
  obtain ⟨found, params'⟩ := result
  obtain ⟨attempted, same⟩ := first
  cases found with
  | true => exact ⟨attempted, same⟩
  | false =>
    obtain rfl : params' = params := same rfl
    simp only [wp_bind, wp_ite, wp_pure, Bool.false_eq_true, false_implies, true_and,
      not_false_eq_true, forall_const]
    refine wp_mono (triggerFreeMemoryCallbacks_keeps closed steady _ _ st₁ (attempted.2 rfl).1)
      (fun _ st₂ kept => ⟨fun _ => getFreeBlock_keeps closed open_ request clear kept, fun _ => ?_⟩)
      (fun _ _ => id)
    exact ⟨⟨fun impossible => by simp at impossible, fun _ => ⟨kept, rfl, rfl, rfl, rfl⟩⟩,
      trivial⟩

theorem getPool_owned (size : Nat) (stream : StreamId) (st : State) :
    wp (getPool size stream)
      (fun pool st' => st' = st ∧ pool.isSmall = decide (size ≤ kSmallSize) ∧
        ∀ owner, pool.ownerPrivatePool = some owner →
          owner ∈ st.graphPools.map (·.2) ∧ st.capturesUnderway ≠ [])
      (fun _ st' => st' = st) st := by
  simp only [getPool, wp_bind, wp_get]
  split
  · simp [poolFor]
  · rename_i entry underway
    split
    · rfl
    · rename_i owner found
      refine ⟨rfl, rfl, fun other same => ?_⟩
      obtain rfl : owner = other := by simpa [poolFor] using same
      simp only [State.findPool, Option.map_eq_some_iff] at found
      obtain ⟨pair, found, rfl⟩ := found
      refine ⟨List.mem_map_of_mem (List.mem_of_find?_eq_some found), fun none_ => ?_⟩
      simp [none_] at underway

theorem allocParams_keeps (closed : Closed mode cfg rt P) (steady : mode.steady → rt.Steady)
    (device : DeviceIndex) {origSize : Nat} (stream : StreamId) (word : origSize < 2 ^ 64)
    (holds : P .empty st) :
    wp (allocParams cfg rt device origSize stream)
      (fun params st' => P .empty st' ∧ params.OfRequest ∧ params.err = none ∧ Owned params st')
      (fun _ st' => P .empty st') st := by
  have finish : ∀ st, P .empty st → wp (do
      let pool ← getPool (roundSize cfg origSize) stream
      return ({ device := device, size := roundSize cfg origSize, stream := stream, pool := pool,
                allocSize := getAllocationSize (roundSize cfg origSize) } : AllocParams))
      (fun params st' => P .empty st' ∧ params.OfRequest ∧ params.err = none ∧ Owned params st')
      (fun _ st' => P .empty st') st := by
    intro st holds
    simp only [wp_bind, wp_pure]
    refine wp_mono (getPool_owned _ stream st) (fun pool st' got => ?_) (fun _ st' same => ?_)
    · obtain ⟨rfl, small, owned⟩ := got
      exact ⟨holds, ⟨roundSize_lt cfg word, rfl, small⟩, trivial, owned⟩
    · exact same ▸ holds
  simp only [allocParams, wp_bind, wp_get, wp_ite, wp_pure] at finish ⊢
  exact ⟨fun _ => wp_mono (processEvents_keeps closed steady st holds)
    (fun _ st' kept => finish st' kept) (fun _ _ => id), fun _ => finish st holds⟩

/-- The end of the first attempt: an open request keeps what the retries need. -/
def OpenRequest (P : Hand → State → Prop) (result : Bool × AllocParams) (st : State) : Prop :=
  (result.1 = true → ∃ found, result.2.block = some found ∧ P (.taken result.2 found) st) ∧
    (result.1 = false → P .empty st ∧ result.2.OfRequest ∧ Owned result.2 st)

theorem SameRequest.owned {params' : AllocParams} {st' : State} (same : SameRequest params params')
    (owned : Owned params st)
    (pools : st'.graphPools = st.graphPools ∧ st'.capturesUnderway = st.capturesUnderway) :
    Owned params' st' := by
  intro owner owns
  rw [pools.1, pools.2]
  exact owned owner (same.pool ▸ owns)

/-- An attempt that leaves the private pools alone leaves the request open. -/
theorem openRequest_of_attempted {result : Bool × AllocParams} {st' : State}
    (request : params.OfRequest) (owned : Owned params st)
    (attempted : Attempted P params result st')
    (still : Attempted (fun _ st' => st'.graphPools = st.graphPools ∧
      st'.capturesUnderway = st.capturesUnderway) params result st') :
    OpenRequest P result st' := by
  refine ⟨attempted.1, fun failed => ?_⟩
  obtain ⟨holds, same⟩ := attempted.2 failed
  exact ⟨holds, same.ofRequest request, same.owned owned (still.2 failed).1⟩

theorem mallocFirst_keeps (closed : Closed mode cfg rt P) (open_ : ∀ b, ¬ mode.spares b)
    (spends : ¬ mode.frugal) (steady : mode.steady → rt.Steady)
    (device : DeviceIndex) {origSize : Nat} (stream : StreamId) (word : origSize < 2 ^ 64)
    (holds : P .empty st) :
    wp (mallocFirst cfg rt device origSize stream) (fun result st' => OpenRequest P result st')
      (fun _ st' => P .empty st') st := by
  simp only [mallocFirst, wp_bind]
  refine wp_mono (allocParams_keeps closed steady device stream word holds)
    (fun params st₁ ready => ?_) (fun _ _ => id)
  obtain ⟨holds₁, request, clear, owned⟩ := ready
  have still := stays_still cfg rt st₁.graphPools st₁.capturesUnderway
  refine wp_mono (wp_and (searchPool_keeps closed open_ steady request clear holds₁)
    (searchPool_keeps still (fun _ => id) False.elim request clear ⟨rfl, rfl⟩)) (fun result st₂ searched => ?_)
    (fun _ _ raised => raised.1)
  obtain ⟨found, params'⟩ := result
  have open₂ := openRequest_of_attempted request owned searched.1.1 searched.2.1
  cases found with
  | true => exact open₂
  | false =>
    obtain ⟨holds₂, request₂, owned₂⟩ := open₂.2 rfl
    have last : ∀ st, P .empty st → Owned params' st →
        wp (allocBlock cfg rt 0 params' false) (fun result st' => OpenRequest P result st')
          (fun _ st' => P .empty st') st := fun st holds owned =>
      wp_mono (wp_and (allocBlock_keeps closed spends request₂ owned 0 false holds)
        (allocBlock_keeps (stays_still cfg rt st.graphPools st.capturesUnderway) id request₂ owned 0
          false ⟨rfl, rfl⟩))
        (fun _ _ both => openRequest_of_attempted request₂ owned both.1 both.2)
        (fun _ _ raised => raised.1)
    simp only [wp_bind, wp_get, wp_ite, Bool.false_eq_true, false_implies, true_and,
      not_false_eq_true, forall_const]
    refine ⟨fun _ => ?_, fun _ => last st₂ holds₂ owned₂⟩
    refine wp_mono (wp_and (garbageCollectCachedBlocks_keeps closed st₂ holds₂)
      (garbageCollectCachedBlocks_keeps
        (stays_still cfg rt st₂.graphPools st₂.capturesUnderway) st₂ ⟨rfl, rfl⟩))
      (fun _ st₃ both => last st₃ both.1 ?_) (fun _ _ raised => raised.1)
    exact SameRequest.owned ⟨rfl, rfl, rfl, rfl⟩ owned₂ both.2

theorem mallocSecond_keeps (closed : Closed mode cfg rt P) (spends : ¬ mode.frugal)
    (request : params.OfRequest) (owned : Owned params st)
    (safe : cfg.maxSplitSize ≠ sizeMax → ReleaseSafe mode cfg params st) (holds : P .empty st) :
    wp (mallocSecond cfg rt params) (fun result st' => OpenRequest P result st')
      (fun _ st' => P .empty st') st := by
  have still := stays_still cfg rt st.graphPools st.capturesUnderway
  have trivially : cfg.maxSplitSize ≠ sizeMax → ReleaseSafe { still := True } cfg params st :=
    fun _ _ _ => ⟨False.elim, False.elim⟩
  simp only [mallocSecond, wp_bind, wp_ite, wp_pure]
  refine wp_mono (wp_and (releaseAvailableCachedBlocks_keeps closed safe holds)
    (releaseAvailableCachedBlocks_keeps still trivially ⟨rfl, rfl⟩))
    (fun enough st₁ both => ?_) (fun _ _ raised => raised.1)
  have owned₁ := SameRequest.owned ⟨rfl, rfl, rfl, rfl⟩ owned both.2
  refine ⟨fun _ => ?_, fun _ => ?_⟩
  · exact wp_mono (wp_and (allocBlock_keeps closed spends request owned₁ 1 false both.1)
      (allocBlock_keeps (stays_still cfg rt st₁.graphPools st₁.capturesUnderway) id request owned₁ 1
        false ⟨rfl, rfl⟩))
      (fun _ _ both => openRequest_of_attempted request owned₁ both.1 both.2)
      (fun _ _ raised => raised.1)
  · exact ⟨fun impossible => by simp at impossible, fun _ => ⟨both.1, request, owned₁⟩⟩

/-- What the search for a block ends with. -/
def Searched (P : Hand → State → Prop) (result : Bool × AllocParams) (st : State) : Prop :=
  (result.1 = true → ∃ found, result.2.block = some found ∧ P (.taken result.2 found) st) ∧
    (result.1 = false → P .empty st)

/-- What an assertion has to be like for every request to keep it. -/
structure Servable (mode : Mode) (cfg : GCUAllocatorConfig) (rt : Runtime)
    (P : Hand → State → Prop) : Prop where
  closed : Closed mode cfg rt P
  shared : ∀ b, ¬ mode.spares b
  moves : ¬ mode.still
  spends : ¬ mode.frugal
  steady : mode.steady → rt.Steady
  distinct : ∀ st, P .empty st → Distinct st

theorem mallocRetry_keeps (servable : Servable mode cfg rt P) (request : params.OfRequest) (owned : Owned params st)
    (safe : cfg.maxSplitSize ≠ sizeMax → ReleaseSafe mode cfg params st) (holds : P .empty st) :
    wp (mallocRetry cfg rt params) (fun result st' => Searched P result st')
      (fun _ st' => P .empty st') st := by
  obtain ⟨closed, shared, moves, spends, steady, distinct⟩ := servable
  rw [mallocRetry, wp_bind]
  refine wp_mono (mallocSecond_keeps closed spends request owned safe holds)
    (fun result st₂ open₂ => ?_) (fun _ _ => id)
  obtain ⟨found, params'⟩ := result
  cases found with
  | true => exact ⟨open₂.1, fun impossible => by simp at impossible⟩
  | false =>
    obtain ⟨holds₂, request₂, owned₂⟩ := open₂.2 rfl
    simp only [wp_bind, wp_get, wp_ite, wp_pure, Bool.false_eq_true, false_implies, true_and,
      not_false_eq_true, forall_const]
    have refused : Searched P (false, params') st₂ :=
      ⟨fun impossible => by simp at impossible, fun _ => holds₂⟩
    refine ⟨fun idle => ?_, fun _ => refused⟩
    refine wp_mono (releaseCachedBlocks_keeps closed moves steady distinct st₂ holds₂)
      (fun _ st₃ holds₃ => ?_) (fun _ _ => id)
    -- No capture is underway, so the pool of the request is not private.
    have owned₃ : Owned params' st₃ := fun owner owns =>
      absurd (by simpa using idle) (owned₂ owner owns).2
    exact wp_mono (allocBlock_keeps closed spends request₂ owned₃ 2 true holds₃)
      (fun _ _ attempted => ⟨attempted.1, fun failed => (attempted.2 failed).1⟩) (fun _ _ => id)

theorem reportOutOfMemory_keeps {α : Type} (closed : Closed mode cfg rt P) (params : AllocParams) :
    Keeps P (reportOutOfMemory rt params : M α) := by
  intro st holds
  simp only [reportOutOfMemory, wp_bind, wp_internalAssert]
  refine ⟨fun _ => ?_, fun _ => holds⟩
  cases rt.topsMemGetInfo
  · exact holds
  · exact closed holds (.counted st _)

/-- When the first attempt of a `malloc` fails, what the second may release is released safely. -/
def MallocSafe (mode : Mode) (cfg : GCUAllocatorConfig) (rt : Runtime) (device : DeviceIndex)
    (origSize : Nat) (stream : StreamId) (st : State) : Prop :=
  ∀ params st', (mallocFirst cfg rt device origSize stream).run st = .ok (false, params) st' →
    cfg.maxSplitSize ≠ sizeMax → ReleaseSafe mode cfg params st'

theorem mallocSearch_keeps (servable : Servable mode cfg rt P)
    {device : DeviceIndex} {origSize : Nat} {stream : StreamId} (word : origSize < 2 ^ 64)
    (safe : MallocSafe mode cfg rt device origSize stream st) (holds : P .empty st) :
    wp (mallocSearch cfg rt device origSize stream) (fun result st' => Searched P result st')
      (fun _ st' => P .empty st') st := by
  have run : wp (mallocFirst cfg rt device origSize stream)
      (fun result st' => (mallocFirst cfg rt device origSize stream).run st = .ok result st')
      (fun _ _ => True) st := wp_of_runs (fun _ _ ran => ran) (fun _ _ _ => trivial)
  rw [mallocSearch, wp_bind]
  refine wp_mono (wp_and (mallocFirst_keeps servable.closed servable.shared servable.spends
    servable.steady device stream word holds) run)
    (fun result st₁ first => ?_) (fun _ _ raised => raised.1)
  obtain ⟨found, params⟩ := result
  obtain ⟨open₁, ran⟩ := first
  cases found with
  | true => exact ⟨open₁.1, fun impossible => by simp at impossible⟩
  | false =>
    obtain ⟨holds₁, request, owned⟩ := open₁.2 rfl
    exact mallocRetry_keeps servable request owned (safe params st₁ ran) holds₁

theorem malloc_keeps (servable : Servable mode cfg rt P)
    {device : DeviceIndex} {origSize : Nat} {stream : StreamId} (word : origSize < 2 ^ 64)
    (safe : MallocSafe mode cfg rt device origSize stream st) (holds : P .empty st) :
    wp (malloc cfg rt device origSize stream) (fun _ st' => P .empty st')
      (fun _ st' => P .empty st') st := by
  rw [malloc, wp_bind]
  refine wp_mono (mallocSearch_keeps servable word safe holds)
    (fun result st₁ searched => ?_) (fun _ _ => id)
  obtain ⟨found, params⟩ := result
  cases found with
  | true =>
    obtain ⟨found, chosen, taken⟩ := searched.1 rfl
    simp only at chosen taken
    simp only [Bool.not_true, Bool.false_eq_true, if_false, wp_bind, wp_get, chosen,
      Option.getD_some]
    exact allocFoundBlock_keeps servable.closed chosen .inl taken
  | false => exact reportOutOfMemory_keeps servable.closed params st₁ (searched.2 rfl)

/-! ### Private pools and checkpoints -/

theorem beginAllocateToPool_keeps (closed : Closed mode cfg rt P) (moves : ¬ mode.still)
    (calls : ¬ mode.serving)
    (id : MempoolId) (filter : StreamId → Bool) : Keeps P (beginAllocateToPool id filter) := by
  intro st holds
  have finish : ∀ st pool, P .empty st → State.findPool st.graphPools id = some pool →
      wp (do
        torchCheck ((← get).capturesUnderway.all fun entry => decide (entry.1 ≠ id))
          "beginAllocateToPool: already recording to mempool_id"
        modify (·.captureBegun id pool filter)) (fun _ st' => P .empty st')
        (fun _ st' => P .empty st') st := by
    intro st pool holds present
    simp only [wp_bind, wp_get, wp_torchCheck, wp_modify]
    exact ⟨fun _ => closed holds (.beginCapture st id pool filter present moves calls), fun _ => holds⟩
  simp only [wp_bind, wp_get, wp_torchCheck, wp_modify] at finish
  simp only [beginAllocateToPool, wp_bind, wp_get]
  split
  · rename_i absent
    simp only [wp_bind, wp_set, wp_pure, wp_get, wp_torchCheck, wp_modify]
    refine finish (st.poolOpened id) st.nextPrivatePool
      (closed holds (.openPool st id absent moves calls)) ?_
    have fresh : st.graphPools.find? (fun entry => decide (entry.1 = id)) = none := by
      simpa only [State.findPool, Option.map_eq_none_iff] using absent
    simp [State.findPool, State.poolOpened, List.find?_append, fresh]
  · rename_i pool present
    simp only [wp_bind, wp_set, wp_pure, wp_get, wp_torchCheck, wp_modify, wp_internalAssert]
    refine ⟨fun used => ?_, fun _ => holds⟩
    exact finish (st.poolShared pool) pool
      (closed holds (.sharePool st id pool present (by simpa using used) moves calls)) present

theorem endAllocateToPool_keeps (closed : Closed mode cfg rt P) (moves : ¬ mode.still)
    (calls : ¬ mode.serving)
    (id : MempoolId) : Keeps P (endAllocateToPool id) := by
  intro st holds
  simp only [endAllocateToPool, wp_bind, wp_get, wp_ite, wp_set, wp_throw]
  exact ⟨fun _ => closed holds (.endCapture st id moves calls), fun _ => holds⟩

theorem releasePool_keeps (closed : Closed mode cfg rt P) (moves : ¬ mode.still)
    (calls : ¬ mode.serving)
    (id : MempoolId) : Keeps P (releasePool id) := by
  intro st holds
  simp only [releasePool, wp_bind, wp_get]
  split
  · exact holds
  · rename_i pool present
    have dropped := closed holds (.dropUse st id pool present moves calls)
    simp only [wp_bind, wp_modify, wp_get, wp_internalAssert, wp_ite]
    refine ⟨fun _ => ⟨fun zero => ⟨fun absent => ?_, fun taken => ⟨fun inserted => ?_, fun _ => ?_⟩⟩,
      fun _ => ?_⟩, fun _ => dropped⟩
    · have marked := closed dropped
        (.markFreeable _ id pool present (Option.isNone_iff_eq_none.mp absent) zero moves calls)
      exact ⟨fun _ => closed marked (.logReleased _ pool calls), fun _ => marked⟩
    · exact absurd inserted taken
    · exact dropped
    · exact closed dropped (.logReleased _ pool calls)

theorem blockState_state (block : Block) (st : State) :
    wp (blockState block) (fun _ st' => st' = st) (fun _ st' => st' = st) st := by
  simp [blockState]

theorem blockStates_state (blocks : List Block) (st : State) :
    wp (blockStates blocks) (fun _ st' => st' = st) (fun _ st' => st' = st) st := by
  induction blocks with
  | nil => rfl
  | cons block rest ih =>
    simp only [blockStates, wp_bind, wp_pure]
    refine wp_mono (blockState_state block st) (fun _ st' same => ?_) (fun _ _ same => same)
    exact same ▸ ih

theorem segmentStates_state (heads : List BlockId) (st : State) :
    wp (segmentStates heads) (fun _ st' => st' = st) (fun _ st' => st' = st) st := by
  induction heads with
  | nil => rfl
  | cons head rest ih =>
    simp only [segmentStates, segmentState, wp_bind, wp_pure, wp_get, wp_internalAssert]
    refine ⟨fun _ => ?_, fun _ => trivial⟩
    refine wp_mono (blockStates_state _ st) (fun _ st' same => ?_) (fun _ _ same => same)
    exact same ▸ ih

/-- Taking a checkpoint changes nothing. -/
theorem getCheckpointState_state (id : MempoolId) (st : State) :
    wp (getCheckpointState rt id) (fun _ st' => st' = st) (fun _ st' => st' = st) st := by
  simp only [getCheckpointState, wp_bind, wp_get]
  split
  · simp only [wp_bind, wp_pure]
    exact segmentStates_state _ st
  · split <;> rfl

theorem recordStream_keeps (closed : Closed mode cfg rt P) {block : BlockId} (stream : GCUStream)
    (allocated : (st.block block).allocated = true) (holds : P .empty st) :
    wp (recordStream block stream) (fun _ st' => P .empty st') (fun _ st' => P .empty st') st := by
  simp only [recordStream, wp_bind, wp_get, wp_ite, wp_pure, wp_modify]
  exact ⟨fun _ => holds, fun other => closed holds (.use st block stream allocated other)⟩

/-! ### One operation -/

/-- What a client has to respect: sizes are words, and only blocks it holds are passed. -/
def Op.Admissible (st : State) : Op → Prop
  | .malloc _ origSize _ => origSize < 2 ^ 64
  | .free block => (st.block block).allocated = true
  | .recordStream block _ => (st.block block).allocated = true
  | _ => True

def Op.isRestore : Op → Bool
  | .setCheckpointPoolState _ => true
  | _ => false

/-- The calls by which graphs begin, end and let go. -/
def Op.isPoolCall : Op → Bool
  | .beginAllocateToPool _ _ => true
  | .endAllocateToPool _ => true
  | .releasePool _ => true
  | _ => false

/-- `MallocSafe`, for whatever the step asks for. -/
def Step.Safe (mode : Mode) (step : Step) (st : State) : Prop :=
  ∀ device origSize stream, step.op = .malloc device origSize stream →
    MallocSafe mode step.cfg step.rt device origSize stream st

/-- Every operation but a restore keeps what the actions keep. -/
theorem Step.keeps {step : Step} (servable : Servable mode step.cfg step.rt P)
    (calls : step.op.isPoolCall = true → ¬ mode.serving) (admissible : step.op.Admissible st) (safe : step.Safe mode st)
    (other : step.op.isRestore = false) (holds : P .empty st) :
    wp step.run (fun _ st' => P .empty st') (fun _ st' => P .empty st') st := by
  obtain ⟨cfg, rt, op⟩ := step
  cases op with
  | malloc device origSize stream =>
    simp only [Step.run, wp_bind, wp_pure]
    exact malloc_keeps servable admissible (safe _ _ _ rfl) holds
  | free block =>
    simp only [Step.run, wp_bind, wp_pure]
    exact free_keeps servable.closed servable.steady (live_of_allocated admissible)
      (fun _ => admissible) holds
  | recordStream block stream =>
    simp only [Step.run, wp_bind, wp_pure]
    exact recordStream_keeps servable.closed stream admissible holds
  | emptyCache =>
    simp only [Step.run, wp_bind, wp_pure]
    exact releaseCachedBlocks_keeps servable.closed servable.moves servable.steady
      servable.distinct st holds
  | setMemoryFraction allowed => exact servable.closed holds (.limit st allowed servable.spends)
  | beginAllocateToPool id filter =>
    simp only [Step.run, wp_bind, wp_pure]
    exact beginAllocateToPool_keeps servable.closed servable.moves (calls rfl) id filter st holds
  | endAllocateToPool id =>
    simp only [Step.run, wp_bind, wp_pure]
    exact endAllocateToPool_keeps servable.closed servable.moves (calls rfl) id st holds
  | releasePool id =>
    simp only [Step.run, wp_bind, wp_pure]
    exact releasePool_keeps servable.closed servable.moves (calls rfl) id st holds
  | getCheckpointState id =>
    simp only [Step.run, wp_bind, wp_pure]
    exact wp_mono (getCheckpointState_state id st) (fun _ _ same => same ▸ holds)
      (fun _ _ same => same ▸ holds)
  | setCheckpointPoolState pps => simp [Op.isRestore] at other

end TorchGcu.GCUCachingAllocator

import TorchGcu.CachingAllocator.Actions

/-! Every operation follows the actions: an assertion that no action breaks holds after
the operation, whether it returns or raises. -/
namespace TorchGcu.GCUCachingAllocator
open ProgramLogic

section Checks
variable {normal : Unit → State → Prop} {raised : Err → State → Prop} {st : State}

@[simp] theorem wp_internalAssert (condition : Bool) (message : String) :
    wp (internalAssert condition message) normal raised st ↔
      (condition = true → normal () st) ∧
        (condition = false → raised (.internalAssert message) st) := by
  cases condition <;> simp [internalAssert]

@[simp] theorem wp_torchCheck (condition : Bool) (message : String) :
    wp (torchCheck condition message) normal raised st ↔
      (condition = true → normal () st) ∧
        (condition = false → raised (.torchCheck message) st) := by
  cases condition <;> simp [torchCheck]

@[simp] theorem wp_gcuCheck (answer : Option TopsError) :
    wp (gcuCheck answer) normal raised st ↔
      (answer = none → normal () st) ∧
        (∀ error, answer = some error → raised (.gcuError error) st) := by
  cases answer <;> simp [gcuCheck]

end Checks

namespace Keeps
variable {P : Hand → State → Prop} {α β : Type}

theorem pure (a : α) : Keeps P (Pure.pure a : M α) := fun _ holds => holds

theorem bind {m : M α} {next : α → M β} (first : Keeps P m) (second : ∀ a, Keeps P (next a)) :
    Keeps P (m >>= next) := by
  intro st holds
  rw [wp_bind]
  exact wp_mono (first st holds) (fun a st' => second a st') (fun _ _ => id)

theorem get_bind {next : State → M β} (rest : ∀ st, Keeps P (next st)) :
    Keeps P (get >>= next) := by
  intro st holds
  exact rest st st holds

theorem check_assert (condition : Bool) (message : String) :
    Keeps P (internalAssert condition message) := by
  intro st holds
  simp only [wp_internalAssert]
  exact ⟨fun _ => holds, fun _ => holds⟩

theorem check_torch (condition : Bool) (message : String) :
    Keeps P (torchCheck condition message) := by
  intro st holds
  simp only [wp_torchCheck]
  exact ⟨fun _ => holds, fun _ => holds⟩

end Keeps

variable {mode : Mode} {cfg : GCUAllocatorConfig} {rt : Runtime} {P : Hand → State → Prop}
  {st : State}

theorem Closed.counters (closed : Closed mode cfg rt P) (f : DeviceCounters → DeviceCounters) :
    Keeps P (modify (·.modifyCounters f) : M PUnit) :=
  fun st holds => closed holds (.counted st f)

/-! ### Freeing -/

theorem tryMergeLeft_keeps (closed : Closed mode cfg rt P) {block : BlockId} {origin : Block}
    {src : Option BlockId} {right : Side}
    (holds : P (.merging block origin (.pending src) right) st) :
    wp (tryMergeBlocks block src origin.pool)
      (fun subsumed st' => P (.merging block origin (.merged subsumed) right) st')
      (fun _ st' => P .empty st') st := by
  unfold tryMergeBlocks
  cases src with
  | none => exact closed holds (.passLeft st block origin none right (by simp [State.Apart]))
  | some src =>
    simp only [wp_bind, wp_get, wp_ite, wp_pure, wp_internalAssert, wp_modify]
    refine ⟨fun busy => ?_, fun idle => ⟨fun split => ?_, fun unsplit => ?_⟩⟩
    · exact closed holds (.passLeft st block origin (some src) right
        (by intro other same; cases same; exact busy))
    · have parts : (st.block block).isSplit = true ∧ (st.block src).isSplit = true := by
        simpa using split
      exact closed holds (.mergeLeft st block origin src right (by simpa using idle) parts.2)
    · exact closed holds (.dropMerging st block origin _ right src (.inl rfl)
        (Bool.and_eq_false_iff.mp unsplit))

theorem tryMergeRight_keeps (closed : Closed mode cfg rt P) {block : BlockId} {origin : Block}
    {src : Option BlockId} {left : Nat}
    (holds : P (.merging block origin (.merged left) (.pending src)) st) :
    wp (tryMergeBlocks block src origin.pool)
      (fun subsumed st' => P (.merging block origin (.merged left) (.merged subsumed)) st')
      (fun _ st' => P .empty st') st := by
  unfold tryMergeBlocks
  cases src with
  | none => exact closed holds (.passRight st block origin none left (by simp [State.Apart]))
  | some src =>
    simp only [wp_bind, wp_get, wp_ite, wp_pure, wp_internalAssert, wp_modify]
    refine ⟨fun busy => ?_, fun idle => ⟨fun split => ?_, fun unsplit => ?_⟩⟩
    · exact closed holds (.passRight st block origin (some src) left
        (by intro other same; cases same; exact busy))
    · have parts : (st.block block).isSplit = true ∧ (st.block src).isSplit = true := by
        simpa using split
      exact closed holds (.mergeRight st block origin src left (by simpa using idle) parts.2)
    · exact closed holds (.dropMerging st block origin _ _ src (.inr rfl)
        (Bool.and_eq_false_iff.mp unsplit))

theorem freeBlock_keeps (closed : Closed mode cfg rt P) {block : BlockId}
    (holds : P (.freeing block) st) :
    wp (freeBlock block) (fun _ st' => P .empty st') (fun _ st' => P .empty st') st := by
  unfold freeBlock
  simp only [wp_bind, wp_get, wp_internalAssert]
  refine ⟨fun idle => ?_, fun active => closed holds (.dropFreeing st block active)⟩
  have merging := closed holds (.startMerging st block idle)
  refine wp_mono (tryMergeLeft_keeps closed merging) (fun left st₁ merging => ?_) (fun _ _ => id)
  refine wp_mono (tryMergeRight_keeps closed merging) (fun right st₂ merging => ?_)
    (fun _ _ => id)
  simp only [wp_modify, wp_set]
  refine ⟨fun inserted => ?_, fun refused => ?_⟩
  · exact closed merging (.settle st₂ block _ left right inserted)
  · exact closed merging (.dropSettling st₂ block _ left right refused)

theorem insertEventsLoop_keeps (closed : Closed mode cfg rt P) (steady : mode.steady → rt.Steady)
    {block : BlockId} {streams : List GCUStream} (holds : P (.recording block streams) st) :
    wp (insertEventsLoop rt block streams) (fun _ st' => P (.recording block []) st')
      (fun _ st' => P .empty st') st := by
  induction streams generalizing st with
  | nil => exact holds
  | cons stream streams ih =>
    have drop : ¬ rt.Steady → P .empty st := fun failed =>
      closed holds (.dropRecording st block _ fun isSteady => failed (steady isSteady))
    simp only [insertEventsLoop, wp_bind, wp_gcuCheck, wp_get, wp_modify]
    refine ⟨fun _ => ⟨fun _ => ⟨fun _ => ?_, ?_⟩, ?_⟩, ?_⟩
    · exact ih (closed holds (.push st block stream streams))
    · exact fun error failed => drop fun good => by simp [good.topsEventRecord] at failed
    · exact fun error failed => drop fun good => by simp [good.createEvent] at failed
    · exact fun error failed => drop fun good => by simp [good.setDevice] at failed

/-- `insert_events` from the moment the uses of the block have been taken. -/
theorem insertEvents_rest (closed : Closed mode cfg rt P) (steady : mode.steady → rt.Steady)
    {block : BlockId} {streams : List GCUStream} (holds : P (.recording block streams) st) :
    wp (do insertEventsLoop rt block streams; gcuCheck rt.maybeSetDevice)
      (fun _ st' => P .empty st') (fun _ st' => P .empty st') st := by
  simp only [wp_bind, wp_gcuCheck]
  refine wp_mono (insertEventsLoop_keeps closed steady holds) (fun _ st' done => ?_) (fun _ _ => id)
  have ended := closed done (.recorded st' block)
  exact ⟨fun _ => ended, fun _ _ => ended⟩

theorem insertEventsLoop_deferred (block : BlockId) (streams : List GCUStream) (st : State) :
    wp (insertEventsLoop rt block streams)
      (fun _ st' => st'.needsEventsDeferredUntilNoCapture = st.needsEventsDeferredUntilNoCapture)
      (fun _ _ => True) st := by
  induction streams generalizing st with
  | nil => rfl
  | cons stream streams ih =>
    simp only [insertEventsLoop, wp_bind, wp_gcuCheck, wp_get, wp_modify, implies_true, and_true]
    exact fun _ _ _ => ih (st.pushEvent stream block)

theorem insertDeferredLoop_keeps (closed : Closed mode cfg rt P) (steady : mode.steady → rt.Steady)
    {blocks : List BlockId} (waiting : ∀ b ∈ blocks, b ∈ st.needsEventsDeferredUntilNoCapture)
    (holds : P .empty st) :
    wp (insertDeferredLoop rt blocks) (fun _ st' => P .empty st') (fun _ st' => P .empty st')
      st := by
  induction blocks generalizing st with
  | nil => exact holds
  | cons block rest ih =>
    simp only [insertDeferredLoop, insertEvents, wp_bind, wp_get, wp_internalAssert, wp_gcuCheck,
      wp_modify]
    refine ⟨fun used => ⟨fun _ => ?_, fun _ _ => holds⟩, fun _ => holds⟩
    have taken := closed holds
      (.recordDeferred st block (waiting block List.mem_cons_self) (by simpa using used))
    have rested := wp_and (insertEventsLoop_keeps closed steady taken)
      (insertEventsLoop_deferred block _ (st.usesTaken block))
    refine wp_mono rested (fun _ st' done => ?_) (fun _ _ done => done.1)
    have ended := closed done.1 (.recorded st' block)
    refine ⟨fun _ => ih (fun b member => ?_) ended, fun _ _ => ended⟩
    rw [done.2]
    exact waiting b (List.mem_cons_of_mem block member)

theorem insertEventsDeferredUntilNoCapture_keeps (closed : Closed mode cfg rt P)
    (steady : mode.steady → rt.Steady) : Keeps P (insertEventsDeferredUntilNoCapture rt) := by
  intro st holds
  simp only [insertEventsDeferredUntilNoCapture, wp_bind, wp_get, wp_modify]
  exact wp_mono (insertDeferredLoop_keeps closed steady (fun _ => id) holds)
    (fun _ st' kept => closed kept (.forgetDeferred st')) (fun _ _ => id)

theorem free_keeps (closed : Closed mode cfg rt P) (steady : mode.steady → rt.Steady)
    {block : BlockId} (live : st.Live block)
    (exact : mode.exact → (st.block block).allocated = true) (holds : P .empty st) :
    wp (free cfg rt block) (fun _ st' => P .empty st') (fun _ st' => P .empty st') st := by
  have given := closed holds (.giveUp st block live exact)
  have uses : ((st.givenUp cfg block).block block).streamUses = (st.block block).streamUses := by
    cases found : st.blocks block with
    | none => simp [State.Live, found] at live
    | some k => simp [State.givenUp, State.log, State.modifyStats, State.modifyBlock, State.block,
        found]
  simp only [free, wp_bind, wp_get, wp_modify, wp_ite]
  refine ⟨fun unused => ?_, fun used => ⟨fun _ => ?_, fun _ => ?_⟩⟩
  · exact freeBlock_keeps closed
      (closed given (.free _ block (by rw [uses]; simpa using unused)))
  · have nonempty : ((st.givenUp cfg block).block block).streamUses ≠ [] := by
      rw [uses]; simpa using used
    simp only [insertEvents, wp_bind, wp_gcuCheck, wp_get, wp_modify]
    refine ⟨fun _ => ?_, fun error failed => ?_⟩
    · have recording := closed given (.record _ block nonempty)
      have rested := insertEvents_rest closed steady recording
      simp only [wp_bind, wp_gcuCheck] at rested
      exact rested
    · exact closed given (.dropGivenUp _ block nonempty)
  · exact closed given (.defer _ block (by rw [uses]; simpa using used))

/-! ### Events -/

theorem eventDone_keeps (closed : Closed mode cfg rt P) {e : PendingEvent} {event : EventId}
    (queued : e ∈ st.gcuEvents) (pending : e.event = some event) (holds : P .empty st) :
    wp (eventDone e.block event) (fun _ st' => P .empty st') (fun _ st' => P .empty st')
      (st.takeEvent event) := by
  simp only [eventDone, wp_bind, wp_modify, wp_get, wp_ite, wp_pure]
  refine ⟨fun last => ?_, fun more => ?_⟩
  · exact freeBlock_keeps closed (closed holds (.complete st e event queued pending last))
  · exact closed holds (.completeMore st e event queued pending more)

theorem processFront_keeps (closed : Closed mode cfg rt P) (stream : GCUStream) :
    Keeps P (processFront rt stream) := by
  intro st holds
  simp only [processFront, wp_bind, wp_get]
  cases front : st.queue stream with
  | nil => exact holds
  | cons e rest =>
    have queued : e ∈ st.gcuEvents := by
      have member : e ∈ st.queue stream := by rw [front]; exact List.mem_cons_self
      exact (List.mem_filter.mp member).1
    cases pending : e.event with
    | none => simpa only [pending, wp_throw] using holds
    | some event =>
      simp only [pending]
      cases rt.topsEventQuery event with
      | none =>
        simp only [wp_bind, wp_modify, wp_pure]
        refine wp_mono (eventDone_keeps closed queued pending holds) (fun _ st' kept => ?_)
          (fun _ _ => id)
        exact closed kept (.popFront st' stream)
      | some error =>
        have lost := closed holds (.lose st event)
        cases error
        · exact lost
        · exact holds
        · exact lost

theorem processQueue_keeps (closed : Closed mode cfg rt P) (stream : GCUStream) (turns : Nat) :
    Keeps P (processQueue rt stream turns) := by
  induction turns with
  | zero => exact .pure _
  | succ turns ih =>
    refine .bind (processFront_keeps closed stream) fun removed => ?_
    cases removed
    · exact .pure _
    · exact ih

theorem processStreams_keeps (closed : Closed mode cfg rt P) (streams : List GCUStream) :
    Keeps P (processStreams rt streams) := by
  induction streams with
  | nil => exact .pure _
  | cons stream streams ih =>
    exact .get_bind fun _ => .bind (processQueue_keeps closed stream _) fun _ => ih

theorem processEvents_keeps (closed : Closed mode cfg rt P) (steady : mode.steady → rt.Steady) :
    Keeps P (processEvents rt) :=
  .bind (insertEventsDeferredUntilNoCapture_keeps closed steady) fun _ =>
    .get_bind fun _ => processStreams_keeps closed _

@[simp] theorem setNext_gcuEvents (st : State) (b link : Option BlockId) :
    (st.setNext b link).gcuEvents = st.gcuEvents := by
  cases b <;> rfl

@[simp] theorem setPrev_gcuEvents (st : State) (b link : Option BlockId) :
    (st.setPrev b link).gcuEvents = st.gcuEvents := by
  cases b <;> rfl

@[simp] theorem insertIntoBlocks_gcuEvents (st : State) (pool : PoolRef) (b : BlockId) :
    (st.insertIntoBlocks pool b).1.gcuEvents = st.gcuEvents := by
  unfold State.insertIntoBlocks
  simp only
  split <;> rfl

@[simp] theorem mergeBlocks_gcuEvents (st : State) (dst src : BlockId) (pool : PoolRef) :
    (st.mergeBlocks dst src pool).gcuEvents = st.gcuEvents := by
  simp only [State.mergeBlocks, State.deleteBlock, State.eraseFromBlocks, State.modifyPool,
    State.modifyBlock]
  split <;> simp

theorem tryMergeBlocks_events (dst : BlockId) (src : Option BlockId) (pool : PoolRef)
    (st : State) : wp (tryMergeBlocks dst src pool)
      (fun _ st' => st'.gcuEvents = st.gcuEvents) (fun _ _ => True) st := by
  cases src with
  | none => rfl
  | some src =>
    simp only [tryMergeBlocks, wp_bind, wp_get, wp_ite, wp_pure, wp_internalAssert, wp_modify]
    exact ⟨fun _ => trivial, fun _ =>
      ⟨fun _ => mergeBlocks_gcuEvents st dst src pool, fun _ => trivial⟩⟩

theorem freeBlock_events (block : BlockId) (st : State) : wp (freeBlock block)
    (fun _ st' => st'.gcuEvents = st.gcuEvents) (fun _ _ => True) st := by
  simp only [freeBlock, wp_bind, wp_get, wp_internalAssert, wp_set, wp_modify, implies_true,
    and_true]
  intro _
  refine wp_mono (tryMergeBlocks_events _ _ _ st) (fun _ st₁ same₁ => ?_) (fun _ _ => id)
  refine wp_mono (tryMergeBlocks_events _ _ _ st₁) (fun _ st₂ same₂ _ => ?_) (fun _ _ => id)
  simpa [State.modifyStats, State.eraseActive] using same₂.trans same₁

theorem eventDone_events (block : BlockId) (event : EventId) (st : State) :
    wp (eventDone block event) (fun _ st' => st'.gcuEvents = st.gcuEvents) (fun _ _ => True)
      st := by
  simp only [eventDone, wp_bind, wp_modify, wp_get, wp_ite, wp_pure]
  exact ⟨fun _ => freeBlock_events block _, fun _ => rfl⟩

theorem synchronizeEntries_keeps (closed : Closed mode cfg rt P) {entries : List PendingEvent}
    (queued : ∀ e ∈ entries, e ∈ st.gcuEvents) (distinct : (entries.filterMap (·.event)).Nodup)
    (holds : P .empty st) :
    wp (synchronizeEntries rt entries) (fun _ st' => P .empty st') (fun _ st' => P .empty st')
      st := by
  induction entries generalizing st with
  | nil => exact holds
  | cons e rest ih =>
    simp only [synchronizeEntries]
    cases pending : e.event with
    | none => exact holds
    | some event =>
      simp only [wp_bind, wp_modify, wp_gcuCheck]
      refine ⟨fun _ => ?_, fun _ _ => closed holds (.lose st event)⟩
      have member := queued e List.mem_cons_self
      rw [List.filterMap_cons_some pending, List.nodup_cons] at distinct
      refine wp_mono (wp_and (eventDone_keeps closed member pending holds)
        (eventDone_events e.block event (st.takeEvent event))) (fun _ st' done => ?_)
        (fun _ _ done => done.1)
      refine ih (fun other later => ?_) distinct.2 done.1
      rw [done.2]
      have untouched : other.event ≠ some event := fun same =>
        distinct.1 (List.mem_filterMap.mpr ⟨other, later, same⟩)
      exact List.mem_map.mpr ⟨other, queued other (List.mem_cons_of_mem e later),
        if_neg untouched⟩

theorem synchronizeStreams_keeps (closed : Closed mode cfg rt P)
    (distinct : ∀ st, P .empty st → (st.gcuEvents.filterMap (·.event)).Nodup)
    (streams : List GCUStream) : Keeps P (synchronizeStreams rt streams) := by
  induction streams with
  | nil => exact .pure _
  | cons stream streams ih =>
    intro st holds
    simp only [synchronizeStreams, wp_bind, wp_get]
    have queue : (st.queue stream).Sublist st.gcuEvents := List.filter_sublist
    refine wp_mono (synchronizeEntries_keeps closed (fun _ member => queue.subset member)
      ((distinct st holds).sublist (queue.filterMap _)) holds) (fun _ st' kept => ih st' kept)
      (fun _ _ => id)

theorem synchronizeAndFreeEvents_keeps (closed : Closed mode cfg rt P)
    (steady : mode.steady → rt.Steady)
    (distinct : ∀ st, P .empty st → (st.gcuEvents.filterMap (·.event)).Nodup) :
    Keeps P (synchronizeAndFreeEvents rt) := by
  refine .bind (closed.counters _) fun _ => .get_bind fun _ => .bind (.check_assert _ _) fun _ =>
    .bind (insertEventsDeferredUntilNoCapture_keeps closed steady) fun _ => .get_bind fun _ =>
    .bind (synchronizeStreams_keeps closed distinct _) fun _ st holds => ?_
  exact closed holds (.clearEvents st)

/-! ### Giving memory back -/

theorem releaseBlock_keeps (closed : Closed mode cfg rt P) {pool : PoolRef} {block : BlockId}
    (may : Releasable mode st pool block) (holds : P .empty st) :
    wp (releaseBlock cfg rt block) (fun _ st' => P .empty st') (fun _ st' => P .empty st') st := by
  simp only [releaseBlock, wp_bind, wp_get, wp_modify, wp_gcuCheck]
  refine ⟨fun freed => ?_, fun error failed => ?_⟩
  · cases owned : (st.block block).pool.ownerPrivatePool with
    | none =>
      have released := closed holds (.release st pool block may freed (by simp [owned]))
      simp only [State.released, owned] at released
      simp only [wp_bind, wp_modify]
      exact released
    | some owner =>
      simp only [wp_bind, wp_get, wp_internalAssert, wp_modify, decide_eq_true_eq,
        decide_eq_false_iff_not, Int.not_lt]
      refine ⟨fun counted => ?_, fun uncounted => ?_⟩
      · have released := closed holds (.release st pool block may freed (by
          intro other same
          obtain rfl : owner = other := by simpa [owned] using same
          exact counted))
        simp only [State.released, owned] at released
        exact released
      · exact closed holds (.releaseStuck st pool block may owner owned uncounted)
  · exact closed holds (.releaseFailed st pool block may (by simp [failed]))

/-- What a release leaves of the blocks, the pool sets and the private pools. -/
structure Shrinks (st st' : State) : Prop where
  block : ∀ b, st'.block b = st.block b ∨ st'.block b = {}
  pools : ∀ pool, (st'.pools pool).blocks ⊆ (st.pools pool).blocks
  useCount : ∀ owner, (st'.privatePools owner).map (·.useCount) =
    (st.privatePools owner).map (·.useCount)
  freeable : st'.graphPoolsFreeable = st.graphPoolsFreeable

namespace Shrinks

theorem refl (st : State) : Shrinks st st :=
  ⟨fun _ => .inl rfl, fun _ => List.Subset.refl _, fun _ => rfl, rfl⟩

theorem trans {st st' st'' : State} (first : Shrinks st st') (second : Shrinks st' st'') :
    Shrinks st st'' where
  block b := by
    rcases second.block b with same | gone
    · exact (first.block b).imp same.trans same.trans
    · exact .inr gone
  pools pool := List.Subset.trans (second.pools pool) (first.pools pool)
  useCount owner := (second.useCount owner).trans (first.useCount owner)
  freeable := second.freeable.trans first.freeable

theorem unused {st st' : State} (shrinks : Shrinks st st') {owner : Option PrivatePoolId}
    (unused : st.Unused owner) : st'.Unused owner := by
  intro p owned
  rw [shrinks.useCount p]
  exact unused p owned

end Shrinks

theorem released_shrinks (st : State) (cfg : GCUAllocatorConfig) (block : BlockId) :
    Shrinks st (st.released cfg block) where
  block b := by
    by_cases same : b = block
    · right
      simp [same, State.block]
    · left
      simp [same, State.block]
  pools pool := by
    rw [released_pools]
    by_cases same : pool = (st.block block).pool
    · subst same
      simp [State.eraseFromBlocks, State.modifyPool]
    · simp [same, State.eraseFromBlocks, State.modifyPool]
  useCount owner := by
    rw [released_privatePools]
    split
    · rfl
    · rename_i p _
      by_cases same : owner = p
      · subst same
        simp [State.modifyPrivatePool, Function.comp_def]
      · simp [same, State.modifyPrivatePool]
  freeable := released_graphPoolsFreeable st cfg block

theorem releaseBlock_shrinks (block : BlockId) (st : State) :
    wp (releaseBlock cfg rt block) (fun _ st' => Shrinks st st') (fun _ _ => True) st := by
  have released := released_shrinks st cfg block
  simp only [releaseBlock, wp_bind, wp_get, wp_modify, wp_gcuCheck, implies_true, and_true]
  intro _
  cases owned : (st.block block).pool.ownerPrivatePool with
  | none =>
    simp only [State.released, owned] at released
    simp only [wp_bind, wp_modify]
    exact released
  | some owner =>
    simp only [wp_bind, wp_get, wp_internalAssert, wp_modify, implies_true, and_true]
    intro _
    simp only [State.released, owned] at released
    exact released

theorem releaseWhere_keeps (closed : Closed mode cfg rt P) {pool : PoolRef} {blocks : List BlockId}
    (unused : mode.quiet → st.Unused pool.ownerPrivatePool) (holds : P .empty st) :
    wp (releaseWhere cfg rt pool (fun b => !b.isSplit) blocks)
      (fun _ st' => P .empty st' ∧ Shrinks st st') (fun _ st' => P .empty st') st := by
  induction blocks generalizing st with
  | nil => exact ⟨holds, .refl st⟩
  | cons block rest ih =>
    simp only [releaseWhere, wp_bind, wp_get, wp_ite]
    refine ⟨fun chosen => ?_, fun _ => ih unused holds⟩
    have may : Releasable mode st pool block :=
      ⟨chosen.1, fun _ => by simpa using chosen.2, unused⟩
    refine wp_mono (wp_and (releaseBlock_keeps closed may holds) (releaseBlock_shrinks block st))
      (fun _ st₁ done => ?_) (fun _ _ done => done.1)
    exact wp_mono (ih (fun quiet => done.2.unused (unused quiet)) done.1)
      (fun _ _ rested => ⟨rested.1, done.2.trans rested.2⟩) (fun _ _ => id)

theorem releaseBlocks_keeps (closed : Closed mode cfg rt P) (pool : PoolRef)
    (unused : mode.quiet → st.Unused pool.ownerPrivatePool) (holds : P .empty st) :
    wp (releaseBlocks cfg rt pool) (fun _ st' => P .empty st' ∧ Shrinks st st')
      (fun _ st' => P .empty st') st :=
  releaseWhere_keeps closed unused holds

theorem unused_none (st : State) : st.Unused none := by
  intro p owned
  cases owned

theorem gcPass_keeps (closed : Closed mode cfg rt P) (ageThreshold : ℚ) (blocks : List BlockId)
    (gc : GcProgress) : Keeps P (gcPass cfg rt ageThreshold blocks gc) := by
  induction blocks generalizing gc with
  | nil => exact .pure _
  | cons block rest ih =>
    intro st holds
    simp only [gcPass, wp_bind, wp_get, wp_ite]
    refine ⟨fun chosen => ?_, fun _ => ih _ st holds⟩
    have may : Releasable mode st largeBlocks block :=
      ⟨chosen.1, fun _ => chosen.2.1, fun _ => unused_none st⟩
    exact wp_mono (releaseBlock_keeps closed may holds) (fun _ st' kept => ih _ st' kept)
      (fun _ _ => id)

theorem gcLoop_keeps (closed : Closed mode cfg rt P) (targetSize passes : Nat) (gc : GcProgress) :
    Keeps P (gcLoop cfg rt targetSize passes gc) := by
  induction passes generalizing gc with
  | zero => exact .pure _
  | succ passes ih =>
    intro st holds
    simp only [gcLoop, wp_ite]
    refine ⟨fun _ => ?_, fun _ => holds⟩
    exact (Keeps.get_bind fun st => .bind (gcPass_keeps closed _ _ _) fun gc => ih gc) st holds

theorem garbageCollectCachedBlocks_keeps (closed : Closed mode cfg rt P) :
    Keeps P (garbageCollectCachedBlocks cfg rt) := by
  intro st holds
  simp only [garbageCollectCachedBlocks, wp_bind, wp_get, wp_ite, wp_pure]
  exact ⟨fun _ => holds, fun _ => ⟨fun _ => holds, fun _ => gcLoop_keeps closed _ _ _ st holds⟩⟩

/-! ### Releasing oversize blocks -/

/-- A cached block of the request's stream that is too large to be split for others. -/
structure Oversize (cfg : GCUAllocatorConfig) (params : AllocParams) (st : State)
    (block : BlockId) : Prop where
  pooled : block ∈ (st.pools params.pool).blocks
  stream : (st.block block).stream = params.stream
  size : cfg.maxSplitSize ≤ (st.block block).size

/-- The one block that `release_available_cached_blocks` finds large enough. -/
def State.sufficient (st : State) (cfg : GCUAllocatorConfig) (params : AllocParams) :
    Option BlockId :=
  let keySize := if params.size < cfg.maxSplitSize then cfg.maxSplitSize else params.size
  (st.lowerBound params.pool { params.searchKey with size := keySize }).filter fun b =>
    (st.block b).stream = params.stream

/-- A block `release_available_cached_blocks` may choose: the one that is large enough, and
only where there is none any of the smaller ones. -/
structure Candidate (cfg : GCUAllocatorConfig) (params : AllocParams) (st : State)
    (block : BlockId) : Prop extends Oversize cfg params st block where
  alone : ∀ found, st.sufficient cfg params = some found → block = found

/-- What is asked of the release of a block of the request's pool. -/
structure MayRelease (mode : Mode) (params : AllocParams) (st : State) (block : BlockId) :
    Prop where
  unsplit : mode.whole → (st.block block).isSplit = false
  unused : mode.quiet → st.Unused params.pool.ownerPrivatePool

/-- Whatever `release_available_cached_blocks` may choose may be released. -/
def ReleaseSafe (mode : Mode) (cfg : GCUAllocatorConfig) (params : AllocParams)
    (st : State) : Prop :=
  ∀ block, Candidate cfg params st block → MayRelease mode params st block

variable {params : AllocParams}

theorem MayRelease.releasable {block : BlockId} (may : MayRelease mode params st block)
    (pooled : block ∈ (st.pools params.pool).blocks) : Releasable mode st params.pool block :=
  ⟨pooled, may.unsplit, may.unused⟩

theorem MayRelease.shrink {st' : State} (safe : ∀ b, Oversize cfg params st b →
      MayRelease mode params st b) {block : BlockId} (chosen : Oversize cfg params st block)
    (shrinks : Shrinks st st') {b : BlockId} (left : Oversize cfg params st' b) :
    MayRelease mode params st' b where
  unsplit whole := by
    rcases shrinks.block b with same | gone
    · have before : Oversize cfg params st b :=
        ⟨shrinks.pools _ left.pooled, same ▸ left.stream, same ▸ left.size⟩
      rw [same]
      exact (safe b before).unsplit whole
    · rw [gone]
      rfl
  unused quiet := shrinks.unused ((safe block chosen).unused quiet)

theorem releaseOversize_keeps (closed : Closed mode cfg rt P) {keySize : Nat}
    {blocks : List BlockId} {total : Nat}
    (safe : ∀ b, Oversize cfg params st b → MayRelease mode params st b) (holds : P .empty st) :
    wp (releaseOversize cfg rt params keySize blocks total) (fun _ st' => P .empty st')
      (fun _ st' => P .empty st') st := by
  induction blocks generalizing st total with
  | nil => exact holds
  | cons block rest ih =>
    simp only [releaseOversize, wp_bind, wp_get, wp_ite, wp_pure]
    refine ⟨fun _ => ih safe holds, fun pooled => ⟨fun chosen => ?_, fun _ => holds⟩⟩
    have oversize : Oversize cfg params st block :=
      ⟨not_not.mp pooled, chosen.2.2, chosen.2.1⟩
    have may := (safe block oversize).releasable oversize.pooled
    refine wp_mono (wp_and (releaseBlock_keeps closed may holds) (releaseBlock_shrinks block st))
      (fun _ st' done => ?_) (fun _ _ done => done.1)
    exact ih (fun b left => .shrink safe oversize done.2 left) done.1

/-- What `lower_bound` finds in the stream of the key is at least as large as the key. -/
theorem lowerBound_some {pool : PoolRef} {key : Block} {found : BlockId}
    (lower : st.lowerBound pool key = some found) :
    found ∈ (st.pools pool).blocks ∧
      ((st.block found).stream = key.stream → key.size ≤ (st.block found).size) := by
  refine ⟨List.mem_of_find?_eq_some lower, fun stream => ?_⟩
  have notBefore := List.find?_some lower
  by_contra smaller
  have less : (st.block found).size < key.size := by omega
  simp [blockComparatorSize, stream, less, less.ne] at notBefore

theorem releaseAvailableCachedBlocks_keeps (closed : Closed mode cfg rt P)
    (safe : cfg.maxSplitSize ≠ sizeMax → ReleaseSafe mode cfg params st) (holds : P .empty st) :
    wp (releaseAvailableCachedBlocks cfg rt params) (fun _ st' => P .empty st')
      (fun _ st' => P .empty st') st := by
  simp only [releaseAvailableCachedBlocks, wp_bind, wp_get, wp_ite, wp_pure]
  refine ⟨fun _ => holds, fun limited => ?_⟩
  have safe := safe limited
  split
  · rename_i block chosen
    have single : st.sufficient cfg params = some block := chosen
    simp only [Option.filter_eq_some_iff] at chosen
    obtain ⟨lower, stream⟩ := chosen
    obtain ⟨pooled, size⟩ := lowerBound_some lower
    have stream : (st.block block).stream = params.stream := by simpa using stream
    have large : cfg.maxSplitSize ≤ (st.block block).size := by
      have atLeast := size stream
      simp only at atLeast
      split at atLeast <;> omega
    have candidate : Candidate cfg params st block :=
      ⟨⟨pooled, stream, large⟩, fun found same => Option.some.inj (single.symm.trans same)⟩
    simp only [wp_bind, wp_pure]
    exact releaseBlock_keeps closed ((safe block candidate).releasable pooled) holds
  · rename_i none_
    have absent : st.sufficient cfg params = none := none_
    simp only [wp_ite, wp_pure, wp_bind]
    refine ⟨fun _ => holds, fun _ => releaseOversize_keeps closed (fun b oversize => ?_) holds⟩
    exact safe b ⟨oversize, fun found same => by simp [absent] at same⟩

/-! ### Emptying the cache -/

theorem releaseFreeablePools_keeps (closed : Closed mode cfg rt P) (moves : ¬ mode.still)
    {pools : List (MempoolId × PrivatePoolId)} (freeable : ∀ entry ∈ pools,
      entry ∈ st.graphPoolsFreeable) (keys : (pools.map (·.1)).Nodup) (holds : P .empty st) :
    wp (releaseFreeablePools cfg rt pools) (fun _ st' => P .empty st') (fun _ st' => P .empty st')
      st := by
  induction pools generalizing st with
  | nil => exact holds
  | cons entry rest ih =>
    obtain ⟨id, owner⟩ := entry
    obtain ⟨fresh, keys⟩ := List.nodup_cons.mp keys
    simp only [releaseFreeablePools, wp_bind, wp_get, wp_internalAssert]
    refine ⟨fun zero => ?_, fun _ => holds⟩
    have unused : st.Unused (some owner) := by
      intro p owned
      cases owned
      have zero : (st.privatePools owner).map (·.useCount) = some 0 := by simpa using zero
      simp [zero]
    refine wp_mono (releaseBlocks_keeps closed ⟨some owner, true⟩ (fun _ => unused) holds)
      (fun _ st₁ small => ?_) (fun _ _ raised => raised)
    refine wp_mono (releaseBlocks_keeps closed ⟨some owner, false⟩
      (fun _ => small.2.unused unused) small.1) (fun _ st₂ large => ?_)
      (fun _ _ raised => raised)
    have same : st₂.graphPoolsFreeable = st.graphPoolsFreeable :=
      (small.2.trans large.2).freeable
    have restFreeable : ∀ entry ∈ rest, entry ∈ st₂.graphPoolsFreeable := fun entry member =>
      same ▸ freeable entry (List.mem_cons_of_mem _ member)
    simp only [wp_ite, wp_bind, wp_get, wp_modify, wp_internalAssert]
    refine ⟨fun vacant => ?_, fun _ => ih restFreeable keys large.1⟩
    have here := same ▸ freeable _ List.mem_cons_self
    cases erased : State.findPool st₂.graphPools id with
    | none => exact ⟨fun found => by simp at found, fun _ =>
        closed large.1 (.eraseMissing st₂ id erased moves)⟩
    | some pool =>
      refine ⟨fun _ => ?_, fun absent => by simp at absent⟩
      have forgotten := closed large.1 (.erasePool st₂ id owner pool here vacant erased moves)
      refine ih (fun entry member => ?_) keys forgotten
      refine List.mem_filter.mpr ⟨restFreeable entry member, ?_⟩
      simp only [ne_eq, decide_eq_true_eq]
      intro sameId
      exact fresh (List.mem_map.mpr ⟨entry, member, sameId⟩)

/-- What the plumbing of events and private pools needs to know of a state. -/
structure Distinct (st : State) : Prop where
  events : (st.gcuEvents.filterMap (·.event)).Nodup
  freeable : (st.graphPoolsFreeable.map (·.1)).Nodup

theorem releaseCachedBlocks_keeps (closed : Closed mode cfg rt P) (moves : ¬ mode.still)
    (steady : mode.steady → rt.Steady) (distinct : ∀ st, P .empty st → Distinct st) :
    Keeps P (releaseCachedBlocks cfg rt) := by
  intro st holds
  simp only [releaseCachedBlocks, wp_bind, wp_get]
  refine wp_mono (synchronizeAndFreeEvents_keeps closed steady
    (fun st holds => (distinct st holds).events) st holds) (fun _ st₁ kept₁ => ?_) (fun _ _ => id)
  refine wp_mono (releaseBlocks_keeps closed largeBlocks
    (fun _ => unused_none st₁) kept₁) (fun _ st₂ kept₂ => ?_) (fun _ _ => id)
  refine wp_mono (releaseBlocks_keeps closed smallBlocks
    (fun _ => unused_none st₂) kept₂.1) (fun _ st₃ kept₃ => ?_) (fun _ _ => id)
  have order := rt.poolOrder_perm st₃.graphPoolsFreeable
  exact releaseFreeablePools_keeps closed moves (fun entry member => order.mem_iff.mp member)
    ((order.map _).nodup_iff.mpr (distinct st₃ kept₃.1).freeable) kept₃.1

end TorchGcu.GCUCachingAllocator

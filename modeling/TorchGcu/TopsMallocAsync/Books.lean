import TorchGcu.Logic.Runs
import TorchGcu.TopsMallocAsync.Allocator

/-! What the books of the stream-ordered allocator say in every state that calls reach. A
deferred free that fails after others of the same loop leaves erased pointers in the list,
and a pointer whose free failed may be passed to the runtime again; apart from these the
books are kept whatever the runtime answers. -/
namespace TorchGcu.TopsMallocAsync
open ProgramLogic
open GCUCachingAllocator (Err TopsError StreamId)

variable {s : Allocator} {ptr : Ptr} {usage : PtrUsage} {rt : FreeAnswers}

/-- The bytes that an entry of `ptr_info` counts for on a device. -/
def sizeOn (device : DeviceIndex) (usage : PtrUsage) : Nat :=
  if usage.creationStream.device = device then usage.size.toNat else 0

structure Balanced (s : Allocator) : Prop where
  used : ∀ device, s.pytorchUsedBytes device = .ofNat (totalOf (sizeOn device) s.ptrInfo)
  deferred : ∀ ptr ∈ s.ungraphedPtrsDeferFreeUntilNoCapture,
    ∃ usage, s.ptrInfo.lookup ptr = some usage ∧ usage.captured = false
  deferredOnce : s.ungraphedPtrsDeferFreeUntilNoCapture.Nodup
  freedOnce : (s.freed.map (·.allocation)).Nodup
  freedOutside : ∀ pass ∈ s.freed, pass.captured = false → pass.captureUnderway = false
  freeStreams : s.captureUnderway = false → s.captureFreeStreams = []

/-! ### Which answers let a free through -/

def SyncAnswers.Succeeds (rt : SyncAnswers) : Prop :=
  rt.eventCreate = none ∧ rt.eventRecord = none ∧ rt.streamWaitEvent = none ∧
    rt.eventDestroy = none

/-- The runtime is asked to free the pointer. -/
def FreeAnswers.Reaches (rt : FreeAnswers) (usage : PtrUsage) : Prop :=
  rt.guard = none ∧ (usage.recordedStreams = [] ∨ rt.syncCreation.Succeeds ∧
    ∀ stream ∈ usage.recordedStreams,
      rt.guardUsage stream = none ∧ (rt.syncUsage stream).Succeeds)

def FreeAnswers.Succeeds (rt : FreeAnswers) (usage : PtrUsage) : Prop :=
  rt.Reaches usage ∧ rt.topsFreeAsync = none

/-- The allocation was never passed to `topsFreeAsync`. -/
def Allocator.Unpassed (s : Allocator) (usage : PtrUsage) : Prop :=
  ∀ pass ∈ s.freed, pass.allocation ≠ usage.allocation

/-- A pointer that is deferred is not deferred already, and one that reaches the runtime was
never passed to it and is not left in the list. -/
def FreeMeets (rt : FreeAnswers) (s : Allocator) (ptr : Ptr) : Prop :=
  ∀ usage, s.ptrInfo.lookup ptr = some usage →
    if s.captureUnderway = true ∧ usage.captured = false then
      ptr ∉ s.ungraphedPtrsDeferFreeUntilNoCapture
    else
      rt.Reaches usage → s.Unpassed usage ∧
        (rt.topsFreeAsync = none → ptr ∉ s.ungraphedPtrsDeferFreeUntilNoCapture)

/-- In a flush no free fails after one that has succeeded, and no pointer is passed to the
runtime again. -/
def FlushMeets (frees : Ptr → FreeAnswers) (s : Allocator) (ptrs : List Ptr) : Prop :=
  match ptrs with
  | [] => True
  | ptr :: rest => ∀ usage, s.ptrInfo.lookup ptr = some usage → (frees ptr).Reaches usage →
      s.Unpassed usage ∧ ((frees ptr).topsFreeAsync = none →
        ∀ other ∈ rest, ∀ usage', s.ptrInfo.lookup other = some usage' →
          (frees other).Succeeds usage' ∧ s.Unpassed usage')

def Meets (s : Allocator) : Call → Prop
  | .mallocAsync rt device _ _ =>
    0 ≤ device ∧ device < s.deviceCount ∧ rt.guard = none ∧ s.captureUnderway = false →
      FlushMeets rt.frees s s.ungraphedPtrsDeferFreeUntilNoCapture
  | .freeAsync getLastError rt ptr => getLastError = none → FreeMeets rt s ptr
  | _ => True

/-! ### The invariant -/

/-- What holds also while deferred pointers are being freed. -/
structure Kept (s : Allocator) : Prop where
  used : ∀ device, s.pytorchUsedBytes device = .ofNat (totalOf (sizeOn device) s.ptrInfo)
  freedOnce : (s.freed.map (·.allocation)).Nodup
  freedOutside : ∀ pass ∈ s.freed, pass.captured = false → pass.captureUnderway = false
  freeStreams : s.captureUnderway = false → s.captureFreeStreams = []
  initialized : ∀ ptr usage, s.ptrInfo.lookup ptr = some usage →
    s.devsInitializedFlags usage.creationStream.device = true
  dummies : ∀ device, s.devsInitializedFlags device = true →
    (s.dummyUnifyingFreeStreams device).device = device
  distinct : ∀ ptr ptr' usage usage', s.ptrInfo.lookup ptr = some usage →
    s.ptrInfo.lookup ptr' = some usage' → usage.allocation = usage'.allocation → ptr = ptr'
  numbered : ∀ ptr usage, s.ptrInfo.lookup ptr = some usage → usage.allocation < s.allocations
  freedNumbered : ∀ pass ∈ s.freed, pass.allocation < s.allocations

/-- Each of the pointers is known and uncaptured, and none stands twice. -/
structure Listed (s : Allocator) (ptrs : List Ptr) : Prop where
  known : ∀ ptr ∈ ptrs, ∃ usage, s.ptrInfo.lookup ptr = some usage ∧ usage.captured = false
  once : ptrs.Nodup

structure Good (s : Allocator) : Prop where
  kept : Kept s
  listed : Listed s s.ungraphedPtrsDeferFreeUntilNoCapture

theorem Good.balanced (good : Good s) : Balanced s where
  used := good.kept.used
  deferred := good.listed.known
  deferredOnce := good.listed.once
  freedOnce := good.kept.freedOnce
  freedOutside := good.kept.freedOutside
  freeStreams := good.kept.freeStreams

/-! ### What a free does to the invariant -/

theorem Kept.pass (kept : Kept s) (found : s.ptrInfo.lookup ptr = some usage)
    (unpassed : s.Unpassed usage)
    (allowed : s.captureUnderway = true → usage.captured = true) (stream : StreamId) :
    Kept (s.pass ptr usage stream) where
  __ := kept
  freedOnce := by
    simp only [Allocator.pass, List.map_cons, List.nodup_cons]
    constructor
    · intro member
      obtain ⟨pass, passed, same⟩ := List.mem_map.mp member
      exact unpassed pass passed same
    · exact kept.freedOnce
  freedOutside := by
    intro pass member uncaptured
    rcases List.mem_cons.mp member with rfl | member
    · simp only at uncaptured ⊢
      by_contra underway
      have captured := allowed (by simpa using underway)
      simp [captured] at uncaptured
    · exact kept.freedOutside pass member uncaptured
  freedNumbered := by
    intro pass member
    rcases List.mem_cons.mp member with rfl | member
    · exact kept.numbered ptr usage found
    · exact kept.freedNumbered pass member

theorem Kept.rememberFreeStream (kept : Kept s) (stream : UsageStream) :
    Kept (s.rememberFreeStream stream) := by
  unfold Allocator.rememberFreeStream
  split
  · next underway =>
    exact { kept with freeStreams := fun ended => by simp [underway] at ended }
  · exact kept

theorem lookup_forget {other : Ptr} {usage' : PtrUsage}
    (found : (s.forget ptr usage).ptrInfo.lookup other = some usage') :
    other ≠ ptr ∧ s.ptrInfo.lookup other = some usage' := by
  by_cases same : other = ptr
  · subst same
    simp [Allocator.forget, AList.lookup_erase] at found
  · exact ⟨same, by simpa [Allocator.forget, same] using found⟩

theorem Kept.forget (kept : Kept s) (found : s.ptrInfo.lookup ptr = some usage) :
    Kept (s.forget ptr usage) where
  __ := kept
  used := by
    intro device
    have erased : _ = totalOf (sizeOn device) s.ptrInfo := totalOf_erase found
    have before := kept.used device
    simp only [Allocator.forget, Function.update_apply]
    rw [← erased, UInt64.ofNat_add] at before
    by_cases same : device = usage.creationStream.device
    · subst same
      simp only [sizeOn, if_true, UInt64.ofNat_toNat] at before ⊢
      rw [before]
      simp
    · have other : sizeOn device usage = 0 := by
        simp only [sizeOn, if_neg (Ne.symm same)]
      simpa [same, other] using before
  initialized := by
    intro other usage' found'
    exact kept.initialized other usage' (lookup_forget found').2
  distinct := by
    intro first second usage' usage'' found' found'' same
    exact kept.distinct first second usage' usage'' (lookup_forget found').2
      (lookup_forget found'').2 same
  numbered := by
    intro other usage' found'
    exact kept.numbered other usage' (lookup_forget found').2

/-! ### Freeing one pointer -/

theorem syncRaw_spec (rt : SyncAnswers) (s : Allocator) :
    wp (syncRaw rt) (fun _ t => t = s ∧ rt.Succeeds) (fun _ t => t = s ∧ ¬ rt.Succeeds) s := by
  unfold syncRaw
  simp only [wp_bind, wp_gcuCheck, SyncAnswers.Succeeds]
  grind

theorem syncStreams_spec (guard : UsageStream → Option TopsError)
    (sync : UsageStream → SyncAnswers) (streams : List UsageStream) (s : Allocator) :
    wp (syncStreams guard sync streams)
      (fun _ t => t = s ∧ ∀ stream ∈ streams, guard stream = none ∧ (sync stream).Succeeds)
      (fun _ t => t = s ∧
        ¬ ∀ stream ∈ streams, guard stream = none ∧ (sync stream).Succeeds) s := by
  induction streams with
  | nil => simp [syncStreams]
  | cons stream rest ih =>
    simp only [syncStreams, wp_bind, wp_gcuCheck, List.forall_mem_cons]
    constructor
    · intro guarded
      apply wp_mono (syncRaw_spec (sync stream) s)
      · rintro _ t ⟨rfl, synced⟩
        apply wp_mono ih
        · exact fun _ t after => ⟨after.1, ⟨guarded, synced⟩, after.2⟩
        · exact fun _ t after => ⟨after.1, fun all => after.2 all.2⟩
      · exact fun _ t after => ⟨after.1, fun all => after.2 all.1.2⟩
    · exact fun error failed => ⟨trivial, fun all => by simp [all.1.1] at failed⟩

/-- A pointer is passed to the runtime on one stream or, when an earlier call fails, on
none. -/
theorem freeOnStream_spec (s : Allocator) (guarded : rt.guard = none)
    (dummy : (s.dummyUnifyingFreeStreams usage.creationStream.device).device
      = usage.creationStream.device) :
    wp (freeOnStream rt ptr usage)
      (fun _ t => rt.Succeeds usage ∧ ∃ stream : UsageStream,
        t = (s.pass ptr usage stream.stream).rememberFreeStream stream)
      (fun _ t => ¬ rt.Succeeds usage ∧
        (t = s ∨ rt.Reaches usage ∧ ∃ stream, t = s.pass ptr usage stream)) s := by
  have passed (reached : rt.Reaches usage) (stream : UsageStream) :
      wp (topsFreeAsync rt.topsFreeAsync ptr usage stream)
        (fun _ t => rt.Succeeds usage ∧ ∃ stream : UsageStream,
          t = (s.pass ptr usage stream.stream).rememberFreeStream stream)
        (fun _ t => ¬ rt.Succeeds usage ∧
          (t = s ∨ rt.Reaches usage ∧ ∃ stream, t = s.pass ptr usage stream)) s := by
    simp only [topsFreeAsync, wp_bind, wp_modify, wp_gcuCheck]
    constructor
    · exact fun freed => ⟨⟨reached, freed⟩, stream, rfl⟩
    · intro error failed
      constructor
      · exact fun succeeds => by simp [succeeds.2] at failed
      · exact .inr ⟨reached, stream.stream, rfl⟩
  unfold freeOnStream
  simp only [wp_ite, wp_bind, wp_get, wp_internalAssert, decide_eq_true_eq, dummy,
    decide_eq_false_iff_not, not_true_eq_false, false_implies, and_true, true_implies]
  constructor
  · exact fun unused => passed ⟨guarded, .inl unused⟩ usage.creationStream
  · intro used
    apply wp_mono (syncRaw_spec rt.syncCreation s)
    · rintro _ t ⟨rfl, synced⟩
      apply wp_mono (syncStreams_spec rt.guardUsage rt.syncUsage usage.recordedStreams t)
      · rintro _ t ⟨rfl, all⟩
        exact passed ⟨guarded, .inr ⟨synced, all⟩⟩ _
      · rintro _ t ⟨rfl, failed⟩
        constructor
        · rintro ⟨⟨_, unused | ⟨_, all⟩⟩, _⟩
          · exact used unused
          · exact failed all
        · exact .inl rfl
    · rintro _ t ⟨rfl, failed⟩
      constructor
      · rintro ⟨⟨_, unused | ⟨synced, _⟩⟩, _⟩
        · exact used unused
        · exact failed synced
      · exact .inl rfl

/-- A free takes one entry out of `ptr_info` when every answer lets it through, and none
otherwise. -/
theorem freeImpl_spec (kept : Kept s) (found : s.ptrInfo.lookup ptr = some usage)
    (unpassed : rt.Reaches usage → s.Unpassed usage)
    (allowed : s.captureUnderway = true → usage.captured = true) :
    wp (freeImpl rt ptr usage)
      (fun _ t => rt.Succeeds usage ∧ Kept t ∧ t.ptrInfo = s.ptrInfo.erase ptr ∧
        t.ungraphedPtrsDeferFreeUntilNoCapture = s.ungraphedPtrsDeferFreeUntilNoCapture ∧
        t.captureUnderway = s.captureUnderway ∧
        ∀ pass ∈ t.freed, pass ∈ s.freed ∨ pass.allocation = usage.allocation)
      (fun _ t => ¬ rt.Succeeds usage ∧ Kept t ∧ t.ptrInfo = s.ptrInfo ∧
        t.ungraphedPtrsDeferFreeUntilNoCapture = s.ungraphedPtrsDeferFreeUntilNoCapture) s := by
  have dummy := kept.dummies _ (kept.initialized ptr usage found)
  unfold freeImpl
  simp only [wp_bind, wp_gcuCheck]
  constructor
  · intro guarded
    apply wp_mono (freeOnStream_spec s guarded dummy)
    · rintro _ t ⟨succeeds, stream, rfl⟩
      have passed := kept.pass found (unpassed succeeds.1) allowed stream.stream
      have remembered := passed.rememberFreeStream stream
      rw [wp_modify]
      refine ⟨succeeds, remembered.forget ?_, ?_⟩
      · rw [Allocator.rememberFreeStream_ptrInfo]
        exact found
      · simp only [Allocator.forget, Allocator.rememberFreeStream_ptrInfo,
          Allocator.rememberFreeStream_deferred, Allocator.rememberFreeStream_captureUnderway,
          Allocator.rememberFreeStream_freed]
        refine ⟨rfl, rfl, rfl, fun pass member => ?_⟩
        rcases List.mem_cons.mp member with rfl | member
        · exact .inr rfl
        · exact .inl member
    · rintro _ t ⟨fails, rfl | ⟨reached, stream, rfl⟩⟩
      · exact ⟨fails, kept, rfl, rfl⟩
      · exact ⟨fails, kept.pass found (unpassed reached) allowed stream, rfl, rfl⟩
  · intro error failed
    refine ⟨?_, kept, trivial, trivial⟩
    exact fun succeeds => by simp [succeeds.1.1] at failed

/-! ### Freeing the deferred pointers -/

/-- What one free does to the pointers still to be freed. -/
theorem Listed.freed {t : Allocator} {rest : List Ptr} (listed : Listed s (ptr :: rest))
    (erased : t.ptrInfo = s.ptrInfo.erase ptr) : Listed t rest := by
  obtain ⟨fresh, once⟩ := List.nodup_cons.mp listed.once
  constructor
  · intro other member
    have different : other ≠ ptr := fun same => fresh (same ▸ member)
    rw [erased, AList.lookup_erase_ne different]
    exact listed.known other (List.mem_cons_of_mem _ member)
  · exact once

theorem Kept.unpassed_of_ne {t : Allocator} {other : Ptr} {usage' : PtrUsage} (kept : Kept s)
    (found : s.ptrInfo.lookup ptr = some usage)
    (found' : s.ptrInfo.lookup other = some usage') (different : other ≠ ptr)
    (passed : ∀ pass ∈ t.freed, pass ∈ s.freed ∨ pass.allocation = usage.allocation)
    (unpassed : s.Unpassed usage') : t.Unpassed usage' := by
  intro pass member same
  rcases passed pass member with before | here
  · exact unpassed pass before same
  · exact different (kept.distinct other ptr usage' usage found' found (same.symm.trans here))

/-- Where every free succeeds the loop ends and the books are kept. -/
theorem freeDeferred_spec {frees : Ptr → FreeAnswers} (ptrs : List Ptr) (s : Allocator)
    (kept : Kept s) (listed : Listed s ptrs) (ended : s.captureUnderway = false)
    (succeed : ∀ ptr ∈ ptrs, ∀ usage, s.ptrInfo.lookup ptr = some usage →
      (frees ptr).Succeeds usage ∧ s.Unpassed usage) :
    wp (freeDeferred frees ptrs) (fun _ t => Kept t) (fun _ _ => False) s := by
  induction ptrs generalizing s with
  | nil => exact kept
  | cons ptr rest ih =>
    obtain ⟨usage, found, _⟩ := listed.known ptr List.mem_cons_self
    obtain ⟨succeeds, unpassed⟩ := succeed ptr List.mem_cons_self usage found
    simp only [freeDeferred, wp_bind, wp_get, found]
    apply wp_mono (freeImpl_spec kept found (fun _ => unpassed) (by simp [ended]))
    · rintro _ t ⟨_, kept', erased, _, underway, passed⟩
      apply ih t kept' (listed.freed erased) (underway.trans ended)
      intro other member usage' found'
      have different : other ≠ ptr := by
        rintro rfl
        exact (List.nodup_cons.mp listed.once).1 member
      rw [erased, AList.lookup_erase_ne different] at found'
      have before := succeed other (List.mem_cons_of_mem _ member) usage' found'
      exact ⟨before.1, kept.unpassed_of_ne found found' different passed before.2⟩
    · exact fun _ t after => after.1 succeeds

theorem flushDeferred_good {frees : Ptr → FreeAnswers} (good : Good s)
    (meets : s.captureUnderway = false →
      FlushMeets frees s s.ungraphedPtrsDeferFreeUntilNoCapture) :
    wp (flushDeferred frees) (fun _ => Good) (fun _ => Good) s := by
  unfold flushDeferred
  simp only [wp_bind, wp_get, wp_ite]
  constructor
  · intro flushes
    have ended : s.captureUnderway = false := by
      simp only [Bool.and_eq_true, Bool.not_eq_true'] at flushes
      exact flushes.1
    have meets := meets ended
    have listed := good.listed
    cases deferred : s.ungraphedPtrsDeferFreeUntilNoCapture with
    | nil => simp [deferred] at flushes
    | cons ptr rest =>
      rw [deferred] at meets listed
      obtain ⟨usage, found, _⟩ := listed.known ptr List.mem_cons_self
      simp only [freeDeferred, wp_bind, wp_get, found, wp_modify]
      apply wp_mono (freeImpl_spec good.kept found (fun reached => (meets usage found reached).1)
        (by simp [ended]))
      · rintro _ t ⟨succeeds, kept, erased, _, underway, passed⟩
        have others := (meets usage found succeeds.1).2 succeeds.2
        apply wp_mono (freeDeferred_spec rest t kept (listed.freed erased)
          (underway.trans ended) ?_)
        · intro _ u kept'
          exact ⟨{ kept' with }, ⟨by simp, List.nodup_nil⟩⟩
        · exact fun _ _ never => never.elim
        · intro other member usage' found'
          have different : other ≠ ptr := by
            rintro rfl
            exact (List.nodup_cons.mp listed.once).1 member
          rw [erased, AList.lookup_erase_ne different] at found'
          have before := others other member usage' found'
          exact ⟨before.1, good.kept.unpassed_of_ne found found' different passed before.2⟩
      · rintro _ t ⟨_, kept, same, deferred'⟩
        exact ⟨kept, by
          rw [deferred', deferred]
          exact ⟨by simpa only [same] using listed.known, listed.once⟩⟩
  · exact fun _ => good

/-! ### The other operations -/

theorem Kept.markInitialized {device : DeviceIndex} (kept : Kept s)
    (fresh : s.devsInitializedFlags device = false) (dummy : StreamId) :
    Kept (s.markInitialized device dummy) where
  __ := kept
  used := by
    intro other
    simp only [Allocator.markInitialized, Function.update_apply]
    by_cases same : other = device
    · subst same
      have unused : totalOf (sizeOn other) s.ptrInfo = 0 := by
        apply totalOf_eq_zero
        intro ptr usage found
        have initialized := kept.initialized ptr usage found
        apply if_neg
        rintro rfl
        simp [fresh] at initialized
      simp [unused]
    · simpa only [if_neg same] using kept.used other
  initialized := by
    intro ptr usage found
    have initialized := kept.initialized ptr usage found
    by_cases same : usage.creationStream.device = device <;>
      simp [Allocator.markInitialized, same, initialized]
  dummies := by
    intro other initialized
    by_cases same : other = device
    · simp [Allocator.markInitialized, same]
    · simp only [Allocator.markInitialized, Function.update_apply, if_neg same] at initialized ⊢
      exact kept.dummies other initialized

theorem lazyInitDevice_good (rt : LazyInitAnswers) (device : DeviceIndex) (good : Good s) :
    wp (lazyInitDevice rt device)
      (fun _ t => Good t ∧ t.devsInitializedFlags device = true) (fun _ => Good) s := by
  unfold lazyInitDevice
  simp only [wp_bind, wp_get, wp_ite, wp_pure]
  constructor
  · exact fun already => ⟨good, already⟩
  · intro fresh
    have fresh : s.devsInitializedFlags device = false := by simpa using fresh
    have kept := good.kept.markInitialized fresh
    simp only [wp_gcuCheck]
    cases rt.streamFromPool with
    | error error => simp [good]
    | ok dufs =>
      have after : Good (s.markInitialized device dufs) :=
        ⟨kept dufs, good.listed.known, good.listed.once⟩
      have flagged : (s.markInitialized device dufs).devsInitializedFlags device = true := by
        simp [Allocator.markInitialized]
      simp [good, after, flagged]

theorem freeAsync_good {getLastError : Option TopsError} (good : Good s)
    (meets : getLastError = none → FreeMeets rt s ptr) :
    wp (freeAsync getLastError rt ptr) (fun _ => Good) (fun _ => Good) s := by
  unfold freeAsync
  simp only [wp_bind, wp_gcuCheck, wp_get]
  constructor
  · intro clear
    cases found : s.ptrInfo.lookup ptr with
    | none => exact good
    | some usage =>
      have meets := meets clear usage found
      simp only [wp_ite, Bool.and_eq_true, Bool.not_eq_true', wp_set]
      constructor
      · intro defers
        rw [if_pos defers] at meets
        refine ⟨{ good.kept with }, ?_, ?_⟩
        · intro other member
          rcases List.mem_append.mp member with member | member
          · exact good.listed.known other member
          · rw [List.mem_singleton.mp member]
            exact ⟨usage, found, defers.2⟩
        · apply List.Nodup.append good.listed.once (List.nodup_singleton _)
          simpa using meets
      · intro frees
        rw [if_neg frees] at meets
        apply wp_mono (freeImpl_spec good.kept found (fun reached => (meets reached).1) ?_)
        · rintro _ t ⟨succeeds, kept, erased, deferred, _, _⟩
          have absent := (meets succeeds.1).2 succeeds.2
          refine ⟨kept, ?_, ?_⟩
          · rw [deferred]
            intro other member
            have different : other ≠ ptr := fun same => absent (same ▸ member)
            rw [erased, AList.lookup_erase_ne different]
            exact good.listed.known other member
          · exact deferred ▸ good.listed.once
        · rintro _ t ⟨_, kept, same, deferred⟩
          refine ⟨kept, ?_, ?_⟩
          · rw [deferred, same]
            exact good.listed.known
          · exact deferred ▸ good.listed.once
        · intro underway
          by_contra uncaptured
          exact frees ⟨underway, by simpa using uncaptured⟩
  · exact fun _ _ => good

theorem of_lookup_insert {entries : AList fun _ : Ptr => PtrUsage} {other : Ptr}
    {usage' : PtrUsage} (found : (entries.insert ptr usage).lookup other = some usage') :
    other = ptr ∧ usage' = usage ∨ other ≠ ptr ∧ entries.lookup other = some usage' := by
  by_cases same : other = ptr
  · subst same
    rw [AList.lookup_insert] at found
    exact .inl ⟨rfl, (Option.some.inj found).symm⟩
  · rw [AList.lookup_insert_ne same] at found
    exact .inr ⟨same, found⟩

theorem Kept.emplace {device : DeviceIndex} (kept : Kept s)
    (absent : s.ptrInfo.lookup ptr = none) (initialized : s.devsInitializedFlags device = true)
    (size : UInt64) (stream : StreamId) : Kept (s.emplace ptr device size stream) where
  __ := kept
  used := by
    intro other
    simp only [Allocator.emplace, totalOf_insert absent, Function.update_apply, kept.used]
    by_cases same : other = device
    · subst same
      simp only [sizeOn, if_true, UInt64.ofNat_add, UInt64.ofNat_toNat]
      exact UInt64.add_comm _ _
    · simp [same, Ne.symm same, sizeOn]
  initialized := by
    intro other usage' found
    rcases of_lookup_insert found with ⟨_, rfl⟩ | ⟨_, found⟩
    · exact initialized
    · exact kept.initialized other usage' found
  distinct := by
    intro first second usage' usage'' found' found'' same
    rcases of_lookup_insert found' with ⟨rfl, rfl⟩ | ⟨_, before⟩ <;>
      rcases of_lookup_insert found'' with ⟨rfl, rfl⟩ | ⟨_, before'⟩
    · rfl
    · have known := kept.numbered second usage'' before'
      simp only at same
      omega
    · have known := kept.numbered first usage' before
      simp only at same
      omega
    · exact kept.distinct first second usage' usage'' before before' same
  numbered := by
    intro other usage' found
    rcases of_lookup_insert found with ⟨_, rfl⟩ | ⟨_, found⟩
    · exact Nat.lt_succ_self s.allocations
    · exact (kept.numbered other usage' found).trans (Nat.lt_succ_self _)
  freedNumbered := by
    intro pass member
    exact (kept.freedNumbered pass member).trans (Nat.lt_succ_self _)

theorem Good.emplace {device : DeviceIndex} (good : Good s)
    (absent : s.ptrInfo.lookup ptr = none) (initialized : s.devsInitializedFlags device = true)
    (size : UInt64) (stream : StreamId) : Good (s.emplace ptr device size stream) where
  kept := good.kept.emplace absent initialized size stream
  listed := by
    constructor
    · intro other member
      obtain ⟨usage, found, uncaptured⟩ := good.listed.known other member
      have different : other ≠ ptr := by
        rintro rfl
        simp [absent] at found
      exact ⟨usage, by simpa [Allocator.emplace, different] using found, uncaptured⟩
    · exact good.listed.once

theorem mallocAsync_good {rt : MallocAnswers} {device : DeviceIndex} {size : UInt64}
    {stream : StreamId} (good : Good s) (meets : Meets s (.mallocAsync rt device size stream)) :
    wp (mallocAsync rt device size stream) (fun _ => Good) (fun _ => Good) s := by
  unfold mallocAsync
  simp only [wp_bind, wp_get, wp_internalAssert, wp_gcuCheck, decide_eq_true_eq]
  constructor
  · rintro ⟨lower, upper⟩
    constructor
    · intro guarded
      apply wp_mono (flushDeferred_good good fun ended => meets ⟨lower, upper, guarded, ended⟩)
      · intro _ t good
        apply wp_mono (lazyInitDevice_good rt.lazyInit device good)
        · rintro _ u ⟨good, initialized⟩
          constructor
          · intro _
            cases mallocAnswer rt u device size with
            | error error =>
              cases error with
              | memoryAllocation => cases rt.memGetInfo <;> exact good
              | notReady => exact good
              | other code => exact good
            | ok devPtr =>
              cases found : u.ptrInfo.lookup devPtr with
              | some usage => simpa only [found, wp_throw] using good
              | none =>
                simpa only [found, wp_set] using good.emplace found initialized size stream
          · exact fun _ _ => good
        · exact fun _ _ good => good
      · exact fun _ _ good => good
    · exact fun _ _ => good
  · exact fun _ => good

/-- The map with other recorded streams for one pointer. -/
theorem of_lookup_recorded {streams : List UsageStream} {other : Ptr} {usage' : PtrUsage}
    (found : s.ptrInfo.lookup ptr = some usage)
    (found' : (s.ptrInfo.insert ptr { usage with recordedStreams := streams }).lookup other
      = some usage') :
    ∃ before, s.ptrInfo.lookup other = some before ∧
      usage'.creationStream = before.creationStream ∧ usage'.allocation = before.allocation := by
  rcases of_lookup_insert found' with ⟨rfl, rfl⟩ | ⟨_, before⟩
  · exact ⟨usage, found, rfl, rfl⟩
  · exact ⟨usage', before, rfl, rfl⟩

theorem Good.recorded (good : Good s) (found : s.ptrInfo.lookup ptr = some usage)
    (streams : List UsageStream) :
    Good { s with ptrInfo := s.ptrInfo.insert ptr { usage with recordedStreams := streams } } where
  kept := {
    good.kept with
    used := by
      intro device
      have same : totalOf (sizeOn device)
          (s.ptrInfo.insert ptr { usage with recordedStreams := streams })
          = totalOf (sizeOn device) s.ptrInfo := totalOf_replace found rfl
      exact (good.kept.used device).trans (congrArg UInt64.ofNat same.symm)
    initialized := by
      intro other usage' found'
      obtain ⟨before, known, creation, _⟩ := of_lookup_recorded found found'
      rw [creation]
      exact good.kept.initialized other before known
    distinct := by
      intro first second usage' usage'' found' found'' same
      obtain ⟨before, known, _, allocation⟩ := of_lookup_recorded found found'
      obtain ⟨before', known', _, allocation'⟩ := of_lookup_recorded found found''
      exact good.kept.distinct first second before before' known known'
        (allocation.symm.trans (same.trans allocation'))
    numbered := by
      intro other usage' found'
      obtain ⟨before, known, _, allocation⟩ := of_lookup_recorded found found'
      rw [allocation]
      exact good.kept.numbered other before known }
  listed := by
    constructor
    · intro other member
      obtain ⟨usage', known, uncaptured⟩ := good.listed.known other member
      by_cases same : other = ptr
      · subst same
        cases known.symm.trans found
        exact ⟨_, AList.lookup_insert s.ptrInfo, uncaptured⟩
      · exact ⟨usage', by simpa only [AList.lookup_insert_ne same] using known, uncaptured⟩
    · exact good.listed.once

theorem recordStream_good (toRecord : UsageStream) (good : Good s) :
    wp (recordStream ptr toRecord) (fun _ => Good) (fun _ => Good) s := by
  unfold recordStream
  simp only [wp_bind, wp_get, wp_ite, wp_pure]
  constructor
  · exact fun _ => good
  · intro _
    cases found : s.ptrInfo.lookup ptr with
    | none => exact good
    | some usage =>
      simp only [wp_ite, wp_pure, wp_set]
      constructor
      · exact fun _ => good
      · exact fun _ => good.recorded found _

theorem beginAllocateToPool_good (good : Good s) :
    wp beginAllocateToPool (fun _ => Good) (fun _ => Good) s := by
  unfold beginAllocateToPool
  simp only [wp_bind, wp_get, wp_internalAssert, wp_torchCheck, wp_set]
  refine ⟨fun _ => ⟨fun _ => ?_, fun _ => good⟩, fun _ => good⟩
  exact ⟨{ good.kept with freeStreams := fun ended => by simp at ended },
    good.listed.known, good.listed.once⟩

theorem endAllocateToPool_good {rt : EndAnswers} {device : DeviceIndex} (good : Good s) :
    wp (endAllocateToPool rt device) (fun _ => Good) (fun _ => Good) s := by
  unfold endAllocateToPool
  simp only [wp_bind, wp_get, wp_torchCheck, wp_modify]
  refine ⟨fun _ => ⟨fun underway => ?_, fun _ => good⟩, fun _ => good⟩
  apply wp_mono (syncStreams_spec rt.guard rt.sync s.captureFreeStreams s)
  · rintro _ t ⟨rfl, _⟩
    simp only [underway, true_implies, false_implies, reduceCtorEq, and_true]
    exact ⟨{ good.kept with freeStreams := fun _ => rfl }, good.listed.known, good.listed.once⟩
  · rintro _ t ⟨rfl, _⟩
    exact good

/-! ### Every sequence of calls -/

theorem Call.run_good (call : Call) (good : Good s) (meets : Meets s call) :
    wp call.run (fun _ => Good) (fun _ => Good) s := by
  cases call with
  | mallocAsync rt device size stream => exact mallocAsync_good good meets
  | freeAsync getLastError rt ptr => exact freeAsync_good good meets
  | recordStream ptr toRecord => exact recordStream_good toRecord good
  | beginAllocateToPool => exact beginAllocateToPool_good good
  | endAllocateToPool rt device => exact endAllocateToPool_good good

theorem Called.good {call : Call} {t : Allocator} (good : Good s)
    (taken : Meeting Meets Called s call t) : Good t := by
  obtain ⟨meets, ⟨⟩⟩ := taken
  have after := call.run_good good meets
  simp only [wp, EStateM.run] at after
  cases ran : call.run s <;> simpa only [Allocator.after, ran] using after

theorem init_good (devCount : Nat) : Good (init devCount) where
  kept := by
    constructor <;> simp [init]
  listed := by
    constructor <;> simp [init]

/-- In every state reached by calls that meet the condition the books are balanced. -/
theorem books_balanced (devCount : Nat) {s : Allocator}
    (run : Reaches (Meeting Meets Called) (init devCount) s) : Balanced s :=
  (run.invariant (fun good taken => Called.good good taken) (init_good devCount)).balanced

/-- A pointer freed during a capture and flushed after it. -/
theorem books_balanced_flush :
    let s := runAll Allocator.after (init 1) [.mallocAsync { topsMallocAsync := .ok 16 } 0 8 0,
      .beginAllocateToPool, .freeAsync none {} 16, .endAllocateToPool {} 0,
      .mallocAsync { topsMallocAsync := .ok 32 } 0 8 0]
    Balanced s ∧ s.ptrInfo.lookup 16 = none ∧ s.freed.length = 1 := by
  refine ⟨books_balanced 1 (Allowed.reaches (fun _ call meets => ⟨meets, .call call⟩)
    ⟨?_, ?_, ?_, ?_, ?_, ?_⟩), by decide, by decide⟩
  · exact fun _ => trivial
  · trivial
  · intro _ usage _
    split
    · exact List.not_mem_nil
    · exact fun _ => ⟨fun _ member => (nomatch member), fun _ => List.not_mem_nil⟩
  · trivial
  · intro _ usage _ _
    exact ⟨fun _ member => (nomatch member), fun _ _ member => (nomatch member)⟩
  · trivial

/-- The flush frees one pointer and fails on the next. -/
theorem failed_flush_lists_erased :
    ¬ ∀ devCount s, Reaches Called (init devCount) s → Balanced s := by
  intro balanced
  let calls : List Call := [.mallocAsync { topsMallocAsync := .ok 16 } 0 8 0,
    .mallocAsync { topsMallocAsync := .ok 32 } 0 8 0, .beginAllocateToPool,
    .freeAsync none {} 16, .freeAsync none {} 32, .endAllocateToPool {} 0,
    .mallocAsync {
      frees := fun ptr => if ptr = 32 then { topsFreeAsync := some (.other 1) } else {}
      topsMallocAsync := .ok 48 } 0 8 0]
  let s := runAll Allocator.after (init 1) calls
  have listed : 16 ∈ s.ungraphedPtrsDeferFreeUntilNoCapture := by decide
  have erased : s.ptrInfo.lookup 16 = none := by decide
  have any : Allowed (fun _ _ => True) Allocator.after (init 1) calls := by decide
  have reached : Reaches Called (init 1) s := any.reaches fun _ call _ => .call call
  obtain ⟨usage, known, _⟩ := (balanced 1 s reached).deferred 16 listed
  cases erased.symm.trans known

end TorchGcu.TopsMallocAsync

import TorchGcu.Ipc.HandleCache
import TorchGcu.Logic.Runs

/-! What the cache of IPC handles keeps in every interleaving: each entry belongs to a
pointer whose deleter has not run, and each pointer to the mapping its handle was opened
as. The assertion of `getIpcDevPtr` holds up only where no lookup falls between the last
drop and the deleter. -/
namespace TorchGcu.Ipc
open ProgramLogic Ledger
open GCUCachingAllocator (Err TopsError DeviceIndex)

variable {handleSize : Nat} {rt : IpcRuntime} {handle : Bytes} {s t : HandleCache}

/-! ### What a section does -/

/-- The `topsIpcMemHandle_t` that a handle stands for. -/
def memHandle (handleSize : Nat) (rt : IpcRuntime) (handle : Bytes) : MemHandle :=
  readHandle handleSize
    (if handle.length ≠ handleSize then (getByte (getByte handle).2).2 else handle)
    rt.uninitialized

/-- The cache with a handle newly opened and its pointer held by one owner. -/
def HandleCache.admitted (s : HandleCache) (handle : Bytes) (memHandle : MemHandle) (ptr : DevPtr)
    (device : DeviceIndex) : HandleCache where
  ipcMemHandleToDevptr :=
    Function.update s.ipcMemHandleToDevptr handle (some ⟨device, ptr, some s.nextControl⟩)
  controls := Function.update s.controls s.nextControl (some ⟨handle, ptr, 1, false⟩)
  nextControl := s.nextControl + 1
  mappings := Function.update s.mappings ptr (some ⟨s.openings, handle, memHandle⟩)
  openings := s.openings + 1
  ledger := .obtained s.openings :: s.ledger

theorem readType_spec (s : HandleCache) :
    wp (readType handleSize handle)
      (fun read t => t = s ∧
        read.2 = if handle.length ≠ handleSize then (getByte (getByte handle).2).2 else handle)
      (fun e t => t = s ∧ e ≠ missingSharedPtr) s := by
  unfold readType
  split
  · simp [wp_torchCheck, missingSharedPtr]
  · simp

/-- An entry is made of a handle newly opened, or the section leaves everything as it was. -/
theorem openEntry_spec (device : DeviceIndex) (s : HandleCache) :
    wp (openEntry handleSize rt device handle)
      (fun entry t => ∃ ptr, rt.topsIpcOpenMemHandle = .ok ptr ∧ entry = ⟨device, ptr, none⟩ ∧
        t = s.map ptr handle (memHandle handleSize rt handle))
      (fun e t => t = s ∧ e ≠ missingSharedPtr) s := by
  unfold openEntry
  rw [wp_bind]
  refine wp_mono (readType_spec s) ?_ fun _ _ raised => raised
  rintro ⟨type, ss⟩ t ⟨rfl, read⟩
  simp only at read
  simp only [wp_ite]
  refine ⟨fun _ => ?_, fun _ => ⟨fun _ => ?_, fun _ => ?_⟩⟩
  · cases answer : rt.topsIpcOpenMemHandle with
    | error error => simp [missingSharedPtr]
    | ok ptr => simp [memHandle, read]
  · simp [missingSharedPtr]
  · simp [missingSharedPtr]

theorem lock_spec (weak : Option ControlId) (s : HandleCache) :
    wp (lock weak)
      (fun owner t => (∃ control block, owner = some control ∧ weak = some control ∧
          s.controls control = some block ∧ 0 < block.useCount ∧ t = s.acquire control block) ∨
        (owner = none ∧ t = s ∧ ∀ control block, weak = some control →
          s.controls control = some block → block.useCount = 0))
      (fun _ _ => False) s := by
  unfold lock
  simp only [wp_bind, wp_get]
  cases weak with
  | none => simp
  | some control =>
    simp only
    cases found : s.controls control with
    | none =>
      apply Or.inr
      constructor
      · rfl
      · refine ⟨rfl, ?_⟩
        rintro _ block ⟨rfl⟩ found'
        cases found.symm.trans found'
    | some block =>
      simp only [wp_ite, wp_bind, wp_set]
      constructor
      · intro owned
        exact .inl ⟨control, block, rfl, rfl, found, owned, rfl⟩
      · intro unowned
        apply Or.inr
        constructor
        · rfl
        · refine ⟨rfl, ?_⟩
          rintro _ block' ⟨rfl⟩ found'
          cases found.symm.trans found'
          omega

/-- The entry of a handle refers to a pointer that has no owner left. -/
def HandleCache.Stale (s : HandleCache) (handle : Bytes) : Prop :=
  ∃ entry, s.ipcMemHandleToDevptr handle = some entry ∧
    ∀ control block, entry.wp = some control → s.controls control = some block → block.useCount = 0

/-- A call finds the pointer of the handle, or opens the handle; when it raises, nothing has
changed. -/
theorem getIpcDevPtr_spec (s : HandleCache) :
    wp (getIpcDevPtr handleSize rt handle)
      (fun control t =>
        (∃ entry block, s.ipcMemHandleToDevptr handle = some entry ∧ entry.wp = some control ∧
          s.controls control = some block ∧ 0 < block.useCount ∧ t = s.acquire control block) ∨
        (s.ipcMemHandleToDevptr handle = none ∧ ∃ ptr device,
          rt.topsIpcOpenMemHandle = .ok ptr ∧
          t = s.admitted handle (memHandle handleSize rt handle) ptr device))
      (fun e t => t = s ∧ (e = missingSharedPtr ↔ s.Stale handle)) s := by
  unfold getIpcDevPtr
  simp only [wp_bind, wp_get]
  cases cached : s.ipcMemHandleToDevptr handle with
  | some entry =>
    simp only [wp_bind]
    refine wp_mono (lock_spec entry.wp s) ?_ fun _ _ never => never.elim
    rintro _ t (⟨control, block, rfl, wp, found, owned, rfl⟩ | ⟨rfl, rfl, unowned⟩)
    · exact .inl ⟨entry, block, rfl, wp, found, owned, rfl⟩
    · exact ⟨rfl, fun _ => ⟨entry, cached, unowned⟩, fun _ => rfl⟩
  | none =>
    have fresh : ¬ s.Stale handle := by
      rintro ⟨_, found, _⟩
      simp [cached] at found
    cases current : rt.getDevice with
    | error error => simp [missingSharedPtr, fresh]
    | ok device =>
      simp only [wp_bind]
      refine wp_mono (openEntry_spec device s) ?_ ?_
      · rintro _ t ⟨ptr, opened, rfl, rfl⟩
        refine .inr ⟨trivial, ptr, device, opened, ?_⟩
        simp [HandleCache.insert, HandleCache.map, HandleCache.setControl, HandleCache.admitted]
      · rintro e t ⟨rfl, other⟩
        exact ⟨rfl, fun same => (other same).elim, fun stale => (fresh stale).elim⟩

/-- The deleter raises only when its entry is gone or the runtime fails. -/
theorem deleter_spec (s : HandleCache) :
    wp (deleter rt handle)
      (fun _ t => ∃ entry, s.ipcMemHandleToDevptr handle = some entry ∧
        t = (s.unmap entry.gcuIpcPtr).erase handle)
      (fun _ t => t = s ∧ (s.ipcMemHandleToDevptr handle = none ∨ rt.deviceGuard.isSome = true ∨
        rt.topsIpcCloseMemHandle.isSome = true)) s := by
  unfold deleter
  simp only [wp_bind, wp_get]
  cases cached : s.ipcMemHandleToDevptr handle with
  | none => simp
  | some entry =>
    simp only [clear, wp_bind, wp_gcuCheck, wp_modify]
    refine ⟨fun _ => ⟨fun _ => ?_, fun error failed => ?_⟩, fun error failed => ?_⟩
    · exact ⟨entry, rfl, rfl⟩
    · simp [failed]
    · simp [failed]

/-! ### What every interleaving keeps -/

/-- The entries of the cache, the pointers whose deleter has not run and the mappings belong
together one to one; each pointer is named after the opening it was made for. -/
structure HandleCache.Tidy (s : HandleCache) : Prop where
  known : ∀ {c block}, s.controls c = some block → c < s.nextControl
  numbered : s.openings = s.nextControl
  ended : ∀ {c block}, s.controls c = some block → block.deleted = true → block.useCount = 0
  kept : ∀ {c block}, s.controls c = some block → block.deleted = false →
    (∃ device, s.ipcMemHandleToDevptr block.handle = some ⟨device, block.ptr, some c⟩) ∧
      ∃ g, s.mappings block.ptr = some ⟨c, block.handle, g⟩
  cached : ∀ {handle entry}, s.ipcMemHandleToDevptr handle = some entry →
    ∃ c block, entry.wp = some c ∧ s.controls c = some block ∧ block.handle = handle ∧
      block.deleted = false
  mapped : ∀ {ptr mapping}, s.mappings ptr = some mapping →
    ∃ block, s.controls mapping.opening = some block ∧ block.ptr = ptr ∧
      block.handle = mapping.handle ∧ block.deleted = false
  orderly : Orderly s.ledger
  live : ∀ c, Live s.ledger c ↔ ∃ block, s.controls c = some block ∧ block.deleted = false
  obtained : ∀ c, s.ledger.count (.obtained c) = if (s.controls c).isSome then 1 else 0

namespace HandleCache.Tidy
variable {control : ControlId} {block : ControlBlock}

theorem initial : ({} : HandleCache).Tidy := by
  constructor <;> simp

theorem of_owned (tidy : s.Tidy) (found : s.controls control = some block)
    (owned : 0 < block.useCount) : block.deleted = false := by
  by_contra deleted
  have unowned := tidy.ended found (by simpa using deleted)
  omega

/-- Two pointers whose deleter has not run are for different handles. -/
theorem control_unique (tidy : s.Tidy) {c c' : ControlId} {block block' : ControlBlock}
    (found : s.controls c = some block) (found' : s.controls c' = some block')
    (live : block.deleted = false) (live' : block'.deleted = false)
    (same : block.handle = block'.handle) : c = c' := by
  obtain ⟨⟨device, entry⟩, -⟩ := tidy.kept found live
  obtain ⟨⟨device', entry'⟩, -⟩ := tidy.kept found' live'
  rw [same, entry'] at entry
  simp only [Option.some.injEq, MemHandleCacheEntry.mk.injEq] at entry
  exact entry.2.2.symm

/-- A change of the number of owners. -/
theorem recount (tidy : s.Tidy) (found : s.controls control = some block)
    (live : block.deleted = false) (useCount : Nat) :
    (s.setControl control { block with useCount }).Tidy := by
  have others : ∀ {c block'}, (s.setControl control { block with useCount }).controls c =
      some block' → ∃ before, s.controls c = some before ∧ before.handle = block'.handle ∧
        before.ptr = block'.ptr ∧ before.deleted = block'.deleted ∧
        (c ≠ control → before = block') := by
    intro c block' found'
    by_cases same : c = control
    · subst same
      simp only [HandleCache.setControl, Function.update_self, Option.some.injEq] at found'
      subst found'
      exact ⟨block, found, rfl, rfl, rfl, fun other => (other rfl).elim⟩
    · simp only [HandleCache.setControl, Function.update_of_ne same] at found'
      exact ⟨block', found', rfl, rfl, rfl, fun _ => rfl⟩
  have persists : ∀ {c before}, s.controls c = some before →
      ∃ after, (s.setControl control { block with useCount }).controls c = some after ∧
        after.handle = before.handle ∧ after.ptr = before.ptr ∧
        after.deleted = before.deleted := by
    intro c before found'
    by_cases same : c = control
    · subst same
      cases found.symm.trans found'
      exact ⟨_, Function.update_self .., rfl, rfl, rfl⟩
    · exact ⟨before, (Function.update_of_ne same ..).trans found', rfl, rfl, rfl⟩
  constructor
  · intro c block' found'
    obtain ⟨before, was, -⟩ := others found'
    exact tidy.known was
  · exact tidy.numbered
  · intro c block' found' deleted
    obtain ⟨before, was, -, -, same, other⟩ := others found'
    have elsewhere : c ≠ control := by
      rintro rfl
      cases found.symm.trans was
      simp [live, deleted] at same
    cases other elsewhere
    exact tidy.ended was deleted
  · intro c block' found' kept
    obtain ⟨before, was, handle, ptr, same, -⟩ := others found'
    rw [← handle, ← ptr]
    exact tidy.kept was (same.trans kept)
  · intro handle entry cached
    obtain ⟨c, before, wp, was, handle', kept⟩ := tidy.cached cached
    obtain ⟨after, is, sameHandle, -, same⟩ := persists was
    exact ⟨c, after, wp, is, sameHandle.trans handle', same.trans kept⟩
  · intro ptr mapping mapped
    obtain ⟨before, was, ptr', handle', kept⟩ := tidy.mapped mapped
    obtain ⟨after, is, sameHandle, samePtr, same⟩ := persists was
    exact ⟨after, is, samePtr.trans ptr', sameHandle.trans handle', same.trans kept⟩
  · exact tidy.orderly
  · intro c
    refine (tidy.live c).trans ⟨?_, ?_⟩
    · rintro ⟨before, was, kept⟩
      obtain ⟨after, is, -, -, same⟩ := persists was
      exact ⟨after, is, same.trans kept⟩
    · rintro ⟨after, is, kept⟩
      obtain ⟨before, was, -, -, same, -⟩ := others is
      exact ⟨before, was, same.trans kept⟩
  · intro c
    refine (tidy.obtained c).trans ?_
    by_cases same : c = control
    · subst same
      simp [HandleCache.setControl, found]
    · simp [HandleCache.setControl, Function.update_of_ne same]

/-- A handle that is not in the cache is opened. -/
theorem admitted (tidy : s.Tidy) {memHandle : MemHandle} {ptr : DevPtr} {device : DeviceIndex}
    (absent : s.ipcMemHandleToDevptr handle = none) (unused : s.mappings ptr = none) :
    (s.admitted handle memHandle ptr device).Tidy := by
  have fresh : s.controls s.nextControl = none := by
    by_contra found
    obtain ⟨block, found⟩ := Option.ne_none_iff_exists'.mp found
    exact absurd (tidy.known found) (Nat.lt_irrefl _)
  have dead : ¬ Live s.ledger s.nextControl := by
    simp [tidy.live, fresh]
  constructor <;>
    simp only [HandleCache.admitted, Function.update_apply, tidy.numbered]
  · intro c block found
    split at found
    case isTrue same => exact same ▸ Nat.lt_succ_self _
    case isFalse => exact (tidy.known found).trans (Nat.lt_succ_self _)
  · intro c block found deleted
    split at found
    · cases found
      cases deleted
    · exact tidy.ended found deleted
  · intro c block found kept
    split at found
    case isTrue same =>
      cases found
      simp [same]
    case isFalse other =>
      obtain ⟨⟨device', entry⟩, g, mapping⟩ := tidy.kept found kept
      constructor
      · refine ⟨device', ?_⟩
        split
        case isTrue same => simp [same, absent] at entry
        case isFalse => exact entry
      · refine ⟨g, ?_⟩
        split
        case isTrue same => simp [same, unused] at mapping
        case isFalse => exact mapping
  · intro handle' entry cached
    split at cached
    case isTrue same =>
      cases cached
      exact ⟨s.nextControl, ⟨handle, ptr, 1, false⟩, rfl, by simp, same.symm, rfl⟩
    case isFalse other =>
      obtain ⟨c, block, wp, found, same, kept⟩ := tidy.cached cached
      have older : c ≠ s.nextControl := (tidy.known found).ne
      exact ⟨c, block, wp, by simpa [older] using found, same, kept⟩
  · intro ptr' mapping mapped
    split at mapped
    case isTrue same =>
      cases mapped
      exact ⟨⟨handle, ptr, 1, false⟩, by simp, same.symm, rfl, rfl⟩
    case isFalse other =>
      obtain ⟨block, found, same, sameHandle, kept⟩ := tidy.mapped mapped
      have older : mapping.opening ≠ s.nextControl := (tidy.known found).ne
      exact ⟨block, by simpa [older] using found, same, sameHandle, kept⟩
  · exact ⟨dead, tidy.orderly⟩
  · intro c
    rw [live_obtained, tidy.live]
    by_cases same : c = s.nextControl
    · simp [same]
    · simp [same]
  · intro c
    by_cases same : c = s.nextControl
    · have before := tidy.obtained c
      simp_all
    · have before := tidy.obtained c
      simp_all [Ne.symm same]

/-- The deleter of a pointer has run. -/
theorem delete (tidy : s.Tidy) (found : s.controls control = some block)
    (expired : block.useCount = 0) (pending : block.deleted = false) :
    (((s.unmap block.ptr).erase block.handle).setControl control
      { block with deleted := true }).Tidy := by
  obtain ⟨⟨device, entry⟩, g, mapping⟩ := tidy.kept found pending
  have unmapped : s.unmap block.ptr =
      { s with
        mappings := Function.update s.mappings block.ptr none
        ledger := .destroyed control :: s.ledger } := by
    simp [HandleCache.unmap, mapping]
  have live : Live s.ledger control := (tidy.live control).mpr ⟨block, found, pending⟩
  rw [unmapped]
  constructor <;>
    simp only [HandleCache.erase, HandleCache.setControl, Function.update_apply]
  · intro c block' found'
    split at found'
    case isTrue same => exact same ▸ tidy.known found
    case isFalse => exact tidy.known found'
  · exact tidy.numbered
  · intro c block' found' deleted
    split at found'
    · cases found'
      exact expired
    · exact tidy.ended found' deleted
  · intro c block' found' kept
    split at found'
    case isTrue =>
      cases found'
      cases kept
    case isFalse other =>
      have apart : block'.handle ≠ block.handle := fun same =>
        other (tidy.control_unique found' found kept pending same)
      obtain ⟨⟨device', entry'⟩, g', mapping'⟩ := tidy.kept found' kept
      have apartPtr : block'.ptr ≠ block.ptr := by
        intro same
        rw [same, mapping] at mapping'
        simp only [Option.some.injEq, Mapping.mk.injEq] at mapping'
        exact other mapping'.1.symm
      exact ⟨⟨device', by simpa [apart] using entry'⟩, g', by simpa [apartPtr] using mapping'⟩
  · intro handle' entry' cached
    split at cached
    case isTrue => cases cached
    case isFalse other =>
      obtain ⟨c, block', wp, found', same, kept⟩ := tidy.cached cached
      have apart : c ≠ control := by
        rintro rfl
        cases found.symm.trans found'
        exact other same.symm
      exact ⟨c, block', wp, by simpa [apart] using found', same, kept⟩
  · intro ptr' mapping' mapped
    split at mapped
    case isTrue => cases mapped
    case isFalse other =>
      obtain ⟨block', found', same, sameHandle, kept⟩ := tidy.mapped mapped
      have apart : mapping'.opening ≠ control := by
        intro equal
        rw [equal] at found'
        cases found.symm.trans found'
        exact other same.symm
      exact ⟨block', by simpa [apart] using found', same, sameHandle, kept⟩
  · exact ⟨live, tidy.orderly⟩
  · intro c
    rw [live_destroyed, tidy.live]
    by_cases same : c = control
    · simp [same]
    · simp [same]
  · intro c
    have before := tidy.obtained c
    by_cases same : c = control
    · simp_all
    · simp_all

end HandleCache.Tidy

/-! ### Runs -/

/-- The last owner of a pointer for the handle is gone, and the deleter has not run. -/
def HandleCache.Expiring (s : HandleCache) (handle : Bytes) : Prop :=
  ∃ control block, s.controls control = some block ∧ block.handle = handle ∧
    block.useCount = 0 ∧ block.deleted = false

/-- No lookup of a handle falls between the last drop and the deleter. -/
def LookupsSettled (w : Receiver) : IpcAction → Prop
  | .getIpcDevPtr _ handle => ¬ w.cache.Expiring handle
  | _ => True

/-- Nor is a `topsIpcMemHandle_t` looked up by two names at a time. -/
def LookupsNamed (handleSize : Nat) (w : Receiver) (action : IpcAction) : Prop :=
  LookupsSettled w action ∧
    match action with
    | .getIpcDevPtr rt handle => ∀ ptr mapping, w.cache.mappings ptr = some mapping →
        mapping.memHandle = memHandle handleSize rt handle → mapping.handle = handle
    | _ => True

theorem HandleCache.Tidy.stale_iff (tidy : s.Tidy) : s.Stale handle ↔ s.Expiring handle := by
  constructor
  · rintro ⟨entry, cached, unowned⟩
    obtain ⟨control, block, wp, found, same, kept⟩ := tidy.cached cached
    exact ⟨control, block, found, same, unowned control block wp found, kept⟩
  · rintro ⟨control, block, found, same, expired, pending⟩
    obtain ⟨⟨device, cached⟩, -⟩ := tidy.kept found pending
    refine ⟨_, same ▸ cached, fun control' block' wp found' => ?_⟩
    cases wp
    cases found.symm.trans found'
    exact expired

/-- The assertion trips on exactly those lookups. -/
theorem getIpcDevPtr_trips_iff (tidy : s.Tidy) :
    (∃ t, (getIpcDevPtr handleSize rt handle).run s = .error missingSharedPtr t) ↔
      s.Expiring handle := by
  rw [← tidy.stale_iff]
  cases ran : (getIpcDevPtr handleSize rt handle).run s with
  | ok control t =>
    constructor
    · rintro ⟨_, never⟩
      cases never
    · rintro ⟨entry, cached, unowned⟩
      rcases wp_ok (getIpcDevPtr_spec s) ran with
        ⟨entry', block, cached', wp, found, owned, _⟩ | ⟨absent, _⟩
      · cases cached.symm.trans cached'
        have none := unowned control block wp found
        omega
      · cases absent.symm.trans cached
  | error e t =>
    have raises := (wp_error (getIpcDevPtr_spec s) ran).2
    constructor
    · rintro ⟨_, same⟩
      cases same
      exact raises.mp rfl
    · intro stale
      exact ⟨t, by rw [raises.mpr stale]⟩

theorem IpcStep.tidy {w w' : Receiver} {action : IpcAction} (tidy : w.cache.Tidy)
    (taken : IpcStep handleSize w action w') : w'.cache.Tidy := by
  cases taken with
  | @getIpcDevPtr s raised rt handle unused =>
    cases ran : (Ipc.getIpcDevPtr handleSize rt handle).run s with
    | ok control t =>
      rcases wp_ok (getIpcDevPtr_spec s) ran with
        ⟨_, block, _, _, found, owned, rfl⟩ |
        ⟨absent, ptr, device, opened, rfl⟩
      · exact tidy.recount found (tidy.of_owned found owned) _
      · exact tidy.admitted absent (unused ptr opened)
    | error e t =>
      exact (wp_error (getIpcDevPtr_spec s) ran).1 ▸ tidy
  | copy found owned => exact tidy.recount found (tidy.of_owned found owned) _
  | drop found owned => exact tidy.recount found (tidy.of_owned found owned) _
  | @deleter s raised control block rt found expired pending =>
    cases ran : (Ipc.deleter rt block.handle).run s with
    | ok _ t =>
      obtain ⟨entry, cached, rfl⟩ := wp_ok (deleter_spec s) ran
      obtain ⟨⟨device, cached'⟩, -⟩ := tidy.kept found pending
      cases cached.symm.trans cached'
      exact tidy.delete found expired pending
    | error e t =>
      exact (wp_error (deleter_spec s) ran).1 ▸ tidy

theorem IpcStep.untripped {w w' : Receiver} {action : IpcAction} (tidy : w.cache.Tidy)
    (clean : missingSharedPtr ∉ w.raised) (settled : LookupsSettled w action)
    (taken : IpcStep handleSize w action w') : missingSharedPtr ∉ w'.raised := by
  cases taken with
  | @getIpcDevPtr s raised rt handle _ =>
    cases ran : (Ipc.getIpcDevPtr handleSize rt handle).run s with
    | ok control t => exact clean
    | error e t =>
      simp only [afterCall, List.mem_cons, not_or]
      refine ⟨fun same => settled ?_, clean⟩
      exact (getIpcDevPtr_trips_iff tidy).mp ⟨t, same ▸ ran⟩
  | copy _ _ => exact clean
  | drop _ _ => exact clean
  | @deleter s raised control block rt _ _ _ =>
    cases ran : (Ipc.deleter rt block.handle).run s <;> exact clean

/-- A lookup never finds its pointer gone; a handle is open at most once at a time, and its
pointer open while it has an owner; what was opened is closed once, after the last owner is
gone, by a deleter that finds its entry. -/
structure IpcSound (handleSize : Nat) (w : Receiver) : Prop where
  untripped : missingSharedPtr ∉ w.raised
  openOnce : ∀ {ptr ptr' mapping mapping'}, w.cache.mappings ptr = some mapping →
    w.cache.mappings ptr' = some mapping' → mapping.handle = mapping'.handle → ptr = ptr'
  openOwned : ∀ {c block}, w.cache.controls c = some block → 0 < block.useCount →
    (∃ g, w.cache.mappings block.ptr = some ⟨c, block.handle, g⟩) ∧ Live w.cache.ledger c
  opened : ∀ c, .obtained c ∈ w.cache.ledger ↔ ∃ block, w.cache.controls c = some block
  closedOnce : ∀ {c block}, w.cache.controls c = some block →
    w.cache.ledger.count (.obtained c) = 1 ∧
      w.cache.ledger.count (.destroyed c) = if block.deleted then 1 else 0
  closedUnowned : ∀ {c block}, w.cache.controls c = some block → block.deleted = true →
    block.useCount = 0
  closes : ∀ {c block}, w.cache.controls c = some block → block.useCount = 0 →
    block.deleted = false → w.terminated = false → ∀ rt : IpcRuntime, rt.deviceGuard = none →
      rt.topsIpcCloseMemHandle = none → ∃ w', IpcStep handleSize w (.deleter rt c) w' ∧
        w'.terminated = false ∧ ∃ after, w'.cache.controls c = some after ∧ after.deleted = true

theorem HandleCache.Tidy.closedOnce (tidy : s.Tidy) {c : ControlId} {block : ControlBlock}
    (found : s.controls c = some block) : s.ledger.count (.obtained c) = 1 ∧
      s.ledger.count (.destroyed c) = if block.deleted then 1 else 0 := by
  have obtained : s.ledger.count (.obtained c) = 1 := by simp [tidy.obtained, found]
  have balance := tidy.orderly.balance c
  have live : Live s.ledger c ↔ block.deleted = false := by simp [tidy.live, found]
  refine ⟨obtained, ?_⟩
  cases deleted : block.deleted <;> simp_all

theorem HandleCache.Tidy.closes {w : Receiver} (tidy : w.cache.Tidy) {c : ControlId}
    {block : ControlBlock} (found : w.cache.controls c = some block)
    (expired : block.useCount = 0) (pending : block.deleted = false)
    (running : w.terminated = false) (guarded : rt.deviceGuard = none)
    (closed : rt.topsIpcCloseMemHandle = none) :
    ∃ w', IpcStep handleSize w (.deleter rt c) w' ∧ w'.terminated = false ∧
      ∃ after, w'.cache.controls c = some after ∧ after.deleted = true := by
  obtain ⟨s, raised, terminated⟩ := w
  cases running
  obtain ⟨⟨device, cached⟩, -⟩ := tidy.kept found pending
  refine ⟨_, .deleter rt found expired pending, ?_⟩
  cases ran : (deleter rt block.handle).run s with
  | ok _ t => exact ⟨rfl, _, Function.update_self .., rfl⟩
  | error e t =>
    have failed := (wp_error (deleter_spec s) ran).2
    simp_all

theorem IpcSound.of_tidy {w : Receiver} (tidy : w.cache.Tidy)
    (clean : missingSharedPtr ∉ w.raised) : IpcSound handleSize w := by
  constructor
  · exact clean
  · intro ptr ptr' mapping mapping' mapped mapped' same
    obtain ⟨block, found, at_, handle, kept⟩ := tidy.mapped mapped
    obtain ⟨block', found', at', handle', kept'⟩ := tidy.mapped mapped'
    have equal := tidy.control_unique found found' kept kept' (by rw [handle, same, handle'])
    rw [equal] at found
    cases found.symm.trans found'
    exact at_.symm.trans at'
  · intro c block found owned
    have kept := tidy.of_owned found owned
    exact ⟨(tidy.kept found kept).2, (tidy.live c).mpr ⟨block, found, kept⟩⟩
  · intro c
    rw [← List.count_pos_iff, tidy.obtained]
    cases w.cache.controls c <;> simp
  · exact tidy.closedOnce
  · exact tidy.ended
  · intro c block found expired pending running rt guarded closed
    exact tidy.closes found expired pending running guarded closed

/-- No `topsIpcMemHandle_t` is open twice. -/
def MemHandlesOnce (s : HandleCache) : Prop :=
  ∀ ptr ptr' mapping mapping', s.mappings ptr = some mapping → s.mappings ptr' = some mapping' →
    mapping.memHandle = mapping'.memHandle → ptr = ptr'

theorem MemHandlesOnce.of_le (once : MemHandlesOnce s)
    (fewer : ∀ ptr mapping, t.mappings ptr = some mapping → s.mappings ptr = some mapping) :
    MemHandlesOnce t := fun ptr ptr' mapping mapping' mapped mapped' =>
  once ptr ptr' mapping mapping' (fewer ptr mapping mapped) (fewer ptr' mapping' mapped')

theorem MemHandlesOnce.admitted (once : MemHandlesOnce s) {memHandle : MemHandle} {ptr : DevPtr}
    {device : DeviceIndex}
    (apart : ∀ ptr mapping, s.mappings ptr = some mapping → mapping.memHandle ≠ memHandle) :
    MemHandlesOnce (s.admitted handle memHandle ptr device) := by
  intro p p' mapping mapping' mapped mapped' same
  simp only [HandleCache.admitted, Function.update_apply] at mapped mapped'
  split at mapped <;> split at mapped'
  case isTrue.isTrue here here' => exact here.trans here'.symm
  case isTrue.isFalse =>
    cases mapped
    exact (apart p' mapping' mapped' same.symm).elim
  case isFalse.isTrue =>
    cases mapped'
    exact (apart p mapping mapped same).elim
  case isFalse.isFalse => exact once p p' mapping mapping' mapped mapped' same

theorem IpcStep.memHandlesOnce {w w' : Receiver} {action : IpcAction} (tidy : w.cache.Tidy)
    (once : MemHandlesOnce w.cache) (named : LookupsNamed handleSize w action)
    (taken : IpcStep handleSize w action w') : MemHandlesOnce w'.cache := by
  cases taken with
  | @getIpcDevPtr s raised rt handle unused =>
    cases ran : (Ipc.getIpcDevPtr handleSize rt handle).run s with
    | ok control t =>
      rcases wp_ok (getIpcDevPtr_spec s) ran with
        ⟨_, block, _, _, found, owned, rfl⟩ |
        ⟨absent, ptr, device, opened, rfl⟩
      · exact once
      · refine once.admitted fun ptr' mapping mapped same => ?_
        have name := named.2 ptr' mapping mapped same
        obtain ⟨block, found, -, handle', kept⟩ := tidy.mapped mapped
        obtain ⟨⟨device, cached⟩, -⟩ := tidy.kept found kept
        rw [handle', name, absent] at cached
        cases cached
    | error e t =>
      exact (wp_error (getIpcDevPtr_spec s) ran).1 ▸ once
  | copy _ _ => exact once
  | drop _ _ => exact once
  | @deleter s raised control block rt found _ _ =>
    cases ran : (Ipc.deleter rt block.handle).run s with
    | ok _ t =>
      obtain ⟨entry, -, rfl⟩ := wp_ok (deleter_spec s) ran
      refine once.of_le fun ptr mapping mapped => ?_
      simp only [afterDeleter, HandleCache.setControl, HandleCache.erase, HandleCache.unmap] at mapped
      split at mapped
      · exact mapped
      · simp only [Function.update_apply] at mapped
        split at mapped
        · cases mapped
        · exact mapped
    | error e t =>
      exact (wp_error (deleter_spec s) ran).1 ▸ once

/-- The cache is sound in every run whose lookups are settled; where no memory handle goes by
two names, none is open twice either. -/
theorem ipc_handles_sound {w : Receiver} :
    (Reaches (Meeting LookupsSettled (IpcStep handleSize)) {} w → IpcSound handleSize w) ∧
      (Reaches (Meeting (LookupsNamed handleSize) (IpcStep handleSize)) {} w →
        MemHandlesOnce w.cache) := by
  constructor
  · intro run
    have kept := run.invariant
      (P := fun w => w.cache.Tidy ∧ missingSharedPtr ∉ w.raised)
      (fun holds taken => ⟨taken.2.tidy holds.1, taken.2.untripped holds.1 holds.2 taken.1⟩)
      ⟨.initial, List.not_mem_nil⟩
    exact .of_tidy kept.1 kept.2
  · intro run
    have kept := run.invariant
      (P := fun w => w.cache.Tidy ∧ MemHandlesOnce w.cache)
      (fun holds taken => ⟨taken.2.tidy holds.1, taken.2.memHandlesOnce holds.1 holds.2 taken.1⟩)
      ⟨.initial, fun _ _ _ _ mapped => by cases mapped⟩
    exact kept.2

theorem drop_named (w : Receiver) (control : ControlId) :
    LookupsNamed handleSize w (.drop control) := ⟨trivial, trivial⟩

theorem deleter_named (w : Receiver) (rt : IpcRuntime) (control : ControlId) :
    LookupsNamed handleSize w (.deleter rt control) := ⟨trivial, trivial⟩

/-- A handle of version 1 with one byte of `topsIpcMemHandle_t`. -/
def sampleHandle : Bytes := [1, 99, 7]

def sampleRuntime : IpcRuntime := { topsIpcOpenMemHandle := .ok 64 }

/-- Where nothing is opened. -/
def idleRuntime : IpcRuntime := { topsIpcOpenMemHandle := .error .notReady }

theorem idle_unused (s : HandleCache) : idleRuntime.MapsUnused s := fun _ never => by cases never

/-- The process after the first lookup. -/
def sampleOpened : Receiver :=
  afterCall [] ((getIpcDevPtr 1 sampleRuntime sampleHandle).run {})

theorem sample_call : Meeting (LookupsNamed 1) (IpcStep 1) {}
    (.getIpcDevPtr sampleRuntime sampleHandle) sampleOpened := by
  constructor
  · constructor
    · rintro ⟨_, _, found, _⟩
      cases found
    · intro _ _ mapped
      cases mapped
  · apply IpcStep.getIpcDevPtr
    exact fun _ _ => rfl

/-- The one pointer has an owner, and is for the sample handle. -/
theorem sample_found {control : ControlId} {block : ControlBlock}
    (found : sampleOpened.cache.controls control = some block) :
    block = ⟨sampleHandle, 64, 1, false⟩ := by
  have tidy : sampleOpened.cache.Tidy := sample_call.2.tidy .initial
  have first : control < 1 := tidy.known found
  cases Nat.lt_one_iff.mp first
  cases found
  rfl

theorem sample_named (rt : IpcRuntime) : LookupsNamed 1 sampleOpened (.getIpcDevPtr rt sampleHandle) := by
  constructor
  · rintro ⟨control, block, found, -, expired, -⟩
    cases sample_found found
    cases expired
  · intro ptr mapping mapped _
    have tidy : sampleOpened.cache.Tidy := sample_call.2.tidy .initial
    obtain ⟨block, found, -, handle, -⟩ := tidy.mapped mapped
    rw [← handle, sample_found found]

/-- Opened by one call, found by a second one, dropped twice and closed. -/
theorem ipc_handles_sound_run : ∃ w, IpcSound 1 w ∧ MemHandlesOnce w.cache ∧
    w.cache.ledger = [.destroyed 0, .obtained 0] := by
  have opened := Reaches.refl.next sample_call
  have shared := opened.next ⟨sample_named idleRuntime, .getIpcDevPtr _ _ (idle_unused _)⟩
  have dropped := shared.next ⟨drop_named _ 0, .drop rfl (by decide)⟩
  have expired := dropped.next ⟨drop_named _ 0, .drop rfl (by decide)⟩
  have closed := expired.next ⟨deleter_named _ idleRuntime 0, .deleter idleRuntime rfl rfl rfl⟩
  exact ⟨_, ipc_handles_sound.1 (closed.mono fun _ _ _ taken => ⟨taken.1.1, taken.2⟩),
    ipc_handles_sound.2 closed, by decide +kernel⟩

/-- A lookup between the last drop and the deleter trips the assertion. -/
theorem lookup_before_deleter_trips :
    ¬ ∀ w, Reaches (IpcStep 1) {} w → missingSharedPtr ∉ w.raised := by
  intro untripped
  have opened := Reaches.refl.next sample_call.2
  have dropping : IpcStep 1 sampleOpened (.drop 0) _ := .drop rfl (by decide)
  have expired := opened.next dropping
  have looked := expired.next (.getIpcDevPtr idleRuntime sampleHandle (idle_unused _))
  exact untripped _ looked (by decide)

end TorchGcu.Ipc

import Mathlib.Data.Rat.Defs
import TorchGcu.TopsMallocAsync.Books

/-! The limits of the stream-ordered allocator, and the search of `cacheInfo` for a size that
can still be allocated. -/
namespace TorchGcu.TopsMallocAsync
open ProgramLogic
open GCUCachingAllocator (Err TopsError StreamId)

/-! ### Operations -/

/-- `product` is the product of a fraction and a size in doubles, as a 64-bit word. -/
structure FractionAnswers where
  guard : Option TopsError := none
  lazyInit : LazyInitAnswers := {}
  memGetInfo : Except TopsError (UInt64 × UInt64)
  product : Rat → UInt64 → UInt64

def Allocator.limit (s : Allocator) (device : DeviceIndex) (bytes : UInt64) : Allocator :=
  { s with pytorchMemoryLimits := Function.update s.pytorchMemoryLimits device bytes }

def setMemoryFraction (rt : FractionAnswers) (fraction : Rat) (device : DeviceIndex) : M Unit := do
  internalAssert (decide (0 ≤ fraction ∧ fraction ≤ 1)) "invalid fraction:"
  torchCheck (decide (0 ≤ device ∧ device < (← get).deviceCount)) "Invalid device argument."
  gcuCheck rt.guard
  lazyInitDevice rt.lazyInit device
  match rt.memGetInfo with
  | .error error => throw (.gcuError error)
  | .ok (_, deviceTotal) => modify (·.limit device (rt.product fraction deviceTotal))

/-- `topsMallocAsync` answers each round of the loop. -/
structure CacheInfoAnswers where
  guard : Option TopsError := none
  lazyInit : LazyInitAnswers := {}
  memGetInfo : Except TopsError (UInt64 × UInt64)
  getLastError : Option TopsError := none
  topsMallocAsync : Nat → UInt64 → Option TopsError

/-- The loop, for as many rounds as there is fuel. -/
def guessLoop (rt : CacheInfoAnswers) (used limit : UInt64) :
    Nat → Nat → UInt64 → Except TopsError (Option UInt64)
  | 0, _, _ => .ok none
  | fuel + 1, round, guess =>
    let err :=
      if used + guess > limit then some .memoryAllocation else rt.topsMallocAsync round guess
    match err with
    | none => .ok (some guess)
    | some .memoryAllocation =>
      -- quick and dirty: try half the size next iteration
      guessLoop rt used limit fuel (round + 1) (guess >>> 1)
    | some error => .error error

/-- `std::min`. -/
def firstGuess (freeUpperBound room : UInt64) : UInt64 :=
  if room < freeUpperBound then room else freeUpperBound

/-- `cacheInfo` from the call of `topsMemGetInfo` on. The result is `maxWorkspaceGuess`, or
nothing when the loop takes more rounds than there is fuel. -/
def searchGuess (rt : CacheInfoAnswers) (device : DeviceIndex) (fuel : Nat) : M (Option UInt64) := do
  match rt.memGetInfo with
  | .error error => throw (.gcuError error)
  | .ok (freeUpperBound, deviceTotal) =>
    let s ← get
    let used := s.pytorchUsedBytes device
    let limit := s.pytorchMemoryLimits device
    internalAssert (decide (freeUpperBound + used ≤ deviceTotal))
      "free_upper_bound + pytorch_used_bytes[device] <= device_total"
    gcuCheck rt.getLastError
    match guessLoop rt used limit fuel 0 (firstGuess freeUpperBound (limit - used)) with
    | .ok guess => return guess
    | .error error => throw (.gcuError error)

def cacheInfo (rt : CacheInfoAnswers) (device : DeviceIndex) (fuel : Nat) : M (Option UInt64) := do
  torchCheck (decide (0 ≤ device ∧ device < (← get).deviceCount)) "Invalid device argument."
  gcuCheck rt.guard
  lazyInitDevice rt.lazyInit device
  searchGuess rt device fuel

/-! ### The search -/

/-- `topsMallocAsync` succeeds or is out of memory, and succeeds for no bytes. -/
structure CacheInfoAnswers.Lawful (rt : CacheInfoAnswers) : Prop where
  outcome : ∀ round size, rt.topsMallocAsync round size = none ∨
    rt.topsMallocAsync round size = some .memoryAllocation
  zero : ∀ round, rt.topsMallocAsync round 0 = none

/-- The search ends with a size below the limit, unless a check before it raises. -/
def Ends (rt : CacheInfoAnswers) (device : DeviceIndex) (s : Allocator) : Prop :=
  ∃ fuel, wp (cacheInfo rt device fuel)
    (fun result t => ∃ guess, result = some guess ∧
      (t.pytorchUsedBytes device).toNat + guess.toNat ≤ (t.pytorchMemoryLimits device).toNat)
    (fun _ _ => True) s

/-- No check before the search raises, on a device that is in use. -/
structure Enters (rt : CacheInfoAnswers) (device : DeviceIndex) (s : Allocator) : Prop where
  valid : 0 ≤ device ∧ device < s.deviceCount
  guarded : rt.guard = none
  initialized : s.devsInitializedFlags device = true
  info : ∃ free total, rt.memGetInfo = .ok (free, total) ∧ free + s.pytorchUsedBytes device ≤ total
  clear : rt.getLastError = none

variable {rt : CacheInfoAnswers} {device : DeviceIndex} {s : Allocator} {used limit guess : UInt64}

theorem half_toNat (guess : UInt64) : (guess >>> 1).toNat = guess.toNat / 2 := by
  rw [UInt64.toNat_shiftRight]
  exact Nat.shiftRight_eq_div_pow guess.toNat 1

theorem firstGuess_le (free room : UInt64) : (firstGuess free room).toNat ≤ room.toNat := by
  unfold firstGuess
  split
  · exact le_rfl
  · exact Nat.le_of_not_lt fun less => ‹¬ room < free› (UInt64.lt_iff_toNat_lt.mpr less)

theorem guessLoop_ends (lawful : rt.Lawful) (fuel round : Nat)
    (guess : UInt64) (fits : used.toNat + guess.toNat ≤ limit.toNat) (enough : guess.toNat < 2 ^ fuel) :
    ∃ found, guessLoop rt used limit (fuel + 1) round guess = .ok (some found) ∧
      used.toNat + found.toNat ≤ limit.toNat := by
  have below : ¬ used + guess > limit := by
    have word := limit.toNat_lt
    rw [gt_iff_lt, UInt64.lt_iff_toNat_lt, UInt64.toNat_add]
    omega
  induction fuel generalizing round guess with
  | zero =>
    obtain rfl : guess = 0 := UInt64.toNat.inj (Nat.lt_one_iff.mp enough)
    exact ⟨0, by simp only [guessLoop, if_neg below, lawful.zero], fits⟩
  | succ fuel ih =>
    rcases lawful.outcome round guess with success | full
    · exact ⟨guess, by rw [guessLoop]; simp only [if_neg below, success], fits⟩
    · have half := half_toNat guess
      obtain ⟨found, ran, result⟩ := ih (round + 1) (guess >>> 1) (by omega) (by omega) (by
        have word := limit.toNat_lt
        rw [gt_iff_lt, UInt64.lt_iff_toNat_lt, UInt64.toNat_add]
        omega)
      exact ⟨found, by rw [guessLoop]; simp only [if_neg below, full, ran], result⟩

theorem guessLoop_returns (lawful : rt.Lawful) (fuel round : Nat) (guess : UInt64) :
    ∃ result, guessLoop rt used limit fuel round guess = .ok result := by
  induction fuel generalizing round guess with
  | zero => exact ⟨none, rfl⟩
  | succ fuel ih =>
    rw [guessLoop]
    by_cases above : used + guess > limit
    · simp only [if_pos above]
      exact ih (round + 1) _
    · simp only [if_neg above]
      rcases lawful.outcome round guess with success | full
      · exact ⟨some guess, by simp only [success]⟩
      · simp only [full]
        exact ih (round + 1) _

theorem lazyInitDevice_spec (rt : LazyInitAnswers) (device : DeviceIndex) :
    wp (lazyInitDevice rt device)
      (fun _ t => s.devsInitializedFlags device = true ∧ t = s ∨
        s.devsInitializedFlags device = false ∧ ∃ dummy, t = s.markInitialized device dummy)
      (fun _ t => s.devsInitializedFlags device = false ∧ t = s) s := by
  unfold lazyInitDevice
  simp only [wp_bind, wp_get, wp_ite, wp_pure]
  refine ⟨fun already => .inl ⟨already, trivial⟩, fun fresh => ?_⟩
  have fresh : s.devsInitializedFlags device = false := by simpa using fresh
  simp only [wp_gcuCheck]
  cases rt.streamFromPool with
  | error error => simp [fresh]
  | ok dummy =>
    simp only [wp_modify, fresh, true_and, Bool.false_eq_true, false_and, false_or]
    refine ⟨fun _ => ⟨fun _ => ⟨fun _ => ⟨fun _ => ⟨fun _ => ⟨fun _ => ⟨dummy, rfl⟩, ?_⟩, ?_⟩, ?_⟩, ?_⟩, ?_⟩, ?_⟩
    all_goals exact fun _ _ => trivial

theorem lazyInitDevice_again (rt : LazyInitAnswers) (initialized : s.devsInitializedFlags device = true) :
    (lazyInitDevice rt device).run s = .ok () s := by
  simp only [lazyInitDevice, EStateM.run, bind, EStateM.bind, get_apply, initialized, if_true]
  rfl

/-- The first guess fits below the limit, and 64 halvings reach zero. -/
theorem searchGuess_ends (lawful : rt.Lawful)
    (within : s.pytorchUsedBytes device ≤ s.pytorchMemoryLimits device) :
    wp (searchGuess rt device 65) (fun result t => ∃ guess, result = some guess ∧
      (t.pytorchUsedBytes device).toNat + guess.toNat ≤ (t.pytorchMemoryLimits device).toNat)
      (fun _ _ => True) s := by
  unfold searchGuess
  cases rt.memGetInfo with
  | error error => trivial
  | ok info =>
    obtain ⟨free, total⟩ := info
    simp only [wp_bind, wp_get, wp_internalAssert, wp_gcuCheck]
    refine ⟨fun _ => ⟨fun _ => ?_, fun _ _ => trivial⟩, fun _ => trivial⟩
    have room := UInt64.toNat_sub_of_le _ _ within
    have first := firstGuess_le free (s.pytorchMemoryLimits device - s.pytorchUsedBytes device)
    have order := UInt64.le_iff_toNat_le.mp within
    obtain ⟨found, ran, fits⟩ := @guessLoop_ends rt (s.pytorchUsedBytes device)
      (s.pytorchMemoryLimits device) lawful 64 0
      (firstGuess free (s.pytorchMemoryLimits device - s.pytorchUsedBytes device)) (by omega)
      (UInt64.toNat_lt _)
    rw [ran]
    exact ⟨found, rfl, fits⟩

/-- The search ends exactly when no more is used than the limit allows. -/
theorem ends_iff (lawful : rt.Lawful) : Ends rt device s ↔
    (Enters rt device s → s.pytorchUsedBytes device ≤ s.pytorchMemoryLimits device) := by
  constructor
  · rintro ⟨fuel, ends⟩ enters
    obtain ⟨free, total, info, fits⟩ := enters.info
    simp only [cacheInfo, wp_bind, wp_get, wp_torchCheck, wp_gcuCheck] at ends
    have initialized := (ends.1 (decide_eq_true enters.valid)).1 enters.guarded
    rw [wp_run (lazyInitDevice_again rt.lazyInit enters.initialized)] at initialized
    simp only [searchGuess, info, wp_bind, wp_get, wp_internalAssert, wp_gcuCheck] at initialized
    have searched := (initialized.1 (decide_eq_true fits)).1 enters.clear
    obtain ⟨result, ran⟩ := @guessLoop_returns rt (s.pytorchUsedBytes device)
      (s.pytorchMemoryLimits device) lawful fuel 0
      (firstGuess free (s.pytorchMemoryLimits device - s.pytorchUsedBytes device))
    simp only [ran, wp_pure] at searched
    obtain ⟨guess, -, below⟩ := searched
    exact UInt64.le_iff_toNat_le.mpr ((Nat.le_add_right _ _).trans below)
  · intro within
    refine ⟨65, ?_⟩
    simp only [cacheInfo, wp_bind, wp_get, wp_torchCheck, wp_gcuCheck]
    refine ⟨fun valid => ⟨fun guarded => ?_, fun _ _ => trivial⟩, fun _ => trivial⟩
    refine wp_mono (lazyInitDevice_spec rt.lazyInit device) (fun _ t after => ?_) fun _ _ _ => trivial
    obtain ⟨initialized, rfl⟩ | ⟨-, dummy, rfl⟩ := after
    · by_cases room : t.pytorchUsedBytes device ≤ t.pytorchMemoryLimits device
      · exact searchGuess_ends lawful room
      · unfold searchGuess
        cases info : rt.memGetInfo with
        | error error => trivial
        | ok sizes =>
          simp only [wp_bind, wp_get, wp_internalAssert, wp_gcuCheck]
          refine ⟨fun fits => ⟨fun clear => ?_, fun _ _ => trivial⟩, fun _ => trivial⟩
          exact absurd (within ⟨of_decide_eq_true valid, guarded, initialized,
            ⟨_, _, info, of_decide_eq_true fits⟩, clear⟩) room
    · refine searchGuess_ends lawful ?_
      simp only [Allocator.markInitialized, Function.update_self]
      decide

/-! ### Runs -/

/-- What is used counts the allocations that are known, and stays below the limit. -/
structure Metered (s : Allocator) : Prop where
  used : ∀ device, (s.pytorchUsedBytes device).toNat = totalOf (sizeOn device) s.ptrInfo
  within : ∀ device, s.pytorchUsedBytes device ≤ s.pytorchMemoryLimits device
  initialized : ∀ ptr usage, s.ptrInfo.lookup ptr = some usage →
    s.devsInitializedFlags usage.creationStream.device = true

/-- The same allocations, and the same limits. -/
def SameBooks (s t : Allocator) : Prop :=
  t.ptrInfo = s.ptrInfo ∧ t.pytorchUsedBytes = s.pytorchUsedBytes ∧
    t.pytorchMemoryLimits = s.pytorchMemoryLimits ∧ t.devsInitializedFlags = s.devsInitializedFlags

theorem SameBooks.refl (s : Allocator) : SameBooks s s := ⟨rfl, rfl, rfl, rfl⟩

/-- The books are kept, and at most `bytes` are used on a device. -/
structure Below (device : DeviceIndex) (bytes : Nat) (s : Allocator) : Prop extends Metered s where
  below : (s.pytorchUsedBytes device).toNat ≤ bytes

variable {bytes : Nat} {ptr : Ptr} {usage : PtrUsage} {t : Allocator}

theorem Below.same (below : Below device bytes s) (same : SameBooks s t) : Below device bytes t := by
  obtain ⟨info, used, limits, flags⟩ := same
  refine ⟨⟨?_, ?_, ?_⟩, ?_⟩
  · rw [used, info]
    exact below.used
  · rw [used, limits]
    exact below.within
  · rw [info, flags]
    exact below.initialized
  · rw [used]
    exact below.below

theorem Below.forget (below : Below device bytes s) (found : s.ptrInfo.lookup ptr = some usage) :
    Below device bytes (s.forget ptr usage) := by
  have erased (other : DeviceIndex) : totalOf (sizeOn other) (s.ptrInfo.erase ptr) +
      sizeOn other usage = totalOf (sizeOn other) s.ptrInfo := totalOf_erase found
  have owner := erased usage.creationStream.device
  rw [show sizeOn usage.creationStream.device usage = usage.size.toNat from if_pos rfl,
    ← below.used] at owner
  have less : usage.size ≤ s.pytorchUsedBytes usage.creationStream.device :=
    UInt64.le_iff_toNat_le.mpr (by omega)
  have left := UInt64.toNat_sub_of_le _ _ less
  have lower (other : DeviceIndex) : ((s.forget ptr usage).pytorchUsedBytes other).toNat ≤
      (s.pytorchUsedBytes other).toNat := by
    simp only [Allocator.forget, Function.update_apply]
    split
    · subst other
      omega
    · exact le_rfl
  refine ⟨⟨fun other => ?_, fun other => ?_, fun other usage' found' => ?_⟩,
    (lower device).trans below.below⟩
  · simp only [Allocator.forget, Function.update_apply]
    have rest := erased other
    split
    · subst other
      rw [left]
      omega
    · rw [show sizeOn other usage = 0 from if_neg (Ne.symm ‹other ≠ _›)] at rest
      rw [below.used]
      omega
  · exact UInt64.le_iff_toNat_le.mpr ((lower other).trans (UInt64.le_iff_toNat_le.mp (below.within other)))
  · exact below.initialized other usage' (lookup_forget found').2

theorem topsFreeAsync_same (answer : Option TopsError) (ptr : Ptr) (usage : PtrUsage)
    (stream : UsageStream) : Preserves (SameBooks s) (topsFreeAsync answer ptr usage stream) := by
  refine .bind (.modify fun _ same => same) fun _ => .bind (gcuCheck_preserves _) fun _ =>
    .modify fun t same => ?_
  unfold Allocator.rememberFreeStream
  split
  · exact same
  · exact same

theorem syncRaw_same (rt : SyncAnswers) : Preserves (SameBooks s) (syncRaw rt) :=
  .bind (gcuCheck_preserves _) fun _ => .bind (gcuCheck_preserves _) fun _ =>
    .bind (gcuCheck_preserves _) fun _ => gcuCheck_preserves _

theorem syncStreams_same (guard : UsageStream → Option TopsError) (sync : UsageStream → SyncAnswers)
    (streams : List UsageStream) : Preserves (SameBooks s) (syncStreams guard sync streams) := by
  induction streams with
  | nil => exact .pure _
  | cons stream rest ih =>
    exact .bind (gcuCheck_preserves _) fun _ => .bind (syncRaw_same _) fun _ => ih

theorem freeOnStream_same (rt : FreeAnswers) (ptr : Ptr) (usage : PtrUsage) :
    Preserves (SameBooks s) (freeOnStream rt ptr usage) := by
  refine .ite (topsFreeAsync_same _ _ _ _) (.get_bind fun t same => ?_)
  exact (Preserves.bind (internalAssert_preserves _ _) fun _ => .bind (syncRaw_same _) fun _ =>
    .bind (syncStreams_same _ _ _) fun _ => topsFreeAsync_same _ _ _ _) t same

theorem freeImpl_below (rt : FreeAnswers) (below : Below device bytes s)
    (found : s.ptrInfo.lookup ptr = some usage) :
    wp (freeImpl rt ptr usage) (fun _ => Below device bytes) (fun _ => Below device bytes) s := by
  simp only [freeImpl, wp_bind, wp_gcuCheck, wp_modify]
  refine ⟨fun _ => wp_mono (freeOnStream_same rt ptr usage s (.refl s)) (fun _ t same => ?_)
    fun _ t same => below.same same, fun _ _ => below⟩
  exact (below.same same).forget (same.1 ▸ found)

theorem freeDeferred_below (frees : Ptr → FreeAnswers) (ptrs : List Ptr) :
    Preserves (Below device bytes) (freeDeferred frees ptrs) := by
  induction ptrs with
  | nil => exact .pure _
  | cons ptr rest ih =>
    refine .get_bind fun s below => ?_
    cases found : s.ptrInfo.lookup ptr with
    | none => exact below
    | some usage =>
      rw [wp_bind]
      exact wp_mono (freeImpl_below _ below found) (fun _ t after => ih t after) fun _ _ after => after

theorem flushDeferred_below (frees : Ptr → FreeAnswers) :
    Preserves (Below device bytes) (flushDeferred frees) := by
  refine .get_bind fun s below => ?_
  rw [wp_ite]
  refine ⟨fun _ => ?_, fun _ => below⟩
  rw [wp_bind]
  refine wp_mono (freeDeferred_below frees _ s below) (fun _ t after => ?_) fun _ _ after => after
  exact after.same ⟨rfl, rfl, rfl, rfl⟩

theorem Metered.unused (metered : Metered s) (fresh : s.devsInitializedFlags device = false) :
    totalOf (sizeOn device) s.ptrInfo = 0 := by
  apply totalOf_eq_zero
  intro ptr usage found
  have initialized := metered.initialized ptr usage found
  apply if_neg
  rintro rfl
  simp [fresh] at initialized

theorem Below.markInitialized {other : DeviceIndex} (below : Below other bytes s)
    (fresh : s.devsInitializedFlags device = false) (dummy : StreamId) :
    Below other bytes (s.markInitialized device dummy) := by
  refine ⟨⟨fun one => ?_, fun one => ?_, fun ptr usage found => ?_⟩, ?_⟩
  · simp only [Allocator.markInitialized, Function.update_apply]
    split
    · subst one
      exact (below.unused fresh).symm
    · exact below.used one
  · simp only [Allocator.markInitialized, Function.update_apply]
    split
    · decide
    · exact below.within one
  · simp only [Allocator.markInitialized, Function.update_apply]
    split
    · rfl
    · exact below.initialized ptr usage found
  · simp only [Allocator.markInitialized, Function.update_apply]
    split
    · exact Nat.zero_le _
    · exact below.below

theorem lazyInitDevice_below (rt : LazyInitAnswers) {other : DeviceIndex} :
    Preserves (Below other bytes) (lazyInitDevice rt device) := by
  intro s below
  refine wp_mono (lazyInitDevice_spec rt device) (fun _ t after => ?_) fun _ t after => ?_
  · obtain ⟨-, rfl⟩ | ⟨fresh, dummy, rfl⟩ := after
    · exact below
    · exact below.markInitialized fresh dummy
  · exact after.2 ▸ below

/-- An allocation below the limit. -/
theorem Metered.emplace {size : UInt64} (metered : Metered s)
    (absent : s.ptrInfo.lookup ptr = none) (flagged : s.devsInitializedFlags device = true)
    (exact : (s.pytorchUsedBytes device).toNat + size.toNat < 2 ^ 64)
    (within : s.pytorchUsedBytes device + size ≤ s.pytorchMemoryLimits device) (stream : StreamId) :
    Metered (s.emplace ptr device size stream) := by
  refine ⟨fun other => ?_, fun other => ?_, fun other usage found => ?_⟩
  · simp only [Allocator.emplace, Function.update_apply]
    rw [totalOf_insert absent, ← metered.used other]
    split
    · subst other
      rw [UInt64.toNat_add, Nat.mod_eq_of_lt exact, Nat.add_comm]
      rw [sizeOn, if_pos rfl]
    · rw [sizeOn, if_neg (Ne.symm ‹¬ other = device›), Nat.zero_add]
  · simp only [Allocator.emplace, Function.update_apply]
    split
    · subst other
      exact within
    · exact metered.within other
  · rcases of_lookup_insert found with ⟨-, rfl⟩ | ⟨-, found'⟩
    · exact flagged
    · exact metered.initialized other usage found'

theorem Metered.below (metered : Metered s) (device : DeviceIndex) :
    Below device (s.pytorchUsedBytes device).toNat s := ⟨metered, le_rfl⟩

theorem mallocAsync_metered {rt : MallocAnswers} {size : UInt64} (stream : StreamId)
    (metered : Metered s) (exact : (s.pytorchUsedBytes device).toNat + size.toNat < 2 ^ 64) :
    wp (mallocAsync rt device size stream) (fun _ => Metered) (fun _ => Metered) s := by
  simp only [mallocAsync, wp_bind, wp_get, wp_internalAssert, wp_gcuCheck]
  refine ⟨fun _ => ⟨fun _ => ?_, fun _ _ => metered⟩, fun _ => metered⟩
  refine wp_mono (flushDeferred_below rt.frees s (metered.below device)) (fun _ t below => ?_)
    fun _ _ below => below.toMetered
  have init := wp_and (lazyInitDevice_spec rt.lazyInit device)
    (lazyInitDevice_below rt.lazyInit t below)
  refine wp_mono init (fun _ u both => ?_) fun _ _ both => both.2.toMetered
  obtain ⟨ready, below'⟩ := both
  have flagged : u.devsInitializedFlags device = true := by
    obtain ⟨already, rfl⟩ | ⟨-, dummy, rfl⟩ := ready
    · exact already
    · simp [Allocator.markInitialized]
  refine ⟨fun _ => ?_, fun _ _ => below'.toMetered⟩
  cases answer : mallocAnswer rt u device size with
  | error error =>
    cases error with
    | memoryAllocation => cases rt.memGetInfo <;> exact below'.toMetered
    | notReady => exact below'.toMetered
    | other code => exact below'.toMetered
  | ok devPtr =>
    have within : u.pytorchUsedBytes device + size ≤ u.pytorchMemoryLimits device := by
      by_contra above
      rw [mallocAnswer, if_pos (UInt64.not_le.mp above)] at answer
      cases answer
    cases found : u.ptrInfo.lookup devPtr with
    | some usage => simpa only [found, wp_throw] using below'.toMetered
    | none =>
      have fits := (Nat.add_le_add_right below'.below size.toNat).trans_lt exact
      simpa only [found, wp_set] using below'.toMetered.emplace found flagged fits within stream

theorem freeAsync_metered {getLastError : Option TopsError} (rt : FreeAnswers) (ptr : Ptr)
    (metered : Metered s) :
    wp (freeAsync getLastError rt ptr) (fun _ => Metered) (fun _ => Metered) s := by
  simp only [freeAsync, wp_bind, wp_gcuCheck, wp_get]
  refine ⟨fun _ => ?_, fun _ _ => metered⟩
  cases found : s.ptrInfo.lookup ptr with
  | none => exact metered
  | some usage =>
    simp only [wp_ite, wp_set]
    refine ⟨fun _ => ⟨metered.used, metered.within, metered.initialized⟩, fun _ => ?_⟩
    exact wp_mono (freeImpl_below rt (metered.below 0) found) (fun _ _ below => below.toMetered)
      fun _ _ below => below.toMetered

theorem recordStream_metered (ptr : Ptr) (toRecord : UsageStream) (metered : Metered s) :
    wp (recordStream ptr toRecord) (fun _ => Metered) (fun _ => Metered) s := by
  simp only [recordStream, wp_bind, wp_get, wp_ite, wp_pure]
  refine ⟨fun _ => metered, fun _ => ?_⟩
  cases found : s.ptrInfo.lookup ptr with
  | none => exact metered
  | some usage =>
    simp only [wp_ite, wp_pure, wp_set]
    refine ⟨fun _ => metered, fun _ => ⟨fun device => ?_, metered.within, fun other usage' found' => ?_⟩⟩
    · have same : totalOf (sizeOn device) (s.ptrInfo.insert ptr
          { usage with recordedStreams := usage.recordedStreams.insert toRecord }) =
          totalOf (sizeOn device) s.ptrInfo := totalOf_replace found rfl
      exact (metered.used device).trans same.symm
    · obtain ⟨before, known, creation, _⟩ := of_lookup_recorded found found'
      rw [creation]
      exact metered.initialized other before known

theorem beginAllocateToPool_metered (metered : Metered s) :
    wp beginAllocateToPool (fun _ => Metered) (fun _ => Metered) s := by
  simp only [beginAllocateToPool, wp_bind, wp_get, wp_internalAssert, wp_torchCheck, wp_set]
  exact ⟨fun _ => ⟨fun _ => ⟨metered.used, metered.within, metered.initialized⟩, fun _ => metered⟩,
    fun _ => metered⟩

theorem endAllocateToPool_metered (rt : EndAnswers) (device : DeviceIndex) (metered : Metered s) :
    wp (endAllocateToPool rt device) (fun _ => Metered) (fun _ => Metered) s := by
  have still (t : Allocator) (same : SameBooks s t) : Metered t :=
    ((metered.below device).same same).toMetered
  simp only [endAllocateToPool, wp_bind, wp_get, wp_torchCheck, wp_modify]
  refine ⟨fun _ => ⟨fun _ => ?_, fun _ => metered⟩, fun _ => metered⟩
  refine wp_mono (syncStreams_same rt.guard rt.sync s.captureFreeStreams s (.refl s))
    (fun _ t same => ⟨fun _ => still _ same, fun _ => still _ same⟩) fun _ t same => still t same

/-! ### Limits -/

theorem setMemoryFraction_metered {rt : FractionAnswers} {fraction : Rat} (metered : Metered s)
    (room : s.devsInitializedFlags device = true → ∀ free total,
      rt.memGetInfo = .ok (free, total) → s.pytorchUsedBytes device ≤ rt.product fraction total) :
    wp (setMemoryFraction rt fraction device) (fun _ => Metered) (fun _ => Metered) s := by
  simp only [setMemoryFraction, wp_bind, wp_get, wp_internalAssert, wp_torchCheck, wp_gcuCheck]
  refine ⟨fun _ => ⟨fun _ => ⟨fun _ => ?_, fun _ _ => metered⟩, fun _ => metered⟩, fun _ => metered⟩
  have init := wp_and (lazyInitDevice_spec rt.lazyInit device)
    (lazyInitDevice_below rt.lazyInit s (metered.below device))
  refine wp_mono init (fun _ t both => ?_) fun _ _ both => both.2.toMetered
  obtain ⟨ready, below⟩ := both
  cases info : rt.memGetInfo with
  | error error => exact below.toMetered
  | ok sizes =>
    have limited : t.pytorchUsedBytes device ≤ rt.product fraction sizes.2 := by
      obtain ⟨already, rfl⟩ | ⟨-, dummy, rfl⟩ := ready
      · exact room already sizes.1 sizes.2 info
      · simp only [Allocator.markInitialized, Function.update_self]
        exact UInt64.zero_le
    refine ⟨below.used, fun other => ?_, below.initialized⟩
    simp only [Allocator.limit, Function.update_apply]
    split
    · subst other
      exact limited
    · exact below.within other

theorem cacheInfo_metered (rt : CacheInfoAnswers) (device : DeviceIndex) (fuel : Nat)
    (metered : Metered s) :
    wp (cacheInfo rt device fuel) (fun _ => Metered) (fun _ => Metered) s := by
  simp only [cacheInfo, wp_bind, wp_get, wp_torchCheck, wp_gcuCheck]
  refine ⟨fun _ => ⟨fun _ => ?_, fun _ _ => metered⟩, fun _ => metered⟩
  refine wp_mono (lazyInitDevice_below rt.lazyInit s (metered.below device)) (fun _ t below => ?_)
    fun _ _ below => below.toMetered
  unfold searchGuess
  cases rt.memGetInfo with
  | error error => exact below.toMetered
  | ok sizes =>
    simp only [wp_bind, wp_get, wp_internalAssert, wp_gcuCheck]
    refine ⟨fun _ => ⟨fun _ => ?_, fun _ _ => below.toMetered⟩, fun _ => below.toMetered⟩
    cases guessLoop rt (t.pytorchUsedBytes device) (t.pytorchMemoryLimits device) fuel 0
        (firstGuess sizes.1 (t.pytorchMemoryLimits device - t.pytorchUsedBytes device)) with
    | ok guess => exact below.toMetered
    | error error => exact below.toMetered

/-- A call of the allocator, or one about its limits. -/
inductive MemoryCall where
  | allocator (call : Call)
  | setMemoryFraction (rt : FractionAnswers) (fraction : Rat) (device : DeviceIndex)
  | cacheInfo (rt : CacheInfoAnswers) (device : DeviceIndex) (fuel : Nat)

def MemoryCall.run : MemoryCall → M Unit
  | .allocator call => call.run
  | .setMemoryFraction rt fraction device => TopsMallocAsync.setMemoryFraction rt fraction device
  | .cacheInfo rt device fuel => do
    let _ ← TopsMallocAsync.cacheInfo rt device fuel

/-- A call leaves a state when it returns and when it raises. -/
def MemoryStep (s : Allocator) (call : MemoryCall) (t : Allocator) : Prop :=
  wp call.run (fun _ last => last = t) (fun _ last => last = t) s

/-- A limit is not lowered below what is used, and what is used fits a word. -/
def KeepsRoom (s : Allocator) : MemoryCall → Prop
  | .allocator (.mallocAsync _ device size _) =>
    (s.pytorchUsedBytes device).toNat + size.toNat < 2 ^ 64
  | .setMemoryFraction rt fraction device => s.devsInitializedFlags device = true →
    ∀ free total, rt.memGetInfo = .ok (free, total) →
      s.pytorchUsedBytes device ≤ rt.product fraction total
  | _ => True

theorem MemoryCall.run_metered (call : MemoryCall) (metered : Metered s) (keeps : KeepsRoom s call) :
    wp call.run (fun _ => Metered) (fun _ => Metered) s := by
  cases call with
  | setMemoryFraction rt fraction device => exact setMemoryFraction_metered metered keeps
  | cacheInfo rt device fuel =>
    simp only [MemoryCall.run, wp_bind, wp_pure]
    exact cacheInfo_metered rt device fuel metered
  | allocator call =>
    cases call with
    | mallocAsync rt device size stream => exact mallocAsync_metered stream metered keeps
    | freeAsync getLastError rt ptr => exact freeAsync_metered rt ptr metered
    | recordStream ptr toRecord => exact recordStream_metered ptr toRecord metered
    | beginAllocateToPool => exact beginAllocateToPool_metered metered
    | endAllocateToPool rt device => exact endAllocateToPool_metered rt device metered

theorem MemoryStep.metered {call : MemoryCall} (metered : Metered s)
    (step : Meeting KeepsRoom MemoryStep s call t) : Metered t := by
  obtain ⟨keeps, taken⟩ := step
  by_contra broken
  refine wp_false (wp_mono (wp_and (call.run_metered metered keeps) taken)
    (fun _ last both => broken ?_) fun _ last both => broken ?_)
  · exact both.2 ▸ both.1
  · exact both.2 ▸ both.1

theorem init_metered (devCount : Nat) : Metered (init devCount) where
  used _ := rfl
  within _ := UInt64.le_refl _
  initialized _ _ found := by cases found

theorem reached_metered {devCount : Nat}
    (run : Reaches (Meeting KeepsRoom MemoryStep) (init devCount) s) : Metered s :=
  run.invariant (fun metered step => MemoryStep.metered metered step) (init_metered devCount)

/-- The search of `cacheInfo` ends in a state exactly when no more is used on the device than
its limit; and so it does in every run that never lowers a limit below that. -/
theorem cache_info_ends (lawful : rt.Lawful) (device : DeviceIndex) :
    (∀ s, Ends rt device s ↔
      (Enters rt device s → s.pytorchUsedBytes device ≤ s.pytorchMemoryLimits device)) ∧
    ∀ devCount s, Reaches (Meeting KeepsRoom MemoryStep) (init devCount) s → Ends rt device s :=
  ⟨fun _ => ends_iff lawful, fun _ _ run =>
    (ends_iff lawful).mpr fun _ => (reached_metered run).within device⟩

def roomyAnswers : CacheInfoAnswers where
  memGetInfo := .ok (8, 9)
  topsMallocAsync _ size := if size = 0 then none else some .memoryAllocation

theorem roomyAnswers_lawful : roomyAnswers.Lawful where
  outcome round size := by
    by_cases zero : size = 0
    · exact .inl (if_pos zero)
    · exact .inr (if_neg zero)
  zero _ := rfl

/-- The state after each call. -/
def afterCalls (s : Allocator) : List MemoryCall → Allocator
  | [] => s
  | call :: calls =>
    match call.run.run s with
    | .ok _ t => afterCalls t calls
    | .error _ t => afterCalls t calls

theorem memoryStep_afterCalls (s : Allocator) (call : MemoryCall) :
    MemoryStep s call (afterCalls s [call]) := by
  cases ran : call.run.run s with
  | ok value t => exact (wp_run ran).mpr (by simp only [afterCalls, ran])
  | error e t => simp only [MemoryStep, wp, afterCalls, ran]

def allocateOne : MemoryCall := .allocator (.mallocAsync { topsMallocAsync := .ok 1 } 0 1 0)

def limitFive : MemoryCall :=
  .setMemoryFraction { memGetInfo := .ok (8, 9), product := fun _ _ => 5 } (1 / 2) 0

def allocated : Allocator := afterCalls (init 1) [allocateOne]

def limited : Allocator := afterCalls allocated [limitFive]

theorem cache_info_ends_limited : limited.pytorchUsedBytes 0 = 1 ∧
    limited.pytorchMemoryLimits 0 = 5 ∧ Enters roomyAnswers 0 limited ∧
      Ends roomyAnswers 0 limited := by
  have fits : KeepsRoom (init 1) allocateOne := show 0 + 1 < 2 ^ 64 by decide
  have keeps : KeepsRoom allocated limitFive := by
    rintro - free total known
    show allocated.pytorchUsedBytes 0 ≤ 5
    decide +kernel
  have first : Reaches (Meeting KeepsRoom MemoryStep) (init 1) allocated :=
    .next .refl ⟨fits, memoryStep_afterCalls (init 1) allocateOne⟩
  have second : Reaches (Meeting KeepsRoom MemoryStep) (init 1) limited :=
    first.next ⟨keeps, memoryStep_afterCalls allocated limitFive⟩
  have used : limited.pytorchUsedBytes 0 = 1 := by decide +kernel
  have limit : limited.pytorchMemoryLimits 0 = 5 := by decide +kernel
  refine ⟨used, limit, ⟨by decide +kernel, rfl, by decide +kernel, ⟨8, 9, rfl, ?_⟩, rfl⟩,
    (cache_info_ends roomyAnswers_lawful 0).2 1 limited second⟩
  rw [used]
  decide

/-- One byte is allocated, and then the limit is set to nothing. -/
def loweredLimit : List MemoryCall :=
  [allocateOne,
    .setMemoryFraction { memGetInfo := .ok (8, 9), product := fun _ _ => 0 } 0 0]

theorem reaches_afterCalls (calls : List MemoryCall) {start : Allocator}
    (run : Reaches MemoryStep start s) : Reaches MemoryStep start (afterCalls s calls) := by
  induction calls generalizing s with
  | nil => exact run
  | cons call calls ih =>
    have taken := ih (run.next (memoryStep_afterCalls s call))
    rw [afterCalls]
    cases ran : call.run.run s with
    | ok value t => simpa only [afterCalls, ran] using taken
    | error e t => simpa only [afterCalls, ran] using taken

def lowered : Allocator := afterCalls (init 1) loweredLimit

/-- With a limit below what is used the search does not end, not even at zero. -/
theorem lowered_limit_loops :
    Reaches MemoryStep (init 1) lowered ∧ ¬ Ends roomyAnswers 0 lowered := by
  refine ⟨reaches_afterCalls _ .refl, fun ends => ?_⟩
  have used : lowered.pytorchUsedBytes 0 = 1 := by decide +kernel
  have limit : lowered.pytorchMemoryLimits 0 = 0 := by decide +kernel
  have enters : Enters roomyAnswers 0 lowered := by
    refine ⟨by decide +kernel, rfl, by decide +kernel, ⟨8, 9, rfl, ?_⟩, rfl⟩
    rw [used]
    decide
  have within := (ends_iff roomyAnswers_lawful).mp ends enters
  rw [used, limit] at within
  revert within
  decide

end TorchGcu.TopsMallocAsync

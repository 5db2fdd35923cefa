import Mathlib.Data.List.Induction
import Mathlib.Data.List.Nodup
import TorchGcu.Initialization.LazyInit

/-! The calls that are queued, kept in the tracker and run, apart from the threads: what holds of them
in each phase of the initialisation, and after it. -/
namespace TorchGcu.LazyInit
variable {call : Deferred} {calls rest queued early late : List Deferred} {kind : Kind} {place : Nat}

theorem queueSeed_sublist (tracker : List Deferred) (call : Deferred) :
    (queueSeed tracker call).Sublist (tracker ++ [call]) :=
  List.filter_sublist.append (List.Sublist.refl _)

def plains (calls : List Deferred) : List Deferred := calls.filter (·.kind = .plain)

def seeds (calls : List Deferred) : List Deferred := calls.filter (·.kind ≠ .plain)

@[simp] theorem plains_nil : plains [] = [] := rfl
@[simp] theorem seeds_nil : seeds [] = [] := rfl

@[simp] theorem plains_append (calls late : List Deferred) :
    plains (calls ++ late) = plains calls ++ plains late := List.filter_append ..

@[simp] theorem seeds_append (calls late : List Deferred) :
    seeds (calls ++ late) = seeds calls ++ seeds late := List.filter_append ..

theorem seeds_one (seed : call.kind ≠ .plain) : seeds [call] = [call] := by
  simp [seeds, seed]

theorem plains_one_of_seed (seed : call.kind ≠ .plain) : plains [call] = [] := by
  simp [plains, seed]

theorem seeds_one_of_plain (plain : call.kind = .plain) : seeds [call] = [] := by
  simp [seeds, plain]

theorem mem_plains : call ∈ plains calls ↔ call ∈ calls ∧ call.kind = .plain := by
  simp [plains]

theorem mem_seeds : call ∈ seeds calls ↔ call ∈ calls ∧ call.kind ≠ .plain := by
  simp [seeds]

theorem nodup_of_kinds (plain : (plains calls).Nodup) (seed : (seeds calls).Nodup) :
    calls.Nodup := by
  rw [List.nodup_iff_count_le_one] at plain seed ⊢
  intro call
  by_cases kind : call.kind = .plain
  · have once := plain call
    rwa [plains, List.count_filter (by simpa using kind)] at once
  · have once := seed call
    rwa [seeds, List.count_filter (by simpa using kind)] at once

/-- What the tracker keeps of a list of calls. -/
def recent (calls : List Deferred) : List Deferred := (seeds calls).foldl queueSeed []

theorem recent_append (calls late : List Deferred) :
    recent (calls ++ late) = (seeds late).foldl queueSeed (recent calls) := by
  rw [recent, seeds_append, List.foldl_append, recent]

theorem recent_concat_plain (plain : call.kind = .plain) :
    recent (calls ++ [call]) = recent calls := by
  rw [recent_append, seeds_one_of_plain plain, List.foldl_nil]

theorem recent_concat_seed (seed : call.kind ≠ .plain) :
    recent (calls ++ [call]) = queueSeed (recent calls) call := by
  rw [recent_append, seeds_one seed, List.foldl_cons, List.foldl_nil]

theorem foldl_queueSeed_sublist (tracker calls : List Deferred) :
    (calls.foldl queueSeed tracker).Sublist (tracker ++ calls) := by
  induction calls generalizing tracker with
  | nil => simp
  | cons call calls ih =>
    have longer := (queueSeed_sublist tracker call).append (List.Sublist.refl calls)
    rw [List.append_assoc, List.singleton_append] at longer
    exact (ih (queueSeed tracker call)).trans longer

theorem recent_append_sublist (calls late : List Deferred) :
    (recent (calls ++ late)).Sublist (recent calls ++ late) := by
  rw [recent_append]
  exact (foldl_queueSeed_sublist _ _).trans ((List.Sublist.refl _).append List.filter_sublist)

theorem recent_sublist_seeds (calls : List Deferred) : (recent calls).Sublist (seeds calls) :=
  foldl_queueSeed_sublist [] (seeds calls)

theorem recent_sublist (calls : List Deferred) : (recent calls).Sublist calls :=
  (recent_sublist_seeds calls).trans List.filter_sublist

/-- The last call of a kind of seed is in the tracker. -/
theorem mem_recent (seed : kind ≠ .plain) (last : call ∈ lastOf kind calls) :
    call ∈ recent calls := by
  induction calls using List.reverseRecOn with
  | nil => simp [lastOf] at last
  | append_singleton calls latest ih =>
    by_cases same : latest.kind = kind
    · have equal : latest = call := by simpa [lastOf, List.filter_append, same] using last
      subst equal
      rw [recent_concat_seed (same ▸ seed), queueSeed]
      simp
    · have before : call ∈ lastOf kind calls := by
        simpa [lastOf, List.filter_append, same] using last
      have own : call.kind = kind := by
        have member := List.mem_of_getLast? before
        simpa using (List.mem_filter.mp member).2
      by_cases plain : latest.kind = .plain
      · rw [recent_concat_plain plain]
        exact ih before
      · rw [recent_concat_seed plain, queueSeed]
        have other : call.kind ≠ latest.kind := by
          rw [own]
          exact Ne.symm same
        exact List.mem_append_left _ (List.mem_filter.mpr ⟨ih before, by simpa using other⟩)

/-- The calls of a state, and how far the thread that holds the lock is with the queue. -/
structure Books where
  initialized : Bool
  phase : Option Phase
  queued : List Deferred
  tracker : List Deferred
  ordered : List Deferred
  executed : List Deferred

namespace Books
variable {b : Books} {call : Deferred}

/-- What is run from the queue in each phase. -/
def Stage (b : Books) : Prop :=
  match b.phase with
  | none => b.executed = [] ∧ seeds b.queued = []
  | some (.collecting rest) => b.executed = [] ∧ seeds b.queued ++ rest = b.tracker
  | some (.draining next) =>
    b.executed = b.queued.take next ∧ next ≤ b.queued.length ∧ seeds b.queued = b.tracker
  | some .drained => b.executed = b.queued ∧ seeds b.queued = b.tracker

structure Early (b : Books) : Prop where
  plain : plains b.queued = plains b.ordered
  tracker : b.tracker = recent b.ordered
  stage : b.Stage

/-- The calls after the initialisation were run when they were made. -/
structure Late (b : Books) (early late : List Deferred) : Prop where
  ordered : b.ordered = early ++ late
  executed : b.executed = b.queued ++ late
  plain : plains b.queued = plains early
  seed : seeds b.queued = recent early

structure Kept (b : Books) : Prop where
  early : b.initialized = false → b.Early
  late : b.initialized = true → ∃ early late, b.Late early late

theorem kept_of_early (before : b.initialized = false) (early : b.Early) : b.Kept :=
  ⟨fun _ => early, fun done => by simp [before] at done⟩

theorem kept_of_late (early late : List Deferred) (done : b.initialized = true)
    (books : b.Late early late) : b.Kept :=
  ⟨fun before => by simp [done] at before, fun _ => ⟨early, late, books⟩⟩

theorem Kept.append_plain (kept : b.Kept) (early : b.initialized = false)
    (before : b.phase ≠ some .drained) (plain : call.kind = .plain) :
    Kept { b with queued := b.queued ++ [call], ordered := b.ordered ++ [call] } := by
  obtain ⟨plains, tracker, stage⟩ := kept.early early
  refine kept_of_early early ⟨?_, ?_, ?_⟩
  · simp only [plains_append, plains]
  · exact tracker.trans (recent_concat_plain plain).symm
  · unfold Stage at stage ⊢
    simp only [seeds_append, seeds_one_of_plain plain, List.append_nil]
    split at stage
    · exact stage
    · exact stage
    · obtain ⟨taken, within, seeds⟩ := stage
      refine ⟨?_, ?_, seeds⟩
      · rw [taken, List.take_append_of_le_length within]
      · simp only [List.length_append, List.length_singleton]
        omega
    · contradiction

theorem Kept.append_seed (kept : b.Kept) (early : b.initialized = false)
    (before : b.phase = none) (seed : call.kind ≠ .plain) :
    Kept { b with tracker := queueSeed b.tracker call, ordered := b.ordered ++ [call] } := by
  obtain ⟨plains, tracker, stage⟩ := kept.early early
  refine kept_of_early early ⟨?_, ?_, ?_⟩
  · simp only [plains_append, plains_one_of_seed seed, List.append_nil, plains]
  · simp only [tracker, recent_concat_seed seed]
  · unfold Stage at stage ⊢
    simp only [before] at stage ⊢
    exact stage

theorem Kept.collect (kept : b.Kept) (early : b.initialized = false) (before : b.phase = none) :
    Kept { b with phase := some (.collecting b.tracker) } := by
  obtain ⟨plains, tracker, stage⟩ := kept.early early
  refine kept_of_early early ⟨plains, tracker, ?_⟩
  unfold Stage at stage ⊢
  simp only [before] at stage
  exact ⟨stage.1, by simp [stage.2]⟩

theorem Kept.queue_seed (kept : b.Kept) (early : b.initialized = false)
    (before : b.phase = some (.collecting (call :: rest))) :
    Kept { b with phase := some (.collecting rest), queued := b.queued ++ [call] } := by
  obtain ⟨plains, tracker, stage⟩ := kept.early early
  unfold Stage at stage
  simp only [before] at stage
  have seed : call.kind ≠ .plain := by
    have tracked : call ∈ recent b.ordered := by
      rw [← tracker, ← stage.2]
      simp
    exact (mem_seeds.mp ((recent_sublist_seeds _).subset tracked)).2
  refine kept_of_early early ⟨?_, tracker, ?_⟩
  · simp only [plains_append, plains_one_of_seed seed, List.append_nil, plains]
  · refine ⟨stage.1, ?_⟩
    simp only [seeds_append, seeds_one seed, List.append_assoc, List.singleton_append, stage.2]

theorem Kept.begin_drain (kept : b.Kept) (early : b.initialized = false)
    (before : b.phase = some (.collecting [])) :
    Kept { b with phase := some (.draining 0) } := by
  obtain ⟨plains, tracker, stage⟩ := kept.early early
  unfold Stage at stage
  simp only [before] at stage
  refine kept_of_early early ⟨plains, tracker, ?_⟩
  exact ⟨stage.1, Nat.zero_le _, by simpa using stage.2⟩

theorem Kept.drain (kept : b.Kept) (early : b.initialized = false)
    (before : b.phase = some (.draining place)) (found : b.queued[place]? = some call) :
    Kept { b with phase := some (.draining (place + 1)), executed := b.executed ++ [call] } := by
  obtain ⟨plains, tracker, stage⟩ := kept.early early
  unfold Stage at stage
  simp only [before] at stage
  obtain ⟨taken, _, seeds⟩ := stage
  obtain ⟨within, _⟩ := List.getElem?_eq_some_iff.mp found
  refine kept_of_early early ⟨plains, tracker, ?_, within, seeds⟩
  simp only [List.take_add_one, found, taken, Option.toList_some]

theorem Kept.end_drain (kept : b.Kept) (early : b.initialized = false)
    (before : b.phase = some (.draining place)) (ended : b.queued[place]? = none) :
    Kept { b with phase := some .drained } := by
  obtain ⟨plains, tracker, stage⟩ := kept.early early
  unfold Stage at stage
  simp only [before] at stage
  obtain ⟨taken, _, seeds⟩ := stage
  refine kept_of_early early ⟨plains, tracker, ?_, seeds⟩
  exact taken.trans (List.take_of_length_le (List.getElem?_eq_none_iff.mp ended))

theorem Kept.set (kept : b.Kept) (early : b.initialized = false)
    (before : b.phase = some .drained) (phase : Option Phase) :
    Kept { b with initialized := true, phase := phase } := by
  obtain ⟨plains, tracker, stage⟩ := kept.early early
  unfold Stage at stage
  simp only [before] at stage
  exact kept_of_late b.ordered [] rfl
    ⟨by simp, by simp [stage.1], plains, stage.2.trans tracker⟩

theorem Kept.run_now (kept : b.Kept) (done : b.initialized = true) :
    Kept { b with ordered := b.ordered ++ [call], executed := b.executed ++ [call] } := by
  obtain ⟨early, late, ordered, executed, plains, seeds⟩ := kept.late done
  exact kept_of_late early (late ++ [call]) done
    ⟨by simp [ordered], by simp [executed], plains, seeds⟩

/-- The phase matters before the initialisation only. -/
theorem Kept.any_phase (kept : b.Kept) (done : b.initialized = true) (phase : Option Phase) :
    Kept { b with phase := phase } := by
  obtain ⟨early, late, books⟩ := kept.late done
  exact kept_of_late early late done
    ⟨books.ordered, books.executed, books.plain, books.seed⟩

theorem Early.seeds_sublist (early : b.Early) : (seeds b.queued).Sublist (recent b.ordered) := by
  obtain ⟨_, tracker, stage⟩ := early
  rw [← tracker]
  unfold Stage at stage
  split at stage
  · simp [stage.2]
  · rw [← stage.2]
    exact List.sublist_append_left _ _
  · rw [stage.2.2]
  · rw [stage.2]

theorem Early.executed_subset (early : b.Early) : b.executed ⊆ b.queued := by
  have stage := early.stage
  unfold Stage at stage
  split at stage
  · simp [stage.1]
  · simp [stage.1]
  · rw [stage.1]
    exact List.take_subset _ _
  · rw [stage.1]
    exact fun _ => id

/-- The queue holds calls that were queued, each once. -/
theorem queued_of_kinds (plain : plains queued = plains early)
    (seed : (seeds queued).Sublist (recent early)) :
    queued ⊆ early ∧ (early.Nodup → queued.Nodup) := by
  constructor
  · intro call member
    by_cases kind : call.kind = .plain
    · exact (mem_plains.mp (plain ▸ mem_plains.mpr ⟨member, kind⟩)).1
    · exact (recent_sublist early).subset (seed.subset (mem_seeds.mpr ⟨member, kind⟩))
  · intro nodup
    refine nodup_of_kinds ?_ ?_
    · rw [plain]
      exact nodup.filter _
    · exact nodup.sublist (seed.trans (recent_sublist early))

theorem Kept.executed_subset (kept : b.Kept) : b.executed ⊆ b.ordered := by
  cases done : b.initialized with
  | false =>
    have early := kept.early done
    exact List.Subset.trans early.executed_subset
      (queued_of_kinds early.plain early.seeds_sublist).1
  | true =>
    obtain ⟨early, late, ordered, executed, plain, seed⟩ := kept.late done
    rw [ordered, executed]
    have within := (queued_of_kinds plain (by rw [seed])).1
    exact List.append_subset.mpr ⟨List.subset_append_of_subset_left _ within,
      List.subset_append_right _ _⟩

/-- The next call of the queue has not been run. -/
theorem Kept.next_fresh (kept : b.Kept) (early : b.initialized = false)
    (before : b.phase = some (.draining place)) (found : b.queued[place]? = some call)
    (nodup : b.ordered.Nodup) : call ∉ b.executed := by
  have early := kept.early early
  have distinct := (queued_of_kinds early.plain early.seeds_sublist).2 nodup
  have stage := early.stage
  unfold Stage at stage
  simp only [before] at stage
  obtain ⟨within, rfl⟩ := List.getElem?_eq_some_iff.mp found
  rw [stage.1, List.mem_take_iff_getElem]
  rintro ⟨i, less, same⟩
  have equal := (distinct.getElem_inj_iff).mp same
  omega

theorem Kept.executed_nodup (kept : b.Kept) (done : b.initialized = true)
    (nodup : b.ordered.Nodup) : b.executed.Nodup := by
  obtain ⟨early, late, ordered, executed, plain, seed⟩ := kept.late done
  obtain ⟨within, distinct⟩ := queued_of_kinds plain (List.Sublist.refl _ |>.trans (by rw [seed]))
  rw [ordered, List.nodup_append] at nodup
  rw [executed, List.nodup_append]
  exact ⟨distinct nodup.1, nodup.2.1, fun call member => nodup.2.2 call (within member)⟩

/-- Every plain call that was queued or run at once has been run. -/
theorem Kept.executed_of_plain (kept : b.Kept) (done : b.initialized = true)
    (member : call ∈ b.ordered) (kind : call.kind = .plain) : call ∈ b.executed := by
  obtain ⟨early, late, ordered, executed, plain, _⟩ := kept.late done
  rw [ordered] at member
  rw [executed]
  rcases List.mem_append.mp member with before | after
  · have queued : call ∈ plains b.queued := plain ▸ mem_plains.mpr ⟨before, kind⟩
    exact List.mem_append_left _ (mem_plains.mp queued).1
  · exact List.mem_append_right _ after

/-- The latest seed calls have been run, in the order in which they were queued or run at once. -/
theorem Kept.recent_executed (kept : b.Kept) (done : b.initialized = true) :
    (recent b.ordered).Sublist b.executed := by
  obtain ⟨early, late, ordered, executed, _, seed⟩ := kept.late done
  have queued : (recent early).Sublist b.queued := by
    rw [← seed]
    exact List.filter_sublist
  rw [ordered, executed]
  exact (recent_append_sublist early late).trans (queued.append (List.Sublist.refl _))

end Books

end TorchGcu.LazyInit

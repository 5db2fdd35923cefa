import TorchGcu.Profiler.AdjustedDurations

/-! The places of the events: the intervals of the children lie in the one of their parent exactly
if the children fit into it and into the accumulator. -/
namespace TorchGcu.EventTree
open TorchGcu.Logic

/-! ### The places of the events -/

theorem childrenDuration_toInt (parentEnd : Option Time) : ∀ (acc : Int32) {ts ts' : List Tree},
    AllReady ts ts' →
      (childrenDuration parentEnd acc ts').toInt = (acc.toInt + durations ts').bmod (2 ^ 32)
  | acc, [], [], _ => by
    have lower := acc.le_toInt
    have upper := acc.toInt_lt
    rw [childrenDuration, durations, add_zero]
    exact (Int.bmod_eq_of_le (by omega) (by omega)).symm
  | acc, child :: children, child' :: children', ready => by
    rw [AllReady] at ready
    have steady := ready.1.steady
    have duration := steady.durationNS parentEnd
    have least := steady.least
    have most := steady.most
    rw [childrenDuration, childrenDuration_toInt parentEnd _ ready.2, durations]
    rw [accumulate_toInt acc (by rw [Tree.endTimeNS, Tree.startTimeNs]; omega)
      (by rw [Tree.endTimeNS, Tree.startTimeNs]; omega)]
    rw [Int.bmod_add_bmod, Tree.endTimeNS, Tree.startTimeNs, duration, add_assoc]

theorem adjustTimestampsDfs_result (parentEnd : Option Time) (newStartTime : Time) (t : Tree) :
    (adjustTimestampsDfs parentEnd newStartTime t).result = t.result.setStart newStartTime := by
  cases t
  rfl

@[simp] theorem Result.setStart_startTimeNs (r : Result) (newStartTime : Time) :
    (r.setStart newStartTime).startTimeNs = newStartTime := by
  unfold Result.setStart
  split
  · split <;> rfl
  · rename_i same
    exact not_ne_iff.mp same

@[simp] theorem adjustTimestampsDfs_start (parentEnd : Option Time) (newStartTime : Time)
    (t : Tree) : (adjustTimestampsDfs parentEnd newStartTime t).startTimeNs = newStartTime := by
  rw [Tree.startTimeNs, adjustTimestampsDfs_result, Result.setStart_startTimeNs]

/-- A place for an event, at which its interval is exact. -/
structure Place (start : Time) (t : Tree) : Prop where
  lower : -2 ^ 62 ≤ start.toInt
  upper : start.toInt + t.result.duration < 2 ^ 63 - 2 ^ 31

theorem Place.endTimeNS {start : Time} {t : Tree} (place : Place start t) (steady : Steady t.result)
    (parentEnd own : Option Time) :
    ((adjustTimestampsDfs parentEnd start t).endTimeNS own).toInt =
      start.toInt + t.result.duration := by
  have upper := place.upper
  obtain ⟨moved, duration⟩ := steady.setStart place.lower (by omega)
  rw [Tree.endTimeNS, adjustTimestampsDfs_result, moved.endTimeNS own,
    Result.setStart_startTimeNs, duration]

/-- The start of the first child. -/
theorem Place.firstChild {start : Time} {r r' : Result} {children children' : List Tree}
    (place : Place start (.node r' children')) (ready : Ready (.node r children) (.node r' children'))
    (parentEnd : Option Time) (own : Option Time) :
    ((r'.setStart start).endTimeNS parentEnd - (childrenDuration own 0 children').toInt64).toInt =
      start.toInt + r'.duration - (durations children').bmod (2 ^ 32) := by
  have steady : Steady r' := ready.steady
  have ends := place.endTimeNS steady parentEnd parentEnd
  rw [Tree.endTimeNS, adjustTimestampsDfs_result] at ends
  simp only [Tree.result] at ends
  rw [Ready] at ready
  have total := childrenDuration_toInt own 0 ready.2
  rw [show (0 : Int32).toInt = 0 from rfl, zero_add] at total
  have least := steady.least
  obtain ⟨lower, upper⟩ := place
  simp only [Tree.result] at upper
  have := Int.le_bmod (x := durations children') (m := 2 ^ 32) (by omega)
  have := Int.bmod_lt (x := durations children') (m := 2 ^ 32) (by omega)
  rw [sub_exact, ends, Int32.toInt_toInt64, total]
  · rw [ends, Int32.toInt_toInt64, total]
    omega
  · rw [ends, Int32.toInt_toInt64, total]
    omega

/-! ### Wide events nest -/

/-- The starts of children that are placed one after the other. -/
theorem adjustChildren_from (parentEnd : Option Time) :
    ∀ {ts ts' : List Tree} {start : Time}, AllReady ts ts' → -2 ^ 62 ≤ start.toInt →
      start.toInt + durations ts' < 2 ^ 63 - 2 ^ 31 →
      ∀ child ∈ adjustChildren parentEnd start ts', start ≤ child.startTimeNs
  | [], [], _, _, _, _ => by simp [adjustChildren]
  | t :: ts, t' :: ts', start, ready, lower, upper => by
    rw [AllReady] at ready
    rw [durations] at upper
    have least := ready.1.steady.least
    have others := Ready.durations_nonneg ready.2
    have place : Place start t' := ⟨lower, by omega⟩
    have ends := place.endTimeNS ready.1.steady parentEnd parentEnd
    intro child member
    rw [adjustChildren] at member
    rcases List.mem_cons.mp member with rfl | later
    · rw [adjustTimestampsDfs_start]
      exact Int64.le_refl start
    · have after := adjustChildren_from parentEnd ready.2 (by omega) (by omega) child later
      rw [Int64.le_iff_toInt_le] at after ⊢
      omega

mutual

theorem nests_of_wide (parentEnd : Option Time) : ∀ {t t' : Tree} {start : Time},
    Ready t t' → Place start t' → Wide t' →
      Nests parentEnd (adjustTimestampsDfs parentEnd start t') ∧
        Keeps parentEnd t (adjustTimestampsDfs parentEnd start t')
  | .node r children, .node r' children', start, ready, place, wide => by
    have first := place.firstChild ready parentEnd (some ((r'.setStart start).endTimeNS parentEnd))
    have ends := place.endTimeNS ready.steady parentEnd parentEnd
    rw [Tree.endTimeNS, adjustTimestampsDfs_result] at ends
    simp only [Tree.result] at ends
    have least := ready.steady.least
    rw [Ready] at ready
    rw [Wide] at wide
    obtain ⟨holds, fits, all⟩ := wide
    obtain ⟨lower, upper⟩ := place
    simp only [Tree.result] at upper least
    have nonneg := Ready.durations_nonneg ready.2
    rw [Int.bmod_eq_of_le (by omega) (by omega)] at first
    obtain ⟨inside, apart, keeps⟩ := nestsIn_of_wide (r'.setStart start).startTimeNs
      ((r'.setStart start).endTimeNS parentEnd) ready.2 all
      (by rw [Result.setStart_startTimeNs, Int64.le_iff_toInt_le, first]; omega)
      (by omega) (by omega) (by omega)
    rw [adjustTimestampsDfs, Nests, Keeps]
    refine ⟨⟨apart, inside⟩, ?_, keeps⟩
    rw [Result.setStart_startTimeNs, ends]
    omega

/-- Children that end with their parent. -/
theorem nestsIn_of_wide (least endTime : Time) : ∀ {ts ts' : List Tree} {start : Time},
    AllReady ts ts' → AllWide ts' → least ≤ start → -2 ^ 62 ≤ start.toInt →
      start.toInt + durations ts' = endTime.toInt → endTime.toInt < 2 ^ 63 - 2 ^ 31 →
      NestsIn least endTime (adjustChildren (some endTime) start ts') ∧
        (adjustChildren (some endTime) start ts').Pairwise (Apart (some endTime)) ∧
        KeepsAll (some endTime) ts (adjustChildren (some endTime) start ts')
  | [], [], _, _, _, _, _, _, _ => by simp [adjustChildren, NestsIn, KeepsAll]
  | t :: ts, t' :: ts', start, ready, wide, after, lower, sum, upper => by
    rw [AllReady] at ready
    rw [AllWide] at wide
    rw [durations] at sum
    have nonneg := ready.1.steady.least
    have others := Ready.durations_nonneg ready.2
    have place : Place start t' := ⟨lower, by omega⟩
    have ends := place.endTimeNS ready.1.steady (some endTime) (some endTime)
    have own := nests_of_wide (some endTime) ready.1 place wide.1
    have next : least ≤ (adjustTimestampsDfs (some endTime) start t').endTimeNS (some endTime) := by
      rw [Int64.le_iff_toInt_le] at after ⊢
      omega
    have rest := nestsIn_of_wide least endTime ready.2 wide.2 next (by omega) (by omega) upper
    have later := @adjustChildren_from (some endTime) ts ts'
      ((adjustTimestampsDfs (some endTime) start t').endTimeNS (some endTime)) ready.2
      (by omega) (by omega)
    rw [adjustChildren, NestsIn, KeepsAll]
    refine ⟨⟨⟨?_, ?_⟩, own.1, rest.1⟩, List.pairwise_cons.mpr ⟨?_, rest.2.1⟩, own.2, rest.2.2⟩
    · rwa [adjustTimestampsDfs_start]
    · rw [Int64.le_iff_toInt_le]
      omega
    · intro child member
      exact .inl (later child member)

end

/-! ### Events that nest are wide -/

/-- A child that lies in its parent and did not lose time is placed exactly. -/
theorem Place.of_inside {start endTime : Time} {t t' : Tree} (ready : Ready t t')
    (lower : -2 ^ 62 ≤ start.toInt) (upper : endTime.toInt < 2 ^ 63 - 2 ^ 31)
    (inside : (adjustTimestampsDfs (some endTime) start t').endTimeNS (some endTime) ≤ endTime)
    (keeps : Keeps (some endTime) t (adjustTimestampsDfs (some endTime) start t')) :
    Place start t' := by
  obtain ⟨r, children⟩ := t
  obtain ⟨r', children'⟩ := t'
  rw [adjustTimestampsDfs, Keeps, Result.setStart_startTimeNs] at keeps
  rw [Tree.endTimeNS, adjustTimestampsDfs_result, Int64.le_iff_toInt_le] at inside
  rw [Ready] at ready
  obtain ⟨⟨steady, least, grows, kept⟩, _⟩ := ready
  have kept' := keeps.1
  simp only [Tree.result] at inside kept'
  refine ⟨lower, ?_⟩
  simp only [Tree.result]
  by_contra past
  by_cases room : start.toInt + r'.duration < 2 ^ 63
  · obtain ⟨moved, duration⟩ := steady.setStart lower room
    have ends := moved.endTimeNS (some endTime)
    rw [Result.setStart_startTimeNs, duration] at ends
    omega
  · -- an end that overflowed would have lost time, or start behind the end of the parent
    rcases kept with same | short
    · omega
    · omega

mutual

theorem wide_of_nests (parentEnd : Option Time) : ∀ {t t' : Tree} {start : Time},
    Ready t t' → Place start t' → Nests parentEnd (adjustTimestampsDfs parentEnd start t') →
      Keeps parentEnd t (adjustTimestampsDfs parentEnd start t') → Wide t'
  | .node r children, .node r' children', start, ready, place, nests, keeps => by
    have first := place.firstChild ready parentEnd (some ((r'.setStart start).endTimeNS parentEnd))
    have ends := place.endTimeNS ready.steady parentEnd parentEnd
    rw [Tree.endTimeNS, adjustTimestampsDfs_result] at ends
    simp only [Tree.result] at ends
    have least := ready.steady.least
    rw [Ready] at ready
    obtain ⟨lower, upper⟩ := place
    simp only [Tree.result] at upper least
    rw [adjustTimestampsDfs, Nests] at nests
    rw [adjustTimestampsDfs, Keeps] at keeps
    obtain ⟨all, bounds⟩ := allWide_of_nestsIn (r'.setStart start).startTimeNs
      ((r'.setStart start).endTimeNS parentEnd) ready.2
      (by rwa [Result.setStart_startTimeNs]) (by omega) nests.2 keeps.2
    rw [Wide]
    cases children' with
    | nil => exact ⟨by rwa [durations], by rw [durations]; omega, all⟩
    | cons child' later =>
      obtain ⟨after, before⟩ := bounds (List.cons_ne_nil child' later)
      rw [Result.setStart_startTimeNs] at after
      have := Int.bmod_lt (x := durations (child' :: later)) (m := 2 ^ 32) (by omega)
      exact ⟨by omega, by omega, all⟩

theorem allWide_of_nestsIn (least endTime : Time) : ∀ {ts ts' : List Tree} {start : Time},
    AllReady ts ts' → -2 ^ 62 ≤ least.toInt → endTime.toInt < 2 ^ 63 - 2 ^ 31 →
      NestsIn least endTime (adjustChildren (some endTime) start ts') →
      KeepsAll (some endTime) ts (adjustChildren (some endTime) start ts') →
      AllWide ts' ∧ (ts' ≠ [] → least.toInt ≤ start.toInt ∧
        start.toInt + durations ts' ≤ endTime.toInt)
  | [], [], _, _, _, _, _, _ => ⟨trivial, fun never => absurd rfl never⟩
  | t :: ts, t' :: ts', start, ready, lower, upper, nests, keeps => by
    rw [AllReady] at ready
    rw [adjustChildren, NestsIn] at nests
    rw [adjustChildren, KeepsAll] at keeps
    obtain ⟨⟨after, inside⟩, own, others⟩ := nests
    rw [adjustTimestampsDfs_start, Int64.le_iff_toInt_le] at after
    have place := Place.of_inside ready.1 (by omega) upper inside keeps.1
    have ends := place.endTimeNS ready.1.steady (some endTime) (some endTime)
    have wide := wide_of_nests (some endTime) ready.1 place own keeps.1
    obtain ⟨all, bounds⟩ := allWide_of_nestsIn least endTime ready.2 lower upper others keeps.2
    rw [Int64.le_iff_toInt_le] at inside
    rw [AllWide, durations]
    refine ⟨⟨wide, all⟩, fun _ => ⟨after, ?_⟩⟩
    cases ts' with
    | nil =>
      rw [durations]
      omega
    | cons next later =>
      obtain ⟨_, before⟩ := bounds (List.cons_ne_nil next later)
      omega

end

/-! ### The forest -/

/-- The start of a root is its own one, or the end of the root before it. -/
def rootStart (root : Result) (minStartTime : Time) : Time :=
  max (if root.isVulkan then minTime else root.startTimeNs) minStartTime

theorem rootStart_cases (root : Result) (minStartTime : Time) :
    minStartTime ≤ rootStart root minStartTime ∧
      (rootStart root minStartTime = minStartTime ∨
        rootStart root minStartTime = root.startTimeNs) := by
  have either (a b : Time) : b ≤ max a b ∧ (max a b = b ∨ max a b = a) := by
    by_cases ordered : a ≤ b
    · have same : max a b = b := if_pos ordered
      exact ⟨by rw [same]; exact Int64.le_refl b, .inl same⟩
    · have same : max a b = a := if_neg ordered
      exact ⟨by rw [same]; exact (Int64.le_total a b).resolve_left ordered, .inr same⟩
  unfold rootStart
  split
  · have same : max minTime minStartTime = minStartTime :=
      if_pos (Int64.minValue_le minStartTime)
    exact ⟨(either _ _).1, .inl same⟩
  · exact either root.startTimeNs minStartTime

/-- The root with its new duration, and the place that it gets. -/
theorem root_placed {limit : Int} (small : limit < 2 ^ 62) {root : Tree} {roots : List Tree}
    {minStartTime : Time} (within : Within limit (events (root :: roots)))
    (room : ∀ event ∈ events (root :: roots),
      event.startTimeNs.toInt + total (events (root :: roots)) < 2 ^ 63 - 2 ^ 31)
    (lower : -2 ^ 62 ≤ minStartTime.toInt)
    (upper : minStartTime.toInt + total (events (root :: roots)) < 2 ^ 63 - 2 ^ 31) :
    Place (rootStart root.result minStartTime) (adjustDurationsDfs none root).1 ∧
      (rootStart root.result minStartTime).toInt +
          (adjustDurationsDfs none root).1.result.duration + total (events roots) <
        2 ^ 63 - 2 ^ 31 := by
  rw [events] at within room upper
  have widened := adjustDurationsDfs_widens small none root within.append.1
  have least := Timed.total_nonneg within.append.2.timed
  have below := widened.below
  have most := widened.most
  have own : root.result ∈ root.events := by
    cases root
    exact List.mem_cons_self
  have present := List.mem_append_left (events roots) own
  have started := (within.timed root.result present).start
  have ahead := room root.result present
  rw [total_append] at upper ahead
  rcases (rootStart_cases root.result minStartTime).2 with same | same
  · rw [same]
    exact ⟨⟨lower, by omega⟩, by omega⟩
  · rw [same]
    exact ⟨⟨started, by omega⟩, by omega⟩

theorem adjustTimestamps_cons {limit : Int} (small : limit < 2 ^ 62) {root : Tree}
    (within : Within limit root.events) (minStartTime : Time) (roots : List Tree) :
    adjustTimestamps minStartTime (root :: roots) =
      let adjusted := adjustTimestampsDfs none (rootStart root.result minStartTime)
        (adjustDurationsDfs none root).1
      adjusted :: adjustTimestamps (adjusted.endTimeNS none) roots := by
  have widened := adjustDurationsDfs_widens small none root within
  rw [adjustTimestamps, rootStart, widened.vulkan, widened.start]
  rfl

theorem adjustTimestamps_nests {limit : Int} (small : limit < 2 ^ 62) :
    ∀ {roots : List Tree} {minStartTime : Time}, Within limit (events roots) →
      (∀ event ∈ events roots,
        event.startTimeNs.toInt + total (events roots) < 2 ^ 63 - 2 ^ 31) →
      -2 ^ 62 ≤ minStartTime.toInt →
      minStartTime.toInt + total (events roots) < 2 ^ 63 - 2 ^ 31 →
      ((∀ root ∈ adjustTimestamps minStartTime roots, Nests none root) ∧
        KeepsAll none roots (adjustTimestamps minStartTime roots) ↔ AllFit roots) ∧
      (adjustTimestamps minStartTime roots).Pairwise (Apart none) ∧
      ∀ root ∈ adjustTimestamps minStartTime roots, minStartTime ≤ root.startTimeNs
  | [], _, _, _, _, _ => by simp [adjustTimestamps, KeepsAll, AllFit]
  | root :: roots, minStartTime, within, room, lower, upper => by
    obtain ⟨place, ahead⟩ := root_placed small within room lower upper
    rw [events] at within room upper
    have widened := adjustDurationsDfs_widens small none root within.append.1
    have steady := widened.ready.steady
    have ends := place.endTimeNS steady none none
    have least := steady.least
    have rest := @adjustTimestamps_nests _ small roots
      ((adjustTimestampsDfs none (rootStart root.result minStartTime)
        (adjustDurationsDfs none root).1).endTimeNS none)
      within.append.2 ?_ (by have := place.lower; omega) (by omega)
    · obtain ⟨fitting, apart, later⟩ := rest
      have after := (rootStart_cases root.result minStartTime).1
      rw [adjustTimestamps_cons small within.append.1]
      refine ⟨?_, List.pairwise_cons.mpr ⟨?_, apart⟩, ?_⟩
      · rw [List.forall_mem_cons, KeepsAll, AllFit, ← fitting, ← widened.wide]
        constructor
        · rintro ⟨⟨own, others⟩, kept, keeps⟩
          exact ⟨wide_of_nests none widened.ready place own kept, others, keeps⟩
        · rintro ⟨wide, others, keeps⟩
          obtain ⟨own, kept⟩ := nests_of_wide none widened.ready place wide
          exact ⟨⟨own, others⟩, kept, keeps⟩
      · intro other member
        exact .inl (later other member)
      · intro other member
        rcases List.mem_cons.mp member with rfl | member
        · rwa [adjustTimestampsDfs_start]
        · have behind := later other member
          rw [Int64.le_iff_toInt_le] at after behind ⊢
          omega
    · intro event member
      have := room event (List.mem_append_right root.events member)
      rw [total_append] at this
      have := Timed.total_nonneg within.append.1.timed
      omega

/-- The adjusted times nest, keep the siblings apart and lose no time exactly if the times that
the children of each event need fit into the `int` that adds them up. -/
theorem adjustTimestamps_iff (roots : List Tree) (first : Result) (present : first ∈ events roots)
    (measured : Measured roots) :
    Adjusted roots (adjustTimestamps first.startTimeNs roots) ↔ AllFit roots := by
  obtain ⟨timed, most, room⟩ := measured
  have within : Within (total (events roots)) (events roots) :=
    ⟨timed, fun event member => by have := room event member; omega, le_refl _⟩
  obtain ⟨fitting, apart, _⟩ := adjustTimestamps_nests most within room
    (timed first present).start (room first present)
  rw [← fitting]
  constructor
  · rintro ⟨nests, _, keeps⟩
    exact ⟨nests, keeps⟩
  · rintro ⟨nests, keeps⟩
    exact ⟨nests, apart, keeps⟩

/-- An operator with two children, of which the second one is longer than it. -/
def threeOperators : List Tree :=
  let operator (start endTime : Time) : Result :=
    { startTimeNs := start, startTid := 1, extraFields := .torchOp 0 endTime, finished := true }
  [.node (operator 0 10) [.node (operator 1 5) [], .node (operator 3 20) []]]

theorem threeOperators_adjusted :
    Adjusted threeOperators (adjustTimestamps 0 threeOperators) := by
  refine (adjustTimestamps_iff threeOperators _ List.mem_cons_self ⟨?_, ?_, ?_⟩).mpr ?_
  · intro event member
    simp only [threeOperators, events, Tree.events, List.append_nil, List.mem_cons,
      List.cons_append, List.nil_append, List.not_mem_nil, or_false] at member
    rcases member with rfl | rfl | rfl
    all_goals exact ⟨.inl rfl, rfl, by decide, by decide⟩
  · decide
  · decide
  · simp only [threeOperators, AllFit, Tree.Fits, widths, Tree.width, and_true]
    decide

/-- An operator whose child is widened to three seconds. -/
def longChild : List Tree :=
  let operator (start endTime : Time) : Result :=
    { startTimeNs := start, startTid := 1, extraFields := .torchOp 0 endTime, finished := true }
  [.node (operator 0 10) [.node (operator 0 3000000000) []]]

/-- The sum of the durations turns negative: the child starts behind the end of its parent. -/
theorem longChild_outside : ¬ Adjusted longChild (adjustTimestamps 0 longChild) := by
  intro adjusted
  have nests := adjusted.nests _ List.mem_cons_self
  have inside : (1294967306 : Time) ≤ 10 := nests.2.1.2
  exact absurd inside (by decide)

end TorchGcu.EventTree

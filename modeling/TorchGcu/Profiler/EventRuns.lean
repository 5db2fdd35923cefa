import TorchGcu.Profiler.EventInvariant

/-! What holds in every state of every run of the replay. -/
namespace TorchGcu.EventTree

section Queue
variable {count : Nat} {init : Nat → Result} {frames : Nat → List Nat} {s : State}

/-- The ends in the queue never change. -/
theorem Inv.told (inv : Inv count init frames s) {e : Nat} (member : e ∈ s.endEvents) :
    endTimeNS (enoughFuel count) s.results e = .ok (init e).endTime := by
  obtain ⟨-, -, later⟩ := inv.ends e member
  have ends : (s.results e).endTime ≠ minTime := by
    rw [inv.links.endTime]
    exact ne_minTime later
  rw [enoughFuel, endTimeNS_own (Result.borrows_false ends), inv.links.endTime, Result.validEnd,
    inv.links.startTimeNs]
  simp [Int64.le_of_lt later]

/-- A queue that is not empty has a top. -/
theorem exists_first (ends : Nat → Time) (events : List Nat) (some : events ≠ []) :
    ∃ top ∈ events, ∀ other ∈ events, ends top ≤ ends other := by
  induction events with
  | nil => exact absurd rfl some
  | cons e events ih =>
    by_cases last : events = []
    · subst last
      refine ⟨e, List.mem_cons_self, fun other member => ?_⟩
      rw [List.mem_singleton.mp member]
      exact Int64.le_refl _
    · obtain ⟨top, member, first⟩ := ih last
      rcases Int64.le_total (ends e) (ends top) with before | after
      · refine ⟨e, List.mem_cons_self, fun other member => ?_⟩
        rcases List.mem_cons.mp member with rfl | member
        · exact Int64.le_refl _
        · exact Int64.le_trans before (first other member)
      · refine ⟨top, List.mem_cons_of_mem _ member, fun other member => ?_⟩
        rcases List.mem_cons.mp member with rfl | member
        · exact after
        · exact first other member

theorem Inv.exists_top (inv : Inv count init frames s) (some : s.endEvents ≠ []) :
    ∃ top, s.IsTop (enoughFuel count) top := by
  obtain ⟨top, member, first⟩ := exists_first (fun e => (init e).endTime) s.endEvents some
  refine ⟨top, member, fun other inQueue => ?_⟩
  simp only [State.resultGreater, inv.told member, inv.told inQueue]
  simpa using Int64.not_lt.mpr (first other inQueue)

/-- The loop goes on until it finishes. -/
theorem Inv.goesOn (inv : Inv count init frames s) : ∃ action, Takes count s action := by
  by_cases ended : ∃ top, s.IsTop (enoughFuel count) top ∧ (s.next < count →
      s.endsBefore (enoughFuel count) top (s.results s.next).startTimeNs = true)
  · obtain ⟨top, isTop, before⟩ := ended
    exact ⟨.pop top, inv.building, isTop, before⟩
  · by_cases inside : s.next < count
    · refine ⟨.push s.next, inv.building, inside, rfl, fun top isTop => ?_⟩
      rw [← Bool.not_eq_true]
      exact fun before => ended ⟨top, isTop, fun _ => before⟩
    · have last : s.next = count := Nat.le_antisymm inv.bound (Nat.not_lt.mp inside)
      refine ⟨.finish, inv.building, last, ?_⟩
      by_contra some
      obtain ⟨top, isTop⟩ := inv.exists_top some
      exact ended ⟨top, isTop, fun more => absurd more inside⟩

end Queue

/-- What is left to do. -/
def remaining (count : Nat) (s : State) : Nat :=
  2 * (count - s.next) + s.endEvents.length + if s.building then 1 else 0

section Act
variable {count : Nat} {init : Nat → Result} {frames : Nat → List Nat} {s : State}

theorem Inv.act_pop (inv : Inv count init frames s) {event : Nat}
    (takes : Takes count s (.pop event)) : ∃ s' frames', act count s (.pop event) = .ok s' ∧
      Inv count init frames' s' ∧ remaining count s' < remaining count s := by
  obtain ⟨-, ⟨member, -⟩, -⟩ := takes
  have shorter : (s.endEvents.erase event).length < s.endEvents.length := by
    rw [List.length_erase_of_mem member]
    exact Nat.sub_one_lt (Nat.ne_of_gt (List.length_pos_of_mem member))
  cases finished : (s.results event).finished with
  | true =>
    refine ⟨_, frames, ?_, inv.pop_finished finished, ?_⟩
    · simp [act, State.popEvent, finished, Except.map]
    · simp only [remaining]
      omega
  | false =>
    obtain ⟨above, below, split⟩ := inv.split member finished
    obtain ⟨-, queue, next, building, -⟩ := s.markAll_kept (above ++ [event])
    refine ⟨_, _, ?_, inv.pop member split, ?_⟩
    · simp only [act, inv.popEvent member split, Except.map, State.setFrame, queue]
    · simp only [remaining, State.setFrame, next, building]
      omega

theorem Inv.act_push (inv : Inv count init frames s) (prepared : Prepared count init)
    {event : Nat} (takes : Takes count s (.push event)) :
    ∃ s' frames', act count s (.push event) = .ok s' ∧ Inv count init frames' s' ∧
      remaining count s' < remaining count s ∧ Pushed s s' := by
  obtain ⟨-, inside, rfl, -⟩ := takes
  obtain ⟨s', frames', ok, after, pushed⟩ := inv.push prepared inside
  refine ⟨{ s' with next := s.next + 1 }, frames', by simp [act, ok, Except.map], after, ?_,
    ⟨pushed.stackOf, pushed.finished, pushed.kept, pushed.parent, pushed.endEvents⟩⟩
  have length := pushed.endEvents
  have building : s'.building = s.building := after.building.trans inv.building.symm
  simp only [remaining, building]
  omega

/-- What is left when the loop has ended. -/
def finish (count : Nat) (s : State) : State :=
  { s with results := setInTreeBuilding count s.results false, building := false }

end Act

/-- The states of runs: in the loop and behind it. -/
inductive Reached (count : Nat) (init : Nat → Result) : State → Prop where
  | inside {s : State} {frames : Nat → List Nat} : Inv count init frames s → Reached count init s
  | done {s : State} {frames : Nat → List Nat} : Inv count init frames s → s.next = count →
      s.endEvents = [] → Reached count init (finish count s)

theorem Inv.start {results : Nat → Result} (prepared : Prepared count results) :
    Inv count (setInTreeBuilding count results true) (fun _ => []) (begin count results) where
  building := rfl
  bound := Nat.zero_le _
  links := Links.start (prepared.setInTreeBuilding true)
  path _ := trivial
  apart _ := List.Pairwise.nil
  own _ _ member := absurd member List.not_mem_nil
  unfinished _ before := absurd before (Nat.not_lt_zero _)
  queued _ before := absurd before (Nat.not_lt_zero _)
  ends _ member := absurd member List.not_mem_nil
  pending _ _ := rfl
  finished _ := by simp [begin]
  marks := ⟨List.nodup_nil, fun _ member => absurd member List.not_mem_nil⟩
  stackOf _ _ top := by cases top

theorem Run.reached {count : Nat} {results : Nat → Result} {Meets : State → Action → Prop}
    {s : State} (prepared : Prepared count results) (run : Run count results Meets s) :
    Reached count (setInTreeBuilding count results true) s := by
  induction run with
  | begin => exact .inside (Inv.start prepared)
  | @next s s' action _ takes _ acted ih =>
    have building : s.building = true := by
      cases action with
      | pop event => exact takes.1
      | push event => exact takes.1
      | finish => exact takes.1
    cases ih with
    | done => simp [finish] at building
    | @inside _ frames inv =>
      cases action with
      | pop event =>
        obtain ⟨after, frames', ok, inv, -⟩ := inv.act_pop takes
        obtain rfl := Except.ok.inj (ok.symm.trans acted)
        exact .inside inv
      | push event =>
        obtain ⟨after, frames', ok, inv, -⟩ := inv.act_push (prepared.setInTreeBuilding true) takes
        obtain rfl := Except.ok.inj (ok.symm.trans acted)
        exact .inside inv
      | finish =>
        cases acted
        exact .done inv takes.2.1 takes.2.2

/-- What holds in every state of every run of `build_tree`. -/
structure Sound (count : Nat) (results : Nat → Result) (s : State) : Prop where
  /-- The loop does not get stuck before its end. -/
  goesOn : s.building = true → ∃ action, Takes count s action
  /-- No action fails, and no run is infinite. -/
  succeeds : ∀ action, Takes count s action →
    ∃ s', act count s action = .ok s' ∧ remaining count s' < remaining count s
  /-- The ends in the queue can be compared. -/
  compares : ∀ e ∈ s.endEvents, ∃ t, endTimeNS (enoughFuel count) s.results e = .ok t
  forest : Forest s.results
  /-- An event is marked at most once, and only if it was not finished before. -/
  marks : ∀ e, s.marks.count e ≤ 1 ∧ (e ∈ s.marks → e < count ∧ (results e).finished = false)
  finished : ∀ e, (s.results e).finished = true ↔ (results e).finished = true ∨ e ∈ s.marks
  /-- At the end the events with an end have been marked. -/
  complete : s.building = false → ∀ e < count, (results e).finished = false →
    ((begin count results).results e).endTime ≠ minTime → s.marks.count e = 1

theorem finished_start (count : Nat) (results : Nat → Result) (value : Bool) (e : Nat) :
    (setInTreeBuilding count results value e).finished = (results e).finished :=
  (setInTreeBuilding_kept count results value e).2.2.1

theorem Inv.marks_sound {count : Nat} {results : Nat → Result} {frames : Nat → List Nat}
    {s : State} (inv : Inv count (setInTreeBuilding count results true) frames s) (e : Nat) :
    s.marks.count e ≤ 1 ∧ (e ∈ s.marks → e < count ∧ (results e).finished = false) := by
  refine ⟨List.nodup_iff_count_le_one.mp inv.marks.1 e, fun member => ?_⟩
  obtain ⟨before, fresh⟩ := inv.marks.2 e member
  rw [finished_start] at fresh
  exact ⟨Nat.lt_of_lt_of_le before inv.bound, fresh⟩

theorem Reached.sound {count : Nat} {results : Nat → Result} {s : State}
    (prepared : Prepared count results)
    (reached : Reached count (setInTreeBuilding count results true) s) :
    Sound count results s := by
  have start := prepared.setInTreeBuilding true
  cases reached with
  | inside inv =>
    refine ⟨fun _ => inv.goesOn, fun action takes => ?_, fun e member => ⟨_, inv.told member⟩,
      inv.links.forest start.forest, inv.marks_sound, fun e => ?_, fun done => ?_⟩
    · cases action with
      | pop event =>
        obtain ⟨s', -, ok, -, less⟩ := inv.act_pop takes
        exact ⟨s', ok, less⟩
      | push event =>
        obtain ⟨s', -, ok, -, less, -⟩ := inv.act_push start takes
        exact ⟨s', ok, less⟩
      | finish =>
        refine ⟨_, rfl, ?_⟩
        simp [remaining, takes.1]
    · rw [inv.finished, finished_start]
    · rw [inv.building] at done
      cases done
  | @done s _ inv last empty =>
    have kept := setInTreeBuilding_kept count s.results false
    refine ⟨fun building => by simp [finish] at building, fun action takes => ?_,
      fun e member => ?_, ?_, inv.marks_sound, fun e => ?_, fun _ e inside fresh ends => ?_⟩
    · cases action with
      | pop event => simp [Takes, finish] at takes
      | push event => simp [Takes, finish] at takes
      | finish => simp [Takes, finish] at takes
    · have member : e ∈ s.endEvents := member
      simp [empty] at member
    · exact (inv.links.forest start.forest).congr (fun e => (kept e).1) (fun e => (kept e).2.1)
    · have now := inv.finished e
      rw [finished_start] at now
      exact (iff_of_eq (congrArg (· = true) (kept e).2.2.1)).trans now
    · -- an event that is not finished would wait in the queue
      have marked : e ∈ s.marks := by
        by_contra unmarked
        have unfinished : (s.results e).finished = false := by
          rw [← Bool.not_eq_true, inv.finished, finished_start, fresh]
          simpa using unmarked
        have waiting := inv.queued e (lt_of_lt_of_eq inside last.symm) unfinished ends
        simp [empty] at waiting
      exact List.count_eq_one_of_mem inv.marks.1 marked

end TorchGcu.EventTree

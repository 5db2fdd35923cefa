import TorchGcu.Profiler.EventTree
import Mathlib.Data.List.Nodup

/-! The frames of the threads in a replay, and what an end does to them. -/
namespace TorchGcu.EventTree

/-! ### Marking -/

section EndTime
variable {fuel event : Nat} {results : Nat → Result} {t : Time}

theorem Result.borrows_false {r : Result} (ends : r.endTime ≠ minTime) : r.borrows = false := by
  simp [Result.borrows, ends]

theorem endTimeNS_own (own : (results event).borrows = false) :
    endTimeNS (fuel + 1) results event =
      .ok ((results event).validEnd (results event).endTime) := by
  simp only [endTimeNS]
  cases (results event).parent <;> simp [own]

theorem endTimeNS_unfinished (unfinished : (results event).finished = false) :
    endTimeNS (fuel + 1) results event = .ok (results event).endTime := by
  rw [endTimeNS_own (by simp [Result.borrows, unfinished]), Result.validEnd, unfinished]
  rfl

/-- What is told as the end of a finished event is not before its start. -/
theorem start_le_validEnd {r : Result} (finished : r.finished = true) :
    r.startTimeNs ≤ r.validEnd t := by
  unfold Result.validEnd
  split
  · rename_i valid
    simpa [finished] using valid
  · exact Int64.le_refl _

theorem endTimeNS_borrowed {parent : Nat} (below : (results event).parent = some parent)
    (borrows : (results event).borrows = true) : endTimeNS (fuel + 1) results event =
      (endTimeNS fuel results parent).map (results event).validEnd := by
  simp [endTimeNS, below, borrows]

theorem start_le_end (finished : (results event).finished = true)
    (told : endTimeNS fuel results event = .ok t) : (results event).startTimeNs ≤ t := by
  cases fuel with
  | zero => cases told
  | succ fuel =>
    cases below : (results event).parent with
    | none =>
      simp only [endTimeNS, below] at told
      cases told
      exact start_le_validEnd finished
    | some parent =>
      cases borrows : (results event).borrows with
      | false =>
        rw [endTimeNS_own borrows] at told
        cases told
        exact start_le_validEnd finished
      | true =>
        rw [endTimeNS_borrowed below borrows] at told
        cases lent : endTimeNS fuel results parent with
        | error failure =>
          rw [lent] at told
          cases told
        | ok borrowed =>
          rw [lent] at told
          cases told
          exact start_le_validEnd finished

end EndTime

namespace State
variable {fuel event : Nat} {s : State}

theorem mark_results (s : State) (event e : Nat) : (s.mark event).results e =
    if e = event then { s.results e with finished := true } else s.results e := by
  by_cases same : e = event
  · subst same
    simp [mark, setResult]
  · simp [mark, setResult, same]

theorem markFinished_ok {t : Time} (unfinished : (s.results event).finished = false)
    (told : endTimeNS fuel (s.mark event).results event = .ok t) :
    s.markFinished fuel event = .ok (s.mark event) := by
  have marked : (s.mark event).results event = { s.results event with finished := true } := by
    rw [mark_results, if_pos rfl]
  have later := start_le_end (by rw [marked]) told
  rw [marked] at later
  simp [markFinished, unfinished, told, bind, Except.bind, later, pure, Except.pure]

/-- An event that has an end can be marked. -/
theorem markFinished_end (unfinished : (s.results event).finished = false)
    (ends : (s.results event).endTime ≠ minTime) :
    s.markFinished (fuel + 1) event = .ok (s.mark event) := by
  refine markFinished_ok unfinished (endTimeNS_own (Result.borrows_false ?_))
  rw [mark_results, if_pos rfl]
  exact ends

/-- An event below an unfinished one can be marked, with an end or without. -/
theorem markFinished_below {parent : Nat} (unfinished : (s.results event).finished = false)
    (below : (s.results event).parent = some parent) (apart : parent ≠ event)
    (above : (s.results parent).finished = false) :
    s.markFinished (fuel + 2) event = .ok (s.mark event) := by
  have lent : endTimeNS (fuel + 1) (s.mark event).results parent =
      .ok (s.results parent).endTime := by
    have same : (s.mark event).results parent = s.results parent := by
      rw [mark_results, if_neg apart]
    rw [endTimeNS_unfinished (by rw [same, above]), same]
  cases borrows : ((s.mark event).results event).borrows with
  | false => exact markFinished_ok unfinished (endTimeNS_own borrows)
  | true =>
    have parents : ((s.mark event).results event).parent = some parent := by
      rw [mark_results, if_pos rfl]
      exact below
    refine markFinished_ok (t := ((s.mark event).results event).validEnd
      (s.results parent).endTime) unfinished ?_
    rw [endTimeNS_borrowed parents borrows, lent]
    rfl

/-- Several events are marked one after another. -/
def markAll (s : State) (events : List Nat) : State := events.foldl mark s

theorem markAll_results (events : List Nat) (s : State) (e : Nat) :
    (s.markAll events).results e =
      if e ∈ events then { s.results e with finished := true } else s.results e := by
  induction events generalizing s with
  | nil => simp [markAll]
  | cons event events ih =>
    rw [markAll, List.foldl_cons, ← markAll, ih, mark_results]
    by_cases same : e = event
    · simp [same]
    · simp [same]

theorem markAll_finished (events : List Nat) (s : State) (e : Nat) :
    ((s.markAll events).results e).finished = true ↔
      (s.results e).finished = true ∨ e ∈ events := by
  rw [markAll_results]
  by_cases member : e ∈ events
  · simp [member]
  · simp [member]

theorem markAll_unfinished (events : List Nat) (s : State) (e : Nat) :
    ((s.markAll events).results e).finished = false ↔
      (s.results e).finished = false ∧ e ∉ events := by
  rw [← Bool.not_eq_true, markAll_finished, not_or, Bool.not_eq_true]

theorem markAll_kept (events : List Nat) (s : State) : (s.markAll events).stackOf = s.stackOf ∧
    (s.markAll events).endEvents = s.endEvents ∧ (s.markAll events).next = s.next ∧
    (s.markAll events).building = s.building ∧ (s.markAll events).marks = s.marks ++ events := by
  induction events generalizing s with
  | nil => simp [markAll]
  | cons event events ih =>
    obtain ⟨stackOf, endEvents, next, building, marks⟩ := ih (s.mark event)
    exact ⟨stackOf, endEvents, next, building, by
      rw [markAll, List.foldl_cons, ← markAll, marks, mark, List.append_assoc]
      rfl⟩

theorem markAll_snoc (events : List Nat) (s : State) (event : Nat) :
    (s.markAll events).mark event = s.markAll (events ++ [event]) := by
  simp [markAll]

end State

/-! ### The frames of a thread -/

/-- The list goes from a frame up through the parents. -/
def Path (results : Nat → Result) : Option Nat → List Nat → Prop
  | _, [] => True
  | frame, event :: events => frame = some event ∧ Path results (results event).parent events

theorem Path.congr {results results' : Nat → Result} {frame : Option Nat} {events : List Nat}
    (same : ∀ e ∈ events, (results' e).parent = (results e).parent)
    (path : Path results frame events) : Path results' frame events := by
  induction events generalizing frame with
  | nil => trivial
  | cons event events ih =>
    obtain ⟨top, rest⟩ := path
    refine ⟨top, ?_⟩
    rw [same event List.mem_cons_self]
    exact ih (fun e member => same e (List.mem_cons_of_mem _ member)) rest

/-- The path goes on behind an event of it. -/
theorem Path.below {results : Nat → Result} {frame : Option Nat} {above below : List Nat}
    {event : Nat} (path : Path results frame (above ++ event :: below)) :
    Path results (results event).parent below := by
  induction above generalizing frame with
  | nil => exact path.2
  | cons first above ih => exact ih path.2

namespace State
variable {fuel : Nat}

theorem unwind_path {steps frame event : Nat} {above below : List Nat} {s : State}
    (path : Path s.results (some frame) (above ++ event :: below))
    (apart : (above ++ [event]).Nodup)
    (unfinished : ∀ e ∈ above ++ [event], (s.results e).finished = false)
    (enough : above.length < steps) :
    unwind (fuel + 2) steps s frame event = .ok (s.markAll above) := by
  induction above generalizing s frame steps with
  | nil =>
    obtain ⟨steps, rfl⟩ := Nat.exists_eq_succ_of_ne_zero (Nat.ne_of_gt enough)
    obtain rfl := Option.some.inj path.1
    simp [unwind, markAll]
  | cons first above ih =>
    obtain ⟨steps, rfl⟩ := Nat.exists_eq_succ_of_ne_zero (Nat.ne_of_gt (Nat.zero_lt_of_lt enough))
    obtain ⟨top, rest⟩ := path
    obtain rfl := Option.some.inj top
    rw [List.cons_append, List.nodup_cons] at apart
    have other : frame ≠ event := by
      rintro rfl
      exact apart.1 (List.mem_append_right _ (List.mem_singleton_self _))
    -- the next frame is unfinished, so that the end of this one is known
    obtain ⟨parent, next, member⟩ : ∃ parent, (s.results frame).parent = some parent ∧
        parent ∈ above ++ [event] := by
      cases above with
      | nil => exact ⟨event, rest.1, List.mem_singleton_self _⟩
      | cons second above => exact ⟨second, rest.1, List.mem_cons_self⟩
    have parentApart : parent ≠ frame := by
      rintro rfl
      exact apart.1 member
    have marked := @markFinished_below fuel _ _ _ (unfinished frame List.mem_cons_self) next
      parentApart (unfinished parent (List.mem_cons_of_mem _ member))
    have parents : ((s.mark frame).results frame).parent = some parent := by
      rw [mark_results, if_pos rfl]
      exact next
    have outside : ∀ e ∈ above ++ [event], (s.mark frame).results e = s.results e := by
      intro e inside
      rw [mark_results, if_neg]
      rintro rfl
      exact apart.1 inside
    have path : Path (s.mark frame).results (some parent) (above ++ event :: below) := by
      rw [← next]
      refine Path.congr (fun e _ => ?_) rest
      rw [mark_results]
      split <;> rfl
    have unwound := ih path apart.2 (fun e inside => by
      rw [outside e inside]
      exact unfinished e (List.mem_cons_of_mem _ inside)) (Nat.lt_of_succ_lt_succ enough)
    simp only [unwind, if_neg other, marked, bind, Except.bind, parents]
    exact unwound

theorem popEvent_path {event : Nat} {above below : List Nat} {s : State}
    (path : Path s.results (s.stackOf (s.results event).startTid) (above ++ event :: below))
    (apart : (above ++ [event]).Nodup)
    (unfinished : ∀ e ∈ above ++ [event], (s.results e).finished = false)
    (ends : (s.results event).endTime ≠ minTime) (enough : above.length < fuel + 2) :
    s.popEvent (fuel + 2) event = .ok ((s.markAll (above ++ [event])).setFrame
      (s.results event).startTid (s.results event).parent) := by
  have own := unfinished event (List.mem_append_right _ (List.mem_singleton_self _))
  have outside : event ∉ above := fun member =>
    (List.nodup_append.mp apart).2.2 event member event (List.mem_singleton_self _) rfl
  have kept : (s.markAll above).results event = s.results event := by
    rw [markAll_results, if_neg outside]
  have last := @markFinished_end (fuel + 1) event (s.markAll above)
    (by rw [kept, own]) (by rw [kept]; exact ends)
  obtain ⟨frame, top⟩ : ∃ frame, s.stackOf (s.results event).startTid = some frame := by
    cases above with
    | nil => exact ⟨event, path.1⟩
    | cons first above => exact ⟨first, path.1⟩
  rw [top] at path
  have marked : ((s.markAll (above ++ [event])).results event).parent =
      (s.results event).parent := by
    rw [markAll_results]
    split <;> rfl
  simp only [popEvent, own, top, unwind_path path apart unfinished enough, bind, Except.bind, last,
    markAll_snoc, marked]
  rfl

end State
end TorchGcu.EventTree

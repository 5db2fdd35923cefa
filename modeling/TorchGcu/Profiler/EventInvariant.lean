import Mathlib.Data.List.Perm.Subperm
import TorchGcu.Profiler.EventForest

/-! The invariant of the replay, and what an end and a start do to it. -/
namespace TorchGcu.EventTree

/-- The unfinished events of a thread are the first frames of its stack, from the last on. -/
structure Inv (count : Nat) (init : Nat → Result) (frames : Nat → List Nat) (s : State) : Prop where
  building : s.building = true
  bound : s.next ≤ count
  links : Links count init s.results
  path : ∀ tid, Path s.results (s.stackOf tid) (frames tid)
  apart : ∀ tid, (frames tid).Pairwise (· > ·)
  own : ∀ tid, ∀ e ∈ frames tid,
    (init e).startTid = tid ∧ e < s.next ∧ (s.results e).finished = false
  unfinished : ∀ e < s.next, (s.results e).finished = false → e ∈ frames (init e).startTid
  queued : ∀ e < s.next, (s.results e).finished = false → (init e).endTime ≠ minTime →
    e ∈ s.endEvents
  ends : ∀ e ∈ s.endEvents,
    e < s.next ∧ (init e).finished = false ∧ (init e).startTimeNs < (init e).endTime
  pending : ∀ e, s.next ≤ e → s.results e = init e
  finished : ∀ e, (s.results e).finished = true ↔ (init e).finished = true ∨ e ∈ s.marks
  marks : s.marks.Nodup ∧ ∀ e ∈ s.marks, e < s.next ∧ (init e).finished = false
  stackOf : ∀ tid f, s.stackOf tid = some f → f < s.next ∧ (init f).finished = false

theorem minTime_le (t : Time) : minTime ≤ t := Int64.minValue_le _

/-- An event whose end comes after its start has an end. -/
theorem ne_minTime {start endTime : Time} (later : start < endTime) : endTime ≠ minTime := by
  rintro rfl
  exact absurd (minTime_le start) (Int64.not_le.mpr later)

/-- Earlier events than one are not more than its position tells. -/
theorem length_le_of_lt {events : List Nat} {bound : Nat} (apart : events.Pairwise (· > ·))
    (below : ∀ e ∈ events, e < bound) : events.length ≤ bound := by
  have distinct : events.Nodup := apart.imp Nat.ne_of_gt
  have subset : events ⊆ List.range bound := fun e member => List.mem_range.mpr (below e member)
  simpa using (List.Nodup.subperm distinct subset).length_le

section Pop
variable {count : Nat} {init : Nat → Result} {frames : Nat → List Nat} {s : State} {event : Nat}

/-- Nothing but the queue changes for an event that is finished already. -/
theorem Inv.pop_finished (inv : Inv count init frames s)
    (finished : (s.results event).finished = true) :
    Inv count init frames { s with endEvents := s.endEvents.erase event } where
  building := inv.building
  bound := inv.bound
  links := inv.links
  path := inv.path
  apart := inv.apart
  own := inv.own
  unfinished := inv.unfinished
  queued e before unfinished ends := by
    have other : e ≠ event := by
      rintro rfl
      rw [finished] at unfinished
      cases unfinished
    exact (List.mem_erase_of_ne other).mpr (inv.queued e before unfinished ends)
  ends e member := inv.ends e (List.mem_of_mem_erase member)
  pending := inv.pending
  finished := inv.finished
  marks := inv.marks
  stackOf := inv.stackOf

/-- An event that is to be popped is a frame of its thread. -/
theorem Inv.split (inv : Inv count init frames s) (member : event ∈ s.endEvents)
    (unfinished : (s.results event).finished = false) :
    ∃ above below, frames (init event).startTid = above ++ event :: below :=
  List.append_of_mem (inv.unfinished event (inv.ends event member).1 unfinished)

variable {above below : List Nat}

/-- The frames above an event, and itself. -/
theorem Inv.unwound (inv : Inv count init frames s)
    (split : frames (init event).startTid = above ++ event :: below) {e : Nat}
    (member : e ∈ above ++ [event]) :
    (init e).startTid = (init event).startTid ∧ e < s.next ∧ (s.results e).finished = false := by
  refine inv.own _ e ?_
  rw [split]
  rcases List.mem_append.mp member with above | last
  · exact List.mem_append_left _ above
  · exact List.mem_append_right _ (List.mem_singleton.mp last ▸ List.mem_cons_self)

theorem Inv.nodup_unwound (inv : Inv count init frames s)
    (split : frames (init event).startTid = above ++ event :: below) :
    (above ++ [event]).Nodup := by
  have apart := inv.apart (init event).startTid
  rw [split, List.append_cons] at apart
  exact (List.pairwise_append.mp apart).1.imp Nat.ne_of_gt

/-- The fuel is enough for the frames of a thread. -/
theorem Inv.length_above (inv : Inv count init frames s)
    (split : frames (init event).startTid = above ++ event :: below) :
    above.length < enoughFuel count := by
  have all := length_le_of_lt (inv.apart (init event).startTid) fun e member =>
    Nat.lt_of_lt_of_le (inv.own _ e member).2.1 inv.bound
  rw [split, List.length_append, List.length_cons] at all
  rw [enoughFuel]
  omega

theorem Inv.popEvent (inv : Inv count init frames s) (member : event ∈ s.endEvents)
    (split : frames (init event).startTid = above ++ event :: below) :
    s.popEvent (enoughFuel count) event = .ok ((s.markAll (above ++ [event])).setFrame
      (init event).startTid (s.results event).parent) := by
  have tid := inv.links.startTid event
  have path := inv.path (init event).startTid
  rw [split, ← tid] at path
  have ends : (s.results event).endTime ≠ minTime := by
    rw [inv.links.endTime]
    exact ne_minTime (inv.ends event member).2.2
  have popped := State.popEvent_path path (inv.nodup_unwound split)
    (fun e member => (inv.unwound split member).2.2) ends (inv.length_above split)
  rw [tid] at popped
  exact popped

theorem Inv.fresh (inv : Inv count init frames s) {e : Nat}
    (unfinished : (s.results e).finished = false) : (init e).finished = false := by
  rw [← Bool.not_eq_true]
  intro finished
  rw [(inv.finished e).mpr (.inl finished)] at unfinished
  cases unfinished

/-- What stays on the stacks is not finished with the event. -/
theorem Inv.left (inv : Inv count init frames s)
    (split : frames (init event).startTid = above ++ event :: below) {tid e : Nat}
    (left : e ∈ Function.update frames (init event).startTid below tid) :
    e ∈ frames tid ∧ e ∉ above ++ [event] := by
  by_cases own : tid = (init event).startTid
  · subst own
    rw [Function.update_self] at left
    have ordered := inv.apart (init event).startTid
    rw [split, List.append_cons] at ordered ⊢
    refine ⟨List.mem_append_right _ left, fun marked => ?_⟩
    exact Nat.lt_irrefl _ ((List.pairwise_append.mp ordered).2.2 e marked e left)
  · rw [Function.update_of_ne own] at left
    exact ⟨left, fun marked =>
      own ((inv.own tid e left).1.symm.trans (inv.unwound split marked).1)⟩

/-- A frame that is not finished with the event stays. -/
theorem Inv.stays (split : frames (init event).startTid = above ++ event :: below) {tid e : Nat}
    (frame : e ∈ frames tid) (outside : e ∉ above ++ [event]) :
    e ∈ Function.update frames (init event).startTid below tid := by
  by_cases own : tid = (init event).startTid
  · subst own
    rw [split, List.append_cons] at frame
    rw [Function.update_self]
    exact (List.mem_append.mp frame).resolve_left outside
  · rwa [Function.update_of_ne own]

/-- The events that are finished with the event were not marked before. -/
theorem Inv.marks_pop (inv : Inv count init frames s)
    (split : frames (init event).startTid = above ++ event :: below) :
    (s.marks ++ (above ++ [event])).Nodup ∧
      ∀ e ∈ s.marks ++ (above ++ [event]), e < s.next ∧ (init e).finished = false := by
  refine ⟨List.nodup_append.mpr ⟨inv.marks.1, inv.nodup_unwound split, ?_⟩, fun e member => ?_⟩
  · rintro e before _ again rfl
    have finished := (inv.finished e).mpr (.inr before)
    rw [(inv.unwound split again).2.2] at finished
    cases finished
  · rcases List.mem_append.mp member with before | now
    · exact inv.marks.2 e before
    · obtain ⟨-, before, unfinished⟩ := inv.unwound split now
      exact ⟨before, inv.fresh unfinished⟩

/-- The frame that a thread gets back started before the event. -/
theorem Inv.stack_pop (inv : Inv count init frames s) (member : event ∈ s.endEvents) {tid f : Nat}
    (top : Function.update s.stackOf (init event).startTid (s.results event).parent tid = some f) :
    f < s.next ∧ (init f).finished = false := by
  by_cases own : tid = (init event).startTid
  · subst own
    rw [Function.update_self] at top
    obtain ⟨started, fresh, -⟩ := inv.ends event member
    rcases inv.links.edges _ _ top with ⟨stale, -⟩ | ⟨-, parent, earlier⟩
    · exact absurd ⟨Nat.lt_of_lt_of_le started inv.bound, fresh⟩ stale
    · exact ⟨Nat.lt_trans earlier started, parent.2⟩
  · rw [Function.update_of_ne own] at top
    exact inv.stackOf tid f top

/-- The frames that an event leaves to its thread. -/
theorem Inv.pop (inv : Inv count init frames s) (member : event ∈ s.endEvents)
    (split : frames (init event).startTid = above ++ event :: below) :
    Inv count init (Function.update frames (init event).startTid below)
      { (s.markAll (above ++ [event])).setFrame (init event).startTid (s.results event).parent with
        endEvents := s.endEvents.erase event } := by
  obtain ⟨stackOf, -, next, building, marks⟩ := s.markAll_kept (above ++ [event])
  have results := s.markAll_results (above ++ [event])
  have unfinishedIff := s.markAll_unfinished (above ++ [event])
  have parents : ∀ e, ((s.markAll (above ++ [event])).results e).parent =
      (s.results e).parent := by
    intro e
    rw [results]
    split <;> rfl
  refine ⟨building.trans inv.building, le_of_eq_of_le next inv.bound,
    inv.links.marked _ results, fun tid => ?_, fun tid => ?_, fun tid e inFrames => ?_,
    fun e before unfinished => ?_, fun e before unfinished ends => ?_, fun e member => ?_,
    fun e after => ?_, fun e => ?_, ?_, fun tid f top => ?_⟩
  · by_cases own : tid = (init event).startTid
    · subst own
      have path := inv.path (init event).startTid
      rw [split] at path
      simpa [State.setFrame] using path.below.congr (fun e _ => parents e)
    · simpa [State.setFrame, own, stackOf] using (inv.path tid).congr (fun e _ => parents e)
  · by_cases own : tid = (init event).startTid
    · subst own
      have ordered := inv.apart (init event).startTid
      rw [split, List.append_cons] at ordered
      simpa using (List.pairwise_append.mp ordered).2.1
    · simpa [own] using inv.apart tid
  · obtain ⟨frame, outside⟩ := inv.left split inFrames
    obtain ⟨thread, before, unfinished⟩ := inv.own tid e frame
    exact ⟨thread, lt_of_lt_of_eq before next.symm, (unfinishedIff e).mpr ⟨unfinished, outside⟩⟩
  · obtain ⟨unfinished, outside⟩ := (unfinishedIff e).mp unfinished
    exact stays split (inv.unfinished e (lt_of_lt_of_eq before next) unfinished) outside
  · obtain ⟨unfinished, outside⟩ := (unfinishedIff e).mp unfinished
    have other : e ≠ event := by
      rintro rfl
      exact outside (List.mem_append_right _ (List.mem_singleton_self _))
    exact (List.mem_erase_of_ne other).mpr
      (inv.queued e (lt_of_lt_of_eq before next) unfinished ends)
  · obtain ⟨before, ends⟩ := inv.ends e (List.mem_of_mem_erase member)
    exact ⟨lt_of_lt_of_eq before next.symm, ends⟩
  · have after : s.next ≤ e := le_of_eq_of_le next.symm after
    have outside : e ∉ above ++ [event] := fun marked =>
      absurd (inv.unwound split marked).2.1 (Nat.not_lt.mpr after)
    exact ((results e).trans (if_neg outside)).trans (inv.pending e after)
  · show ((s.markAll (above ++ [event])).results e).finished = true ↔
      _ ∨ e ∈ (s.markAll (above ++ [event])).marks
    rw [s.markAll_finished, inv.finished, marks, List.mem_append (s := s.marks), or_assoc]
  · obtain ⟨once, fresh⟩ := inv.marks_pop split
    rw [← marks] at once fresh
    exact ⟨once, fun e member => ⟨lt_of_lt_of_eq (fresh e member).1 next.symm, (fresh e member).2⟩⟩
  · have top : Function.update s.stackOf (init event).startTid (s.results event).parent tid =
        some f := by simpa [State.setFrame, stackOf] using top
    obtain ⟨before, fresh⟩ := inv.stack_pop member top
    exact ⟨lt_of_lt_of_eq before next.symm, fresh⟩

end Pop

section Push
variable {count : Nat} {init : Nat → Result} {frames : Nat → List Nat} {s : State}

/-- A finished event is passed over. -/
theorem Inv.skip (inv : Inv count init frames s) (inside : s.next < count)
    (finished : (init s.next).finished = true) :
    Inv count init frames { s with next := s.next + 1 } where
  building := inv.building
  bound := inside
  links := inv.links
  path := inv.path
  apart := inv.apart
  own tid e member := by
    obtain ⟨same, before, unfinished⟩ := inv.own tid e member
    exact ⟨same, Nat.lt_succ_of_lt before, unfinished⟩
  unfinished e before unfinished := by
    rcases Nat.lt_succ_iff_lt_or_eq.mp before with before | rfl
    · exact inv.unfinished e before unfinished
    · rw [inv.pending _ (Nat.le_refl _), finished] at unfinished
      cases unfinished
  queued e before unfinished ends := by
    rcases Nat.lt_succ_iff_lt_or_eq.mp before with before | rfl
    · exact inv.queued e before unfinished ends
    · rw [inv.pending _ (Nat.le_refl _), finished] at unfinished
      cases unfinished
  ends e member := ⟨Nat.lt_succ_of_lt (inv.ends e member).1, (inv.ends e member).2⟩
  pending e after := inv.pending e (Nat.le_of_succ_le after)
  finished := inv.finished
  marks := ⟨inv.marks.1, fun e member =>
    ⟨Nat.lt_succ_of_lt (inv.marks.2 e member).1, (inv.marks.2 e member).2⟩⟩
  stackOf tid f top := ⟨Nat.lt_succ_of_lt (inv.stackOf tid f top).1, (inv.stackOf tid f top).2⟩

theorem parentFrame_stack {event parent : Nat} (found : s.parentFrame event = some parent) :
    ∃ tid, s.stackOf tid = some parent := by
  unfold State.parentFrame at found
  cases own : s.stackOf (s.results event).startTid with
  | some frame =>
    simp only [own] at found
    exact ⟨_, own.trans found⟩
  | none =>
    simp only [own] at found
    split at found
    · exact ⟨_, found⟩
    · cases found

/-- The frame of an event of a thread goes on with the stack of the thread. -/
theorem parentFrame_path {results : Nat → Result} {event : Nat} {events : List Nat}
    (path : Path results (s.stackOf (s.results event).startTid) events) :
    Path results (s.parentFrame event) events := by
  cases events with
  | nil => trivial
  | cons first events =>
    have found : s.parentFrame event = some first := by simp [State.parentFrame, path.1]
    exact ⟨found, path.2⟩

/-- The state in which the next event has its parent. -/
def attachedState (s : State) : State :=
  { s with results := attached s.results s.next (s.parentFrame s.next) }

section Attached
variable (inv : Inv count init frames s)
include inv

theorem Inv.parentFrame {parent : Nat} (found : s.parentFrame s.next = some parent) :
    parent < s.next ∧ (init parent).finished = false :=
  have ⟨tid, top⟩ := parentFrame_stack found
  inv.stackOf tid parent top

theorem Inv.attach (prepared : Prepared count init) (inside : s.next < count)
    (fresh : (init s.next).finished = false) : s.attach s.next = attachedState s := by
  refine State.attach_eq ?_ fun found => Nat.lt_irrefl _ (inv.parentFrame found).1
  rw [inv.pending _ (Nat.le_refl _)]
  exact prepared.root s.next inside fresh

theorem Inv.links_attached (prepared : Prepared count init) (inside : s.next < count)
    (fresh : (init s.next).finished = false) : Links count init (attachedState s).results := by
  refine inv.links.attached ⟨inside, fresh⟩ ?_ fun parent found => ?_
  · rw [inv.pending _ (Nat.le_refl _)]
    exact prepared.root s.next inside fresh
  · obtain ⟨before, parentFresh⟩ := inv.parentFrame found
    exact ⟨⟨Nat.lt_trans before inside, parentFresh⟩, before⟩

/-- The other paths do not meet the event. -/
theorem Inv.path_attached {frame : Option Nat} {tid : Nat}
    (path : Path s.results frame (frames tid)) :
    Path (attachedState s).results frame (frames tid) := by
  refine path.congr fun e member => ?_
  have other : e ≠ s.next := Nat.ne_of_lt (inv.own tid e member).2.1
  simp [attachedState, attached, other]

/-- A later event is left as it was. -/
theorem Inv.pending_attached {e : Nat} (after : s.next < e) :
    (attachedState s).results e = init e := by
  have other : e ≠ s.next := Nat.ne_of_gt after
  have notParent : s.parentFrame s.next ≠ some e := fun found =>
    Nat.lt_asymm after (inv.parentFrame found).1
  rw [← inv.pending e (Nat.le_of_lt after)]
  simp [attachedState, attached, other, notParent]

theorem Inv.unfinished_next (fresh : (init s.next).finished = false) :
    (s.results s.next).finished = false := by
  rw [inv.pending _ (Nat.le_refl _), fresh]

/-- The event becomes the frame of its thread. -/
theorem Inv.push_frame (prepared : Prepared count init) (inside : s.next < count)
    (fresh : (init s.next).finished = false) {endEvents : List Nat}
    (kept : ∀ e ∈ s.endEvents, e ∈ endEvents)
    (new : (init s.next).endTime ≠ minTime → s.next ∈ endEvents)
    (only : ∀ e ∈ endEvents, e ∈ s.endEvents ∨
      (e = s.next ∧ (init e).startTimeNs < (init e).endTime)) :
    Inv count init (Function.update frames (init s.next).startTid
        (s.next :: frames (init s.next).startTid))
      { (attachedState s).setFrame (init s.next).startTid (some s.next) with
        endEvents := endEvents, next := s.next + 1 } := by
  have unfinished := inv.unfinished_next fresh
  refine ⟨inv.building, inside, inv.links_attached prepared inside fresh, fun tid => ?_,
    fun tid => ?_, fun tid e member => ?_, fun e before unfinished => ?_,
    fun e before unfinished ends => ?_, fun e member => ?_,
    fun e after => inv.pending_attached after, inv.finished, ⟨inv.marks.1, fun e member => ?_⟩,
    fun tid f top => ?_⟩
  · by_cases own : tid = (init s.next).startTid
    · subst own
      have tid := inv.links.startTid s.next
      have above : ((attachedState s).results s.next).parent = s.parentFrame s.next := by
        simp [attachedState, attached]
      have path := inv.path (init s.next).startTid
      rw [← tid] at path
      have path := inv.path_attached (parentFrame_path path)
      rw [tid, ← above] at path
      simpa [State.setFrame, Path] using path
    · have kept : (attachedState s).stackOf tid = s.stackOf tid := rfl
      simpa [State.setFrame, own, kept] using inv.path_attached (inv.path tid)
  · by_cases own : tid = (init s.next).startTid
    · subst own
      rw [Function.update_self]
      exact List.pairwise_cons.mpr ⟨fun e member => (inv.own _ e member).2.1, inv.apart _⟩
    · simpa [own] using inv.apart tid
  · have frame : e = s.next ∧ (init e).startTid = tid ∨ e ∈ frames tid := by
      by_cases own : tid = (init s.next).startTid
      · subst own
        rw [Function.update_self] at member
        exact (List.mem_cons.mp member).imp_left fun same => ⟨same, same ▸ rfl⟩
      · rw [Function.update_of_ne own] at member
        exact .inr member
    rcases frame with ⟨rfl, same⟩ | member
    · exact ⟨same, Nat.lt_succ_self _, unfinished⟩
    · obtain ⟨same, before, unfinished⟩ := inv.own tid e member
      exact ⟨same, Nat.lt_succ_of_lt before, unfinished⟩
  · rcases Nat.lt_succ_iff_lt_or_eq.mp before with before | rfl
    · have frame := inv.unfinished e before unfinished
      by_cases own : (init e).startTid = (init s.next).startTid
      · rw [own] at frame ⊢
        rw [Function.update_self]
        exact List.mem_cons_of_mem _ frame
      · rwa [Function.update_of_ne own]
    · rw [Function.update_self]
      exact List.mem_cons_self
  · rcases Nat.lt_succ_iff_lt_or_eq.mp before with before | rfl
    · exact kept e (inv.queued e before unfinished ends)
    · exact new ends
  · rcases only e member with old | ⟨rfl, later⟩
    · exact ⟨Nat.lt_succ_of_lt (inv.ends e old).1, (inv.ends e old).2⟩
    · exact ⟨Nat.lt_succ_self _, fresh, later⟩
  · exact ⟨Nat.lt_succ_of_lt (inv.marks.2 e member).1, (inv.marks.2 e member).2⟩
  · by_cases own : tid = (init s.next).startTid
    · subst own
      obtain rfl : s.next = f := by simpa [State.setFrame] using top
      exact ⟨Nat.lt_succ_self _, fresh⟩
    · have top : s.stackOf tid = some f := by
        simpa [State.setFrame, own, attachedState] using top
      exact ⟨Nat.lt_succ_of_lt (inv.stackOf tid f top).1, (inv.stackOf tid f top).2⟩

/-- An event without a duration is finished at once. -/
theorem Inv.push_mark (prepared : Prepared count init) (inside : s.next < count)
    (fresh : (init s.next).finished = false) :
    Inv count init frames { (attachedState s).mark s.next with next := s.next + 1 } := by
  have results : ∀ e, ((attachedState s).mark s.next).results e =
      if e ∈ [s.next] then { (attachedState s).results e with finished := true }
      else (attachedState s).results e := by
    intro e
    rw [State.mark_results]
    simp only [List.mem_singleton]
  have finished : ∀ e, (((attachedState s).mark s.next).results e).finished = true ↔
      (s.results e).finished = true ∨ e = s.next := by
    intro e
    rw [State.mark_results]
    by_cases same : e = s.next
    · simp [same]
    · simp [same, attachedState, attached]
  have still : ∀ e, (((attachedState s).mark s.next).results e).finished = false ↔
      (s.results e).finished = false ∧ e ≠ s.next := by
    intro e
    rw [← Bool.not_eq_true, finished, not_or, Bool.not_eq_true]
  refine ⟨inv.building, inside, (inv.links_attached prepared inside fresh).marked _ results,
    fun tid => ?_, inv.apart, fun tid e member => ?_, fun e before unfinished => ?_,
    fun e before unfinished ends => ?_, fun e member => ?_, fun e after => ?_, fun e => ?_,
    ⟨?_, fun e member => ?_⟩, fun tid f top => ?_⟩
  · refine (inv.path_attached (inv.path tid)).congr fun e _ => ?_
    rw [results]
    split <;> rfl
  · obtain ⟨same, before, unfinished⟩ := inv.own tid e member
    exact ⟨same, Nat.lt_succ_of_lt before,
      (still e).mpr ⟨unfinished, Nat.ne_of_lt before⟩⟩
  · obtain ⟨unfinished, other⟩ := (still e).mp unfinished
    exact inv.unfinished e (Nat.lt_of_le_of_ne (Nat.le_of_lt_succ before) other) unfinished
  · obtain ⟨unfinished, other⟩ := (still e).mp unfinished
    exact inv.queued e (Nat.lt_of_le_of_ne (Nat.le_of_lt_succ before) other) unfinished ends
  · exact ⟨Nat.lt_succ_of_lt (inv.ends e member).1, (inv.ends e member).2⟩
  · have other : e ∉ [s.next] := by
      rw [List.mem_singleton]
      exact Nat.ne_of_gt after
    exact ((results e).trans (if_neg other)).trans (inv.pending_attached after)
  · refine ((finished e).trans (or_congr_left (inv.finished e))).trans ?_
    show _ ↔ _ ∨ e ∈ s.marks ++ [s.next]
    rw [List.mem_append, List.mem_singleton, or_assoc]
  · show (s.marks ++ [s.next]).Nodup
    refine List.nodup_append.mpr ⟨inv.marks.1, List.nodup_singleton _, ?_⟩
    rintro e before _ now rfl
    exact Nat.ne_of_lt (inv.marks.2 e before).1 (List.mem_singleton.mp now)
  · have member : e ∈ s.marks ++ [s.next] := member
    rcases List.mem_append.mp member with before | now
    · exact ⟨Nat.lt_succ_of_lt (inv.marks.2 e before).1, (inv.marks.2 e before).2⟩
    · obtain rfl := List.mem_singleton.mp now
      exact ⟨Nat.lt_succ_self _, fresh⟩
  · exact ⟨Nat.lt_succ_of_lt (inv.stackOf tid f top).1, (inv.stackOf tid f top).2⟩

end Attached

/-- What a push leaves of the stacks, the marks and the links. -/
structure Pushed (s s' : State) : Prop where
  stackOf : ∀ tid f, s'.stackOf tid = some f →
    s.stackOf tid = some f ∨
      (f = s.next ∧ (s.results f).startTid = tid ∧ (s'.results f).finished = false)
  finished : ∀ e, e ≠ s.next → (s'.results e).finished = (s.results e).finished
  kept : ∀ e, (s.results e).finished = true → (s'.results e).finished = true
  parent : ∀ e, (s'.results e).parent =
    if e = s.next ∧ (s.results e).finished = false then s.parentFrame e else (s.results e).parent
  endEvents : s'.endEvents.length ≤ s.endEvents.length + 1

theorem Pushed.self (finished : (s.results s.next).finished = true) : Pushed s s where
  stackOf _ _ top := .inl top
  finished _ _ := rfl
  kept _ finished := finished
  parent e := by
    split
    · rename_i next
      obtain ⟨rfl, unfinished⟩ := next
      rw [finished] at unfinished
      cases unfinished
    · rfl
  endEvents := Nat.le_succ _

theorem parent_attached (unfinished : (s.results s.next).finished = false) (e : Nat) :
    ((attachedState s).results e).parent =
      if e = s.next ∧ (s.results e).finished = false then s.parentFrame e
      else (s.results e).parent := by
  by_cases same : e = s.next
  · subst same
    simp [attachedState, attached, unfinished]
  · simp [attachedState, attached, same]

theorem Pushed.frame {tid : Nat} {endEvents : List Nat}
    (thread : (s.results s.next).startTid = tid)
    (unfinished : (s.results s.next).finished = false)
    (length : endEvents.length ≤ s.endEvents.length + 1) :
    Pushed s { (attachedState s).setFrame tid (some s.next) with endEvents := endEvents } where
  stackOf other f top := by
    by_cases own : other = tid
    · subst own
      obtain rfl : s.next = f := by simpa [State.setFrame] using top
      exact .inr ⟨rfl, thread, unfinished⟩
    · exact .inl (by simpa [State.setFrame, own, attachedState] using top)
  finished _ _ := rfl
  kept _ finished := finished
  parent := parent_attached unfinished
  endEvents := length

theorem Pushed.mark (unfinished : (s.results s.next).finished = false) :
    Pushed s ((attachedState s).mark s.next) where
  stackOf _ _ top := .inl top
  finished e other := by
    rw [State.mark_results, if_neg other]
    rfl
  kept e finished := by
    rw [State.mark_results]
    split
    · rfl
    · exact finished
  parent e := by
    rw [← parent_attached unfinished, State.mark_results]
    split <;> rfl
  endEvents := Nat.le_succ _

theorem Inv.push (inv : Inv count init frames s) (prepared : Prepared count init)
    (inside : s.next < count) : ∃ s' frames', s.pushEvent (enoughFuel count) s.next = .ok s' ∧
      Inv count init frames' { s' with next := s.next + 1 } ∧ Pushed s s' := by
  have same := inv.pending s.next (Nat.le_refl _)
  cases fresh : (init s.next).finished with
  | true =>
    refine ⟨s, frames, ?_, inv.skip inside fresh, .self (by rw [same, fresh])⟩
    simp [State.pushEvent, same, fresh, prepared.kineto s.next inside fresh]
  | false =>
    have children : ∀ child ∈ (init s.next).children, (s.results child).finished = true :=
      fun child member =>
        (inv.finished child).mpr (.inl (prepared.below s.next inside fresh child member))
    have below : (init s.next).children.any (fun child => !(s.results child).finished) = false := by
      simpa using children
    have pushed : s.pushEvent (enoughFuel count) s.next =
        (attachedState s).enter (enoughFuel count) s.next := by
      rw [← inv.attach prepared inside fresh]
      simp only [State.pushEvent, same, fresh, prepared.root s.next inside fresh, below]
      simp
    have links := inv.links_attached prepared inside fresh
    have unfinished := inv.unfinished_next fresh
    have unfinishedNow : ((attachedState s).results s.next).finished = false := unfinished
    have told : endTimeNS (enoughFuel count) (attachedState s).results s.next =
        .ok (init s.next).endTime := by
      rw [enoughFuel, endTimeNS_unfinished unfinishedNow, links.endTime]
    rw [pushed]
    simp only [State.enter, told, bind, Except.bind, links.startTid, links.startTimeNs]
    by_cases later : (init s.next).startTimeNs < (init s.next).endTime
    · refine ⟨{ (attachedState s).setFrame (init s.next).startTid (some s.next) with
        endEvents := s.next :: s.endEvents }, _, by rw [if_pos later]; rfl,
        inv.push_frame prepared inside fresh (fun e member => List.mem_cons_of_mem _ member)
          (fun _ => List.mem_cons_self) fun e member => ?_,
        .frame (inv.links.startTid _) unfinished (Nat.le_refl _)⟩
      exact (List.mem_cons.mp member).symm.imp_right fun same => ⟨same, same ▸ later⟩
    · by_cases missing : (init s.next).endTime = minTime
      · exact ⟨(attachedState s).setFrame (init s.next).startTid (some s.next), _,
          by rw [if_neg later, if_pos missing]; rfl,
          inv.push_frame prepared inside fresh (fun e member => member)
            (fun ends => absurd missing ends) (fun e member => .inl member),
          .frame (inv.links.startTid _) unfinished (Nat.le_succ _)⟩
      · refine ⟨_, _, ?_, inv.push_mark prepared inside fresh, .mark unfinished⟩
        rw [if_neg later, if_neg missing]
        exact State.markFinished_end unfinished (by rwa [links.endTime])

end Push

end TorchGcu.EventTree

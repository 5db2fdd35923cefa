import Mathlib.Logic.Relation
import TorchGcu.Profiler.EventFrames

/-! The links between the events of a replay: parents and children are inverse, and nobody is above
itself. -/
namespace TorchGcu.EventTree

/-- Parents and children are inverse, and no event is above itself. -/
structure Forest (results : Nat → Result) : Prop where
  inverse : ∀ parent child,
    child ∈ (results parent).children ↔ (results child).parent = some parent
  once : ∀ parent, (results parent).children.Nodup
  acyclic : ∀ e, ¬ Relation.TransGen
    (fun child parent => (results child).parent = some parent) e e

/-- What is promised of the events: the finished ones are subtrees that were built from the trace of
the device. -/
structure Prepared (count : Nat) (results : Nat → Result) : Prop where
  kineto : ∀ e < count, (results e).finished = true → (results e).isKineto = true
  root : ∀ e < count, (results e).finished = false → (results e).parent = none
  below : ∀ e < count, (results e).finished = false →
    ∀ child ∈ (results e).children, (results child).finished = true
  forest : Forest results

/-- The event is one that the replay is to finish. -/
def Fresh (count : Nat) (init : Nat → Result) (e : Nat) : Prop :=
  e < count ∧ (init e).finished = false

section SetInTreeBuilding
variable (count : Nat) (results : Nat → Result) (value : Bool) (e : Nat)

theorem setInTreeBuilding_kept : (setInTreeBuilding count results value e).parent =
      (results e).parent ∧
    (setInTreeBuilding count results value e).children = (results e).children ∧
    (setInTreeBuilding count results value e).finished = (results e).finished ∧
    (setInTreeBuilding count results value e).isKineto = (results e).isKineto := by
  unfold setInTreeBuilding Result.setInTreeBuilding Result.isKineto
  split
  · split <;> simp_all
  · simp

end SetInTreeBuilding

theorem Forest.congr {results results' : Nat → Result} (forest : Forest results)
    (parents : ∀ e, (results' e).parent = (results e).parent)
    (children : ∀ e, (results' e).children = (results e).children) : Forest results' where
  inverse parent child := by
    rw [children, parents]
    exact forest.inverse parent child
  once parent := by
    rw [children]
    exact forest.once parent
  acyclic e := by
    simp only [parents]
    exact forest.acyclic e

theorem Prepared.setInTreeBuilding {count : Nat} {results : Nat → Result}
    (prepared : Prepared count results) (value : Bool) :
    Prepared count (setInTreeBuilding count results value) where
  kineto e inside finished := by
    obtain ⟨-, -, finishedKept, kinetoKept⟩ := setInTreeBuilding_kept count results value e
    rw [kinetoKept]
    exact prepared.kineto e inside (finishedKept.symm.trans finished)
  root e inside unfinished := by
    obtain ⟨parent, -, finishedKept, -⟩ := setInTreeBuilding_kept count results value e
    rw [parent]
    exact prepared.root e inside (finishedKept.symm.trans unfinished)
  below e inside unfinished child member := by
    obtain ⟨-, children, finishedKept, -⟩ := setInTreeBuilding_kept count results value e
    obtain ⟨-, -, childKept, -⟩ := setInTreeBuilding_kept count results value child
    rw [childKept]
    rw [children] at member
    exact prepared.below e inside (finishedKept.symm.trans unfinished) child member
  forest := prepared.forest.congr
    (fun e => (setInTreeBuilding_kept count results value e).1)
    (fun e => (setInTreeBuilding_kept count results value e).2.1)

/-! ### Links -/

/-- How the results stand to the ones before the replay: a new parent is an earlier event. -/
structure Links (count : Nat) (init results : Nat → Result) : Prop where
  startTid : ∀ e, (results e).startTid = (init e).startTid
  startTimeNs : ∀ e, (results e).startTimeNs = (init e).startTimeNs
  extraFields : ∀ e, (results e).extraFields = (init e).extraFields
  inverse : ∀ parent child,
    child ∈ (results parent).children ↔ (results child).parent = some parent
  once : ∀ parent, (results parent).children.Nodup
  edges : ∀ child parent, (results child).parent = some parent →
    (¬ Fresh count init child ∧ (init child).parent = some parent) ∨
      (Fresh count init child ∧ Fresh count init parent ∧ parent < child)

namespace Links
variable {count : Nat} {init results results' : Nat → Result}

theorem endTime (links : Links count init results) (e : Nat) :
    (results e).endTime = (init e).endTime := by
  simp only [Result.endTime, links.extraFields, links.startTimeNs]

theorem start (prepared : Prepared count init) : Links count init init where
  startTid _ := rfl
  startTimeNs _ := rfl
  extraFields _ := rfl
  inverse := prepared.forest.inverse
  once := prepared.forest.once
  edges child parent linked := by
    refine .inl ⟨fun fresh => ?_, linked⟩
    rw [prepared.root child fresh.1 fresh.2] at linked
    cases linked

/-- Marks change nothing. -/
theorem marked (links : Links count init results) (events : List Nat)
    (marked : ∀ e, results' e =
      if e ∈ events then { results e with finished := true } else results e) :
    Links count init results' := by
  have kept : ∀ e, (results' e).startTid = (results e).startTid ∧
      (results' e).startTimeNs = (results e).startTimeNs ∧
      (results' e).extraFields = (results e).extraFields ∧
      (results' e).children = (results e).children ∧
      (results' e).parent = (results e).parent := by
    intro e
    rw [marked]
    split <;> exact ⟨rfl, rfl, rfl, rfl, rfl⟩
  refine ⟨fun e => (kept e).1.trans (links.startTid e),
    fun e => (kept e).2.1.trans (links.startTimeNs e),
    fun e => (kept e).2.2.1.trans (links.extraFields e), fun parent child => ?_, fun parent => ?_,
    fun child parent linked => ?_⟩
  · rw [(kept parent).2.2.2.1, (kept child).2.2.2.2]
    exact links.inverse parent child
  · rw [(kept parent).2.2.2.1]
    exact links.once parent
  · rw [(kept child).2.2.2.2] at linked
    exact links.edges child parent linked

/-- From a fresh event the parents go down to earlier fresh events. -/
theorem fresh_path (links : Links count init results) {e above : Nat}
    (fresh : Fresh count init e)
    (path : Relation.TransGen (fun child parent => (results child).parent = some parent) e above) :
    Fresh count init above ∧ above < e := by
  induction path with
  | single linked =>
    rcases links.edges _ _ linked with ⟨stale, -⟩ | ⟨-, parent, earlier⟩
    · exact absurd fresh stale
    · exact ⟨parent, earlier⟩
  | tail _ linked ih =>
    rcases links.edges _ _ linked with ⟨stale, -⟩ | ⟨-, parent, earlier⟩
    · exact absurd ih.1 stale
    · exact ⟨parent, Nat.lt_trans earlier ih.2⟩

/-- A path that meets no fresh event was there before. -/
theorem stale_path (links : Links count init results) {e above : Nat}
    (path : Relation.TransGen (fun child parent => (results child).parent = some parent) e above) :
    Fresh count init above ∨
      Relation.TransGen (fun child parent => (init child).parent = some parent) e above := by
  induction path with
  | single linked =>
    rcases links.edges _ _ linked with ⟨-, before⟩ | ⟨-, parent, -⟩
    · exact .inr (.single before)
    · exact .inl parent
  | tail _ linked ih =>
    rcases links.edges _ _ linked with ⟨stale, before⟩ | ⟨-, parent, -⟩
    · rcases ih with fresh | path
      · exact absurd fresh stale
      · exact .inr (path.tail before)
    · exact .inl parent

theorem forest (links : Links count init results) (before : Forest init) : Forest results where
  inverse := links.inverse
  once := links.once
  acyclic e cycle := by
    rcases links.stale_path cycle with fresh | old
    · exact Nat.lt_irrefl _ (links.fresh_path fresh cycle).2
    · exact before.acyclic e old

end Links

/-- The results after an event got its parent. -/
def attached (results : Nat → Result) (event : Nat) (frame : Option Nat) (e : Nat) : Result :=
  { results e with
    parent := if e = event then frame else (results e).parent
    children := if frame = some e then (results e).children ++ [event] else (results e).children }

theorem Links.attached {count : Nat} {init results : Nat → Result}
    (links : Links count init results) {event : Nat} {frame : Option Nat}
    (fresh : Fresh count init event) (root : (results event).parent = none)
    (earlier : ∀ parent, frame = some parent → Fresh count init parent ∧ parent < event) :
    Links count init (attached results event frame) where
  startTid := links.startTid
  startTimeNs := links.startTimeNs
  extraFields := links.extraFields
  inverse parent child := by
    have inverse := links.inverse parent child
    by_cases same : child = event
    · subst same
      rw [root] at inverse
      have absent : child ∉ (results parent).children := by simp [inverse]
      by_cases new : frame = some parent <;> simp [EventTree.attached, new, absent]
    · by_cases new : frame = some parent <;> simp [EventTree.attached, new, same, inverse]
  once parent := by
    have absent : event ∉ (results parent).children := by
      simp [links.inverse parent event, root]
    by_cases new : frame = some parent
    · have apart : ∀ child ∈ (results parent).children, child ≠ event := by
        rintro child member rfl
        exact absent member
      simpa [EventTree.attached, new, List.nodup_append, links.once parent] using apart
    · simpa [EventTree.attached, new] using links.once parent
  edges child parent linked := by
    by_cases same : child = event
    · subst same
      simp only [EventTree.attached, if_true] at linked
      exact .inr ⟨fresh, earlier parent linked⟩
    · simp only [EventTree.attached, if_neg same] at linked
      exact links.edges child parent linked

theorem State.attach_eq {s : State} {event : Nat} (root : (s.results event).parent = none)
    (other : s.parentFrame event ≠ some event) :
    s.attach event = { s with results := attached s.results event (s.parentFrame event) } := by
  unfold State.attach
  cases frame : s.parentFrame event with
  | none =>
    have same : attached s.results event none = s.results := by
      funext e
      by_cases at_ : e = event
      · subst at_
        cases shape : s.results e
        simp only [shape] at root
        simp [attached, shape, root]
      · simp [attached, at_]
    simp [same]
  | some parent =>
    have apart : parent ≠ event := by
      rintro rfl
      exact other frame
    simp only [State.setResult]
    congr 1
    funext e
    by_cases ofParent : e = parent
    · subst ofParent
      simp [attached, apart]
    · by_cases ofEvent : e = event
      · subst ofEvent
        simp [attached, ofParent, Ne.symm ofParent]
      · simp [attached, ofParent, ofEvent, Ne.symm ofParent]

end TorchGcu.EventTree

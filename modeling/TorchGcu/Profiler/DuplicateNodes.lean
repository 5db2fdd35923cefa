import TorchGcu.Profiler.CallForest
import Mathlib.Logic.Relation

/-! `_remove_dup_nodes`: lifting an event into its parent keeps the forest and the parents right, and
loses the kernels of the parent. -/
namespace TorchGcu.EventList
variable {τ κ : Type} {events : Nat → FunctionEvent τ} {heap : Heap κ}
  {self : List Nat} {e i p : Nat}

/-! ### One event that is lifted -/

theorem foldl_cpuParent (children : List Nat) (parent : Nat) (heap : Heap κ) (i : Nat) :
    children.foldl
        (fun heap child => Function.update heap child { heap child with cpuParent := some parent })
        heap i =
      if i ∈ children then { heap i with cpuParent := some parent } else heap i := by
  induction children generalizing heap with
  | nil => simp
  | cons child rest ih =>
    rw [List.foldl_cons, ih]
    by_cases same : i = child
    · subst same
      simp
    · simp [same]

section Lift
variable (found : (heap e).cpuParent = some p)
include found

theorem liftUp_cpuParent (i : Nat) :
    (liftUp heap e i).cpuParent =
      if i ∈ (heap e).cpuChildren then some p else (heap i).cpuParent := by
  simp only [liftUp, found, foldl_cpuParent]
  split
  · rfl
  · by_cases same : i = p
    · subst same
      simp
    · simp [same]

theorem liftUp_cpuChildren (i : Nat) :
    (liftUp heap e i).cpuChildren =
      if i = p then (heap e).cpuChildren else (heap i).cpuChildren := by
  simp only [liftUp, found, foldl_cpuParent]
  by_cases same : i = p
  · subst same
    split <;> simp
  · split <;> simp [same]

theorem liftUp_kernels (i : Nat) :
    (liftUp heap e i).kernels = if i = p then (heap e).kernels else (heap i).kernels := by
  simp only [liftUp, found, foldl_cpuParent]
  by_cases same : i = p
  · subst same
    split <;> simp
  · split <;> simp [same]

end Lift

/-! ### Forests -/

variable [LinearOrder τ]

def isSync (events : Nat → FunctionEvent τ) (i : Nat) : Bool :=
  !(events i).isAsync && (events i).onCpu

/-- Parents and children are inverse, and parents come before their children. -/
structure Forest (events : Nat → FunctionEvent τ) (heap : Heap κ) (nodes : List Nat) : Prop where
  nodup : nodes.Nodup
  member : ∀ e ∈ nodes, ∀ p, (heap e).cpuParent = some p → p ∈ nodes
  sync : ∀ e ∈ nodes, ∀ p, (heap e).cpuParent = some p → isSync events e = true
  before : ∀ e ∈ nodes, ∀ p, (heap e).cpuParent = some p → Before events p e
  inverse : ∀ p ∈ nodes, ∀ e,
    e ∈ (heap p).cpuChildren ↔ e ∈ nodes ∧ (heap e).cpuParent = some p
  once : ∀ p ∈ nodes, (heap p).cpuChildren.Nodup

/-- No event is an ancestor of its own. -/
def Acyclic (heap : Heap κ) (self : List Nat) : Prop :=
  ∀ e ∈ self, ¬ Relation.TransGen (fun a b => (heap a).cpuParent = some b) e e

theorem Forest.acyclic (forest : Forest events heap self) : Acyclic heap self := by
  intro e member cycle
  have above : ∀ a, Relation.TransGen (fun a b => (heap a).cpuParent = some b) e a →
      a ∈ self ∧ Before events a e := by
    intro a path
    induction path with
    | single found => exact ⟨forest.member e member _ found, forest.before e member _ found⟩
    | tail _ found ih =>
      exact ⟨forest.member _ ih.1 _ found, (forest.before _ ih.1 _ found).trans ih.2⟩
  exact Before.irrefl (above e cycle).2

omit [LinearOrder τ] in
theorem isDup_iff : isDup events heap e = true ↔
    ∃ p, (heap e).cpuParent = some p ∧ (events p).name = (events e).name ∧
      (heap p).cpuChildren.length = 1 := by
  unfold isDup
  cases (heap e).cpuParent with
  | none => simp
  | some p => simp

section Lifted
variable (forest : Forest events heap self) (member : e ∈ self)
  (found : (heap e).cpuParent = some p)
include forest member found

theorem Forest.mem_children : e ∈ (heap p).cpuChildren :=
  (forest.inverse p (forest.member e member p found) e).mpr ⟨member, found⟩

theorem Forest.only_child (alone : (heap p).cpuChildren.length = 1) :
    (heap p).cpuChildren = [e] := by
  obtain ⟨c, children⟩ := List.length_eq_one_iff.mp alone
  have inside := forest.mem_children member found
  rw [children, List.mem_singleton] at inside
  rw [children, inside]

theorem Forest.parent_ne : p ≠ e := fun same =>
  Before.irrefl (same ▸ forest.before e member p found)

/-- The event that is lifted is off the list, and its parent has its children. -/
theorem Forest.liftUp (alone : (heap p).cpuChildren.length = 1) :
    Forest events (liftUp heap e) (self.filter (· ≠ e)) := by
  have only := forest.only_child member found alone
  have inSelf := forest.member e member p found
  have different := forest.parent_ne member found
  have child (i : Nat) : i ∈ (heap e).cpuChildren ↔ i ∈ self ∧ (heap i).cpuParent = some e :=
    forest.inverse e member i
  refine ⟨forest.nodup.filter _, ?_, ?_, ?_, ?_, ?_⟩
  · intro i inside q parent
    obtain ⟨inList, other⟩ := List.mem_filter.mp inside
    rw [liftUp_cpuParent found] at parent
    rw [List.mem_filter]
    split at parent
    · cases parent
      exact ⟨inSelf, by simpa using different⟩
    · next outside =>
      have inList' := forest.member i inList q parent
      refine ⟨inList', ?_⟩
      simp only [decide_eq_true_eq]
      rintro rfl
      exact outside ((child i).mpr ⟨inList, parent⟩)
  · intro i inside q parent
    have inList := (List.mem_filter.mp inside).1
    rw [liftUp_cpuParent found] at parent
    split at parent
    · next lifted => exact forest.sync i inList e ((child i).mp lifted).2
    · exact forest.sync i inList q parent
  · intro i inside q parent
    have inList := (List.mem_filter.mp inside).1
    rw [liftUp_cpuParent found] at parent
    split at parent
    · next lifted =>
      cases parent
      exact (forest.before e member p found).trans
        (forest.before i inList e ((child i).mp lifted).2)
    · exact forest.before i inList q parent
  · intro q inside i
    obtain ⟨inList, other⟩ := List.mem_filter.mp inside
    rw [liftUp_cpuChildren found, liftUp_cpuParent found, List.mem_filter]
    simp only [decide_eq_true_eq] at other ⊢
    by_cases same : q = p
    · subst same
      rw [if_pos rfl]
      constructor
      · intro lifted
        obtain ⟨inside', parent⟩ := (child i).mp lifted
        refine ⟨⟨inside', ?_⟩, by rw [if_pos lifted]⟩
        exact (forest.parent_ne inside' parent).symm
      · rintro ⟨⟨inside', apart⟩, parent⟩
        by_contra outside
        rw [if_neg outside] at parent
        have among := (forest.inverse q inSelf i).mpr ⟨inside', parent⟩
        rw [only, List.mem_singleton] at among
        exact apart among
    · rw [if_neg same, forest.inverse q inList i]
      constructor
      · rintro ⟨inside', parent⟩
        refine ⟨⟨inside', ?_⟩, ?_⟩
        · rintro rfl
          rw [found] at parent
          exact same (Option.some.inj parent).symm
        · rw [if_neg]
          · exact parent
          · intro lifted
            rw [((child i).mp lifted).2] at parent
            exact other (Option.some.inj parent).symm
      · rintro ⟨⟨inside', apart⟩, parent⟩
        split at parent
        · exact absurd (Option.some.inj parent).symm same
        · exact ⟨inside', parent⟩
  · intro q inside
    have inList := (List.mem_filter.mp inside).1
    rw [liftUp_cpuChildren found]
    split
    · exact forest.once e member
    · exact forest.once q inList

/-- A lift does not change which of the other events are duplicates. -/
theorem Forest.isDup_liftUp (alone : (heap p).cpuChildren.length = 1)
    (named : (events p).name = (events e).name) (inside : i ∈ self) (other : i ≠ e) :
    isDup events (EventList.liftUp heap e) i = isDup events heap i := by
  have only := forest.only_child member found alone
  have inSelf := forest.member e member p found
  rw [Bool.eq_iff_iff, isDup_iff, isDup_iff]
  simp only [liftUp_cpuParent found, liftUp_cpuChildren found]
  by_cases lifted : i ∈ (heap e).cpuChildren
  · have parent := ((forest.inverse e member i).mp lifted).2
    simp only [if_pos lifted, parent, Option.some.injEq, exists_eq_left', if_true, named]
  · simp only [if_neg lifted]
    refine exists_congr fun q => and_congr_right fun parent => and_congr_right fun _ => ?_
    have apart : q ≠ p := by
      rintro rfl
      have among := (forest.inverse q inSelf i).mpr ⟨inside, parent⟩
      rw [only, List.mem_singleton] at among
      exact other among
    rw [if_neg apart]

end Lifted

/-! ### The parents stay right -/

/-- The parents of the synchronous events of a list are right among the events of their thread and
node. -/
def RightParents (events : Nat → FunctionEvent τ) (heap : Heap κ) (nodes : List Nat) : Prop :=
  ∀ e ∈ syncEvents events nodes, RightParent events heap (Peer events nodes e) e

omit [LinearOrder τ] in
theorem mem_syncEvents {nodes : List Nat} :
    e ∈ syncEvents events nodes ↔ e ∈ nodes ∧ isSync events e = true := List.mem_filter

omit [LinearOrder τ] in
theorem peer_filter {nodes : List Nat} {x : Nat} :
    Peer events (nodes.filter (· ≠ e)) i x ↔ Peer events nodes i x ∧ x ≠ e := by
  simp only [Peer, mem_syncEvents, List.mem_filter, decide_eq_true_eq]
  tauto

theorem LaminarList.mono (laminar : LaminarList events self) {fewer : List Nat}
    (sub : fewer ⊆ self) : LaminarList events fewer := by
  have still {a : Nat} (member : a ∈ syncEvents events fewer) : a ∈ syncEvents events self := by
    rw [mem_syncEvents] at member ⊢
    exact ⟨sub member.1, member.2⟩
  exact fun a left b right same => laminar a (still left) b (still right) same

theorem LaminarList.peers (laminar : LaminarList events self) (e : Nat) :
    ∀ x y, Peer events self e x → Peer events self e y → Laminar events x y :=
  fun x y left right => laminar x left.1 y right.1 (left.2.trans right.2.symm)

theorem RightParents.liftUp (right : RightParents events heap self)
    (laminar : LaminarList events self) (forest : Forest events heap self) (member : e ∈ self)
    (found : (heap e).cpuParent = some p) :
    RightParents events (EventList.liftUp heap e) (self.filter (· ≠ e)) := by
  have inSelf := forest.member e member p found
  have different := forest.parent_ne member found
  have eSync := mem_syncEvents.mpr ⟨member, forest.sync e member p found⟩
  have outer := (right e eSync p).mp found
  intro i inside
  have inNow := inside
  rw [mem_syncEvents, List.mem_filter, decide_eq_true_eq] at inNow
  have iSync : i ∈ syncEvents events self := mem_syncEvents.mpr ⟨inNow.1.1, inNow.2⟩
  have child : i ∈ (heap e).cpuChildren ↔ (heap i).cpuParent = some e := by
    rw [forest.inverse e member i]
    exact and_iff_right inNow.1.1
  have wide {x : Nat} (candidate : Candidate events
      (Peer events (self.filter (· ≠ e)) i) i x) : Candidate events (Peer events self i) i x :=
    ⟨(peer_filter.mp candidate.member).1, candidate.before, candidate.contains⟩
  intro x
  rw [liftUp_cpuParent found]
  by_cases lifted : i ∈ (heap e).cpuChildren
  · have inner := (right i iSync e).mp (child.mp lifted)
    have contains := outer.candidate.contains
    have inside' := inner.candidate.contains
    have best : Innermost events (Peer events (self.filter (· ≠ e)) i) i p := by
      refine ⟨⟨peer_filter.mpr ⟨⟨outer.candidate.member.1, ?_⟩, different⟩, ?_, ?_⟩, ?_⟩
      · exact outer.candidate.member.2.trans inner.candidate.member.2
      · exact outer.candidate.before.trans inner.candidate.before
      · exact ⟨contains.1.trans inside'.1, inside'.2.1.trans_le contains.2.2,
          inside'.2.2.trans contains.2.2⟩
      · intro y candidate
        have apart := (peer_filter.mp candidate.member).2
        rcases inner.last y (wide candidate) with same | ⟨before, around⟩
        · exact absurd same apart
        · have peer := (wide candidate).member
          exact outer.last y ⟨⟨peer.1, peer.2.trans inner.candidate.member.2.symm⟩, before, around⟩
    rw [if_pos lifted, Option.some.injEq]
    constructor
    · rintro rfl
      exact best
    · exact best.unique
  · rw [if_neg lifted, right i iSync x]
    constructor
    · intro innermost
      have apart : x ≠ e := by
        rintro rfl
        exact lifted (child.mpr ((right i iSync x).mpr innermost))
      have candidate := innermost.candidate
      exact ⟨⟨peer_filter.mpr ⟨candidate.member, apart⟩, candidate.before, candidate.contains⟩,
        fun y found => innermost.last y (wide found)⟩
    · intro innermost
      obtain ⟨z, best⟩ := exists_innermost (l := self)
        (fun y peer => (mem_syncEvents.mp peer.1).1) (laminar.peers i)
        (wide innermost.candidate)
      have apart : z ≠ e := by
        rintro rfl
        exact lifted (child.mpr ((right i iSync z).mpr best))
      have candidate := best.candidate
      have bestNow : Innermost events (Peer events (self.filter (· ≠ e)) i) i z :=
        ⟨⟨peer_filter.mpr ⟨candidate.member, apart⟩, candidate.before, candidate.contains⟩,
          fun y found => best.last y (wide found)⟩
      rw [innermost.unique bestNow]
      exact best

/-! ### The kernels -/

/-- The kernels of all events of a list. -/
def allKernels (heap : Heap κ) (nodes : List Nat) : List κ :=
  nodes.flatMap fun i => (heap i).kernels

/-- A lift loses the kernels of the parent and nothing else. -/
theorem Forest.kernels_liftUp (forest : Forest events heap self) (member : e ∈ self)
    (found : (heap e).cpuParent = some p) :
    (allKernels heap self).Perm
      (allKernels (EventList.liftUp heap e) (self.filter (· ≠ e)) ++ (heap p).kernels) := by
  have different := forest.parent_ne member found
  have split := List.perm_cons_erase member
  have inRest : p ∈ self.erase e :=
    (List.mem_erase_of_ne different).mpr (forest.member e member p found)
  have splitRest := List.perm_cons_erase inRest
  have others : ∀ i ∈ (self.erase e).erase p,
      (EventList.liftUp heap e i).kernels = (heap i).kernels := by
    intro i inside
    rw [liftUp_kernels found, if_neg]
    rintro rfl
    exact List.Nodup.not_mem_erase (forest.nodup.erase e) inside
  have kept : allKernels (EventList.liftUp heap e) ((self.erase e).erase p) =
      allKernels heap ((self.erase e).erase p) := List.flatMap_congr others
  have erased : self.filter (· ≠ e) = self.erase e := by
    rw [forest.nodup.erase_eq_filter]
    exact List.filter_congr fun i _ => by by_cases same : i = e <;> simp [same]
  have before : (allKernels heap self).Perm
      ((heap e).kernels ++ ((heap p).kernels ++ allKernels heap ((self.erase e).erase p))) :=
    (split.flatMap_right _).trans ((splitRest.flatMap_right _).append_left _)
  have after : (allKernels (EventList.liftUp heap e) (self.filter (· ≠ e))).Perm
      ((heap e).kernels ++ allKernels heap ((self.erase e).erase p)) := by
    rw [erased, ← kept]
    have parts := splitRest.flatMap_right fun i => (EventList.liftUp heap e i).kernels
    rw [List.flatMap_cons, liftUp_kernels found, if_pos rfl] at parts
    exact parts
  refine before.trans (List.Perm.trans ?_ (after.append_right _).symm)
  rw [List.append_assoc]
  exact List.perm_append_comm.append_left _

end TorchGcu.EventList

import TorchGcu.Profiler.CpuParents
import Mathlib.Data.List.Perm.Basic

/-! The whole of `_populate_cpu_children`: what the groups are, the parents that all events get, and
when these are the innermost events that contain them. -/
namespace TorchGcu.EventList
variable {τ κ : Type} [LinearOrder τ] {events : Nat → FunctionEvent τ}

/-! ### The innermost event -/

/-- An earlier event among some whose interval contains the one of `e`. -/
structure Candidate (events : Nat → FunctionEvent τ) (among : Nat → Prop) (e x : Nat) : Prop where
  member : among x
  before : Before events x e
  contains : Contains events x e

/-- The candidate that all others contain, the last among equal intervals. -/
structure Innermost (events : Nat → FunctionEvent τ) (among : Nat → Prop) (e x : Nat) : Prop where
  candidate : Candidate events among e x
  last : ∀ y, Candidate events among e y → y = x ∨ Before events y x ∧ Contains events y x

section Innermost
variable {among : Nat → Prop} {e x y : Nat}

theorem Innermost.unique (first : Innermost events among e x)
    (second : Innermost events among e y) : x = y := by
  rcases first.last y second.candidate with same | ⟨before, -⟩
  · exact same.symm
  · rcases second.last x first.candidate with same | ⟨after, -⟩
    · exact same
    · exact absurd after before.asymm

/-- Among finitely many laminar events one candidate is the innermost. -/
theorem exists_innermost {l : List Nat} (listed : ∀ x, among x → x ∈ l)
    (laminar : ∀ x y, among x → among y → Laminar events x y)
    (some : Candidate events among e y) : ∃ x, Innermost events among e x := by
  have last (part : List Nat) : (∃ x ∈ part, Candidate events among e x) →
      ∃ x, Candidate events among e x ∧
        ∀ z ∈ part, Candidate events among e z → z = x ∨ Before events z x := by
    induction part with
    | nil => rintro ⟨x, inside, -⟩; cases inside
    | cons a part ih =>
      rintro ⟨x, inside, found⟩
      by_cases rest : ∃ x ∈ part, Candidate events among e x
      · obtain ⟨x, candidate, latest⟩ := ih rest
        by_cases here : Candidate events among e a ∧ Before events x a
        · refine ⟨a, here.1, fun z member found => ?_⟩
          rcases List.mem_cons.mp member with same | later
          · exact .inl same
          · rcases latest z later found with rfl | before
            · exact .inr here.2
            · exact .inr (before.trans here.2)
        · refine ⟨x, candidate, fun z member found => ?_⟩
          rcases List.mem_cons.mp member with rfl | later
          · by_cases same : z = x
            · exact .inl same
            · have either : Before events z x ∨ Before events x z := Before.total same
              rcases either with before | after
              · exact .inr before
              · exact absurd ⟨found, after⟩ here
          · exact latest z later found
      · rcases List.mem_cons.mp inside with rfl | later
        · refine ⟨x, found, fun z member also => ?_⟩
          rcases List.mem_cons.mp member with same | later
          · exact .inl same
          · exact absurd ⟨z, later, also⟩ rest
        · exact absurd ⟨x, later, found⟩ rest
  obtain ⟨x, candidate, latest⟩ := last l ⟨y, listed y some.member, some⟩
  refine ⟨x, candidate, fun z found => ?_⟩
  rcases latest z (listed z found.member) found with same | before
  · exact .inl same
  · exact .inr ⟨before, contains_of_both before (laminar z x found.member candidate.member)
      found.contains candidate.contains⟩

end Innermost

/-- The parent is the innermost event, and there is none exactly when no event contains it. -/
def RightParent (events : Nat → FunctionEvent τ) (heap : Heap κ) (among : Nat → Prop) (e : Nat) :
    Prop :=
  ∀ x, (heap e).cpuParent = some x ↔ Innermost events among e x

/-! ### The events of one group -/

theorem Placed.rightParent {heap : Heap κ} {sorted : List Nat} (placed : Placed events heap sorted)
    (order : sorted.Pairwise (Before events))
    (laminar : ∀ a ∈ sorted, ∀ b ∈ sorted, Laminar events a b) {e : Nat} (member : e ∈ sorted) :
    RightParent events heap (· ∈ sorted) e := by
  obtain ⟨pre, post, rfl⟩ := List.append_of_mem member
  have parent := placed pre e post rfl
  rw [List.pairwise_append, List.pairwise_cons] at order
  obtain ⟨orderPre, ⟨after, -⟩, across⟩ := order
  have early (y : Nat) (found : Candidate events (· ∈ pre ++ e :: post) e y) : y ∈ pre := by
    rcases List.mem_append.mp found.member with early | late
    · exact early
    · rcases List.mem_cons.mp late with rfl | later
      · exact absurd found.before Before.irrefl
      · exact absurd found.before (after y later).asymm
  have right (x : Nat) (found : (heap e).cpuParent = some x) :
      Innermost events (· ∈ pre ++ e :: post) e x := by
    rw [parent, List.find?_eq_some_iff_append] at found
    obtain ⟨can, first, rest, split, none⟩ := found
    have ordered : pre = rest.reverse ++ x :: first.reverse := by
      have flipped := congrArg List.reverse split
      simpa using flipped
    have inside : x ∈ pre := by rw [ordered]; simp
    have before := across x inside e List.mem_cons_self
    refine ⟨⟨List.mem_append_left _ inside, before, (contains_iff_holds before).mpr can⟩,
      fun y found => ?_⟩
    have inPre := early y found
    have canToo := (contains_iff_holds found.before).mp found.contains
    rw [ordered] at inPre orderPre
    rw [List.pairwise_append] at orderPre
    rcases List.mem_append.mp inPre with lower | upper
    · have beforeX := orderPre.2.2 y lower x List.mem_cons_self
      exact .inr ⟨beforeX, contains_of_both beforeX
        (laminar y found.member x (List.mem_append_left _ inside)) found.contains
        ((contains_iff_holds before).mpr can)⟩
    · rcases List.mem_cons.mp upper with same | above
      · exact .inl same
      · have not := none y (List.mem_reverse.mp above)
        rw [canToo] at not
        cases not
  intro x
  refine ⟨right x, fun innermost => ?_⟩
  have inPre := early x innermost.candidate
  have can := (contains_iff_holds innermost.candidate.before).mp innermost.candidate.contains
  cases found : pre.reverse.find? (holds events e) with
  | none =>
    have not := List.find?_eq_none.mp found x (List.mem_reverse.mpr inPre)
    exact absurd can not
  | some y =>
    rw [parent, found]
    have other := right y (by rw [parent, found])
    exact congrArg some (other.unique innermost)

/-- In a part of the events the parent is right exactly when the innermost event is in the part. -/
theorem rightParent_part {heap : Heap κ} {part whole : Nat → Prop} {e : Nat} {l : List Nat}
    (sub : ∀ x, part x → whole x) (listed : ∀ x, whole x → x ∈ l)
    (laminar : ∀ x y, whole x → whole y → Laminar events x y)
    (right : RightParent events heap part e) :
    RightParent events heap whole e ↔ ∀ x, Innermost events whole e x → part x := by
  constructor
  · intro all x innermost
    have parent := (all x).mpr innermost
    exact ((right x).mp parent).candidate.member
  · intro inPart x
    rw [right x]
    constructor
    · intro innermost
      have candidate := innermost.candidate
      obtain ⟨z, best⟩ := exists_innermost listed laminar
        (⟨sub x candidate.member, candidate.before, candidate.contains⟩)
      have restricted : Innermost events part e z := by
        refine ⟨⟨inPart z best, best.candidate.before, best.candidate.contains⟩, fun y found => ?_⟩
        exact best.last y ⟨sub y found.member, found.before, found.contains⟩
      rw [innermost.unique restricted]
      exact best
    · intro innermost
      have candidate := innermost.candidate
      refine ⟨⟨inPart x innermost, candidate.before, candidate.contains⟩, fun y found => ?_⟩
      exact innermost.last y ⟨sub y found.member, found.before, found.contains⟩

/-! ### The groups -/

section Groups
variable {self : List Nat}

instance : Std.Total (byThread events) := ⟨fun a b => le_total (events a).thread (events b).thread⟩

instance : IsTrans Nat (byThread events) := ⟨fun _ _ _ first second => le_trans first second⟩

instance : Std.Total (byTime events) := ⟨fun a b => le_total (timeKey events a) (timeKey events b)⟩

instance : IsTrans Nat (byTime events) := ⟨fun _ _ _ first second => le_trans first second⟩

variable (events) in
/-- The synchronous events of the thread and node of `e`. -/
def Peer (self : List Nat) (e x : Nat) : Prop :=
  x ∈ syncEvents events self ∧ threadNode events x = threadNode events e

omit [LinearOrder τ] in
theorem flatten_threadGroups :
    (threadGroups events self).flatten.Perm (syncEvents events self) := by
  rw [threadGroups, List.flatten_splitBy]
  exact List.perm_insertionSort _ _

omit [LinearOrder τ] in
/-- A group has one thread and node, and its events in the order of the list. -/
theorem group_of (order : self.Pairwise (· < ·)) {group : List Nat}
    (member : group ∈ threadGroups events self) :
    group.Pairwise (· < ·) ∧ ∀ a ∈ group, ∀ b ∈ group, threadNode events a = threadNode events b := by
  have chain := List.isChain_of_mem_splitBy member
  have keys : group.Pairwise fun a b => threadNode events a = threadNode events b := by
    refine List.IsChain.pairwise (R := fun a b => threadNode events a = threadNode events b) ?_
    exact chain.imp fun _ _ same => by simpa using same
  have listed : (syncEvents events self).Pairwise (· < ·) := order.filter _
  have sorted := ProgramLogic.pairwise_stable (byThread events) listed.nodup listed
  have part := List.sublist_flatten_of_mem member
  rw [threadGroups, List.flatten_splitBy] at part
  refine ⟨((sorted.sublist part).and keys).imp ?_, ?_⟩
  · rintro a b ⟨⟨-, stable⟩, same⟩
    exact stable (congrArg Prod.fst same).symm.le
  · intro a left b right
    have symm : Std.Symm fun a b => threadNode events a = threadNode events b :=
      ⟨fun _ _ same => same.symm⟩
    exact List.Pairwise.forall_of_forall (R := fun a b => threadNode events a = threadNode events b)
      (fun _ _ => rfl) keys left right

theorem sorted_group {group : List Nat} (order : group.Pairwise (· < ·)) :
    (group.insertionSort (byTime events)).Pairwise (Before events) := by
  refine (ProgramLogic.pairwise_stable (byTime events) order.nodup order).imp ?_
  rintro a b ⟨le, stable⟩
  refine Prod.Lex.toLex_lt_toLex'.mpr ⟨le, fun same => stable ?_⟩
  exact same.symm.le

end Groups

/-! ### All groups -/

section Populate
variable {initial heap : Heap κ} {self : List Nat}

theorem attachGroups_run {done : List Nat} (groups : List (List Nat))
    (linked : Linked initial heap done) (distinct : (done ++ groups.flatten).Nodup)
    (sorted : ∀ group ∈ groups, group.Pairwise (Before events))
    (laminar : ∀ group ∈ groups, ∀ a ∈ group, ∀ b ∈ group, Laminar events a b)
    (cpu : ∀ group ∈ groups, ∀ a ∈ group, (events a).onCpu = true) :
    ∃ heap', groups.foldlM (fun heap group => attachAll events heap [] group) heap = .ok heap' ∧
      Linked initial heap' (done ++ groups.flatten) ∧
      (∀ group ∈ groups, Placed events heap' group) ∧
      ∀ i ∉ groups.flatten, (heap' i).cpuParent = (heap i).cpuParent := by
  induction groups generalizing heap done with
  | nil => exact ⟨heap, rfl, by simpa using linked, by simp, fun _ _ => rfl⟩
  | cons group rest ih =>
    rw [List.forall_mem_cons] at sorted laminar cpu
    rw [List.flatten_cons] at distinct ⊢
    have once : (done ++ ([] ++ group)).Nodup := by
      rw [← List.append_assoc] at distinct
      simpa using (List.nodup_append.mp distinct).1
    obtain ⟨heap₁, ran, linked₁, placed₁, kept₁⟩ :=
      attachAll_run (by simpa using linked) once sorted.1 laminar.1 cpu.1
        ⟨List.nil_sublist _, by simp⟩ (by rintro (_ | ⟨_, _⟩) e post split <;> cases split)
    simp only [List.nil_append] at linked₁ placed₁
    rw [← List.append_assoc] at distinct
    obtain ⟨heap₂, ranRest, linked₂, placed₂, kept₂⟩ :=
      ih linked₁ distinct sorted.2 laminar.2 cpu.2
    refine ⟨heap₂, ?_, by rw [← List.append_assoc]; exact linked₂, ?_, ?_⟩
    · rw [List.foldlM_cons, ran]
      exact ranRest
    · refine List.forall_mem_cons.mpr ⟨fun pre e post split => ?_, placed₂⟩
      have inGroup : e ∈ group := by rw [split]; simp
      have elsewhere : e ∉ rest.flatten := fun inside =>
        (List.nodup_append.mp distinct).2.2 e (List.mem_append_right _ inGroup) e inside rfl
      rw [kept₂ e elsewhere]
      exact placed₁ pre e post split
    · intro i outside
      rw [List.mem_append, not_or] at outside
      rw [kept₂ i outside.2, kept₁ i outside.1]

/-- The events of a program before their tree is built. -/
structure Fresh (heap : Heap κ) : Prop where
  parent : ∀ i, (heap i).cpuParent = none
  children : ∀ i, (heap i).cpuChildren = []

variable (events) in
/-- The synchronous events of a thread and node are nested or disjoint. -/
def LaminarList (self : List Nat) : Prop :=
  ∀ a ∈ syncEvents events self, ∀ b ∈ syncEvents events self,
    threadNode events a = threadNode events b → Laminar events a b

theorem populate_run (fresh : Fresh initial) (order : self.Pairwise (· < ·))
    (laminar : LaminarList events self) :
    ∃ heap done, populateCpuChildren events initial self = .ok heap ∧
      Linked initial heap done ∧ done.Nodup ∧ (∀ i, i ∈ done ↔ i ∈ syncEvents events self) ∧
      ∀ group ∈ threadGroups events self, ∀ e ∈ group,
        RightParent events heap (· ∈ group) e := by
  have inSync (group : List Nat) (member : group ∈ threadGroups events self) (a : Nat)
      (inside : a ∈ group) : a ∈ syncEvents events self :=
    flatten_threadGroups.mem_iff.mp (List.mem_flatten.mpr ⟨group, member, inside⟩)
  let groups := (threadGroups events self).map fun group => group.insertionSort (byTime events)
  have back {group : List Nat} (member : group ∈ groups) :
      ∃ g ∈ threadGroups events self, g.insertionSort (byTime events) = group :=
    List.mem_map.mp member
  have flat : groups.flatten.Perm (threadGroups events self).flatten := by
    rw [List.flatten_eq_flatMap, List.flatten_eq_flatMap, List.flatMap_map]
    exact List.Perm.flatMap_left _ fun group _ => List.perm_insertionSort _ _
  have whole := flat.trans flatten_threadGroups
  have once : groups.flatten.Nodup := whole.nodup_iff.mpr (order.filter _).nodup
  have sorted : ∀ group ∈ groups, group.Pairwise (Before events) := by
    intro group member
    obtain ⟨g, inGroups, rfl⟩ := back member
    exact sorted_group (group_of order inGroups).1
  have nested : ∀ group ∈ groups, ∀ a ∈ group, ∀ b ∈ group, Laminar events a b := by
    intro group member a left b right
    obtain ⟨g, inGroups, rfl⟩ := back member
    rw [List.mem_insertionSort] at left right
    exact laminar a (inSync g inGroups a left) b (inSync g inGroups b right)
      ((group_of order inGroups).2 a left b right)
  have cpu : ∀ group ∈ groups, ∀ a ∈ group, (events a).onCpu = true := by
    intro group member a inside
    obtain ⟨g, inGroups, rfl⟩ := back member
    rw [List.mem_insertionSort] at inside
    have sync := (List.mem_filter.mp (inSync g inGroups a inside)).2
    simp only [Bool.and_eq_true] at sync
    exact sync.2
  obtain ⟨heap, ran, linked, placed, -⟩ := attachGroups_run groups
    (Linked.start fresh.parent fresh.children) (by simpa using once) sorted nested cpu
  rw [List.nil_append] at linked
  refine ⟨heap, groups.flatten, ?_, linked, once, fun i => whole.mem_iff, ?_⟩
  · rw [populateCpuChildren, ← List.foldlM_map]
    exact ran
  · intro group member e inside
    have sortedIn : group.insertionSort (byTime events) ∈ groups := List.mem_map_of_mem member
    have right := (placed _ sortedIn).rightParent (sorted _ sortedIn) (nested _ sortedIn)
      ((List.mem_insertionSort _).mpr inside)
    simpa only [List.mem_insertionSort] using right

end Populate
end TorchGcu.EventList

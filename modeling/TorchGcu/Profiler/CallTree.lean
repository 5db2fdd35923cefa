import TorchGcu.Profiler.DuplicateNodes

/-! The passes of `_remove_dup_nodes`, and the tree that an event list ends with. -/
namespace TorchGcu.EventList
variable {τ κ : Type} [LinearOrder τ] {events : Nat → FunctionEvent τ} {heap heap' heap'' : Heap κ}
  {nodes nodes' nodes'' todo : List Nat} {e p : Nat} {lost lost' : List κ}

/-- Among some events there is a duplicate whose parent has kernels. -/
def Loses (events : Nat → FunctionEvent τ) (heap : Heap κ) (among : List Nat) : Prop :=
  ∃ e ∈ among, isDup events heap e = true ∧
    ∃ p, (heap e).cpuParent = some p ∧ (heap p).kernels ≠ []

/-- What lifting some events does to a forest, with the kernels that are lost. -/
structure Lifted (events : Nat → FunctionEvent τ) (heap : Heap κ) (nodes : List Nat)
    (heap' : Heap κ) (nodes' : List Nat) (lost : List κ) : Prop where
  forest : Forest events heap' nodes'
  sub : nodes'.Sublist nodes
  kernels : (allKernels heap nodes).Perm (allKernels heap' nodes' ++ lost)
  right : LaminarList events nodes → RightParents events heap nodes →
    RightParents events heap' nodes'
  keeps : ¬ Loses events heap nodes → lost = [] ∧ ¬ Loses events heap' nodes'

theorem Lifted.refl (forest : Forest events heap nodes) :
    Lifted events heap nodes heap nodes [] :=
  ⟨forest, List.Sublist.refl _, by simp, fun _ right => right, fun none => ⟨rfl, none⟩⟩

theorem Lifted.trans (first : Lifted events heap nodes heap' nodes' lost)
    (second : Lifted events heap' nodes' heap'' nodes'' lost') :
    Lifted events heap nodes heap'' nodes'' (lost' ++ lost) where
  forest := second.forest
  sub := second.sub.trans first.sub
  kernels := by
    rw [← List.append_assoc]
    exact first.kernels.trans (second.kernels.append_right _)
  right laminar right :=
    second.right (laminar.mono first.sub.subset) (first.right laminar right)
  keeps none := by
    obtain ⟨rfl, noneNow⟩ := first.keeps none
    obtain ⟨rfl, noneLater⟩ := second.keeps noneNow
    exact ⟨rfl, noneLater⟩

section Step
variable (forest : Forest events heap nodes) (member : e ∈ nodes)
  (found : (heap e).cpuParent = some p) (named : (events p).name = (events e).name)
  (alone : (heap p).cpuChildren.length = 1)
include forest member found named alone

/-- The kernels of the parent of another duplicate are those of its parent of before. -/
theorem Forest.parent_liftUp {i : Nat} (inside : i ∈ nodes) (other : i ≠ e) {q : Nat}
    (parent : (heap i).cpuParent = some q) :
    ∃ q', (EventList.liftUp heap e i).cpuParent = some q' ∧
      (EventList.liftUp heap e q').kernels = (heap q).kernels := by
  have only := forest.only_child member found alone
  have inSelf := forest.member e member p found
  by_cases lifted : i ∈ (heap e).cpuChildren
  · have parent' := ((forest.inverse e member i).mp lifted).2
    rw [parent] at parent'
    cases parent'
    refine ⟨p, by rw [liftUp_cpuParent found, if_pos lifted], ?_⟩
    rw [liftUp_kernels found, if_pos rfl]
  · refine ⟨q, by rw [liftUp_cpuParent found, if_neg lifted]; exact parent, ?_⟩
    rw [liftUp_kernels found, if_neg]
    rintro rfl
    have among := (forest.inverse q inSelf i).mpr ⟨inside, parent⟩
    rw [only, List.mem_singleton] at among
    exact other among

/-- A duplicate loses the same kernels after the lift of another. -/
theorem Forest.loses_liftUp {among : List Nat} (sub : among ⊆ nodes) (absent : e ∉ among) :
    Loses events (EventList.liftUp heap e) among ↔ Loses events heap among := by
  refine exists_congr fun i => and_congr_right fun inside => ?_
  have other : i ≠ e := fun same => absent (same ▸ inside)
  rw [forest.isDup_liftUp member found alone named (sub inside) other]
  refine and_congr_right fun dup => ?_
  obtain ⟨q, parent, -, -⟩ := isDup_iff.mp dup
  obtain ⟨q', parent', kernels⟩ :=
    forest.parent_liftUp member found named alone (sub inside) other parent
  simp only [parent, parent', Option.some.injEq, exists_eq_left', kernels]

theorem Forest.lifted :
    Lifted events heap nodes (EventList.liftUp heap e) (nodes.filter (· ≠ e))
      (heap p).kernels where
  forest := forest.liftUp member found alone
  sub := List.filter_sublist
  kernels := forest.kernels_liftUp member found
  right laminar right := right.liftUp laminar forest member found
  keeps none := by
    refine ⟨?_, fun loses => none ?_⟩
    · by_contra some
      exact none ⟨e, member, isDup_iff.mpr ⟨p, found, named, alone⟩, p, found, some⟩
    · have less : nodes.filter (· ≠ e) ⊆ nodes := List.filter_sublist.subset
      have before := (forest.loses_liftUp member found named alone less (by simp)).mp loses
      obtain ⟨i, inside, rest⟩ := before
      exact ⟨i, less inside, rest⟩

end Step

/-- One pass lifts every duplicate, and loses the kernels of all their parents. -/
theorem removePass_lifted (forest : Forest events heap nodes) (sub : todo ⊆ nodes)
    (once : todo.Nodup) :
    ∃ lost, Lifted events heap nodes (removePass events heap todo).1
        (nodes.filter (· ∉ (removePass events heap todo).2)) lost ∧
      (Loses events heap todo → lost ≠ []) ∧ (removePass events heap todo).2 ⊆ todo := by
  induction todo generalizing heap nodes with
  | nil =>
    refine ⟨[], ?_, ?_, by simp [removePass]⟩
    · simpa [removePass] using Lifted.refl forest
    · rintro ⟨e, inside, -⟩
      cases inside
  | cons event rest ih =>
    obtain ⟨inNodes, subRest⟩ := List.cons_subset.mp sub
    obtain ⟨absent, onceRest⟩ := List.nodup_cons.mp once
    by_cases dup : isDup events heap event = true
    · obtain ⟨p, found, named, alone⟩ := isDup_iff.mp dup
      have step := forest.lifted inNodes found named alone
      have subNow : rest ⊆ nodes.filter (· ≠ event) := by
        intro i inside
        rw [List.mem_filter, decide_eq_true_eq]
        exact ⟨subRest inside, fun same => absent (same ▸ inside)⟩
      obtain ⟨lost, lifted, loses, deleted⟩ := ih step.forest subNow onceRest
      have both := step.trans lifted
      rw [removePass, if_pos dup]
      refine ⟨lost ++ (heap p).kernels, ?_, ?_, ?_⟩
      · have filters : nodes.filter
            (· ∉ event :: (removePass events (EventList.liftUp heap event) rest).2) =
            (nodes.filter (· ≠ event)).filter
              (· ∉ (removePass events (EventList.liftUp heap event) rest).2) := by
          rw [List.filter_filter]
          refine List.filter_congr fun i _ => ?_
          simp [Bool.and_comm]
        rw [filters]
        exact both
      · rintro ⟨i, inside, bad⟩
        rw [ne_eq, List.append_eq_nil_iff, not_and_or]
        rcases List.mem_cons.mp inside with rfl | later
        · obtain ⟨-, q, parent, some⟩ := bad
          rw [found] at parent
          cases parent
          exact .inr some
        · exact .inl (loses ((forest.loses_liftUp inNodes found named alone subRest absent).mpr
            ⟨i, later, bad⟩))
      · exact List.cons_subset_cons event deleted
    · obtain ⟨lost, lifted, loses, deleted⟩ := ih forest subRest onceRest
      rw [removePass, if_neg dup]
      refine ⟨lost, lifted, ?_, fun i inside => List.mem_cons_of_mem event (deleted inside)⟩
      rintro ⟨i, inside, bad⟩
      rcases List.mem_cons.mp inside with rfl | later
      · exact absurd bad.1 dup
      · exact loses ⟨i, later, bad⟩

/-- The passes end, and lose kernels exactly when a duplicate has a parent with kernels. -/
theorem removeDupNodes_lifted (forest : Forest events heap nodes) :
    ∃ heap' nodes' lost, (∀ fuel, nodes.length < fuel →
        removeDupNodes events fuel heap nodes = some (heap', nodes')) ∧
      Lifted events heap nodes heap' nodes' lost ∧ (Loses events heap nodes → lost ≠ []) := by
  obtain ⟨length, bound⟩ : ∃ length, nodes.length = length := ⟨_, rfl⟩
  induction length using Nat.strong_induction_on generalizing heap nodes with
  | _ length ih =>
    obtain ⟨lost, lifted, loses, deleted⟩ :=
      removePass_lifted forest (List.Subset.refl _) forest.nodup
    by_cases done : (removePass events heap nodes).2.length = 0
    · have none := List.length_eq_zero_iff.mp done
      rw [none] at lifted
      simp only [List.not_mem_nil, not_false_eq_true, decide_true, List.filter_true] at lifted
      refine ⟨(removePass events heap nodes).1, nodes, lost, fun fuel enough => ?_, lifted, loses⟩
      cases fuel with
      | zero => omega
      | succ fuel => simp [removeDupNodes, none]
    · obtain ⟨event, inDeleted⟩ := List.exists_mem_of_length_pos (Nat.pos_of_ne_zero done)
      have shorter : (nodes.filter (· ∉ (removePass events heap nodes).2)).length < length := by
        rw [← bound]
        apply List.length_filter_lt_length_iff_exists.mpr
        exact ⟨event, deleted inDeleted, by simpa using inDeleted⟩
      obtain ⟨heap', nodes', lost', ran, rest, -⟩ := ih _ shorter lifted.forest rfl
      refine ⟨heap', nodes', lost' ++ lost, fun fuel enough => ?_, lifted.trans rest,
        fun bad nothing => loses bad (List.append_eq_nil_iff.mp nothing).2⟩
      cases fuel with
      | zero => omega
      | succ fuel =>
        rw [removeDupNodes]
        simp only [if_neg done]
        exact ran fuel (by omega)

/-! ### The tree -/

section Tree
variable {initial : Heap κ} {n : Nat}

/-- Two events stand in one group, with no event of another node of the thread between. -/
def SameGroup (events : Nat → FunctionEvent τ) (nodes : List Nat) (x e : Nat) : Prop :=
  ∃ group ∈ threadGroups events nodes, x ∈ group ∧ e ∈ group

/-- No event has its innermost event in another group. -/
def Grouped (events : Nat → FunctionEvent τ) (nodes : List Nat) : Prop :=
  ∀ e ∈ syncEvents events nodes, ∀ x, Innermost events (Peer events nodes e) e x →
    SameGroup events nodes x e

/-- An event that is the innermost of one event alone, of its own name, has no kernels. -/
def Unburdened (events : Nat → FunctionEvent τ) (initial : Heap κ) (nodes : List Nat) : Prop :=
  ∀ e ∈ syncEvents events nodes, ∀ p, Innermost events (Peer events nodes e) e p →
    (events p).name = (events e).name →
    (∀ c ∈ syncEvents events nodes, Innermost events (Peer events nodes c) c p → c = e) →
    (initial p).kernels = []

/-- What is populated is a forest, right where the innermost event is in the group. -/
theorem populate_forest (fresh : Fresh initial) (order : nodes.Pairwise (· < ·))
    (laminar : LaminarList events nodes) :
    ∃ heap, populateCpuChildren events initial nodes = .ok heap ∧ Forest events heap nodes ∧
      (∀ i, (heap i).kernels = (initial i).kernels) ∧
      (RightParents events heap nodes ↔ Grouped events nodes) := by
  obtain ⟨heap, done, ran, linked, distinct, all, placed⟩ := populate_run fresh order laminar
  have grouped (e : Nat) (sync : e ∈ syncEvents events nodes) :
      ∃ group ∈ threadGroups events nodes, e ∈ group :=
    List.mem_flatten.mp (flatten_threadGroups.mem_iff.mpr sync)
  have inSync {group : List Nat} (member : group ∈ threadGroups events nodes) {a : Nat}
      (inside : a ∈ group) : a ∈ syncEvents events nodes :=
    flatten_threadGroups.mem_iff.mp (List.mem_flatten.mpr ⟨group, member, inside⟩)
  have linkedOnly (e p : Nat) (parent : (heap e).cpuParent = some p) :
      e ∈ syncEvents events nodes := by
    by_contra outside
    have none := linked.fresh e fun inside => outside ((all e).mp inside)
    rw [none] at parent
    cases parent
  have found (e p : Nat) (parent : (heap e).cpuParent = some p) :
      p ∈ syncEvents events nodes ∧ Before events p e := by
    obtain ⟨group, member, inside⟩ := grouped e (linkedOnly e p parent)
    have candidate := ((placed group member e inside p).mp parent).candidate
    exact ⟨inSync member candidate.member, candidate.before⟩
  refine ⟨heap, ran, ⟨order.nodup, ?_, ?_, ?_, ?_, ?_⟩, linked.kernels, ?_⟩
  · exact fun e _ p parent => (mem_syncEvents.mp (found e p parent).1).1
  · exact fun e _ p parent => (mem_syncEvents.mp (linkedOnly e p parent)).2
  · exact fun e _ p parent => (found e p parent).2
  · intro p _ e
    rw [linked.children p, List.mem_filter, decide_eq_true_eq, all e, mem_syncEvents]
    refine and_congr_left fun parent => and_iff_left ?_
    exact (mem_syncEvents.mp (linkedOnly e p parent)).2
  · intro p _
    rw [linked.children p]
    exact distinct.filter _
  · refine forall_congr' fun e => forall_congr' fun sync => ?_
    obtain ⟨group, member, inside⟩ := grouped e sync
    have keys := (group_of order member).2
    have part := rightParent_part
      (l := syncEvents events nodes)
      (fun x inGroup => ⟨inSync member inGroup, keys x inGroup e inside⟩)
      (fun x peer => peer.1) (laminar.peers e) (placed group member e inside)
    rw [part]
    refine forall_congr' fun x => forall_congr' fun _ => ?_
    constructor
    · exact fun inGroup => ⟨group, member, inGroup, inside⟩
    · rintro ⟨other, memberOther, inOther, insideOther⟩
      have once : (threadGroups events nodes).flatten.Nodup :=
        flatten_threadGroups.nodup_iff.mpr (order.filter _).nodup
      by_contra elsewhere
      have different : other ≠ group := fun same => elsewhere (same ▸ inOther)
      have symm : Std.Symm (List.Disjoint : List Nat → List Nat → Prop) :=
        ⟨fun _ _ apart _ left right => apart right left⟩
      have apart := (List.nodup_flatten.mp once).2.forall memberOther member different
      exact apart insideOther inside

/-- With right parents a duplicate is the one event of its name in its innermost event. -/
theorem loses_iff_unburdened (forest : Forest events heap nodes)
    (right : RightParents events heap nodes)
    (kernels : ∀ i, (heap i).kernels = (initial i).kernels) :
    ¬ Loses events heap nodes ↔ Unburdened events initial nodes := by
  have parent (e : Nat) (p : Nat) : (e ∈ nodes ∧ (heap e).cpuParent = some p) ↔
      e ∈ syncEvents events nodes ∧ Innermost events (Peer events nodes e) e p := by
    constructor
    · rintro ⟨member, found⟩
      have sync := mem_syncEvents.mpr ⟨member, forest.sync e member p found⟩
      exact ⟨sync, (right e sync p).mp found⟩
    · rintro ⟨sync, innermost⟩
      exact ⟨(mem_syncEvents.mp sync).1, (right e sync p).mpr innermost⟩
  have child (p : Nat) (inNodes : p ∈ nodes) (c : Nat) : c ∈ (heap p).cpuChildren ↔
      c ∈ syncEvents events nodes ∧ Innermost events (Peer events nodes c) c p :=
    (forest.inverse p inNodes c).trans (parent c p)
  constructor
  · intro none e sync p innermost named alone
    obtain ⟨member, found⟩ := (parent e p).mpr ⟨sync, innermost⟩
    have inNodes := forest.member e member p found
    have only : (heap p).cpuChildren = [e] := by
      refine List.perm_singleton.mp ?_
      rw [List.perm_ext_iff_of_nodup (forest.once p inNodes) (List.nodup_singleton e)]
      intro c
      rw [child p inNodes c, List.mem_singleton]
      constructor
      · rintro ⟨syncC, around⟩
        exact alone c syncC around
      · rintro rfl
        exact ⟨sync, innermost⟩
    rw [← kernels p]
    by_contra some
    exact none ⟨e, member, isDup_iff.mpr ⟨p, found, named, by rw [only]; rfl⟩, p, found, some⟩
  · rintro free ⟨e, member, dup, p, found, some⟩
    obtain ⟨q, found', named, length⟩ := isDup_iff.mp dup
    rw [found] at found'
    cases found'
    have only := forest.only_child member found length
    have inNodes := forest.member e member p found
    obtain ⟨sync, innermost⟩ := (parent e p).mp ⟨member, found⟩
    refine some ((kernels p).trans (free e sync p innermost named fun c syncC around => ?_))
    have inside := (child p inNodes c).mpr ⟨syncC, around⟩
    rw [only, List.mem_singleton] at inside
    exact inside

/-- The tree of an event list ends, its parents and children are inverse and acyclic before and
after the duplicates are removed; the parents are right and every kernel is kept exactly when each
event stands in the group of its innermost event, and no event has kernels that is the innermost of
one event alone, of its own name. -/
theorem tree_built_iff (events : Nat → FunctionEvent τ) (initial : Heap κ) (n : Nat)
    (fresh : Fresh initial) (laminar : LaminarList events (List.range n)) :
    ∃ heap heap' nodes', populateCpuChildren events initial (List.range n) = .ok heap ∧
      (∀ fuel, n < fuel →
        removeDupNodes events fuel heap (List.range n) = some (heap', nodes')) ∧
      (Forest events heap (List.range n) ∧ Acyclic heap (List.range n)) ∧
      (Forest events heap' nodes' ∧ Acyclic heap' nodes') ∧
      ((RightParents events heap (List.range n) ∧ RightParents events heap' nodes' ∧
          (allKernels heap' nodes').Perm (allKernels heap (List.range n))) ↔
        Grouped events (List.range n) ∧ Unburdened events initial (List.range n)) := by
  obtain ⟨heap, populated, forest, kernels, grouped⟩ :=
    populate_forest fresh List.pairwise_lt_range laminar
  obtain ⟨heap', nodes', lost, removed, lifted, loses⟩ := removeDupNodes_lifted forest
  rw [List.length_range] at removed
  refine ⟨heap, heap', nodes', populated, removed, ⟨forest, forest.acyclic⟩,
    ⟨lifted.forest, lifted.forest.acyclic⟩, ?_⟩
  constructor
  · rintro ⟨right, -, kept⟩
    refine ⟨grouped.mp right, (loses_iff_unburdened forest right kernels).mp fun bad => ?_⟩
    have lengths := lifted.kernels.length_eq
    rw [List.length_append, kept.length_eq] at lengths
    exact loses bad (List.length_eq_zero_iff.mp (by omega))
  · rintro ⟨inGroups, free⟩
    have right := grouped.mpr inGroups
    obtain ⟨rfl, -⟩ := lifted.keeps ((loses_iff_unburdened forest right kernels).mpr free)
    refine ⟨right, lifted.right laminar right, ?_⟩
    have kept := lifted.kernels
    rw [List.append_nil] at kept
    exact kept.symm

end Tree

/-! ### Two events of one name -/

/-- An event and the one event inside it, with a kernel on the outer. -/
def twoEvents (i : Nat) : FunctionEvent Int :=
  ⟨"mul", 0, 0, i, 4 - i, false, true⟩

def twoLinks (i : Nat) : Heap String := fun j =>
  ⟨if j = i then ["kernel"] else [], [], none⟩

theorem fresh_two (i : Nat) : Fresh (twoLinks i) := ⟨fun _ => rfl, fun _ => rfl⟩

theorem laminar_two : LaminarList twoEvents (List.range 2) := by
  unfold LaminarList Laminar
  decide

theorem tree_built_two :
    ∃ heap heap' nodes',
      populateCpuChildren twoEvents (twoLinks 1) (List.range 2) = .ok heap ∧
      (∀ fuel, 2 < fuel →
        removeDupNodes twoEvents fuel heap (List.range 2) = some (heap', nodes')) ∧
      Acyclic heap' nodes' := by
  obtain ⟨heap, heap', nodes', populated, removed, -, after, -⟩ :=
    tree_built_iff twoEvents (twoLinks 1) 2 (fresh_two 1) laminar_two
  exact ⟨heap, heap', nodes', populated, removed, after.2⟩

/-- The kernel of the outer event is lost. -/
theorem kernel_lost_two :
    ¬ ∀ (events : Nat → FunctionEvent Int) (initial : Heap String) (n : Nat), Fresh initial →
      LaminarList events (List.range n) →
      ∀ heap heap' nodes', populateCpuChildren events initial (List.range n) = .ok heap →
        removeDupNodes events (n + 1) heap (List.range n) = some (heap', nodes') →
        (allKernels heap' nodes').Perm (allKernels heap (List.range n)) := by
  intro always
  have run : ((populateCpuChildren twoEvents (twoLinks 0) (List.range 2)).toOption.bind fun heap =>
      (removeDupNodes twoEvents 3 heap (List.range 2)).map fun result =>
        (allKernels result.1 result.2, allKernels heap (List.range 2))) =
      some ([], ["kernel"]) := by decide
  obtain ⟨heap, populated, rest⟩ := Option.bind_eq_some_iff.mp run
  obtain ⟨⟨heap', nodes'⟩, removed, kernels⟩ := Option.map_eq_some_iff.mp rest
  have ran : populateCpuChildren twoEvents (twoLinks 0) (List.range 2) = .ok heap := by
    cases ran : populateCpuChildren twoEvents (twoLinks 0) (List.range 2) with
    | error message => rw [ran] at populated; cases populated
    | ok found => rw [ran] at populated; cases populated; rfl
  have kept := always twoEvents (twoLinks 0) 2 (fresh_two 0) laminar_two heap heap' nodes' ran
    removed
  rw [(Prod.mk.inj kernels).1, (Prod.mk.inj kernels).2] at kept
  exact absurd kept.length_eq (by decide)

end TorchGcu.EventList

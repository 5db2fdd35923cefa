import TorchGcu.Profiler.EventList
import Mathlib.Data.List.Infix
import Mathlib.Data.List.TakeWhile

/-! The parents that the stacks find: for each event the last event before it, in the order of its
group, whose interval contains it. -/
namespace TorchGcu.EventList
variable {τ κ : Type} [LinearOrder τ] (events : Nat → FunctionEvent τ)

/-! ### The order of the events -/

/-- The order in which a stable sort by start and end has the events. -/
def sortKey (i : Nat) : (τ ×ₗ τᵒᵈ) ×ₗ Nat := toLex (timeKey events i, i)

def Before (i j : Nat) : Prop := sortKey events i < sortKey events j

/-- The half-open interval of `p` contains the one of `e`. -/
def Contains (p e : Nat) : Prop :=
  (events p).start ≤ (events e).start ∧ (events e).start < (events p).stop ∧
    (events e).stop ≤ (events p).stop

/-- Two intervals are nested or disjoint. -/
def Laminar (i j : Nat) : Prop :=
  ((events i).start ≤ (events j).start ∧ (events j).stop ≤ (events i).stop) ∨
  ((events j).start ≤ (events i).start ∧ (events i).stop ≤ (events j).stop) ∨
  (events i).stop ≤ (events j).start ∨ (events j).stop ≤ (events i).start

/-- What the stack asks of a parent. -/
def holds (e p : Nat) : Bool :=
  decide ((events e).start < (events p).stop) && decide ((events e).stop ≤ (events p).stop)

variable {events} {i j k p e x y : Nat}

theorem Before.trans (first : Before events i j) (second : Before events j k) :
    Before events i k := lt_trans first second

theorem Before.irrefl : ¬ Before events i i := lt_irrefl _

theorem Before.asymm (forth : Before events i j) : ¬ Before events j i := lt_asymm forth

theorem Before.total (different : i ≠ j) : Before events i j ∨ Before events j i := by
  apply lt_or_gt_of_ne
  intro same
  exact different (congrArg (fun key => (ofLex key).2) same)

theorem before_iff : Before events i j ↔ (events i).start < (events j).start ∨
    (events i).start = (events j).start ∧
      ((events j).stop < (events i).stop ∨ (events i).stop = (events j).stop ∧ i < j) := by
  unfold Before sortKey timeKey
  rw [Prod.Lex.toLex_lt_toLex, Prod.Lex.toLex_lt_toLex]
  simp only [OrderDual.toDual_lt_toDual, EmbeddingLike.apply_eq_iff_eq, Prod.mk.injEq]
  tauto

theorem Before.start_le (before : Before events i j) :
    (events i).start ≤ (events j).start := by
  rcases before_iff.mp before with less | ⟨same, -⟩
  · exact less.le
  · exact same.le

theorem contains_iff_holds (before : Before events p e) :
    Contains events p e ↔ holds events e p = true := by
  simp [Contains, holds, before.start_le]

/-- An earlier event that cannot be a parent of `e` ends where `e` starts. -/
theorem stop_le_of_not_holds (before : Before events p e) (laminar : Laminar events p e)
    (not : holds events e p = false) : (events p).stop ≤ (events e).start := by
  simp only [holds, Bool.and_eq_false_iff, decide_eq_false_iff_not, not_lt, not_le] at not
  rcases not with done | longer
  · exact done
  · rcases laminar with nested | nested | disjoint | disjoint
    · exact absurd nested.2 (not_le.mpr longer)
    · have same := le_antisymm before.start_le nested.1
      rcases before_iff.mp before with less | ⟨-, shorter | ⟨equal, -⟩⟩
      · exact absurd same less.ne
      · exact absurd shorter (not_lt.mpr longer.le)
      · exact absurd equal longer.ne
    · exact disjoint
    · exact (longer.le.trans disjoint).trans before.start_le

/-- Of two events that contain a third the earlier contains the later. -/
theorem contains_of_both (before : Before events y x) (laminar : Laminar events y x)
    (outer : Contains events y e) (inner : Contains events x e) : Contains events y x := by
  by_contra outside
  rw [contains_iff_holds before, Bool.not_eq_true] at outside
  have ended := stop_le_of_not_holds before laminar outside
  exact absurd (outer.2.1.trans_le (ended.trans inner.1)) (lt_irrefl _)

/-! ### One event and the stack -/

section Attach
variable {heap initial : Heap κ} {current : List Nat} {event parent : Nat}

/-- The event is the last child of the parent. -/
def link (heap : Heap κ) (parent event : Nat) : Heap κ :=
  Function.update
    (Function.update heap parent
      { heap parent with cpuChildren := (heap parent).cpuChildren ++ [event] })
    event { heap event with cpuParent := some parent }

def linkTo (heap : Heap κ) (event : Nat) : Option Nat → Heap κ
  | none => heap
  | some parent => link heap parent event

/-- The event is linked to the first of the stack that can be its parent, and the others above it
are off the stack. -/
theorem attach_run (cpu : (events event).onCpu = true)
    (parents : ∀ p ∈ current, (events p).onCpu = true)
    (fresh : (heap event).cpuParent = none) (absent : event ∉ current) :
    attach events heap event current =
      .ok (linkTo heap event (current.find? (holds events event)),
        event :: current.dropWhile fun p => !holds events event p) := by
  induction current with
  | nil => rfl
  | cons parent rest ih =>
    rw [List.forall_mem_cons] at parents
    rw [List.mem_cons, not_or] at absent
    have popped : (events event).start ≥ (events parent).stop ∨
        (events event).stop > (events parent).stop ↔ holds events event parent = false := by
      simp only [holds, Bool.and_eq_false_iff, decide_eq_false_iff_not, not_lt, not_le, ge_iff_le,
        gt_iff_lt]
    rw [attach]
    by_cases can : holds events event parent = true
    · have stays : ¬ ((events event).start ≥ (events parent).stop ∨
          (events event).stop > (events parent).stop) := by
        rw [popped, can]
        decide
      rw [if_neg stays, List.find?_cons_of_pos can, List.dropWhile_cons_of_neg (by simp [can])]
      simp only [appendCpuChild, parents.1, cpu, Bool.and_self, if_true, bind, Except.bind,
        Function.update_of_ne absent.1, fresh, Option.isSome_none, Bool.false_eq_true, if_false,
        setCpuParent]
      rfl
    · rw [if_pos (popped.mpr (Bool.not_eq_true _ ▸ can)),
        List.find?_cons_of_neg can, List.dropWhile_cons_of_pos (by simpa using can)]
      exact ih parents.2 absent.2

/-- What is linked so far, in the order of the links. -/
structure Linked (initial heap : Heap κ) (done : List Nat) : Prop where
  kernels : ∀ i, (heap i).kernels = (initial i).kernels
  fresh : ∀ i ∉ done, (heap i).cpuParent = none
  children : ∀ p, (heap p).cpuChildren =
    done.filter fun e => (heap e).cpuParent = some p

theorem Linked.start (fresh : ∀ i, (initial i).cpuParent = none)
    (childless : ∀ i, (initial i).cpuChildren = []) : Linked initial initial [] where
  kernels _ := rfl
  fresh i _ := fresh i
  children p := by rw [childless]; rfl

theorem linkTo_parent {found : Option Nat} (own : ∀ p ∈ found, p ≠ event) (i : Nat)
    (fresh : (heap event).cpuParent = none) :
    (linkTo heap event found i).cpuParent = if i = event then found else (heap i).cpuParent := by
  cases found with
  | none =>
    split
    · next same => rw [same]; exact fresh
    · rfl
  | some p =>
    by_cases same : i = event
    · simp [linkTo, link, same]
    · by_cases parent : i = p
      · subst parent
        simp [linkTo, link, same]
      · simp [linkTo, link, same, parent]

theorem Linked.linkTo {done : List Nat} (linked : Linked initial heap done)
    (absent : event ∉ done) {found : Option Nat} (own : ∀ p ∈ found, p ≠ event) :
    Linked initial (linkTo heap event found) (done ++ [event]) := by
  have fresh := linked.fresh event absent
  have parents (i : Nat) := linkTo_parent own i fresh
  refine ⟨fun i => ?_, fun i outside => ?_, fun p => ?_⟩
  · rw [← linked.kernels i]
    cases found with
    | none => rfl
    | some p =>
      by_cases same : i = event
      · subst same
        simp [EventList.linkTo, link]
      · by_cases parent : i = p
        · subst parent
          simp [EventList.linkTo, link, same]
        · simp [EventList.linkTo, link, same, parent]
  · rw [List.mem_append, List.mem_singleton, not_or] at outside
    rw [parents, if_neg outside.2]
    exact linked.fresh i outside.1
  · have kept : done.filter (fun e => (EventList.linkTo heap event found e).cpuParent = some p) =
        done.filter fun e => (heap e).cpuParent = some p := by
      refine List.filter_congr fun e inside => ?_
      have other : e ≠ event := fun same => absent (same ▸ inside)
      rw [parents, if_neg other]
    rw [List.filter_append, kept, ← linked.children p]
    simp only [List.filter_cons, List.filter_nil, parents, if_true, decide_eq_true_eq]
    cases found with
    | none => simp [EventList.linkTo]
    | some q =>
      have other := own q rfl
      by_cases parent : p = q
      · subst parent
        simp [EventList.linkTo, link, other]
      · have different : q ≠ p := fun same => parent same.symm
        by_cases same : p = event
        · subst same
          simp [EventList.linkTo, link, other]
        · simp [EventList.linkTo, link, same, parent, different]

/-! ### One group -/

/-- The first match of a list is the first match of a part that leaves out no match. -/
theorem find?_sublist {α : Type} {q : α → Bool} {part whole : List α} (sub : part.Sublist whole)
    (distinct : whole.Nodup) (dead : ∀ d ∈ whole, d ∉ part → q d = false) :
    part.find? q = whole.find? q := by
  induction sub with
  | slnil => rfl
  | cons a sub ih =>
    obtain ⟨absent, distinct⟩ := List.nodup_cons.mp distinct
    have no : q a = false := dead a List.mem_cons_self fun inside => absent (sub.subset inside)
    rw [List.find?_cons_of_neg (by simp [no])]
    exact ih distinct fun d inside => dead d (List.mem_cons_of_mem a inside)
  | cons_cons a sub ih =>
    obtain ⟨absent, distinct⟩ := List.nodup_cons.mp distinct
    have rest := ih distinct fun d inside outside =>
      dead d (List.mem_cons_of_mem a inside) (by
        rw [List.mem_cons, not_or]
        exact ⟨fun same => absent (same ▸ inside), outside⟩)
    simp only [List.find?_cons, rest]

/-- Each event of a list has the last event before it that can be its parent. -/
def Placed (events : Nat → FunctionEvent τ) (heap : Heap κ) (sorted : List Nat) : Prop :=
  ∀ pre e post, sorted = pre ++ e :: post →
    (heap e).cpuParent = pre.reverse.find? (holds events e)

theorem Placed.concat {heap' : Heap κ} {before : List Nat} (placed : Placed events heap before)
    (distinct : (before ++ [event]).Nodup)
    (kept : ∀ i, i ≠ event → (heap' i).cpuParent = (heap i).cpuParent)
    (found : (heap' event).cpuParent = before.reverse.find? (holds events event)) :
    Placed events heap' (before ++ [event]) := by
  intro pre e post split
  rcases List.eq_nil_or_concat post with rfl | ⟨init, last, rfl⟩
  · obtain ⟨rfl, same⟩ := List.append_inj' split rfl
    cases same
    exact found
  · rw [List.concat_eq_append, ← List.cons_append, ← List.append_assoc] at split
    obtain ⟨rfl, same⟩ := List.append_inj' split rfl
    cases same
    have other : e ≠ event := by
      rintro rfl
      exact (List.nodup_append.mp distinct).2.2 e (by simp) e (by simp) rfl
    rw [kept e other]
    exact placed pre e init rfl

/-- What is off the stack cannot be a parent of what is still to come. -/
structure OnStack (events : Nat → FunctionEvent τ) (current before rest : List Nat) : Prop where
  sublist : current.Sublist before.reverse
  dead : ∀ d ∈ before, d ∉ current → ∀ e ∈ rest, holds events e d = false

theorem OnStack.step {before rest : List Nat} (on : OnStack events current before (event :: rest))
    (sorted : (before ++ event :: rest).Pairwise (Before events))
    (laminar : ∀ d ∈ before, Laminar events d event) :
    OnStack events (event :: current.dropWhile fun p => !holds events event p)
      (before ++ [event]) rest where
  sublist := by
    rw [List.reverse_append]
    exact ((List.dropWhile_sublist _).trans on.sublist).cons_cons event
  dead := by
    intro d inside off e later
    rw [List.mem_cons, not_or] at off
    have early : d ∈ before := by
      rcases List.mem_append.mp inside with early | same
      · exact early
      · exact absurd (List.mem_singleton.mp same) off.1
    by_cases stacked : d ∈ current
    · have popped : holds events event d = false := by
        rw [← List.takeWhile_append_dropWhile (p := fun p => !holds events event p) (l := current),
          List.mem_append] at stacked
        rcases stacked with popped | kept
        · simpa using List.mem_takeWhile_imp popped
        · exact absurd kept off.2
      rw [List.pairwise_append, List.pairwise_cons] at sorted
      have ended := stop_le_of_not_holds (sorted.2.2 d early event List.mem_cons_self)
        (laminar d early) popped
      have starts := (sorted.2.1.1 e later).start_le
      simp [holds, ended.trans starts]
    · exact on.dead d early stacked e (List.mem_cons_of_mem event later)

theorem attachAll_run {done before rest : List Nat} (linked : Linked initial heap (done ++ before))
    (distinct : (done ++ (before ++ rest)).Nodup)
    (sorted : (before ++ rest).Pairwise (Before events))
    (laminar : ∀ a ∈ before ++ rest, ∀ b ∈ before ++ rest, Laminar events a b)
    (cpu : ∀ a ∈ before ++ rest, (events a).onCpu = true)
    (on : OnStack events current before rest) (placed : Placed events heap before) :
    ∃ heap', attachAll events heap current rest = .ok heap' ∧
      Linked initial heap' (done ++ (before ++ rest)) ∧ Placed events heap' (before ++ rest) ∧
      ∀ i ∉ rest, (heap' i).cpuParent = (heap i).cpuParent := by
  induction rest generalizing before current heap with
  | nil => exact ⟨heap, rfl, by simpa using linked, by simpa using placed, fun _ _ => rfl⟩
  | cons event rest ih =>
    have member : event ∈ before ++ event :: rest := by simp
    have inBefore : ∀ d ∈ current, d ∈ before := fun d stacked =>
      List.mem_reverse.mp (on.sublist.subset stacked)
    have once := (List.nodup_append.mp distinct).2.1
    have absent : event ∉ done ++ before := by
      rw [← List.append_assoc] at distinct
      exact fun inside => (List.nodup_append.mp distinct).2.2 event inside event (by simp) rfl
    have unseen : event ∉ before := fun inside => absent (List.mem_append_right done inside)
    have fresh := linked.fresh event absent
    have ran := attach_run (cpu event member)
      (fun p stacked => cpu p (List.mem_append_left _ (inBefore p stacked))) fresh
      fun stacked => unseen (inBefore event stacked)
    have own : ∀ p ∈ current.find? (holds events event), p ≠ event := fun p found same =>
      unseen (inBefore event (same ▸ List.mem_of_find?_eq_some found))
    have parents (i : Nat) := linkTo_parent own i fresh
    have all : current.find? (holds events event) =
        before.reverse.find? (holds events event) := by
      refine find?_sublist on.sublist (List.nodup_reverse.mpr (List.nodup_append.mp once).1) ?_
      intro d early off
      exact on.dead d (List.mem_reverse.mp early) off event List.mem_cons_self
    have shift : before ++ event :: rest = before ++ [event] ++ rest := by simp
    have placedNow : Placed events
        (linkTo heap event (current.find? (holds events event))) (before ++ [event]) := by
      refine placed.concat ?_ (fun i other => by rw [parents, if_neg other]) ?_
      · rw [shift] at once
        exact (List.nodup_append.mp once).1
      · rw [parents, if_pos rfl, all]
    have onNow := on.step sorted fun d early =>
      laminar d (List.mem_append_left _ early) event member
    have linkedNow := linked.linkTo absent own
    rw [List.append_assoc] at linkedNow
    rw [shift] at distinct sorted laminar cpu
    obtain ⟨heap', ranRest, linkedRest, placedRest, keptRest⟩ :=
      ih linkedNow distinct sorted laminar cpu onNow placedNow
    refine ⟨heap', ?_, by rw [shift]; exact linkedRest, by rw [shift]; exact placedRest, ?_⟩
    · rw [attachAll, ran]
      exact ranRest
    · intro i outside
      rw [List.mem_cons, not_or] at outside
      rw [keptRest i outside.2, parents, if_neg outside.1]

end Attach

end TorchGcu.EventList

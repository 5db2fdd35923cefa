import Mathlib.Data.List.Induction
import Mathlib.Logic.Relation
import Mathlib.Order.WellFounded
import Mathlib.Order.Lattice

/-! Greedy labels. Pairs whose first components ascend are gone through once: the first component
gets a new label unless it has one, and the second one gets the same label unless it has one.
Every vertex then has the label of a smaller neighbour, or its own. -/
namespace GreedyLabels
variable {V : Type} [LinearOrder V]

structure State (V : Type) where
  labels : V → Option Nat
  next : Nat

/-- A vertex keeps its label. -/
def put (labels : V → Option Nat) (v : V) (label : Nat) (w : V) : Option Nat :=
  if w = v then some ((labels v).getD label) else labels w

def step (s : State V) (pair : V × V) : State V where
  labels := put (put s.labels pair.1 s.next) pair.2 ((s.labels pair.1).getD s.next)
  next := if (s.labels pair.1).isSome then s.next else s.next + 1

def run (pairs : List (V × V)) : State V := pairs.foldl step ⟨fun _ => none, 0⟩

/-! ### The graph of the pairs -/

def Occurs (pairs : List (V × V)) (v : V) : Prop := ∃ pair ∈ pairs, v = pair.1 ∨ v = pair.2

/-- A vertex without smaller neighbours. -/
def Least (pairs : List (V × V)) (v : V) : Prop := ∀ a, (a, v) ∈ pairs → ¬ a < v

def Connected (pairs : List (V × V)) : V → V → Prop := Relation.EqvGen fun v w => (v, w) ∈ pairs

/-- The smaller component of a pair is the first one, and first components ascend. -/
structure Ascending (pairs : List (V × V)) : Prop where
  ordered : ∀ pair ∈ pairs, pair.1 ≤ pair.2
  sorted : pairs.Pairwise fun p q => p.1 ≤ q.1

/-! ### What the labels say -/

structure Labelled (pairs : List (V × V)) (s : State V) : Prop where
  occurs : ∀ v, (s.labels v).isSome = true ↔ Occurs pairs v
  below : ∀ v label, s.labels v = some label → label < s.next
  follows : ∀ a v, (a, v) ∈ pairs → a < v → ∃ b, (b, v) ∈ pairs ∧ b < v ∧ s.labels v = s.labels b
  least : ∀ v w, Occurs pairs v → Occurs pairs w → Least pairs v → Least pairs w →
    s.labels v = s.labels w → v = w

variable {pairs : List (V × V)} {s : State V}

theorem put_same (labels : V → Option Nat) (v : V) (label : Nat) :
    put labels v label v = some ((labels v).getD label) := if_pos rfl

theorem put_other {v w : V} (other : w ≠ v) (labels : V → Option Nat) (label : Nat) :
    put labels v label w = labels w := if_neg other

/-- A label that is there stays. -/
theorem put_kept {labels : V → Option Nat} {v w : V} {label : Nat}
    (has : (labels w).isSome = true) : put labels v label w = labels w := by
  by_cases same : w = v
  · subst same
    obtain ⟨l, found⟩ := Option.isSome_iff_exists.mp has
    rw [put_same, found]
    rfl
  · exact put_other same labels label

theorem step_labels (s : State V) (pair : V × V) (v : V) : (step s pair).labels v =
    put (put s.labels pair.1 s.next) pair.2 ((s.labels pair.1).getD s.next) v := rfl

theorem step_kept {pair : V × V} {v : V} (has : (s.labels v).isSome = true) :
    (step s pair).labels v = s.labels v := by
  have first : put s.labels pair.1 s.next v = s.labels v := put_kept has
  rw [step_labels, put_kept (first ▸ has), first]

theorem step_other {pair : V × V} {v : V} (first : v ≠ pair.1) (second : v ≠ pair.2) :
    (step s pair).labels v = s.labels v := by
  rw [step_labels, put_other second, put_other first]

theorem step_first (s : State V) (pair : V × V) :
    (step s pair).labels pair.1 = some ((s.labels pair.1).getD s.next) := by
  rw [step_labels, put_kept (by rw [put_same]; rfl), put_same]

/-- A second component that had no label gets the one of the first component. -/
theorem step_second {pair : V × V} (hasNot : s.labels pair.2 = none) :
    (step s pair).labels pair.2 = (step s pair).labels pair.1 := by
  rw [step_first]
  by_cases same : pair.2 = pair.1
  · rw [same, step_first]
  · rw [step_labels, put_same, put_other same, hasNot]
    rfl

theorem step_next_le (s : State V) (pair : V × V) : s.next ≤ (step s pair).next := by
  simp only [step]
  split <;> omega

omit [LinearOrder V] in
theorem occurs_concat {pair : V × V} {v : V} :
    Occurs (pairs ++ [pair]) v ↔ Occurs pairs v ∨ v = pair.1 ∨ v = pair.2 := by
  simp [Occurs, or_and_right, exists_or]

theorem Least.of_concat {pair : V × V} {v : V} (least : Least (pairs ++ [pair]) v) :
    Least pairs v := fun a isPair => least a (List.mem_append_left _ isPair)

/-- The label of the first component of a pair is an earlier one or the next one. -/
theorem step_below (labelled : Labelled pairs s) {pair : V × V} {v : V} {label : Nat}
    (found : (step s pair).labels v = some label) : label < (step s pair).next := by
  have grows := step_next_le s pair
  have first : ∀ l, (step s pair).labels pair.1 = some l → l < (step s pair).next := by
    intro l found
    rw [step_first, Option.some.injEq] at found
    cases has : s.labels pair.1 with
    | none =>
      have next : (step s pair).next = s.next + 1 := by simp [step, has]
      rw [has, Option.getD_none] at found
      omega
    | some old =>
      have below := labelled.below _ _ has
      rw [has, Option.getD_some] at found
      omega
  by_cases has : (s.labels v).isSome = true
  · rw [step_kept has] at found
    have below := labelled.below _ _ found
    omega
  · have hasNot : s.labels v = none := by simpa using has
    by_cases isFirst : v = pair.1
    · exact first label (isFirst ▸ found)
    · by_cases isSecond : v = pair.2
      · subst isSecond
        exact first label (step_second hasNot ▸ found)
      · rw [step_other isFirst isSecond, hasNot] at found
        cases found

/-- One more pair, whose first component is not below the earlier ones. -/
theorem Labelled.step (labelled : Labelled pairs s) {pair : V × V} (ordered : pair.1 ≤ pair.2)
    (ascending : ∀ earlier ∈ pairs, earlier.1 ≤ earlier.2 ∧ earlier.1 ≤ pair.1) :
    Labelled (pairs ++ [pair]) (step s pair) where
  occurs v := by
    rw [occurs_concat, ← labelled.occurs]
    by_cases has : (s.labels v).isSome = true
    · simp [step_kept has, has]
    · have hasNot : s.labels v = none := by simpa using has
      by_cases isFirst : v = pair.1
      · simp [isFirst, step_first]
      · by_cases isSecond : v = pair.2
        · subst isSecond
          simp [step_second hasNot, step_first]
        · simp [step_other isFirst isSecond, hasNot, isFirst, isSecond]
  below _ _ := step_below labelled
  follows a v isPair smaller := by
    rcases List.mem_append.mp isPair with earlier | last
    · obtain ⟨b, isPair, smaller, same⟩ := labelled.follows a v earlier smaller
      have hasV := (labelled.occurs v).mpr ⟨_, earlier, .inr rfl⟩
      have hasB := (labelled.occurs b).mpr ⟨_, isPair, .inl rfl⟩
      exact ⟨b, List.mem_append_left _ isPair, smaller, by rw [step_kept hasV, step_kept hasB, same]⟩
    · obtain rfl := List.mem_singleton.mp last
      by_cases has : (s.labels v).isSome = true
      · -- an earlier pair with this vertex has it as the second component of two
        obtain ⟨earlier, isEarlier, first | second⟩ := (labelled.occurs v).mp has
        · exact absurd (ascending _ isEarlier).2 (not_le.mpr (first ▸ smaller))
        · have apart : earlier.1 ≠ v := fun same =>
            absurd (ascending _ isEarlier).2 (not_le.mpr (same ▸ smaller))
          have below : earlier.1 < v := lt_of_le_of_ne (second ▸ (ascending _ isEarlier).1) apart
          have isPair : (earlier.1, v) ∈ pairs := second ▸ isEarlier
          obtain ⟨b, isPair, smaller, same⟩ := labelled.follows _ v isPair below
          have hasB := (labelled.occurs b).mpr ⟨_, isPair, .inl rfl⟩
          exact ⟨b, List.mem_append_left _ isPair, smaller, by rw [step_kept has, step_kept hasB, same]⟩
      · have hasNot : s.labels v = none := by simpa using has
        exact ⟨a, isPair, smaller, step_second hasNot⟩
  least v w occursV occursW leastV leastW same := by
    have place : ∀ u, Occurs (pairs ++ [pair]) u → Least (pairs ++ [pair]) u →
        Occurs pairs u ∨ ¬ Occurs pairs u ∧ u = pair.1 := by
      intro u occurs least
      by_cases earlier : Occurs pairs u
      · exact .inl earlier
      · rcases (occurs_concat.mp occurs).resolve_left earlier with first | second
        · exact .inr ⟨earlier, first⟩
        · have isPair : (pair.1, u) ∈ pairs ++ [pair] := by simp [second]
          exact .inr ⟨earlier, le_antisymm (not_lt.mp (least _ isPair)) (second ▸ ordered)⟩
    have kept : ∀ u, Occurs pairs u → (GreedyLabels.step s pair).labels u = s.labels u :=
      fun u occurs => step_kept ((labelled.occurs u).mpr occurs)
    -- a new vertex without smaller neighbours has a label that no other one has
    have new : ∀ u, Occurs pairs u → ¬ Occurs pairs pair.1 →
        (GreedyLabels.step s pair).labels u ≠ (GreedyLabels.step s pair).labels pair.1 := by
      intro u occurs isNew same
      have hasNot : s.labels pair.1 = none := by
        simpa using mt (labelled.occurs pair.1).mp isNew
      rw [kept u occurs, step_first, hasNot, Option.getD_none] at same
      exact absurd (labelled.below _ _ same) (Nat.lt_irrefl _)
    rcases place v occursV leastV with oldV | ⟨newV, rfl⟩
    · rcases place w occursW leastW with oldW | ⟨newW, rfl⟩
      · rw [kept v oldV, kept w oldW] at same
        exact labelled.least v w oldV oldW leastV.of_concat leastW.of_concat same
      · exact absurd same (new v oldV newW)
    · rcases place w occursW leastW with oldW | ⟨newW, first⟩
      · exact absurd same.symm (new w oldW newV)
      · exact first.symm

theorem labelled_nil : Labelled [] (⟨fun _ => none, 0⟩ : State V) where
  occurs v := by simp [Occurs]
  below v label never := by simp at never
  follows a v never := by simp at never
  least v w occurs := by simp [Occurs] at occurs

/-- Going through the pairs labels all their vertices. -/
theorem run_labelled {pairs : List (V × V)} (ascending : Ascending pairs) :
    Labelled pairs (run pairs) := by
  induction pairs using List.reverseRecOn with
  | nil => exact labelled_nil
  | append_singleton pairs pair ih =>
    obtain ⟨ordered, sorted⟩ := ascending
    obtain ⟨sorted, -, last⟩ := List.pairwise_append.mp sorted
    have earlier : ∀ p ∈ pairs, p.1 ≤ p.2 := fun p isPair =>
      ordered p (List.mem_append_left _ isPair)
    have whole : run (pairs ++ [pair]) = step (run pairs) pair := by
      simp [run, List.foldl_append]
    rw [whole]
    exact (ih ⟨earlier, sorted⟩).step (ordered pair (by simp)) fun p isPair =>
      ⟨earlier p isPair, last p isPair pair (List.mem_singleton_self _)⟩

/-! ### Labels and components -/

theorem Occurs.connected_least [WellFoundedLT V] (labelled : Labelled pairs s) {v : V}
    (occurs : Occurs pairs v) : ∃ root, Occurs pairs root ∧ Least pairs root ∧
      Connected pairs v root ∧ s.labels v = s.labels root := by
  induction v using WellFoundedLT.induction with
  | ind v ih =>
    by_cases least : Least pairs v
    · exact ⟨v, occurs, least, .refl v, rfl⟩
    · simp only [Least, not_forall, not_not] at least
      obtain ⟨a, isPair, smaller⟩ := least
      obtain ⟨b, isPair, smaller, same⟩ := labelled.follows a v isPair smaller
      obtain ⟨root, occursRoot, least, connected, sameRoot⟩ :=
        ih b smaller ⟨_, isPair, .inl rfl⟩
      exact ⟨root, occursRoot, least, .trans _ _ _ (.symm _ _ (.rel _ _ isPair)) connected,
        same.trans sameRoot⟩

/-- Vertices with one label are connected. -/
theorem Labelled.connected [WellFoundedLT V] (labelled : Labelled pairs s) {v w : V}
    (occursV : Occurs pairs v) (occursW : Occurs pairs w) (same : s.labels v = s.labels w) :
    Connected pairs v w := by
  obtain ⟨r, occursR, leastR, connectedR, sameR⟩ := occursV.connected_least labelled
  obtain ⟨q, occursQ, leastQ, connectedQ, sameQ⟩ := occursW.connected_least labelled
  have roots := labelled.least r q occursR occursQ leastR leastQ
    (sameR.symm.trans (same.trans sameQ))
  exact .trans _ _ _ connectedR (roots ▸ .symm _ _ connectedQ)

/-- The labels are the components exactly when no component has two vertices without smaller
neighbours. -/
theorem Labelled.components_iff [WellFoundedLT V] (labelled : Labelled pairs s) :
    (∀ v w, Occurs pairs v → Occurs pairs w →
      (s.labels v = s.labels w ↔ Connected pairs v w)) ↔
      ∀ v w, Occurs pairs v → Occurs pairs w → Least pairs v → Least pairs w →
        Connected pairs v w → v = w := by
  constructor
  · intro components v w occursV occursW leastV leastW connected
    exact labelled.least v w occursV occursW leastV leastW
      ((components v w occursV occursW).mpr connected)
  · intro single v w occursV occursW
    refine ⟨labelled.connected occursV occursW, fun connected => ?_⟩
    obtain ⟨r, occursR, leastR, connectedR, sameR⟩ := occursV.connected_least labelled
    obtain ⟨q, occursQ, leastQ, connectedQ, sameQ⟩ := occursW.connected_least labelled
    have roots := single r q occursR occursQ leastR leastQ
      (.trans _ _ _ (.symm _ _ connectedR) (.trans _ _ _ connected connectedQ))
    rw [sameR, sameQ, roots]

end GreedyLabels

import TorchGcu.CpuFallback.Copies

/-! What the retry writes to the arguments: Half tensors get the values of their Float copies. -/
namespace TorchGcu.CpuFallback
open ProgramLogic

variable {α ω : Type}

/-! ### Writing back -/

/-- What `t` gets: the value of the copy, rounded to Half. -/
def rounded (b : Backend α) (heap : Heap α) (t copy : TensorId) : TensorImpl α :=
  { heap.contents t with
    sizes := (heap.contents copy).sizes
    data := b.convert .float .half (heap.contents copy).data }

/-- The tensors of the pairs were written from their copies, and no others. -/
structure Assigned (b : Backend α) (pairs : TensorId → TensorId → Prop) (start now : Heap α) :
    Prop where
  next : start.next ≤ now.next
  written : ∀ t copy, pairs t copy → now.contents t = rounded b start t copy
  same : ∀ t, t < start.next → (∀ copy, ¬ pairs t copy) → now.contents t = start.contents t

theorem Assigned.congr {b : Backend α} {pairs pairs' : TensorId → TensorId → Prop}
    {start now : Heap α} (assigned : Assigned b pairs start now)
    (same : ∀ t copy, pairs t copy ↔ pairs' t copy) : Assigned b pairs' start now where
  next := assigned.next
  written t copy pair := assigned.written t copy ((same t copy).mpr pair)
  same t below other := assigned.same t below fun copy pair => other copy ((same t copy).mp pair)

/-- Half tensors with one Float copy each, which is none of them. -/
structure Separate (pairs : TensorId → TensorId → Prop) (start : Heap α) : Prop where
  half : ∀ t copy, pairs t copy → IsHalf start t
  float : ∀ t copy, pairs t copy → (start.contents copy).dtype = .float
  there : ∀ t copy, pairs t copy → t < start.next ∧ copy < start.next
  one : ∀ t copy copy', pairs t copy → pairs t copy' → copy = copy'
  apart : ∀ t copy copy', pairs t copy → ¬ pairs copy copy'

theorem writeBack_assigns (b : Backend α) {all pairs : TensorId → TensorId → Prop}
    {start now : Heap α} (separate : Separate all start) (t copy : TensorId) (pair : all t copy)
    (done : ∀ t copy, pairs t copy → all t copy) (assigned : Assigned b pairs start now) :
    wp (writeBack b copy (some t)) (fun _ after =>
      Assigned b (fun u other => pairs u other ∨ (u = t ∧ other = copy)) start after)
      (fun _ _ => False) now := by
  obtain ⟨tThere, copyThere⟩ := separate.there t copy pair
  have copySame : now.contents copy = start.contents copy :=
    assigned.same copy copyThere fun other given => separate.apart t copy other pair
      (done copy other given)
  have tNow : now.contents t = start.contents t ∨
      ∃ other, now.contents t = rounded b start t other := by
    by_cases before : ∃ other, pairs t other
    · obtain ⟨other, given⟩ := before
      exact .inr ⟨other, assigned.written t other given⟩
    · exact .inl (assigned.same t tThere fun other given => before ⟨other, given⟩)
  unfold writeBack
  simp only
  rw [wp_bind]
  refine wp_mono (convertInPlace_makes b copy .half now
    (Nat.lt_of_lt_of_le copyThere assigned.next)) ?_ fun _ _ no => no
  rintro half first ⟨grown, -, -, contents⟩
  have tFirst : first.contents t = now.contents t :=
    grown.same t (Nat.lt_of_lt_of_le tThere assigned.next)
  unfold copyFromAndResize
  rw [wp_bind, wp_implOf, wp_bind, wp_implOf, contents, tFirst, copySame]
  have type : (now.contents t).dtype = .half := by
    have original : (start.contents t).dtype = .half := separate.half t copy pair
    obtain same | ⟨other, same⟩ := tNow <;> rw [same]
    · exact original
    · exact original
  have value : ({ now.contents t with
      sizes := ((start.contents copy).converted b .half).sizes
      data := b.convert ((start.contents copy).converted b .half).dtype (now.contents t).dtype
        ((start.contents copy).converted b .half).data } : TensorImpl α) =
        rounded b start t copy := by
    have float := separate.float t copy pair
    rw [type]
    obtain same | ⟨other, same⟩ := tNow <;>
      simp [same, TensorImpl.converted, rounded, b.same, float]
  rw [value]
  refine ⟨Nat.le_trans assigned.next grown.next, ?_, ?_⟩
  · rintro u other (given | ⟨rfl, rfl⟩)
    · show (if u = t then rounded b start t copy else first.contents u) = _
      split
      · next same =>
        subst same
        rw [separate.one u copy other pair (done u other given)]
      · have below := (separate.there u other (done u other given)).1
        rw [grown.same u (Nat.lt_of_lt_of_le below assigned.next), assigned.written u other given]
    · exact if_pos rfl
  · intro u below other
    have differs : u ≠ t := fun same => other copy (.inr ⟨same, rfl⟩)
    show (if u = t then rounded b start t copy else first.contents u) = _
    rw [if_neg differs, grown.same u (Nat.lt_of_lt_of_le below assigned.next)]
    exact assigned.same u below fun copy' given => other copy' (.inl given)

/-- A written argument that is a tensor, and its copy. -/
def TensorPair (op : Operator α ω) (backup : List (IValue ω)) (entry : Nat × TensorId)
    (t copy : TensorId) : Prop :=
  op.writes entry.1 = true ∧ backup[entry.1]? = some (.tensor (some t)) ∧ copy = entry.2

/-- A tensor of a written argument that is a list, and its copy. -/
def EntryPair (op : Operator α ω) (backup : List (IValue ω)) (entry : Nat × Nat × TensorId)
    (t copy : TensorId) : Prop :=
  op.writes entry.1 = true ∧ (∃ l, backup[entry.1]? = some (.tensorList l) ∧
    l[entry.2.1]? = some (some t)) ∧ copy = entry.2.2

/-- The pairs of the entries of a list. -/
def PairsOf {γ : Type} (pair : γ → TensorId → TensorId → Prop) (entries : List γ)
    (t copy : TensorId) : Prop :=
  ∃ entry ∈ entries, pair entry t copy

/-- The pairs of an entry, which are written by a step, and those of the entries after it. -/
theorem assigned_step {γ : Type} {b : Backend α} {pair : γ → TensorId → TensorId → Prop}
    {pairs all : TensorId → TensorId → Prop} {start now : Heap α} {entry : γ} {entries : List γ}
    {rest : HeapM α Unit} (done : ∀ t copy, pairs t copy → all t copy)
    (todo : ∀ t copy, PairsOf pair (entry :: entries) t copy → all t copy)
    (assigned : Assigned b (fun t copy => pairs t copy ∨ pair entry t copy) start now)
    (continues : ∀ (pairs : TensorId → TensorId → Prop) (now : Heap α),
      (∀ t copy, pairs t copy → all t copy) →
      (∀ t copy, PairsOf pair entries t copy → all t copy) → Assigned b pairs start now →
      wp rest (fun _ after =>
        Assigned b (fun t copy => pairs t copy ∨ PairsOf pair entries t copy) start after)
        (fun _ _ => True) now) :
    wp rest (fun _ after =>
      Assigned b (fun t copy => pairs t copy ∨ PairsOf pair (entry :: entries) t copy) start after)
      (fun _ _ => True) now := by
  have here : ∀ t copy, pairs t copy ∨ pair entry t copy → all t copy := by
    rintro t copy (given | given)
    · exact done t copy given
    · exact todo t copy ⟨entry, List.mem_cons_self, given⟩
  have later : ∀ t copy, PairsOf pair entries t copy → all t copy := by
    rintro t copy ⟨other, member, given⟩
    exact todo t copy ⟨other, List.mem_cons_of_mem _ member, given⟩
  refine wp_mono (continues _ now here later assigned) ?_ fun _ _ _ => trivial
  refine fun _ after assigned' => assigned'.congr fun t copy => ?_
  simp [PairsOf, or_assoc]

theorem writeBackTensors_assigns (b : Backend α) (op : Operator α ω) (backup : List (IValue ω))
    {all : TensorId → TensorId → Prop} {start : Heap α} (separate : Separate all start)
    (copies : List (Nat × TensorId)) :
    ∀ (pairs : TensorId → TensorId → Prop) (now : Heap α), (∀ t copy, pairs t copy → all t copy) →
      (∀ t copy, PairsOf (TensorPair op backup) copies t copy → all t copy) →
      Assigned b pairs start now →
      wp (writeBackTensors b op backup copies) (fun _ after => Assigned b
        (fun t copy => pairs t copy ∨ PairsOf (TensorPair op backup) copies t copy) start after)
        (fun _ _ => True) now := by
  induction copies with
  | nil =>
    intro pairs now _ _ assigned
    exact assigned.congr fun t copy => by simp [PairsOf]
  | cons entry copies ih =>
    obtain ⟨i, copy⟩ := entry
    intro pairs now done todo assigned
    unfold writeBackTensors
    split
    · next t found =>
      by_cases writes : op.writes i = true
      · rw [if_pos writes, wp_bind]
        cases t with
        | none => exact trivial
        | some t =>
          have pair : all t copy :=
            todo t copy ⟨(i, copy), List.mem_cons_self, writes, found, rfl⟩
          refine wp_mono (writeBack_assigns b separate t copy pair done assigned) ?_ fun _ _ no =>
            no.elim
          refine fun _ after assigned' => assigned_step done todo (assigned'.congr fun u other => ?_)
            ih
          simp only [TensorPair, writes, found, true_and, Option.some.injEq, IValue.tensor.injEq]
          rw [eq_comm (a := u)]
      · rw [if_neg writes]
        refine assigned_step done todo (assigned.congr fun u other => ?_) ih
        simp [TensorPair, writes]
    · exact trivial

theorem writeBackLists_assigns (b : Backend α) (op : Operator α ω) (backup : List (IValue ω))
    {all : TensorId → TensorId → Prop} {start : Heap α} (separate : Separate all start)
    (copies : List (Nat × Nat × TensorId)) :
    ∀ (pairs : TensorId → TensorId → Prop) (now : Heap α), (∀ t copy, pairs t copy → all t copy) →
      (∀ t copy, PairsOf (EntryPair op backup) copies t copy → all t copy) →
      Assigned b pairs start now →
      wp (writeBackLists b op backup copies) (fun _ after => Assigned b
        (fun t copy => pairs t copy ∨ PairsOf (EntryPair op backup) copies t copy) start after)
        (fun _ _ => True) now := by
  induction copies with
  | nil =>
    intro pairs now _ _ assigned
    exact assigned.congr fun t copy => by simp [PairsOf]
  | cons entry copies ih =>
    obtain ⟨i, j, copy⟩ := entry
    intro pairs now done todo assigned
    unfold writeBackLists
    by_cases writes : op.writes i = true
    · rw [if_pos writes]
      split
      · next l found =>
        rw [wp_bind]
        cases entry : l[j]?.getD none with
        | none => exact trivial
        | some t =>
          have given : l[j]? = some (some t) := by
            cases get : l[j]? with
            | none => simp [get] at entry
            | some value => simpa [get] using entry
          have pair : all t copy :=
            todo t copy ⟨(i, j, copy), List.mem_cons_self, writes, ⟨l, found, given⟩, rfl⟩
          refine wp_mono (writeBack_assigns b separate t copy pair done assigned) ?_ fun _ _ no =>
            no.elim
          refine fun _ after assigned' => assigned_step done todo (assigned'.congr fun u other => ?_)
            ih
          simp only [EntryPair, writes, found, true_and, Option.some.injEq, IValue.tensorList.injEq,
            exists_eq_left', given]
          rw [eq_comm (a := u)]
      · exact trivial
    · rw [if_neg writes]
      refine assigned_step done todo (assigned.congr fun u other => ?_) ih
      simp [EntryPair, writes]

end TorchGcu.CpuFallback

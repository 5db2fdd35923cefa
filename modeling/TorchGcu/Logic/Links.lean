import Mathlib.Data.List.Basic
import Mathlib.Data.List.Nodup
import Mathlib.Data.Nat.ModEq
import Mathlib.Algebra.BigOperators.Group.List.Basic

/-! Doubly linked lists given by two link functions, and lists of cells that tile an
interval or at least have its size. A list is described by the sequence of its nodes; the two outer links are
parameters, so that pieces of a list can be described and put together. -/
namespace LinkedList
variable {ι : Type}

/-- The nodes of `list` are linked in this order, between `before` and `after`. -/
def Links (prev next : ι → Option ι) : Option ι → List ι → Option ι → Prop
  | _, [], _ => True
  | before, b :: rest, after =>
    prev b = before ∧ next b = rest.head?.or after ∧ Links prev next (some b) rest after

variable {prev next prev' next' : ι → Option ι} {before after : Option ι} {a b : List ι}

theorem or_getLast?_cons (c : ι) (l : List ι) (before : Option ι) :
    (c :: l).getLast?.or before = l.getLast?.or (some c) := by
  cases l with
  | nil => rfl
  | cons d l =>
    rw [List.getLast?_cons_cons]
    cases found : (d :: l).getLast? with
    | none => simp at found
    | some e => rfl

theorem links_append : ∀ {a : List ι} {before : Option ι},
    Links prev next before (a ++ b) after ↔
      Links prev next before a (b.head?.or after) ∧
        Links prev next (a.getLast?.or before) b after
  | [], before => by simp [Links]
  | c :: a, before => by
    simp only [List.cons_append, Links, links_append (a := a), List.head?_append,
      or_getLast?_cons, Option.or_assoc, and_assoc]

theorem links_congr : ∀ {l : List ι} {before : Option ι}, Links prev next before l after →
    (∀ c ∈ l, prev' c = prev c) → (∀ c ∈ l, next' c = next c) →
      Links prev' next' before l after
  | [], _, _, _, _ => trivial
  | c :: _, _, linked, samePrev, sameNext =>
    ⟨(samePrev c List.mem_cons_self).trans linked.1,
      (sameNext c List.mem_cons_self).trans linked.2.1,
      links_congr linked.2.2 (fun d member => samePrev d (List.mem_cons_of_mem c member))
        (fun d member => sameNext d (List.mem_cons_of_mem c member))⟩

/-- The last node gets another successor. -/
theorem relink_after {after' : Option ι} : ∀ {l : List ι} {before : Option ι},
    Links prev next before l after → l.Nodup → (∀ c ∈ l, prev' c = prev c) →
    (∀ c ∈ l, l.getLast? ≠ some c → next' c = next c) →
    (∀ c, l.getLast? = some c → next' c = after') →
      Links prev' next' before l after'
  | [], _, _, _, _, _, _ => trivial
  | [c], _, linked, _, samePrev, _, last =>
    ⟨(samePrev c List.mem_cons_self).trans linked.1, last c rfl, trivial⟩
  | c :: d :: l, _, linked, nodup, samePrev, sameNext, last => by
    obtain ⟨fresh, nodup⟩ := List.nodup_cons.mp nodup
    refine ⟨(samePrev c List.mem_cons_self).trans linked.1, ?_, ?_⟩
    · have other : (c :: d :: l).getLast? ≠ some c := by
        rw [List.getLast?_cons_cons]
        intro same
        exact fresh (List.mem_of_getLast? same)
      exact (sameNext c List.mem_cons_self other).trans linked.2.1
    · refine relink_after linked.2.2 nodup
        (fun e member => samePrev e (List.mem_cons_of_mem c member)) ?_ ?_
      · intro e member other
        exact sameNext e (List.mem_cons_of_mem c member)
          (by rwa [List.getLast?_cons_cons])
      · intro e same
        exact last e (by rwa [List.getLast?_cons_cons])

/-- The first node gets another predecessor. -/
theorem relink_before {before' : Option ι} {l : List ι} (linked : Links prev next before l after)
    (first : ∀ c, l.head? = some c → prev' c = before')
    (samePrev : ∀ c ∈ l.tail, prev' c = prev c) (sameNext : ∀ c ∈ l, next' c = next c) :
    Links prev' next' before' l after := by
  cases l with
  | nil => trivial
  | cons c l =>
    exact ⟨first c rfl, (sameNext c List.mem_cons_self).trans linked.2.1,
      links_congr linked.2.2 samePrev
        (fun d member => sameNext d (List.mem_cons_of_mem c member))⟩

/-- `created` goes between `at` and its predecessor. -/
theorem links_insert {created here : ι} (nodup : (a ++ here :: b).Nodup)
    (linked : Links prev next before (a ++ here :: b) after)
    (createdPrev : prev' created = prev here) (createdNext : next' created = some here)
    (herePrev : prev' here = some created) (hereNext : next' here = next here)
    (samePrev : ∀ c ∈ a ++ b, prev' c = prev c)
    (sameNext : ∀ c ∈ a ++ b, a.getLast? ≠ some c → next' c = next c)
    (lastNext : ∀ c, a.getLast? = some c → next' c = some created) :
    Links prev' next' before (a ++ created :: here :: b) after := by
  obtain ⟨left, right⟩ := links_append.mp linked
  have nodupA : a.Nodup := nodup.of_append_left
  have apart : ∀ c ∈ b, a.getLast? ≠ some c := by
    intro c member same
    exact List.disjoint_of_nodup_append nodup (List.mem_of_getLast? same)
      (List.mem_cons_of_mem here member)
  refine links_append.mpr ⟨?_, ?_, createdNext, herePrev, ?_, ?_⟩
  · exact relink_after left nodupA (fun c member => samePrev c (List.mem_append_left b member))
      (fun c member => sameNext c (List.mem_append_left b member)) lastNext
  · exact createdPrev.trans right.1
  · exact hereNext.trans right.2.1
  · exact links_congr right.2.2 (fun c member => samePrev c (List.mem_append_right a member))
      (fun c member => sameNext c (List.mem_append_right a member) (apart c member))

/-- `kept` swallows its successor. -/
theorem links_remove_next {kept gone : ι}
    (linked : Links prev next before (a ++ kept :: gone :: b) after)
    (keptPrev : prev' kept = prev kept) (keptNext : next' kept = next gone)
    (samePrev : ∀ c ∈ a ++ b.tail, prev' c = prev c)
    (sameNext : ∀ c ∈ a ++ b, next' c = next c)
    (firstPrev : ∀ c, b.head? = some c → prev' c = some kept) :
    Links prev' next' before (a ++ kept :: b) after := by
  obtain ⟨left, right⟩ := links_append.mp linked
  refine links_append.mpr ⟨?_, ?_, ?_, ?_⟩
  · exact links_congr left (fun c member => samePrev c (List.mem_append_left _ member))
      (fun c member => sameNext c (List.mem_append_left b member))
  · exact keptPrev.trans right.1
  · exact keptNext.trans right.2.2.2.1
  · exact relink_before right.2.2.2.2 firstPrev
      (fun c member => samePrev c (List.mem_append_right a member))
      (fun c member => sameNext c (List.mem_append_right a member))

/-- `kept` swallows its predecessor. -/
theorem links_remove_prev {kept gone : ι} (nodup : (a ++ gone :: kept :: b).Nodup)
    (linked : Links prev next before (a ++ gone :: kept :: b) after)
    (keptPrev : prev' kept = prev gone) (keptNext : next' kept = next kept)
    (samePrev : ∀ c ∈ a ++ b, prev' c = prev c)
    (sameNext : ∀ c ∈ a ++ b, a.getLast? ≠ some c → next' c = next c)
    (lastNext : ∀ c, a.getLast? = some c → next' c = some kept) :
    Links prev' next' before (a ++ kept :: b) after := by
  obtain ⟨left, right⟩ := links_append.mp linked
  have nodupA : a.Nodup := nodup.of_append_left
  have apart : ∀ c ∈ b, a.getLast? ≠ some c := by
    intro c member same
    exact List.disjoint_of_nodup_append nodup (List.mem_of_getLast? same)
      (List.mem_cons_of_mem gone (List.mem_cons_of_mem kept member))
  refine links_append.mpr ⟨?_, ?_, ?_, ?_⟩
  · exact relink_after left nodupA (fun c member => samePrev c (List.mem_append_left b member))
      (fun c member => sameNext c (List.mem_append_left b member)) lastNext
  · exact keptPrev.trans right.1
  · exact keptNext.trans right.2.2.2.1
  · exact links_congr right.2.2.2.2 (fun c member => samePrev c (List.mem_append_right a member))
      (fun c member => sameNext c (List.mem_append_right a member) (apart c member))

/-! ### What the links of one node say -/

theorem links_prev_eq {c : ι} (linked : Links prev next before (a ++ c :: b) after) :
    prev c = a.getLast?.or before := (links_append.mp linked).2.1

theorem links_next_eq {c : ι} (linked : Links prev next before (a ++ c :: b) after) :
    next c = b.head?.or after := (links_append.mp linked).2.2.1

theorem links_successor {l : List ι} {c d : ι} (linked : Links prev next before l none)
    (member : c ∈ l) (link : next c = some d) : ∃ a b, l = a ++ c :: d :: b := by
  obtain ⟨a, b, rfl⟩ := List.append_of_mem member
  have nextEq : b.head? = some d := by
    simpa using (links_next_eq linked).symm.trans link
  cases b with
  | nil => simp at nextEq
  | cons e b =>
    obtain rfl : e = d := by simpa using nextEq
    exact ⟨a, b, rfl⟩

theorem links_predecessor {l : List ι} {c d : ι} (linked : Links prev next none l after)
    (member : c ∈ l) (link : prev c = some d) : ∃ a b, l = a ++ d :: c :: b := by
  obtain ⟨a, b, rfl⟩ := List.append_of_mem member
  have prevEq : a.getLast? = some d := by
    simpa using (links_prev_eq linked).symm.trans link
  obtain ⟨a, rfl⟩ := List.getLast?_eq_some_iff.mp prevEq
  exact ⟨a, b, by simp⟩

/-- The only node without a predecessor is the first. -/
theorem links_head {l : List ι} {c : ι} (linked : Links prev next none l after)
    (member : c ∈ l) (first : prev c = none) : l.head? = some c := by
  obtain ⟨a, b, rfl⟩ := List.append_of_mem member
  have prevEq : a.getLast? = none := by
    simpa using (links_prev_eq linked).symm.trans first
  obtain rfl := List.getLast?_eq_none_iff.mp prevEq
  rfl

/-- A node with neither link is the whole list. -/
theorem links_alone {l : List ι} {c : ι} (linked : Links prev next none l none)
    (member : c ∈ l) (first : prev c = none) (last : next c = none) : l = [c] := by
  obtain ⟨a, b, rfl⟩ := List.append_of_mem member
  have prevEq : a.getLast? = none := by
    simpa using (links_prev_eq linked).symm.trans first
  have nextEq : b.head? = none := by
    simpa using (links_next_eq linked).symm.trans last
  obtain rfl := List.getLast?_eq_none_iff.mp prevEq
  obtain rfl := List.head?_eq_none_iff.mp nextEq
  rfl

/-! ### Tilings -/

/-- The cells of the list follow each other without a gap from `start` to `stop`. -/
def Tiles (ptr size : ι → Nat) : Nat → List ι → Nat → Prop
  | start, [], stop => start = stop
  | start, b :: rest, stop => ptr b = start ∧ Tiles ptr size (start + size b) rest stop

variable {ptr size ptr' size' : ι → Nat} {start stop : Nat}

theorem tiles_append : ∀ {a : List ι} {start : Nat},
    Tiles ptr size start (a ++ b) stop ↔
      ∃ middle, Tiles ptr size start a middle ∧ Tiles ptr size middle b stop
  | [], start => by simp [Tiles]
  | c :: a, start => by
    simp only [List.cons_append, Tiles, tiles_append (a := a), ← exists_and_left, and_assoc]

theorem tiles_congr : ∀ {l : List ι} {start : Nat}, Tiles ptr size start l stop →
    (∀ c ∈ l, ptr' c = ptr c) → (∀ c ∈ l, size' c = size c) → Tiles ptr' size' start l stop
  | [], _, tiled, _, _ => tiled
  | c :: l, _, tiled, samePtr, sameSize => by
    refine ⟨(samePtr c List.mem_cons_self).trans tiled.1, ?_⟩
    rw [sameSize c List.mem_cons_self]
    exact tiles_congr tiled.2 (fun d member => samePtr d (List.mem_cons_of_mem c member))
      (fun d member => sameSize d (List.mem_cons_of_mem c member))

theorem tiles_sum : ∀ {l : List ι} {start : Nat}, Tiles ptr size start l stop →
    stop = start + (l.map size).sum
  | [], _, tiled => by simpa [Tiles] using tiled.symm
  | c :: l, start, tiled => by
    rw [tiles_sum tiled.2, List.map_cons, List.sum_cons, Nat.add_assoc]

/-- Where a cell of a tiling lies. -/
theorem tiles_split {c : ι} (tiled : Tiles ptr size start (a ++ c :: b) stop) :
    Tiles ptr size start a (ptr c) ∧ Tiles ptr size (ptr c + size c) b stop := by
  obtain ⟨middle, left, rfl, right⟩ := tiles_append.mp tiled
  exact ⟨left, right⟩

theorem tiles_le {l : List ι} (tiled : Tiles ptr size start l stop) : start ≤ stop := by
  rw [tiles_sum tiled]
  exact Nat.le_add_right _ _

theorem tiles_within {l : List ι} {c : ι} (tiled : Tiles ptr size start l stop) (member : c ∈ l) :
    start ≤ ptr c ∧ ptr c + size c ≤ stop := by
  obtain ⟨a, b, rfl⟩ := List.append_of_mem member
  obtain ⟨left, right⟩ := tiles_split tiled
  exact ⟨tiles_le left, tiles_le right⟩

/-- Two cells of a tiling, in the order of the list. -/
theorem tiles_before {c d : ι} (tiled : Tiles ptr size start (a ++ c :: b) stop) (later : d ∈ b) :
    ptr c + size c ≤ ptr d := (tiles_within (tiles_split tiled).2 later).1

theorem tiles_apart {l : List ι} {c d : ι} (tiled : Tiles ptr size start l stop) (first : c ∈ l)
    (second : d ∈ l) (differ : c ≠ d) : ptr c + size c ≤ ptr d ∨ ptr d + size d ≤ ptr c := by
  obtain ⟨a, b, rfl⟩ := List.append_of_mem first
  rcases List.mem_append.mp second with earlier | later
  · exact .inr (tiles_within (tiles_split tiled).1 earlier).2
  · rcases List.mem_cons.mp later with rfl | later
    · exact absurd rfl differ
    · exact .inl (tiles_before tiled later)

/-- A cell is cut in two. -/
theorem tiles_insert {created here : ι} (tiled : Tiles ptr size start (a ++ here :: b) stop)
    (createdPtr : ptr' created = ptr here) (herePtr : ptr' here = ptr here + size' created)
    (sizes : size' created + size' here = size here)
    (samePtr : ∀ c ∈ a ++ b, ptr' c = ptr c) (sameSize : ∀ c ∈ a ++ b, size' c = size c) :
    Tiles ptr' size' start (a ++ created :: here :: b) stop := by
  obtain ⟨left, right⟩ := tiles_split tiled
  refine tiles_append.mpr ⟨ptr here, ?_, createdPtr, herePtr, ?_⟩
  · exact tiles_congr left (fun c member => samePtr c (List.mem_append_left b member))
      (fun c member => sameSize c (List.mem_append_left b member))
  · rw [Nat.add_assoc, sizes]
    exact tiles_congr right (fun c member => samePtr c (List.mem_append_right a member))
      (fun c member => sameSize c (List.mem_append_right a member))

/-- A cell takes over the cell after it. -/
theorem tiles_remove_next {kept gone : ι}
    (tiled : Tiles ptr size start (a ++ kept :: gone :: b) stop)
    (keptPtr : ptr' kept = ptr kept) (keptSize : size' kept = size kept + size gone)
    (samePtr : ∀ c ∈ a ++ b, ptr' c = ptr c) (sameSize : ∀ c ∈ a ++ b, size' c = size c) :
    Tiles ptr' size' start (a ++ kept :: b) stop := by
  obtain ⟨left, gonePtr, right⟩ := tiles_split tiled
  refine tiles_append.mpr ⟨ptr kept, ?_, keptPtr, ?_⟩
  · exact tiles_congr left (fun c member => samePtr c (List.mem_append_left b member))
      (fun c member => sameSize c (List.mem_append_left b member))
  · rw [keptSize, ← Nat.add_assoc]
    exact tiles_congr right (fun c member => samePtr c (List.mem_append_right a member))
      (fun c member => sameSize c (List.mem_append_right a member))

/-- A cell takes over the cell before it. -/
theorem tiles_remove_prev {kept gone : ι}
    (tiled : Tiles ptr size start (a ++ gone :: kept :: b) stop)
    (keptPtr : ptr' kept = ptr gone) (keptSize : size' kept = size kept + size gone)
    (samePtr : ∀ c ∈ a ++ b, ptr' c = ptr c) (sameSize : ∀ c ∈ a ++ b, size' c = size c) :
    Tiles ptr' size' start (a ++ kept :: b) stop := by
  obtain ⟨left, keptAt, right⟩ := tiles_split tiled
  refine tiles_append.mpr ⟨ptr gone, ?_, keptPtr, ?_⟩
  · exact tiles_congr left (fun c member => samePtr c (List.mem_append_left b member))
      (fun c member => sameSize c (List.mem_append_left b member))
  · have total : ptr gone + size' kept = ptr gone + size gone + size kept := by omega
    rw [total]
    exact tiles_congr right (fun c member => samePtr c (List.mem_append_right a member))
      (fun c member => sameSize c (List.mem_append_right a member))

/-! ### Sizes modulo a word -/

section Sums
variable {n : Nat}

theorem sum_congr {l : List ι} (same : ∀ c ∈ l, size' c = size c) :
    (l.map size').sum = (l.map size).sum := by
  rw [List.map_congr_left same]

/-- Cells are replaced by others of the same total size. -/
theorem sum_replace {old new : List ι}
    (sizes : (new.map size').sum ≡ (old.map size).sum [MOD n])
    (same : ∀ c ∈ a ++ b, size' c = size c) :
    ((a ++ new ++ b).map size').sum ≡ ((a ++ old ++ b).map size).sum [MOD n] := by
  have left := sum_congr fun c member => same c (List.mem_append_left b member)
  have right := sum_congr fun c member => same c (List.mem_append_right a member)
  simp only [List.map_append, List.sum_append, left, right]
  exact (sizes.add_left _).add_right _

/-- A cell is cut in two. -/
theorem sum_insert {created here : ι} (sizes : size' created + size' here ≡ size here [MOD n])
    (same : ∀ c ∈ a ++ b, size' c = size c) :
    ((a ++ created :: here :: b).map size').sum ≡ ((a ++ here :: b).map size).sum [MOD n] := by
  have replaced : ((a ++ [created, here] ++ b).map size').sum ≡
      ((a ++ [here] ++ b).map size).sum [MOD n] := by
    apply sum_replace _ same
    simpa using sizes
  simpa using replaced

/-- A cell takes over one of its neighbours. -/
theorem sum_remove {kept : ι} {pair : List ι}
    (sizes : size' kept ≡ (pair.map size).sum [MOD n])
    (same : ∀ c ∈ a ++ b, size' c = size c) :
    ((a ++ kept :: b).map size').sum ≡ ((a ++ pair ++ b).map size).sum [MOD n] := by
  have replaced : ((a ++ [kept] ++ b).map size').sum ≡
      ((a ++ pair ++ b).map size).sum [MOD n] := by
    apply sum_replace _ same
    simpa using sizes
  simpa using replaced

end Sums

end LinkedList

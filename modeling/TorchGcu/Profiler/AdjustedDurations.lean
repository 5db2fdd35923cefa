import TorchGcu.Logic.MachineIntegers
import TorchGcu.Profiler.AdjustTimestamps
import Mathlib.Data.Int.Init
import Mathlib.Algebra.Order.BigOperators.Group.List

/-! The durations of the events once their children are added up in 32 bits: an event whose
children fit gets the time that it needs. -/
namespace TorchGcu.EventTree
open TorchGcu.Logic

/-! ### Times without overflow -/

/-- One step of an accumulator of 32 bits. -/
theorem accumulate_toInt (acc : Int32) {duration : Time} (least : 0 ≤ duration.toInt)
    (most : duration.toInt < 2 ^ 62) :
    (acc.toInt64 + duration).toInt32.toInt = (acc.toInt + duration.toInt).bmod (2 ^ 32) := by
  have lower := acc.le_toInt
  have upper := acc.toInt_lt
  rw [Int64.toInt_toInt32, add_exact (by rw [Int32.toInt_toInt64]; omega)
    (by rw [Int32.toInt_toInt64]; omega), Int32.toInt_toInt64]

theorem minTime_lt {a : Time} (start : -2 ^ 62 ≤ a.toInt) : a ≠ minTime := by
  rintro rfl
  revert start
  decide

/-! ### One event -/

/-- What is known of an event while it is adjusted. -/
structure Steady (r : Result) : Prop where
  kind : r.isTorchOp = true ∨ r.isVulkan = true ∨ r.isAllocation = true
  built : r.setInTreeBuilding false = r
  least : 0 ≤ r.duration
  most : r.duration < 2 ^ 62
  start : -2 ^ 62 ≤ r.startTimeNs.toInt
  room : r.startTimeNs.toInt + r.duration < 2 ^ 63

namespace Steady

variable {r : Result}

theorem endTime (steady : Steady r) : r.endTime.toInt = r.startTimeNs.toInt + r.duration := by
  obtain ⟨kind, built, least, most, start, room⟩ := steady
  obtain ⟨startTimeNs, startTid, extraFields, parent, children, finished⟩ := r
  cases extraFields with
  | torchOp forwardTid endTimeNs => simp only [Result.endTime, Result.duration]; omega
  | vulkan durationNs inTreeBuilding =>
    cases inTreeBuilding with
    | true => simp [Result.setInTreeBuilding] at built
    | false =>
      simp only [Result.duration] at least most room start
      simp only [Result.endTime, Result.duration, Bool.false_eq_true, if_false]
      exact add_exact room (by omega)
  | allocation => simp only [Result.endTime, Result.duration]; omega
  | backend => simp [Result.isTorchOp, Result.isVulkan, Result.isAllocation] at kind
  | outOfMemory => simp [Result.isTorchOp, Result.isVulkan, Result.isAllocation] at kind
  | pyCall => simp [Result.isTorchOp, Result.isVulkan, Result.isAllocation] at kind
  | pyCCall => simp [Result.isTorchOp, Result.isVulkan, Result.isAllocation] at kind
  | kineto => simp [Result.isTorchOp, Result.isVulkan, Result.isAllocation] at kind

/-- Such an event has an end of its own, which `endTimeNS` returns. -/
theorem endTimeNS (steady : Steady r) (parentEnd : Option Time) :
    (r.endTimeNS parentEnd).toInt = r.startTimeNs.toInt + r.duration := by
  have own := steady.endTime
  have valid : r.validEnd r.endTime = r.endTime := by
    have ordered : r.startTimeNs ≤ r.endTime := by
      rw [Int64.le_iff_toInt_le]
      have := steady.least
      omega
    simp [Result.validEnd, ordered]
  have given : r.borrows = false := by
    have := minTime_lt (a := r.endTime) (by have := steady.least; have := steady.start; omega)
    simp [Result.borrows, this]
  cases parentEnd <;> simp [Result.endTimeNS, given, valid, own]

/-- The duration that the code computes. -/
theorem durationNS (steady : Steady r) (parentEnd : Option Time) :
    (r.endTimeNS parentEnd - r.startTimeNs).toInt = r.duration := by
  have ends := steady.endTimeNS parentEnd
  have least := steady.least
  have most := steady.most
  rw [sub_exact (by omega) (by omega)]
  omega

theorem setDuration (steady : Steady r) {duration : Time} (wider : r.duration ≤ duration.toInt)
    (most : duration.toInt < 2 ^ 62) (room : r.startTimeNs.toInt + duration.toInt < 2 ^ 63) :
    Steady (r.setDuration duration) ∧
      (r.setDuration duration).startTimeNs = r.startTimeNs ∧
      (r.setDuration duration).isVulkan = r.isVulkan ∧
      (r.setDuration duration).isAllocation = r.isAllocation ∧
      (r.setDuration duration).duration =
        if r.isAllocation = true then 0 else duration.toInt := by
  obtain ⟨kind, built, least, _, start, room'⟩ := steady
  obtain ⟨startTimeNs, startTid, extraFields, parent, children, finished⟩ := r
  cases extraFields with
  | torchOp forwardTid endTimeNs =>
    have exact : (startTimeNs + duration).toInt = startTimeNs.toInt + duration.toInt :=
      add_exact room (by simp only at start; omega)
    have same : (startTimeNs + duration).toInt - startTimeNs.toInt = duration.toInt := by omega
    refine ⟨⟨?_, rfl, ?_, ?_, start, ?_⟩, rfl, rfl, rfl, ?_⟩
    · exact .inl rfl
    all_goals simp only [Result.setDuration, Result.duration, same, Result.isAllocation,
      Bool.false_eq_true, if_false] at *
    · omega
    · exact most
    · exact room
  | vulkan durationNs inTreeBuilding =>
    refine ⟨⟨.inr (.inl rfl), ?_, ?_, ?_, start, ?_⟩, rfl, rfl, rfl, ?_⟩
    · simpa [Result.setInTreeBuilding, Result.setDuration] using built
    all_goals simp only [Result.setDuration, Result.duration, Result.isAllocation,
      Bool.false_eq_true, if_false] at *
    · omega
    · exact most
    · exact room
  | allocation =>
    exact ⟨⟨kind, built, least, by simp [Result.setDuration, Result.duration], start, room'⟩,
      rfl, rfl, rfl, rfl⟩
  | backend => simp [Result.isTorchOp, Result.isVulkan, Result.isAllocation] at kind
  | outOfMemory => simp [Result.isTorchOp, Result.isVulkan, Result.isAllocation] at kind
  | pyCall => simp [Result.isTorchOp, Result.isVulkan, Result.isAllocation] at kind
  | pyCCall => simp [Result.isTorchOp, Result.isVulkan, Result.isAllocation] at kind
  | kineto => simp [Result.isTorchOp, Result.isVulkan, Result.isAllocation] at kind

theorem setStart (steady : Steady r) {newStartTime : Time}
    (start : -2 ^ 62 ≤ newStartTime.toInt) (room : newStartTime.toInt + r.duration < 2 ^ 63) :
    Steady (r.setStart newStartTime) ∧ (r.setStart newStartTime).duration = r.duration := by
  by_cases moved : r.startTimeNs = newStartTime
  · simp only [Result.setStart, moved, ne_eq, not_true_eq_false, if_false]
    exact ⟨steady, trivial⟩
  obtain ⟨kind, built, least, most, _, _⟩ := steady
  obtain ⟨startTimeNs, startTid, extraFields, parent, children, finished⟩ := r
  cases extraFields with
  | torchOp forwardTid endTimeNs =>
    simp only [Result.duration] at least most room
    have duration : (endTimeNs - startTimeNs).toInt = endTimeNs.toInt - startTimeNs.toInt :=
      sub_exact (by omega) (by omega)
    have exact : (newStartTime + (endTimeNs - startTimeNs)).toInt =
        newStartTime.toInt + (endTimeNs.toInt - startTimeNs.toInt) := by
      rw [add_exact (by omega) (by omega), duration]
    have same : (newStartTime + (endTimeNs - startTimeNs)).toInt - newStartTime.toInt =
        endTimeNs.toInt - startTimeNs.toInt := by omega
    simp only at moved
    simp only [Result.setStart, ne_eq, moved, not_false_eq_true, if_true]
    refine ⟨⟨.inl rfl, rfl, ?_, ?_, start, ?_⟩, ?_⟩
    all_goals simp only [Result.duration, same]
    · exact least
    · exact most
    · exact room
  | vulkan durationNs inTreeBuilding =>
    simp only at moved
    simp only [Result.setStart, ne_eq, moved, not_false_eq_true, if_true]
    refine ⟨⟨.inr (.inl rfl), ?_, least, most, start, room⟩, rfl⟩
    simpa [Result.setInTreeBuilding] using built
  | allocation =>
    simp only at moved
    simp only [Result.setStart, ne_eq, moved, not_false_eq_true, if_true]
    exact ⟨⟨.inr (.inr rfl), rfl, least, most, start, room⟩, rfl⟩
  | backend => simp [Result.isTorchOp, Result.isVulkan, Result.isAllocation] at kind
  | outOfMemory => simp [Result.isTorchOp, Result.isVulkan, Result.isAllocation] at kind
  | pyCall => simp [Result.isTorchOp, Result.isVulkan, Result.isAllocation] at kind
  | pyCCall => simp [Result.isTorchOp, Result.isVulkan, Result.isAllocation] at kind
  | kineto => simp [Result.isTorchOp, Result.isVulkan, Result.isAllocation] at kind

end Steady

theorem Timed.steady {r : Result} (timed : Timed r) (most : r.duration < 2 ^ 62)
    (room : r.startTimeNs.toInt + r.duration < 2 ^ 63) : Steady r :=
  ⟨timed.kind, timed.built, timed.duration, most, timed.start, room⟩



/-! ### The widened durations -/

mutual

/-- The second tree has the events of the first one, with durations that were kept or are those of
their children. -/
def Ready : Tree → Tree → Prop
  | .node r children, .node r' children' =>
    (Steady r' ∧ 0 ≤ r.duration ∧ r.duration ≤ r'.duration ∧
      (r'.duration = r.duration ∨ r'.duration < 2 ^ 31)) ∧ AllReady children children'

def AllReady : List Tree → List Tree → Prop
  | [], [] => True
  | child :: children, child' :: children' => Ready child child' ∧ AllReady children children'
  | _, _ => False

end

/-- The durations of siblings. -/
def durations : List Tree → Int
  | [] => 0
  | child :: children => child.result.duration + durations children

mutual

/-- The children have room in their parent, and their durations in the accumulator. -/
def Wide : Tree → Prop
  | .node r children =>
    durations children ≤ r.duration ∧ durations children < 2 ^ 31 ∧ AllWide children

def AllWide : List Tree → Prop
  | [] => True
  | child :: children => Wide child ∧ AllWide children

end

/-- What `adjust_durations_dfs` makes of an event. -/
structure Widened (original : Tree) (adjusted : Tree × Time) : Prop where
  ready : Ready original adjusted.1
  start : adjusted.1.startTimeNs = original.startTimeNs
  vulkan : adjusted.1.result.isVulkan = original.result.isVulkan
  below : adjusted.1.result.duration ≤ adjusted.2.toInt
  most : adjusted.2.toInt ≤ total original.events
  wide : Wide adjusted.1 ↔ original.Fits
  exact : original.Fits → adjusted.2.toInt = original.width ∧
    adjusted.1.result.duration = original.width

structure AllWidened (originals : List Tree) (acc : Int32) (adjusted : List Tree × Int32)
    (sum : Int) : Prop where
  ready : AllReady originals adjusted.1
  total : adjusted.2.toInt = (acc.toInt + sum).bmod (2 ^ 32)
  least : 0 ≤ sum
  most : sum ≤ EventTree.total (events originals)
  wide : AllWide adjusted.1 ↔ AllFit originals
  exact : AllFit originals → sum = widths originals ∧ durations adjusted.1 = widths originals

/-- The events of a part of a forest with so much time in total. -/
structure Within (limit : Int) (results : List Result) : Prop where
  timed : ∀ event ∈ results, Timed event
  room : ∀ event ∈ results, event.startTimeNs.toInt + limit < 2 ^ 63
  total : total results ≤ limit

theorem Timed.total_nonneg {results : List Result} (timed : ∀ event ∈ results, Timed event) :
    0 ≤ total results := by
  refine List.sum_nonneg fun duration member => ?_
  obtain ⟨event, present, rfl⟩ := List.mem_map.mp member
  exact (timed event present).duration

@[simp] theorem total_cons (r : Result) (results : List Result) :
    total (r :: results) = r.duration + total results := by
  simp [total]

@[simp] theorem total_append (before after : List Result) :
    total (before ++ after) = total before + total after := by
  simp [total]

theorem Within.append {limit : Int} {before after : List Result}
    (within : Within limit (before ++ after)) : Within limit before ∧ Within limit after := by
  obtain ⟨timed, room, most⟩ := within
  have first : ∀ event ∈ before, Timed event := fun event member =>
    timed event (List.mem_append_left after member)
  have second : ∀ event ∈ after, Timed event := fun event member =>
    timed event (List.mem_append_right before member)
  have least := Timed.total_nonneg first
  have least' := Timed.total_nonneg second
  rw [total_append] at most
  exact ⟨⟨first, fun event member => room event (List.mem_append_left after member), by omega⟩,
    ⟨second, fun event member => room event (List.mem_append_right before member), by omega⟩⟩

theorem Ready.steady {t t' : Tree} (ready : Ready t t') : Steady t'.result := by
  obtain ⟨r, children⟩ := t
  obtain ⟨r', children'⟩ := t'
  rw [Ready] at ready
  exact ready.1.1

theorem Ready.durations_nonneg :
    ∀ {ts ts' : List Tree}, AllReady ts ts' → 0 ≤ durations ts'
  | [], [], _ => le_refl 0
  | _ :: _, _ :: _, ready => by
    rw [AllReady] at ready
    rw [durations]
    have := ready.1.steady.least
    have := Ready.durations_nonneg ready.2
    omega

/-- The wider duration of an event, once its children are adjusted. -/
theorem Widened.node {r : Result} {children : List Tree} {limit : Int} (small : limit < 2 ^ 62)
    (parentEnd : Option Time) (within : Within limit (Tree.node r children).events)
    {sum : Int}
    (widened : AllWidened children 0
      (adjustDurations (some (r.endTimeNS parentEnd)) 0 children) sum) :
    Widened (.node r children) (adjustDurationsDfs parentEnd (.node r children)) := by
  obtain ⟨timed, room, most⟩ := within
  rw [Tree.events] at timed room most
  rw [total_cons] at most
  have own : Timed r := timed r List.mem_cons_self
  have start := room r List.mem_cons_self
  have inner := Timed.total_nonneg fun event member =>
    timed event (List.mem_cons_of_mem r member)
  have least := own.duration
  have steady : Steady r := own.steady (by omega) (by omega)
  have original := steady.durationNS parentEnd
  rw [adjustDurationsDfs]
  generalize adjustDurations (some (r.endTimeNS parentEnd)) 0 children = adjusted at widened
  obtain ⟨children', accumulated⟩ := adjusted
  obtain ⟨ready, accumulates, sumLeast, sumMost, wide, exact⟩ := widened
  simp only at ready accumulates wide exact
  have nonneg := Ready.durations_nonneg ready
  rw [show (0 : Int32).toInt = 0 from rfl, zero_add] at accumulates
  have upper := accumulated.toInt_lt
  -- a sum that fits is accumulated as it is, any other one as less than it is
  have whole : sum < 2 ^ 31 → accumulated.toInt = sum := fun fits => by
    rw [accumulates]
    exact Int.bmod_eq_of_le (by omega) (by omega)
  have short : accumulated.toInt ≤ sum := by
    by_cases fits : sum < 2 ^ 31
    · exact (whole fits).le
    · omega
  by_cases wider : accumulated.toInt64 > r.endTimeNS parentEnd - r.startTimeNs
  · have longer : r.duration < accumulated.toInt := by
      have := Int64.lt_iff_toInt_lt.mp wider
      rwa [original, Int32.toInt_toInt64] at this
    have set := @Steady.setDuration r steady accumulated.toInt64
      (by rw [Int32.toInt_toInt64]; omega) (by rw [Int32.toInt_toInt64]; omega)
      (by rw [Int32.toInt_toInt64]; omega)
    rw [Int32.toInt_toInt64] at set
    obtain ⟨steady', started, vulkan, allocation, duration⟩ := set
    rw [if_pos wider]
    have grows : r.duration ≤ (r.setDuration accumulated.toInt64).duration := by
      by_cases kind : r.isAllocation = true
      · obtain ⟨startTimeNs, startTid, extraFields, parent, links, finished⟩ := r
        cases extraFields <;> simp_all [Result.isAllocation, Result.setDuration]
      · rw [duration, if_neg kind]
        omega
    have fitting : (Tree.node r children).Fits ↔
        durations children' ≤ (r.setDuration accumulated.toInt64).duration ∧
          durations children' < 2 ^ 31 ∧ AllWide children' := by
      rw [Tree.Fits, duration]
      constructor
      · rintro ⟨fits, none, all⟩
        have sums := exact all
        have same := whole (by omega)
        refine ⟨?_, by omega, wide.mpr all⟩
        split
        · have := none ‹_›
          omega
        · omega
      · rintro ⟨holds, fits, all⟩
        have sums := exact (wide.mp all)
        refine ⟨by omega, fun kind => ?_, wide.mp all⟩
        rw [if_pos kind] at holds
        omega
    refine ⟨?_, started, vulkan, ?_, ?_, ?_, ?_⟩
    · rw [Ready]
      refine ⟨⟨steady', least, grows, .inr ?_⟩, ready⟩
      rw [duration]
      split <;> omega
    · simp only [Tree.result, Int32.toInt_toInt64]
      rw [duration]
      split <;> omega
    · simp only [Int32.toInt_toInt64, Tree.events, total_cons]
      omega
    · rw [Wide]
      exact fitting.symm
    · intro fits
      have held := fitting.mp fits
      rw [Tree.Fits] at fits
      have sums := exact fits.2.2
      have same := whole (by omega)
      have notAllocation : r.isAllocation = false := by
        by_contra kind
        have := fits.2.1 (by simpa using kind)
        omega
      simp only [Tree.result, Tree.width, Int32.toInt_toInt64]
      rw [duration, if_neg (by simp [notAllocation])]
      omega
  · have shorter : accumulated.toInt ≤ r.duration := by
      have := Int64.lt_iff_toInt_lt.not.mp wider
      rw [original, Int32.toInt_toInt64] at this
      omega
    rw [if_neg wider]
    refine ⟨?_, rfl, rfl, ?_, ?_, ?_, ?_⟩
    · rw [Ready]
      exact ⟨⟨steady, least, le_refl _, .inl rfl⟩, ready⟩
    · simp only [Tree.result]
      rw [original]
    · simp only [Tree.events, total_cons]
      rw [original]
      omega
    · change Wide (.node r children') ↔ _
      rw [Wide, Tree.Fits]
      constructor
      · rintro ⟨holds, fits, all⟩
        have sums := exact (wide.mp all)
        refine ⟨by omega, fun kind => ?_, wide.mp all⟩
        have none : r.duration = 0 := by
          obtain ⟨startTimeNs, startTid, extraFields, parent, links, finished⟩ := r
          cases extraFields <;> simp_all [Result.isAllocation, Result.duration]
        omega
      · rintro ⟨fits, _, all⟩
        have sums := exact all
        have same := whole (by omega)
        exact ⟨by omega, by omega, wide.mpr all⟩
    · intro fits
      rw [Tree.Fits] at fits
      have sums := exact fits.2.2
      have same := whole (by omega)
      simp only [Tree.result, Tree.width]
      rw [original]
      omega

mutual

theorem adjustDurationsDfs_widens {limit : Int} (small : limit < 2 ^ 62)
    (parentEnd : Option Time) : ∀ t : Tree, Within limit t.events →
      Widened t (adjustDurationsDfs parentEnd t)
  | .node r children, within => by
    have inner : Within limit ([r] ++ events children) := within
    obtain ⟨sum, widened⟩ := adjustDurations_widens small (some (r.endTimeNS parentEnd)) 0
      children inner.append.2
    exact Widened.node small parentEnd within widened

theorem adjustDurations_widens {limit : Int} (small : limit < 2 ^ 62)
    (parentEnd : Option Time) (acc : Int32) : ∀ ts : List Tree, Within limit (events ts) →
      ∃ sum, AllWidened ts acc (adjustDurations parentEnd acc ts) sum
  | [], _ => by
    rw [adjustDurations]
    refine ⟨0, ⟨trivial, ?_, le_refl 0, le_refl 0, Iff.rfl, fun _ => ⟨rfl, rfl⟩⟩⟩
    have lower := acc.le_toInt
    have upper := acc.toInt_lt
    rw [add_zero]
    show acc.toInt = _
    exact (Int.bmod_eq_of_le (by omega) (by omega)).symm
  | child :: children, within => by
    rw [events] at within
    have first := adjustDurationsDfs_widens small parentEnd child within.append.1
    have most := first.most.trans within.append.1.total
    have least := first.ready.steady.least.trans first.below
    obtain ⟨sum, rest⟩ := adjustDurations_widens small parentEnd
      (acc.toInt64 + (adjustDurationsDfs parentEnd child).2).toInt32 children within.append.2
    rw [adjustDurations]
    refine ⟨(adjustDurationsDfs parentEnd child).2.toInt + sum, ⟨?_, ?_, ?_, ?_, ?_, ?_⟩⟩
    · rw [AllReady]
      exact ⟨first.ready, rest.ready⟩
    · rw [rest.total, accumulate_toInt acc least (by omega), Int.bmod_add_bmod, add_assoc]
    · have := rest.least
      omega
    · rw [events, total_append]
      have := first.most
      have := rest.most
      omega
    · rw [AllWide, AllFit, first.wide, rest.wide]
    · intro fits
      rw [AllFit] at fits
      have own := first.exact fits.1
      have others := rest.exact fits.2
      rw [widths, durations]
      omega

end

end TorchGcu.EventTree

import TorchGcu.CachingAllocator.Runs
import Mathlib.Order.Interval.Finset.Nat

/-! What `total_allocated_memory` counts: the sizes of the device's live allocations. -/
namespace TorchGcu.GCUCachingAllocator

variable {mode : Mode} {cfg : GCUAllocatorConfig} {rt : Runtime} {exact : Prop} {h h' : Hand}
  {st st' : State}

/-- The addresses of some ranges. -/
def addresses (ranges : List Range) : Finset Nat :=
  ranges.foldr (fun range rest => Finset.Ico range.base (range.base + range.size) ∪ rest) ∅

theorem mem_addresses {ranges : List Range} {a : Nat} :
    a ∈ addresses ranges ↔ ∃ range ∈ ranges, range.base ≤ a ∧ a < range.base + range.size := by
  induction ranges with
  | nil => simp [addresses]
  | cons range rest ih =>
    have unfolded : addresses (range :: rest) =
        Finset.Ico range.base (range.base + range.size) ∪ addresses rest := rfl
    simp [unfolded, ih]

/-- Ranges that lie apart have as many addresses as their sizes say. -/
theorem addresses_card {ranges : List Range} (apart : ranges.Pairwise Range.Apart) :
    (addresses ranges).card = (ranges.map (·.size)).sum := by
  induction ranges with
  | nil => rfl
  | cons range rest ih =>
    obtain ⟨here, apart⟩ := List.pairwise_cons.mp apart
    have disjoint : Disjoint (Finset.Ico range.base (range.base + range.size))
        (addresses rest) := by
      rw [Finset.disjoint_left]
      intro a inside outside
      obtain ⟨other, member, above, below⟩ := mem_addresses.mp outside
      obtain ⟨lower, upper⟩ := Finset.mem_Ico.mp inside
      rcases here other member with before | after
      · omega
      · omega
    have united : addresses (range :: rest) =
        Finset.Ico range.base (range.base + range.size) ∪ addresses rest := rfl
    rw [united, Finset.card_union_of_disjoint disjoint, ih apart, Nat.card_Ico, List.map_cons,
      List.sum_cons, Nat.add_sub_cancel_left]

theorem sum_sizes_lt {ranges : List Range} (proper : ∀ range ∈ ranges, range.Proper)
    (apart : ranges.Pairwise Range.Apart) : (ranges.map (·.size)).sum < 2 ^ 64 := by
  rw [← addresses_card apart]
  have within : addresses ranges ⊆ Finset.Ico 1 (2 ^ 64) := by
    intro a member
    obtain ⟨range, member, above, below⟩ := mem_addresses.mp member
    obtain ⟨positive, _, bounded⟩ := proper range member
    exact Finset.mem_Ico.mpr ⟨by omega, by omega⟩
  have counted := Finset.card_le_card within
  rw [Nat.card_Ico] at counted
  omega

/-- The counter is the memory the device has given out. -/
def Accounted (st : State) : Prop :=
  st.totalAllocatedMemory = (st.allocations.map (·.size)).sum

theorem Sound.sum_lt (sound : Sound exact h st) : (st.allocations.map (·.size)).sum < 2 ^ 64 := by
  obtain ⟨segs, shape, _⟩ := sound.heap
  exact sum_sizes_lt shape.proper shape.apart

@[simp] theorem newSegment_totalAllocatedMemory (st : State) (cfg : GCUAllocatorConfig)
    (params : AllocParams) (ptr : Nat) : (st.newSegment cfg params ptr).totalAllocatedMemory =
      sizeAdd st.totalAllocatedMemory params.allocSize := by
  simp only [State.newSegment]
  cases params.pool.ownerPrivatePool <;> rfl

@[simp] theorem released_totalAllocatedMemory (st : State) (cfg : GCUAllocatorConfig)
    (block : BlockId) : (st.released cfg block).totalAllocatedMemory =
      sizeSub st.totalAllocatedMemory (st.block block).size := by
  simp only [State.released]
  split <;> rfl

/-- The counter does not wrap when memory is obtained. -/
theorem Sound.obtained (sound : Sound exact h st) (accounted : Accounted st) {ptr size : Nat}
    (fresh : Fresh st.allocations ptr size) :
    sizeAdd st.totalAllocatedMemory size = st.totalAllocatedMemory + size := by
  obtain ⟨segs, shape, _⟩ := sound.heap
  have proper : ∀ range ∈ ⟨ptr, size⟩ :: st.allocations, range.Proper := by
    intro range member
    rcases List.mem_cons.mp member with rfl | member
    · exact ⟨fresh.1, fresh.2.1, fresh.2.2.1⟩
    · exact shape.proper range member
  have bounded := sum_sizes_lt proper (List.pairwise_cons.mpr ⟨fresh.2.2.2, shape.apart⟩)
  rw [List.map_cons, List.sum_cons, ← accounted] at bounded
  refine sizeAdd_of_lt ?_
  rw [Nat.add_comm]
  exact bounded

/-- The release of an unsplit block takes its segment out of the sum. -/
theorem Sound.returned (sound : Sound exact h st) (accounted : Accounted st) {block : BlockId}
    (live : st.Live block) (unsplit : (st.block block).isSplit = false) :
    (st.block block).size ≤ st.totalAllocatedMemory ∧
      sizeSub st.totalAllocatedMemory (st.block block).size =
        ((st.allocations.filter (·.base ≠ (st.block block).ptr)).map (·.size)).sum := by
  obtain ⟨segs, shape, _⟩ := sound.heap
  obtain ⟨seg, rest, order, _, _, base, size, shape'⟩ := shape.release live unsplit
  have bounded := sound.sum_lt
  have before : (st.allocations.map (·.size)).sum =
      seg.range.size + (rest.map fun seg => seg.range.size).sum := by
    have ranges := shape.ranges.trans (order.map (·.range))
    rw [(ranges.map (·.size)).sum_eq, List.map_cons, List.map_cons, List.sum_cons, List.map_map]
    rfl
  have after : ((st.allocations.filter (·.base ≠ (st.block block).ptr)).map (·.size)).sum =
      (rest.map fun seg => seg.range.size).sum := by
    have ranges : (st.allocations.filter (·.base ≠ (st.block block).ptr)).Perm
        (rest.map (·.range)) := shape'.ranges
    rw [(ranges.map (·.size)).sum_eq, List.map_map]
    rfl
  have sized : seg.range.size = (st.block block).size := size
  rw [before, sized] at bounded
  have counted : st.totalAllocatedMemory =
      (st.block block).size + (rest.map fun seg => seg.range.size).sum := by
    rw [accounted, before, sized]
  constructor
  · omega
  · rw [after, sizeSub_of_le (by omega) (by omega)]
    omega

/-- Every action keeps the account, as long as only unsplit blocks are released. -/
theorem Accounted.closed (whole : mode.whole) :
    Closed mode cfg rt fun h st => Sound mode.exact h st ∧ Accounted st := by
  intro h st h' st' holds act
  refine ⟨Sound.closed whole holds.1 act, ?_⟩
  obtain ⟨sound, accounted⟩ := holds
  have still : st'.totalAllocatedMemory = st.totalAllocatedMemory →
      st'.allocations = st.allocations → Accounted st' := by
    intro total ranges
    rw [Accounted, total, ranges]
    exact accounted
  have rest : Local st st' → Accounted st' := fun same =>
    still same.totalAllocatedMemory same.allocations
  cases act with
  | obtain _ params ptr request fresh owned spends =>
    rw [Accounted, newSegment_totalAllocatedMemory, newSegment_allocations,
      sound.obtained accounted fresh, List.map_cons, List.sum_cons, accounted]
    exact Nat.add_comm _ _
  | carve _ params found cut => exact rest (carved_local st params found)
  | keep _ params found => exact rest (kept_local st params found)
  | mergeLeft _ block origin src right idle split => exact rest (mergeBlocks_local st _ _ _)
  | mergeRight _ block origin src left idle split => exact rest (mergeBlocks_local st _ _ _)
  | settle _ block origin left right inserted => exact rest (settled_local st _ _ _ _)
  | dropSettling _ block origin left right refused =>
    have inserted := insertIntoBlocks_local (st.eraseActive block) origin.pool block
    exact still inserted.totalAllocatedMemory inserted.allocations
  | release _ pool block may freed counted =>
    have live := (sound.pooled.block may.pooled).1
    rw [Accounted, released_totalAllocatedMemory, released_allocations]
    exact (sound.returned accounted live (may.unsplit whole)).2
  | releaseStuck _ pool block may owner owned uncounted =>
    exact absurd (sound.counted_pos may.pooled owned) (by omega)
  | _ => exact still rfl rfl

end TorchGcu.GCUCachingAllocator

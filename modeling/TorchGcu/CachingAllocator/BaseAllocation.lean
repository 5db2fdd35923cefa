import TorchGcu.CachingAllocator.HeapOrder

/-! The device allocation that a block lies in: the walks along the links of a segment see all
its blocks. -/
namespace TorchGcu.GCUCachingAllocator
open ProgramLogic LinkedList

/-- The start and the size of the segment a block lies in. -/
def State.getBaseAllocation (st : State) (block : BlockId) : Nat × Nat :=
  let head := st.headOf st.nextBlock block
  ((st.block head).ptr,
    ((st.following st.nextBlock (some head)).map fun b => (st.block b).size).sum)

variable {h : Hand} {st : State} {allocations : List Range} {segs : List Segment}

/-- Following `next` from the first block of a list gives the list. -/
theorem State.following_links {before : Option BlockId} {list : List BlockId} {fuel : Nat}
    (linked : Links (prevOf st.blocks) (nextOf st.blocks) before list none)
    (enough : list.length ≤ fuel) : st.following fuel list.head? = list := by
  induction list generalizing fuel before with
  | nil => cases fuel <;> rfl
  | cons b rest ih =>
    cases fuel with
    | zero => simp at enough
    | succ fuel =>
      have link : (st.block b).next = rest.head? := linked.2.1.trans (by simp)
      simp only [List.head?_cons, State.following, link]
      rw [ih linked.2.2 (by simpa using enough)]

/-- Following `prev` from a block of a list ends at its first block. -/
theorem State.headOf_links {after : Option BlockId} {left right : List BlockId} {b : BlockId}
    {fuel : Nat} (linked : Links (prevOf st.blocks) (nextOf st.blocks) none (left ++ b :: right) after)
    (enough : left.length ≤ fuel) :
    (left ++ b :: right).head? = some (st.headOf fuel b) := by
  induction left using List.reverseRecOn generalizing b right fuel with
  | nil =>
    have link : (st.block b).prev = none := links_prev_eq linked
    cases fuel <;> simp [State.headOf, link]
  | append_singleton left p ih =>
    have link : (st.block b).prev = some p := (links_prev_eq linked).trans (by simp)
    simp only [List.append_assoc, List.singleton_append] at linked ⊢
    cases fuel with
    | zero => simp at enough
    | succ fuel =>
      simp only [State.headOf, link]
      exact ih linked (by simpa using enough)

namespace Shape
variable {exact : Prop} {seg : Segment}

/-- No segment has more blocks than were ever made. -/
theorem length_le (shape : Shape exact st.blocks st.nextBlock allocations segs)
    (member : seg ∈ segs) : seg.blocks.length ≤ st.nextBlock := by
  have nodup : seg.blocks.Nodup := (List.nodup_flatMap.mp shape.nodup).1 seg member
  have below : seg.blocks ⊆ List.range st.nextBlock := fun b inside =>
    List.mem_range.mpr (shape.bound b ((shape.live b).mpr ⟨seg, member, inside⟩))
  simpa using (List.subperm_of_subset nodup below).length_le

theorem following (shape : Shape exact st.blocks st.nextBlock allocations segs)
    (member : seg ∈ segs) : st.following st.nextBlock seg.blocks.head? = seg.blocks :=
  State.following_links (shape.formed seg member).linked (shape.length_le member)

theorem headOf (shape : Shape exact st.blocks st.nextBlock allocations segs)
    (member : seg ∈ segs) {b : BlockId} (inside : b ∈ seg.blocks) :
    seg.blocks.head? = some (st.headOf st.nextBlock b) := by
  have bound := shape.length_le member
  obtain ⟨left, right, list⟩ := List.append_of_mem inside
  have linked := (shape.formed seg member).linked
  rw [list] at linked bound ⊢
  exact State.headOf_links linked (by simp at bound; omega)

end Shape

/-- The base allocation of a block is the device allocation that it lies in. -/
theorem Sound.getBaseAllocation (sound : Sound True h st) {b : BlockId} (live : st.Live b) :
    ∃ range ∈ st.allocations, st.getBaseAllocation b = (range.base, range.size) ∧
      range.base ≤ (st.block b).ptr ∧
        (st.block b).ptr + (st.block b).size ≤ range.base + range.size := by
  obtain ⟨segs, shape, _⟩ := sound.heap
  obtain ⟨seg, member, inside⟩ := (shape.live b).mp live
  have formed := shape.formed seg member
  have tiled := formed.tiled trivial
  have head := shape.headOf member inside
  have list : st.following st.nextBlock (some (st.headOf st.nextBlock b)) = seg.blocks := by
    rw [← head]
    exact shape.following member
  have base : (st.block (st.headOf st.nextBlock b)).ptr = seg.range.base := formed.base _ head
  have sizes : (seg.blocks.map fun b => (st.block b).size).sum = seg.range.size :=
    (Nat.add_left_cancel (tiles_sum tiled)).symm
  have within := tiles_within tiled inside
  refine ⟨seg.range, shape.ranges.mem_iff.mpr (List.mem_map_of_mem member), ?_, within⟩
  simp only [State.getBaseAllocation, list, base, sizes]

end TorchGcu.GCUCachingAllocator

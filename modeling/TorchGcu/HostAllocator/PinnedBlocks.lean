import Mathlib.Data.List.Perm.Basic
import TorchGcu.HostAllocator.Allocator
import TorchGcu.Logic.Runs
import TorchGcu.Logic.Totals

/-! What holds of pinned host memory in every interleaving. A block has at most one owner: a
context that is live, the free list, its pending events, or a thread that is between two
sections; and its count of events is the number of entries queued or in a thread's hands. -/
namespace TorchGcu.TOPSHostAllocator
open ProgramLogic
open GCUCachingAllocator (Err TopsError GCUStream)

/-! ### Who owns a block -/

/-- The blocks that a thread owns between two sections. -/
def Phase.holds (block : BlockId) : Phase → Nat
  | .freeing held | .listing held | .inserting _ held => if held = block then 1 else 0
  | _ => 0

/-- The blocks that a thread is about to put on the free list. -/
def Phase.spares (block : BlockId) : Phase → Nat
  | .listing held | .inserting _ held => if held = block then 1 else 0
  | _ => 0

/-- The entries that a thread has in hand. -/
def Phase.entries : Phase → List Entry
  | .querying _ processed | .pushingBack _ processed | .counting _ processed => [processed]
  | .queuing entries => entries
  | _ => []

section Entries
variable (purpose : Purpose) (processed : Entry) (block : BlockId) (size : UInt64)

@[simp] theorem entries_idle : Phase.idle.entries = [] := rfl
@[simp] theorem entries_popping : (Phase.popping purpose).entries = [] := rfl
@[simp] theorem entries_querying : (Phase.querying purpose processed).entries = [processed] := rfl
@[simp] theorem entries_pushingBack :
    (Phase.pushingBack purpose processed).entries = [processed] := rfl
@[simp] theorem entries_counting : (Phase.counting purpose processed).entries = [processed] := rfl
@[simp] theorem entries_inserting : (Phase.inserting purpose block).entries = [] := rfl
@[simp] theorem entries_searching : (Phase.searching size).entries = [] := rfl
@[simp] theorem entries_creating : (Phase.creating size).entries = [] := rfl
@[simp] theorem entries_emptying : Phase.emptying.entries = [] := rfl
@[simp] theorem entries_freeing : (Phase.freeing block).entries = [] := rfl
@[simp] theorem entries_listing : (Phase.listing block).entries = [] := rfl
@[simp] theorem entries_queuing (entries : List Entry) :
    (Phase.queuing entries).entries = entries := rfl

end Entries

def Phase.entriesOf (block : BlockId) (phase : Phase) : Nat :=
  phase.entries.countP (·.block = block)

namespace Host

/-- 1 for a block that waits for events. -/
def pending (h : Host) (block : BlockId) : Nat :=
  match h.blocks block with
  | some b => if 0 < b.eventCount then 1 else 0
  | none => 0

def spares (h : Host) (block : BlockId) : Nat := h.freeList.count block + h.pending block

def owners (h : Host) (block : BlockId) : Nat :=
  h.live.countP (·.block = block) + h.spares block

def entriesOf (h : Host) (block : BlockId) : Nat := h.gcuEvents.countP (·.block = block)

end Host

structure Inv (h : Host) (threads : List Phase) : Prop where
  owned : ∀ block, h.owners block + total (Phase.holds block) threads ≤ 1
  counted : ∀ block b, h.blocks block = some b →
    b.eventCount = h.entriesOf block + total (Phase.entriesOf block) threads + h.lost.count block
  absent : ∀ block, h.blocks block = none →
    h.owners block + total (Phase.holds block) threads = 0 ∧
      h.entriesOf block + total (Phase.entriesOf block) threads + h.lost.count block = 0
  unallocated : ∀ block b, h.blocks block = some b → b.allocated = true →
    h.spares block + total (Phase.spares block) threads = 0
  recorded : ∀ block b, h.blocks block = some b → ∀ event ∈ b.recorded,
    h.completed event = true ∨ block ∈ h.lost ∨
      0 < h.gcuEvents.count ⟨event, block⟩ +
        total (fun phase => phase.entries.count ⟨event, block⟩) threads
  completed : ∀ purpose processed, .counting purpose processed ∈ threads →
    h.completed processed.event = true
  fresh : ∀ block, h.nextBlock ≤ block → h.blocks block = none
  sized : ∀ allocation ∈ h.live, allocation.size ≤ .ofNat (2 ^ 63) →
    ∃ b, h.blocks allocation.block = some b ∧ allocation.size ≤ b.size
  deleted : ∀ deletion ∈ h.deleted,
    h.blocks deletion.block = none ∧ deletion.block < h.nextBlock ∧
      deletion.allocated = false ∧ deletion.eventCount = 0 ∧ deletion.live = false
  deletedOnce : (h.deleted.map (·.block)).Nodup

variable {h : Host} {threads others : List Phase} {block : BlockId} {b : Block}

theorem spares_le_holds :
    total (Phase.spares block) threads ≤ total (Phase.holds block) threads := by
  apply total_le_total
  intro phase _
  cases phase <;> simp [Phase.spares, Phase.holds]

/-- Threads have no order. -/
theorem Inv.perm (inv : Inv h threads) (same : threads.Perm others) : Inv h others := by
  have sums (weight : Phase → Nat) : total weight others = total weight threads :=
    (total_perm same).symm
  constructor
  · simpa only [sums] using inv.owned
  · simpa only [sums] using inv.counted
  · simpa only [sums] using inv.absent
  · simpa only [sums] using inv.unallocated
  · simpa only [sums] using inv.recorded
  · exact fun purpose processed member => inv.completed purpose processed (same.mem_iff.mpr member)
  · exact inv.fresh
  · exact inv.sized
  · exact inv.deleted
  · exact inv.deletedOnce

/-! ### Entries on their way -/

variable {phase next : Phase}

/-- Entries move between the queue and the hands of a thread, which gains no block. -/
theorem Inv.move {queue : List Entry} (inv : Inv h (phase :: others))
    (moved : (queue ++ next.entries).Perm (h.gcuEvents ++ phase.entries))
    (holds : ∀ block, next.holds block ≤ phase.holds block)
    (spares : ∀ block, next.spares block ≤ phase.spares block)
    (completed : ∀ purpose processed, next = .counting purpose processed →
      h.completed processed.event = true) :
    Inv { h with gcuEvents := queue } (next :: others) := by
  have counts (f : Entry → Bool) : queue.countP f + next.entries.countP f
      = h.gcuEvents.countP f + phase.entries.countP f := by
    have same := moved.countP_eq f
    rwa [List.countP_append, List.countP_append] at same
  have entries (block : BlockId) :
      queue.countP (·.block = block) + (next.entriesOf block + total (Phase.entriesOf block) others)
        = h.entriesOf block + (phase.entriesOf block + total (Phase.entriesOf block) others) := by
    have same := counts (·.block = block)
    simp only [Phase.entriesOf, Host.entriesOf] at same ⊢
    omega
  constructor
  · intro block
    have owned := inv.owned block
    have held := holds block
    simp only [total_cons] at owned ⊢
    exact Nat.le_trans (Nat.add_le_add_left (Nat.add_le_add_right held _) _) owned
  · intro block b found
    have counted := inv.counted block b found
    have same := entries block
    simp only [total_cons] at counted ⊢
    simp only [Host.entriesOf] at same counted ⊢
    omega
  · intro block gone
    obtain ⟨unowned, unused⟩ := inv.absent block gone
    have held := holds block
    have same := entries block
    simp only [total_cons] at unowned unused ⊢
    constructor
    · simp only [Host.owners, Host.spares, Host.pending] at unowned ⊢
      omega
    · simp only [Host.entriesOf] at unused same ⊢
      omega
  · intro block b found allocated
    have unallocated := inv.unallocated block b found allocated
    have spared := spares block
    simp only [total_cons] at unallocated ⊢
    simp only [Host.spares, Host.pending] at unallocated ⊢
    omega
  · intro block b found event member
    rcases inv.recorded block b found event member with done | gone | flying
    · exact .inl done
    · exact .inr (.inl gone)
    · have same := counts (· == ⟨event, block⟩)
      simp only [total_cons, List.count] at flying same ⊢
      exact .inr (.inr (by omega))
  · intro purpose processed member
    rcases List.mem_cons.mp member with same | member
    · exact completed purpose processed same.symm
    · exact inv.completed purpose processed (List.mem_cons_of_mem _ member)
  · exact inv.fresh
  · exact inv.sized
  · exact inv.deleted
  · exact inv.deletedOnce

/-- A thread goes on without touching the allocator. -/
theorem Inv.goOn (inv : Inv h (phase :: others)) (entries : next.entries = phase.entries)
    (holds : ∀ block, next.holds block ≤ phase.holds block)
    (spares : ∀ block, next.spares block ≤ phase.spares block)
    (completed : ∀ purpose processed, next = .counting purpose processed →
      h.completed processed.event = true) : Inv h (next :: others) :=
  inv.move (by rw [entries]) holds spares completed

theorem popEvent_inv (purpose : Purpose) (inv : Inv h (.popping purpose :: others)) :
    wp (popEvent purpose) (fun next h' => Inv h' (next :: others))
      (fun _ h' => Inv h' (.idle :: others)) h := by
  unfold popEvent
  simp only [wp_bind, wp_get]
  cases last : h.gcuEvents.getLast? with
  | none =>
    apply inv.goOn <;> cases purpose <;> simp [Purpose.next, Phase.holds, Phase.spares]
  | some processed =>
    have whole := List.dropLast_append_getLast? processed last
    simp only [wp_bind, wp_set, wp_pure]
    apply inv.move
    · simp [whole]
    · simp [Phase.holds]
    · simp [Phase.spares]
    · simp

theorem pushBack_inv (purpose : Purpose) (processed : Entry)
    (inv : Inv h (.pushingBack purpose processed :: others)) :
    wp (pushBack purpose processed) (fun next h' => Inv h' (next :: others))
      (fun _ h' => Inv h' (.idle :: others)) h := by
  simp only [pushBack, wp_bind, wp_modify, wp_pure]
  apply inv.move <;> cases purpose <;> simp [Purpose.next, Phase.holds, Phase.spares]

theorem queueEvents_inv (entries : List Entry) (inv : Inv h (.queuing entries :: others)) :
    wp (queueEvents entries) (fun _ h' => Inv h' (.idle :: others))
      (fun _ h' => Inv h' (.idle :: others)) h := by
  simp only [queueEvents, wp_modify]
  apply inv.move
  · simp only [entries_idle, entries_queuing, List.append_nil]
    exact ((List.reverse_perm entries).append_right _).trans List.perm_append_comm
  · simp [Phase.holds]
  · simp [Phase.spares]
  · simp

theorem queryEvent_inv (rt : HostRuntime) (purpose : Purpose) (processed : Entry)
    (inv : Inv h (.querying purpose processed :: others)) :
    wp (queryEvent rt purpose processed) (fun next h' => Inv h' (next :: others))
      (fun _ h' => Inv h' (.idle :: others)) h := by
  have raised : Inv { h with lost := processed.block :: h.lost } (.idle :: others) := by
    constructor
    · intro block
      have owned := inv.owned block
      simpa [Phase.holds, Host.owners, Host.spares, Host.pending] using owned
    · intro block b found
      have counted := inv.counted block b found
      simp only [total_cons, Phase.entriesOf, entries_querying, entries_idle, List.countP_cons, List.countP_nil,
        List.count_cons, beq_iff_eq, decide_eq_true_eq, Host.entriesOf] at counted ⊢
      omega
    · intro block gone
      obtain ⟨unowned, unused⟩ := inv.absent block gone
      simp only [total_cons, Phase.entriesOf, entries_querying, entries_idle, Host.entriesOf,
        List.countP_cons, List.countP_nil, List.count_cons, beq_iff_eq,
        decide_eq_true_eq] at unused ⊢
      constructor
      · simpa [Phase.holds, Host.owners, Host.spares, Host.pending] using unowned
      · omega
    · intro block b found allocated
      have unallocated := inv.unallocated block b found allocated
      simpa [Phase.spares, Host.spares, Host.pending] using unallocated
    · intro block b found event member
      rcases inv.recorded block b found event member with done | gone | flying
      · exact .inl done
      · exact .inr (.inl (List.mem_cons_of_mem _ gone))
      · by_cases same : processed = ⟨event, block⟩
        · exact .inr (.inl (by simp [same]))
        · simp only [total_cons, entries_querying, entries_idle, List.count_cons, List.count_nil,
            beq_iff_eq, if_neg same] at flying ⊢
          exact .inr (.inr flying)
    · intro purpose' processed' member
      apply inv.completed purpose' processed'
      simpa using member
    · exact inv.fresh
    · exact inv.sized
    · exact inv.deleted
    · exact inv.deletedOnce
  unfold queryEvent
  simp only [wp_bind, wp_get]
  cases answer : eventQuery rt.topsEventQuery (h.completed processed.event) with
  | none =>
    have done : h.completed processed.event = true := by
      unfold eventQuery at answer
      split at answer
      · cases answer
      · by_contra pending
        simp [pending] at answer
    apply inv.goOn
    · rfl
    · exact fun _ => Nat.le_refl _
    · exact fun _ => Nat.le_refl _
    · rintro _ _ ⟨⟩
      exact done
  | some error =>
    cases error with
    | notReady =>
      apply inv.goOn
      · rfl
      · exact fun _ => Nat.le_refl _
      · exact fun _ => Nat.le_refl _
      · rintro _ _ ⟨⟩
    | memoryAllocation => exact raised
    | other code => exact raised

/-! ### Blocks on their way to the free list -/

theorem count_insertInto (other : BlockId) (list : List BlockId) :
    (h.insertInto block list).count other ≤ list.count other + if block = other then 1 else 0 := by
  induction list with
  | nil => simp [Host.insertInto, List.count_cons]
  | cons first rest ih =>
    simp only [Host.insertInto]
    split
    · simp [List.count_cons]
    · split
      · simp only [List.count_cons]
        omega
      · omega

theorem insertFree_inv (inv : Inv h (phase :: others)) (entries : next.entries = phase.entries)
    (holds : ∀ other, (next.holds other + if block = other then 1 else 0) ≤ phase.holds other)
    (spares : ∀ other, (next.spares other + if block = other then 1 else 0) ≤ phase.spares other)
    (completed : ∀ purpose processed, next = .counting purpose processed →
      h.completed processed.event = true) :
    wp (insertFree block) (fun _ h' => Inv h' (next :: others))
      (fun _ h' => Inv h' (.idle :: others)) h := by
  have more (other : BlockId) : (h.insertInto block h.freeList).count other
      ≤ h.freeList.count other + if block = other then 1 else 0 :=
    count_insertInto other h.freeList
  rw [insertFree, wp_modify]
  constructor
  · intro other
    have owned := inv.owned other
    have held := holds other
    have listed := more other
    simp only [total_cons, Host.owners, Host.spares, Host.pending] at owned ⊢
    omega
  · intro other b found
    simpa only [total_cons, Phase.entriesOf, entries, Host.entriesOf] using
      inv.counted other b found
  · intro other gone
    obtain ⟨unowned, unused⟩ := inv.absent other gone
    have held := holds other
    have listed := more other
    constructor
    · simp only [total_cons, Host.owners, Host.spares, Host.pending] at unowned ⊢
      omega
    · simpa only [total_cons, Phase.entriesOf, entries, Host.entriesOf] using unused
  · intro other b found allocated
    have unallocated := inv.unallocated other b found allocated
    have spared := spares other
    have listed := more other
    simp only [total_cons, Host.spares, Host.pending] at unallocated ⊢
    omega
  · simpa only [total_cons, entries] using inv.recorded
  · intro purpose processed member
    rcases List.mem_cons.mp member with same | member
    · exact completed purpose processed same.symm
    · exact inv.completed purpose processed (List.mem_cons_of_mem _ member)
  · exact inv.fresh
  · exact inv.sized
  · exact inv.deleted
  · exact inv.deletedOnce

/-! ### Blocks that change -/

theorem blocks_setBlock (h : Host) (block other : BlockId) (b : Block) :
    (h.setBlock block b).blocks other = if other = block then some b else h.blocks other := by
  simp only [Host.setBlock, Function.update_apply]

theorem pending_setBlock (h : Host) (block other : BlockId) (b : Block) :
    (h.setBlock block b).pending other
      = if other = block then (if 0 < b.eventCount then 1 else 0) else h.pending other := by
  simp only [Host.pending, blocks_setBlock]
  by_cases same : other = block <;> simp only [same, if_true, if_false]

theorem pending_of_found (found : h.blocks block = some b) :
    h.pending block = if 0 < b.eventCount then 1 else 0 := by
  simp only [Host.pending, found]

/-- One block changes with the thread that works on it. Its number of events follows the
entries that the thread takes away or brings. -/
theorem Inv.setBlock {b' : Block} (inv : Inv h (phase :: others))
    (found : h.blocks block = some b)
    (owner : (if 0 < b'.eventCount then 1 else 0) + next.holds block
      ≤ (if 0 < b.eventCount then 1 else 0) + phase.holds block)
    (count : b'.eventCount + phase.entriesOf block = b.eventCount + next.entriesOf block)
    (allocated : b'.allocated = true → b.allocated = true ∧ b'.eventCount ≤ b.eventCount)
    (size : b'.size = b.size)
    (recorded : ∀ event ∈ b'.recorded, h.completed event = true ∨ block ∈ h.lost ∨
      0 < h.gcuEvents.count ⟨event, block⟩ +
        total (fun phase => phase.entries.count ⟨event, block⟩) (next :: others))
    (holds : ∀ other ≠ block, next.holds other ≤ phase.holds other)
    (spares : ∀ other, b'.allocated = true ∨ other ≠ block →
      next.spares other ≤ phase.spares other)
    (entries : ∀ other ≠ block,
      next.entries.filter (·.block = other) = phase.entries.filter (·.block = other))
    (completed : ∀ purpose processed, next = .counting purpose processed →
      h.completed processed.event = true) :
    Inv (h.setBlock block b') (next :: others) := by
  have before := pending_of_found found
  have others' (other : BlockId) (different : other ≠ block) :
      next.entriesOf other = phase.entriesOf other := by
    simp only [Phase.entriesOf, List.countP_eq_length_filter, entries other different]
  constructor
  · intro other
    have owned := inv.owned other
    simp only [total_cons, Host.owners, Host.spares, pending_setBlock] at owned ⊢
    by_cases same : other = block
    · subst same
      simp only [before, if_true] at owned ⊢
      simp only [Host.setBlock]
      omega
    · have held := holds other same
      simp only [if_neg same, Host.setBlock]
      omega
  · intro other c found'
    rw [blocks_setBlock] at found'
    by_cases same : other = block
    · subst same
      rw [if_pos rfl] at found'
      cases found'
      have counted := inv.counted other b found
      simp only [total_cons, Host.entriesOf, Host.setBlock] at counted ⊢
      omega
    · rw [if_neg same] at found'
      have counted := inv.counted other c found'
      simp only [total_cons, Host.entriesOf, Host.setBlock, others' other same] at counted ⊢
      exact counted
  · intro other gone
    rw [blocks_setBlock] at gone
    by_cases same : other = block
    · simp [same] at gone
    · rw [if_neg same] at gone
      obtain ⟨unowned, unused⟩ := inv.absent other gone
      have held := holds other same
      simp only [total_cons, Host.owners, Host.spares, Host.entriesOf, pending_setBlock, if_neg same,
        others' other same] at unowned unused ⊢
      simp only [Host.setBlock]
      omega
  · intro other c found' allocated'
    rw [blocks_setBlock] at found'
    by_cases same : other = block
    · subst same
      rw [if_pos rfl] at found'
      cases found'
      obtain ⟨allocatedBefore, fewer⟩ := allocated allocated'
      have unallocated := inv.unallocated other b found allocatedBefore
      have spared := spares other (.inl allocated')
      simp only [total_cons, Host.spares, before, pending_setBlock, if_true] at unallocated ⊢
      simp only [Host.setBlock]
      split at unallocated <;> split <;> omega
    · rw [if_neg same] at found'
      have unallocated := inv.unallocated other c found' allocated'
      have spared := spares other (.inr same)
      simp only [total_cons, Host.spares, pending_setBlock, if_neg same] at unallocated ⊢
      simp only [Host.setBlock]
      omega
  · intro other c found' event member
    rw [blocks_setBlock] at found'
    by_cases same : other = block
    · subst same
      rw [if_pos rfl] at found'
      cases found'
      exact recorded event member
    · rw [if_neg same] at found'
      have counts : next.entries.count ⟨event, other⟩ = phase.entries.count ⟨event, other⟩ := by
        rw [← List.count_filter (p := fun e => decide (e.block = other)) (by simp),
          entries other same, List.count_filter (by simp)]
      have known := inv.recorded other c found' event member
      simp only [total_cons] at known ⊢
      rw [counts]
      exact known
  · intro purpose processed member
    rcases List.mem_cons.mp member with same | member
    · exact completed purpose processed same.symm
    · exact inv.completed purpose processed (List.mem_cons_of_mem _ member)
  · intro other beyond
    have gone := inv.fresh other beyond
    rw [blocks_setBlock, if_neg]
    · exact gone
    · rintro rfl
      simp [gone] at found
  · intro allocation live small
    obtain ⟨c, found', large⟩ := inv.sized allocation live small
    by_cases same : allocation.block = block
    · rw [same, found] at found'
      cases found'
      exact ⟨b', by rw [blocks_setBlock, if_pos same], size ▸ large⟩
    · exact ⟨c, by rw [blocks_setBlock, if_neg same, found'], large⟩
  · intro deletion member
    obtain ⟨gone, rest⟩ := inv.deleted deletion member
    refine ⟨?_, rest⟩
    rw [blocks_setBlock, if_neg]
    · exact gone
    · rintro same
      simp [same, found] at gone
  · exact inv.deletedOnce

theorem countEvent_inv (purpose : Purpose) (processed : Entry)
    (inv : Inv h (.counting purpose processed :: others)) :
    wp (countEvent purpose processed) (fun next h' => Inv h' (next :: others))
      (fun _ h' => Inv h' (.idle :: others)) h := by
  have inHand : Phase.entriesOf processed.block (.counting purpose processed) = 1 := by
    simp [Phase.entriesOf]
  unfold countEvent
  simp only [wp_bind, wp_get]
  cases found : h.blocks processed.block with
  | none =>
    have unused := (inv.absent processed.block found).2
    simp only [total_cons, inHand] at unused
    omega
  | some block =>
    have counted := inv.counted processed.block block found
    simp only [total_cons, inHand] at counted
    have waiting : 0 < block.eventCount := by omega
    have free : block.allocated = false := by
      by_contra allocated
      have unallocated := inv.unallocated processed.block block found (by simpa using allocated)
      simp only [Host.spares, pending_of_found found, if_pos waiting] at unallocated
      omega
    have done := inv.completed purpose processed List.mem_cons_self
    have recorded : ∀ event ∈ block.recorded, h.completed event = true ∨
        processed.block ∈ h.lost ∨ 0 < h.gcuEvents.count ⟨event, processed.block⟩ +
          total (fun phase => phase.entries.count ⟨event, processed.block⟩) others := by
      intro event member
      by_cases same : event = processed.event
      · exact .inl (same ▸ done)
      · rcases inv.recorded processed.block block found event member with done | gone | flying
        · exact .inl done
        · exact .inr (.inl gone)
        · have other : processed ≠ ⟨event, processed.block⟩ := by
            intro equal
            rw [equal] at same
            exact same rfl
          simp only [total_cons, entries_counting, List.count_cons, List.count_nil, beq_iff_eq,
            if_neg other] at flying
          exact .inr (.inr (by simpa using flying))
    simp only [wp_bind, wp_internalAssert, wp_set, wp_pure, free, Bool.not_false, true_implies,
      reduceCtorEq, false_implies, and_true]
    by_cases last : block.eventCount - 1 = 0
    · rw [if_pos last]
      apply inv.setBlock found
      · simp [last, waiting, Phase.holds]
      · rw [inHand]
        simp only [Phase.entriesOf, entries_inserting, List.countP_nil]
        omega
      · simp [free]
      · rfl
      · simpa using recorded
      · intro other different
        simp [Phase.holds, Ne.symm different]
      · intro other different
        rcases different with allocated | different
        · cases allocated
        · simp [Phase.spares, Ne.symm different]
      · intro other different
        simp [Ne.symm different]
      · simp
    · rw [if_neg last]
      apply inv.setBlock found
      · simp only [waiting, if_true, Phase.holds]
        split <;> omega
      · rw [inHand]
        simp only [Phase.entriesOf, entries_popping, List.countP_nil]
        omega
      · simp [free]
      · rfl
      · simpa using recorded
      · simp [Phase.holds]
      · simp [Phase.spares]
      · intro other different
        simp [Ne.symm different]
      · simp

theorem freeBlock_inv (rt : HostRuntime) (ctx : BlockId) (inv : Inv h (.freeing ctx :: others)) :
    wp (freeBlock rt ctx) (fun next h' => Inv h' (next :: others))
      (fun _ h' => Inv h' (.idle :: others)) h := by
  have owned := inv.owned ctx
  simp only [total_cons, Phase.holds, if_true] at owned
  unfold freeBlock
  simp only [wp_bind, wp_get]
  cases found : h.blocks ctx with
  | none =>
    have unowned := (inv.absent ctx found).1
    simp only [total_cons, Phase.holds, if_true] at unowned
    omega
  | some block =>
    have quiet : block.eventCount = 0 := by
      by_contra waiting
      simp only [Host.owners, Host.spares, pending_of_found found,
        if_pos (Nat.pos_of_ne_zero waiting)] at owned
      omega
    simp only [wp_ite]
    constructor
    · intro unused
      simp only [wp_bind, wp_set, wp_internalAssert, wp_pure, quiet, decide_true, true_implies,
        reduceCtorEq, false_implies, and_true]
      apply inv.setBlock found
      · simp [quiet, Phase.holds]
      · simp [quiet, Phase.entriesOf]
      · simp
      · rfl
      · simp
      · intro other different
        simp [Phase.holds]
      · intro other different
        rcases different with allocated | different
        · simp at allocated
        · simp [Phase.spares, Ne.symm different]
      · simp
      · simp
    · intro used
      cases rt.recordEvents with
      | some error =>
        simp only [wp_bind, wp_set, wp_throw]
        apply inv.setBlock found
        · simp [quiet, Phase.holds]
        · simp [Phase.entriesOf]
        · simp
        · rfl
        · exact inv.recorded ctx block found
        · simp [Phase.holds]
        · simp [Phase.spares]
        · simp
        · simp
      | none =>
        simp only [wp_bind, wp_set, wp_pure]
        have after : Inv (h.setBlock ctx
            { block with
              allocated := false
              eventCount := block.eventCount + block.streams.length
              streams := []
              recorded := List.range' h.nextEvent block.streams.length })
            (.queuing ((List.range' h.nextEvent block.streams.length).map (⟨·, ctx⟩)) ::
              others) := by
          apply inv.setBlock found
          · simp only [quiet, Phase.holds, Nat.lt_irrefl, if_true, if_false]
            split <;> omega
          · simp [quiet, Phase.entriesOf, List.countP_map, Function.comp_def]
          · simp
          · rfl
          · intro event member
            have entry : (⟨event, ctx⟩ : Entry)
                ∈ (List.range' h.nextEvent block.streams.length).map (⟨·, ctx⟩) :=
              List.mem_map_of_mem member
            have present : 0 < ((List.range' h.nextEvent block.streams.length).map
                fun event => (⟨event, ctx⟩ : Entry)).count ⟨event, ctx⟩ :=
              List.count_pos_iff.mpr entry
            simp only [total_cons, entries_queuing]
            exact .inr (.inr (by omega))
          · simp [Phase.holds]
          · simp [Phase.spares]
          · intro other different
            simp [List.filter_map, Ne.symm different, Function.comp_def]
          · simp
        exact { after with }

theorem recordEvent_inv (ptr : Ptr) (ctx : BlockId) (stream : GCUStream)
    (inv : Inv h (phase :: others)) :
    wp (recordEvent ptr ctx stream) (fun _ h' => Inv h' (phase :: others))
      (fun _ h' => Inv h' (phase :: others)) h := by
  unfold recordEvent
  simp only [wp_bind, wp_get]
  split
  · exact inv
  · next found _ =>
    cases known : h.blocks found with
    | none => exact inv
    | some block =>
      simp only [wp_bind, wp_internalAssert, wp_set, wp_pure]
      constructor
      · intro allocated
        apply inv.setBlock known
        · exact Nat.le_refl _
        · rfl
        · exact fun _ => ⟨allocated, Nat.le_refl _⟩
        · rfl
        · exact inv.recorded found block known
        · exact fun _ _ => Nat.le_refl _
        · exact fun _ _ => Nat.le_refl _
        · exact fun _ _ => rfl
        · rintro purpose processed rfl
          exact inv.completed purpose processed List.mem_cons_self
      · exact fun _ => inv

/-! ### Blocks handed out -/

theorem lowerBound_spec {size : UInt64} (found : h.lowerBound size = some block) :
    block ∈ h.freeList ∧ size ≤ (h.blockSize block).size := by
  constructor
  · exact List.mem_of_find?_eq_some found
  · have least := List.find?_some found
    simp only [blockComparator, Bool.not_eq_true'] at least
    split at least
    · exact UInt64.not_lt.mp (of_decide_eq_false least)
    · next same => exact UInt64.le_of_eq (not_not.mp same).symm

theorem Inv.handOut {size : UInt64} (inv : Inv h (.searching size :: others))
    (found : h.blocks block = some b) (listed : block ∈ h.freeList) (large : size ≤ b.size) :
    Inv (h.handOut block b size) (.idle :: others) := by
  have blocks (other : BlockId) : (h.handOut block b size).blocks other
      = if other = block then some { b with allocated := true } else h.blocks other :=
    blocks_setBlock h block other _
  have pending (other : BlockId) : (h.handOut block b size).pending other = h.pending other := by
    have after : (h.handOut block b size).pending other = _ := pending_setBlock h block other _
    rw [after]
    by_cases same : other = block
    · rw [same, if_pos rfl, pending_of_found found]
    · rw [if_neg same]
  have present := List.count_pos_iff.mpr listed
  have owned := inv.owned
  simp only [total_cons, Phase.holds, Host.owners, Host.spares] at owned
  constructor
  · intro other
    have before := owned other
    simp only [total_cons, Phase.holds, Host.owners, Host.spares, pending]
    simp only [Host.handOut, List.countP_cons, decide_eq_true_eq, List.count_erase, beq_iff_eq]
    by_cases same : block = other
    · subst same
      simp only [if_true]
      omega
    · simpa only [if_neg same, Nat.add_zero, Nat.sub_zero] using before
  · intro other c found'
    rw [blocks] at found'
    by_cases same : other = block
    · subst same
      rw [if_pos rfl] at found'
      cases found'
      simpa [Phase.entriesOf, Host.entriesOf, Host.handOut, Host.setBlock] using inv.counted other b found
    · rw [if_neg same] at found'
      simpa [Phase.entriesOf, Host.entriesOf, Host.handOut, Host.setBlock] using inv.counted other c found'
  · intro other gone
    rw [blocks] at gone
    by_cases same : other = block
    · simp [same] at gone
    · rw [if_neg same] at gone
      obtain ⟨unowned, unused⟩ := inv.absent other gone
      constructor
      · simp only [total_cons, Phase.holds, Host.owners, Host.spares, pending] at unowned ⊢
        simp only [Host.handOut, List.countP_cons, decide_eq_true_eq, if_neg (Ne.symm same),
          List.count_erase_of_ne same]
        omega
      · simpa [Phase.entriesOf, Host.entriesOf, Host.handOut, Host.setBlock] using unused
  · intro other c found' allocated
    rw [blocks] at found'
    by_cases same : other = block
    · subst same
      have before := owned other
      have fewer : total (Phase.spares other) others ≤ total (Phase.holds other) others :=
        spares_le_holds
      simp only [total_cons, Phase.spares, Host.spares, pending]
      simp only [Host.handOut, List.count_erase_self]
      omega
    · rw [if_neg same] at found'
      have unallocated := inv.unallocated other c found' allocated
      simp only [total_cons, Phase.spares, Host.spares, pending] at unallocated ⊢
      simp only [Host.handOut, List.count_erase_of_ne same]
      omega
  · intro other c found' event member
    rw [blocks] at found'
    by_cases same : other = block
    · subst same
      rw [if_pos rfl] at found'
      cases found'
      simpa [Host.handOut, Host.setBlock] using inv.recorded other b found event member
    · rw [if_neg same] at found'
      simpa [Host.handOut, Host.setBlock] using inv.recorded other c found' event member
  · intro purpose processed member
    exact inv.completed purpose processed (by simpa using member)
  · intro other beyond
    have gone := inv.fresh other beyond
    rw [blocks, if_neg]
    · exact gone
    · rintro rfl
      simp [gone] at found
  · intro allocation live small
    rcases List.mem_cons.mp live with rfl | live
    · exact ⟨{ b with allocated := true }, by rw [blocks, if_pos rfl], large⟩
    · obtain ⟨c, found', large'⟩ := inv.sized allocation live small
      by_cases same : allocation.block = block
      · rw [same, found] at found'
        cases found'
        exact ⟨{ b with allocated := true }, by rw [blocks, if_pos same], large'⟩
      · exact ⟨c, by rw [blocks, if_neg same, found'], large'⟩
  · intro deletion member
    obtain ⟨gone, rest⟩ := inv.deleted deletion member
    refine ⟨?_, rest⟩
    rw [blocks, if_neg]
    · exact gone
    · rintro same
      simp [same, found] at gone
  · exact inv.deletedOnce

theorem searchFreeList_inv (size : UInt64) (inv : Inv h (.searching size :: others)) :
    wp (searchFreeList size) (fun next h' => Inv h' (next :: others))
      (fun _ h' => Inv h' (.idle :: others)) h := by
  unfold searchFreeList
  simp only [wp_bind, wp_get]
  cases least : h.lowerBound size with
  | none => exact inv.goOn rfl (fun _ => Nat.le_refl _) (fun _ => Nat.le_refl _) (by simp)
  | some found =>
    obtain ⟨listed, large⟩ := lowerBound_spec least
    simp only
    cases known : h.blocks found with
    | none => exact inv.goOn rfl (fun _ => Nat.le_refl _) (fun _ => Nat.le_refl _) (by simp)
    | some block =>
      simp only [wp_bind, wp_set, wp_pure]
      apply inv.handOut known listed
      simpa [Host.blockSize, known] using large

theorem Inv.newBlock (powerOf2Ceil : PowerOf2Ceil) (ptr : Ptr) (size : UInt64)
    (inv : Inv h (.creating size :: others)) :
    Inv (h.newBlock powerOf2Ceil ptr size) (.idle :: others) := by
  have blocks (other : BlockId) : (h.newBlock powerOf2Ceil ptr size).blocks other
      = if other = h.nextBlock then some { size := powerOf2Ceil.ceil size, ptr, allocated := true }
        else h.blocks other :=
    blocks_setBlock h h.nextBlock other _
  have new := inv.fresh h.nextBlock (Nat.le_refl _)
  have pending (other : BlockId) : (h.newBlock powerOf2Ceil ptr size).pending other = h.pending other := by
    have after : (h.newBlock powerOf2Ceil ptr size).pending other = _ := pending_setBlock h h.nextBlock other _
    rw [after]
    by_cases same : other = h.nextBlock
    · simp [same, Host.pending, new]
    · rw [if_neg same]
  obtain ⟨unowned, unused⟩ := inv.absent h.nextBlock new
  simp only [total_cons, Phase.holds, Host.owners, Host.spares] at unowned
  have live (other : BlockId) : (h.newBlock powerOf2Ceil ptr size).live.countP (·.block = other)
      = h.live.countP (·.block = other) + if h.nextBlock = other then 1 else 0 := by
    simp only [Host.newBlock, List.countP_cons, decide_eq_true_eq]
  have freeList : (h.newBlock powerOf2Ceil ptr size).freeList = h.freeList := rfl
  constructor
  · intro other
    have before := inv.owned other
    simp only [total_cons, Phase.holds, Host.owners, Host.spares, pending, live,
      freeList] at before ⊢
    by_cases same : h.nextBlock = other
    · subst same
      simp only [if_true]
      omega
    · simpa only [if_neg same, Nat.add_zero] using before
  · intro other c found'
    rw [blocks] at found'
    by_cases same : other = h.nextBlock
    · subst same
      rw [if_pos rfl] at found'
      cases found'
      simp only [total_cons, Phase.entriesOf, entries_creating, entries_idle, Host.entriesOf,
        Host.newBlock, Host.setBlock] at unused ⊢
      exact unused.symm
    · rw [if_neg same] at found'
      simpa [Phase.entriesOf, Host.entriesOf, Host.newBlock, Host.setBlock] using
        inv.counted other c found'
  · intro other gone
    rw [blocks] at gone
    by_cases same : other = h.nextBlock
    · simp [same] at gone
    · rw [if_neg same] at gone
      obtain ⟨unowned', unused'⟩ := inv.absent other gone
      constructor
      · simp only [total_cons, Phase.holds, Host.owners, Host.spares, pending, live,
          freeList, if_neg (Ne.symm same)] at unowned' ⊢
        simpa only [Nat.add_zero] using unowned'
      · simpa [Phase.entriesOf, Host.entriesOf, Host.newBlock, Host.setBlock] using unused'
  · intro other c found' allocated
    rw [blocks] at found'
    simp only [total_cons, Phase.spares, Host.spares, pending, freeList]
    by_cases same : other = h.nextBlock
    · subst same
      have fewer : total (Phase.spares h.nextBlock) others
          ≤ total (Phase.holds h.nextBlock) others := spares_le_holds
      omega
    · rw [if_neg same] at found'
      have unallocated := inv.unallocated other c found' allocated
      simpa only [total_cons, Phase.spares, Host.spares] using unallocated
  · intro other c found' event member
    rw [blocks] at found'
    by_cases same : other = h.nextBlock
    · subst same
      rw [if_pos rfl] at found'
      cases found'
      simp at member
    · rw [if_neg same] at found'
      simpa [Host.newBlock, Host.setBlock] using inv.recorded other c found' event member
  · intro purpose processed member
    exact inv.completed purpose processed (by simpa using member)
  · intro other beyond
    have beyond : h.nextBlock < other := beyond
    rw [blocks, if_neg (Nat.ne_of_gt beyond)]
    exact inv.fresh other (Nat.le_of_lt beyond)
  · intro allocation member small
    rcases List.mem_cons.mp member with rfl | member
    · exact ⟨_, by rw [blocks, if_pos rfl], powerOf2Ceil.le_ceil size small⟩
    · obtain ⟨c, found', large⟩ := inv.sized allocation member small
      refine ⟨c, ?_, large⟩
      rw [blocks, if_neg, found']
      rintro same
      simp [same, new] at found'
  · intro deletion member
    obtain ⟨gone, below, rest⟩ := inv.deleted deletion member
    refine ⟨?_, Nat.lt_succ_of_lt below, rest⟩
    rw [blocks, if_neg (Nat.ne_of_lt below)]
    exact gone
  · exact inv.deletedOnce

theorem createBlock_inv (rt : HostRuntime) (size : UInt64)
    (inv : Inv h (.creating size :: others)) :
    wp (createBlock rt size) (fun next h' => Inv h' (next :: others))
      (fun _ h' => Inv h' (.idle :: others)) h := by
  unfold createBlock
  cases rt.topsHostMalloc with
  | error error => exact inv.goOn rfl (fun _ => Nat.le_refl _) (fun _ => Nat.le_refl _) (by simp)
  | ok ptr =>
    simp only [wp_bind, wp_modify, wp_pure]
    exact inv.newBlock rt.powerOf2Ceil ptr size

/-! ### Blocks deleted -/

theorem spares_delete {other : BlockId} (different : other ≠ block) :
    (h.delete block b).spares other = h.spares other := by
  simp only [Host.spares, Host.pending, Host.delete, Function.update_of_ne different]

theorem owners_delete {other : BlockId} (different : other ≠ block) :
    (h.delete block b).owners other = h.owners other := by
  rw [Host.owners, spares_delete different]
  rfl

theorem Inv.delete (inv : Inv h threads) (found : h.blocks block = some b)
    (free : b.allocated = false)
    (unowned : h.owners block + total (Phase.holds block) threads = 0) :
    Inv (h.delete block b) threads := by
  have blocks (other : BlockId) : (h.delete block b).blocks other
      = if other = block then none else h.blocks other := by
    simp only [Host.delete, Function.update_apply]
  have quiet : b.eventCount = 0 := by
    by_contra waiting
    simp only [Host.owners, Host.spares, pending_of_found found,
      if_pos (Nat.pos_of_ne_zero waiting)] at unowned
    omega
  have unused := inv.counted block b found
  have kept {other : BlockId} {c : Block} (found' : (h.delete block b).blocks other = some c) :
      other ≠ block ∧ h.blocks other = some c := by
    rw [blocks] at found'
    by_cases same : other = block
    · simp [same] at found'
    · exact ⟨same, by rwa [if_neg same] at found'⟩
  constructor
  · intro other
    by_cases same : other = block
    · subst same
      have gone : (h.delete other b).pending other = 0 := by
        simp only [Host.pending, blocks, if_true]
      simp only [Host.owners, Host.spares, gone] at unowned ⊢
      simp only [Host.delete]
      omega
    · rw [owners_delete same]
      exact inv.owned other
  · intro other c found'
    exact inv.counted other c (kept found').2
  · intro other gone
    by_cases same : other = block
    · subst same
      have none : (h.delete other b).pending other = 0 := by
        simp only [Host.pending, blocks, if_true]
      constructor
      · simp only [Host.owners, Host.spares, none] at unowned ⊢
        simp only [Host.delete]
        omega
      · rw [quiet] at unused
        exact unused.symm
    · rw [blocks, if_neg same] at gone
      rw [owners_delete same]
      exact inv.absent other gone
  · intro other c found' allocated
    obtain ⟨different, found'⟩ := kept found'
    rw [spares_delete different]
    exact inv.unallocated other c found' allocated
  · intro other c found'
    exact inv.recorded other c (kept found').2
  · exact inv.completed
  · intro other beyond
    rw [blocks]
    split
    · rfl
    · exact inv.fresh other beyond
  · intro allocation live small
    obtain ⟨c, found', large⟩ := inv.sized allocation live small
    refine ⟨c, ?_, large⟩
    rw [blocks, if_neg, found']
    rintro rfl
    have counted : 0 < h.live.countP (·.block = allocation.block) :=
      List.countP_pos_iff.mpr ⟨allocation, live, by simp⟩
    simp only [Host.owners] at unowned
    omega
  · intro deletion member
    rcases List.mem_cons.mp member with rfl | member
    · refine ⟨by simp [blocks], ?_, free, quiet, ?_⟩
      · by_contra beyond
        simp [inv.fresh block (Nat.le_of_not_lt beyond)] at found
      · have dead : h.live.countP (·.block = block) = 0 := by
          simp only [Host.owners] at unowned
          omega
        rw [List.countP_eq_zero] at dead
        simpa using dead
    · obtain ⟨gone, rest⟩ := inv.deleted deletion member
      refine ⟨?_, rest⟩
      rw [blocks]
      split
      · rfl
      · exact gone
  · simp only [Host.delete, List.map_cons, List.nodup_cons]
    constructor
    · intro member
      obtain ⟨deletion, before, same⟩ := List.mem_map.mp member
      have gone := (inv.deleted deletion before).1
      rw [same, found] at gone
      cases gone
    · exact inv.deletedOnce

theorem removeBlocks_inv (rt : HostRuntime) (list : List BlockId) (h : Host)
    (inv : Inv h threads) (once : list.Nodup)
    (unowned : ∀ block ∈ list, h.owners block + total (Phase.holds block) threads = 0)
    (free : ∀ block ∈ list, ∃ b, h.blocks block = some b ∧ b.allocated = false) :
    wp (removeBlocks rt list) (fun _ h' => Inv h' threads) (fun _ h' => Inv h' threads) h := by
  induction list generalizing h with
  | nil => exact inv
  | cons block rest ih =>
    obtain ⟨b, found, unallocated⟩ := free block List.mem_cons_self
    obtain ⟨fresh, once⟩ := List.nodup_cons.mp once
    have unlisted : Inv (h.unlist block b) threads := { inv with }
    simp only [removeBlocks, wp_bind, wp_get, found, wp_set, wp_gcuCheck, wp_modify]
    constructor
    · intro _
      apply ih
      · exact unlisted.delete found unallocated (unowned block List.mem_cons_self)
      · exact once
      · intro other member
        have different : other ≠ block := fun same => fresh (same ▸ member)
        rw [owners_delete different]
        exact unowned other (List.mem_cons_of_mem _ member)
      · intro other member
        have different : other ≠ block := fun same => fresh (same ▸ member)
        simpa [Host.delete, Host.unlist, different] using
          free other (List.mem_cons_of_mem _ member)
    · exact fun _ _ => unlisted

theorem emptyFreeList_inv (rt : HostRuntime) (inv : Inv h threads) :
    wp (emptyFreeList rt) (fun _ h' => Inv h' threads) (fun _ h' => Inv h' threads) h := by
  have emptied : Inv { h with freeList := [] } threads := by
    constructor
    · intro block
      have owned := inv.owned block
      simp only [Host.owners, Host.spares, Host.pending, List.count_nil] at owned ⊢
      omega
    · exact inv.counted
    · intro block gone
      have absent := inv.absent block gone
      simp only [Host.owners, Host.spares, Host.pending, List.count_nil] at absent ⊢
      exact ⟨by omega, absent.2⟩
    · intro block b found allocated
      have unallocated := inv.unallocated block b found allocated
      simp only [Host.spares, Host.pending, List.count_nil] at unallocated ⊢
      omega
    · exact inv.recorded
    · exact inv.completed
    · exact inv.fresh
    · exact inv.sized
    · exact inv.deleted
    · exact inv.deletedOnce
  unfold emptyFreeList
  simp only [wp_bind, wp_get, wp_set]
  apply removeBlocks_inv rt h.freeList _ emptied
  · rw [List.nodup_iff_count_le_one]
    intro block
    have owned := inv.owned block
    simp only [Host.owners, Host.spares] at owned
    omega
  · intro block member
    have owned := inv.owned block
    have listed := List.count_pos_iff.mpr member
    simp only [Host.owners, Host.spares, Host.pending, List.count_nil] at owned ⊢
    omega
  · intro block member
    have listed := List.count_pos_iff.mpr member
    cases found : h.blocks block with
    | none =>
      have unowned := (inv.absent block found).1
      simp only [Host.owners, Host.spares] at unowned
      omega
    | some b =>
      refine ⟨b, rfl, ?_⟩
      by_contra allocated
      have unallocated := inv.unallocated block b found (by simpa using allocated)
      simp only [Host.spares] at unallocated
      omega

/-! ### Every interleaving -/

theorem Phase.advance_inv (rt : HostRuntime) (phase : Phase) (inv : Inv h (phase :: others)) :
    wp (phase.advance rt) (fun next h' => Inv h' (next :: others))
      (fun _ h' => Inv h' (.idle :: others)) h := by
  cases phase with
  | idle => exact inv
  | popping purpose => exact popEvent_inv purpose inv
  | querying purpose processed => exact queryEvent_inv rt purpose processed inv
  | pushingBack purpose processed => exact pushBack_inv purpose processed inv
  | counting purpose processed => exact countEvent_inv purpose processed inv
  | inserting purpose block =>
    rw [Phase.advance, wp_bind]
    apply insertFree_inv inv <;> simp [Phase.holds, Phase.spares]
  | searching size => exact searchFreeList_inv size inv
  | creating size => exact createBlock_inv rt size inv
  | emptying =>
    have idle : Inv h (.idle :: others) :=
      inv.goOn rfl (fun _ => Nat.le_refl _) (fun _ => Nat.le_refl _) (by simp)
    rw [Phase.advance, wp_bind]
    exact emptyFreeList_inv rt idle
  | freeing ctx => exact freeBlock_inv rt ctx inv
  | listing block =>
    rw [Phase.advance, wp_bind]
    apply insertFree_inv inv <;> simp [Phase.holds, Phase.spares]
  | queuing entries =>
    rw [Phase.advance, wp_bind]
    exact queueEvents_inv entries inv

/-- A free begins: the context is no longer live, and the thread owns its block. -/
theorem Inv.beginFree {allocation : Allocation} (inv : Inv h (.idle :: others))
    (live : allocation ∈ h.live) :
    Inv { h with live := h.live.erase allocation } (.freeing allocation.block :: others) := by
  have count (block : BlockId) : (h.live.erase allocation).countP (·.block = block)
      + (if allocation.block = block then 1 else 0) = h.live.countP (·.block = block) := by
    have split := (List.perm_cons_erase live).countP_eq (·.block = block)
    simp only [List.countP_cons, decide_eq_true_eq] at split
    omega
  constructor
  · intro block
    have owned := inv.owned block
    have erased := count block
    simp only [total_cons, Phase.holds, Host.owners, Host.spares, Host.pending] at owned ⊢
    omega
  · exact inv.counted
  · intro block gone
    obtain ⟨unowned, unused⟩ := inv.absent block gone
    have erased := count block
    refine ⟨?_, unused⟩
    simp only [total_cons, Phase.holds, Host.owners, Host.spares, Host.pending] at unowned ⊢
    omega
  · exact inv.unallocated
  · exact inv.recorded
  · intro purpose processed member
    exact inv.completed purpose processed (by simpa using member)
  · exact inv.fresh
  · exact fun other member => inv.sized other (List.mem_of_mem_erase member)
  · exact inv.deleted
  · exact inv.deletedOnce

theorem Inv.complete (inv : Inv h threads) (event : EventId) :
    Inv { h with completed := Function.update h.completed event true } threads := by
  have later {other : EventId} (done : h.completed other = true) :
      Function.update h.completed event true other = true := by
    by_cases same : other = event <;> simp [same, done]
  exact { inv with
    recorded := by
      intro block b found other member
      exact (inv.recorded block b found other member).imp_left later
    completed := fun purpose processed member => later (inv.completed purpose processed member) }

/-- Sections see the thread that runs before the others. -/
theorem Inv.focus {thread : Nat} (inv : Inv h threads) (found : threads[thread]? = some phase) :
    Inv h (phase :: threads.eraseIdx thread) := by
  obtain ⟨bound, rfl⟩ := List.getElem?_eq_some_iff.mp found
  exact inv.perm (List.getElem_cons_eraseIdx_perm bound).symm

theorem Inv.unfocus {thread : Nat} (found : threads[thread]? = some phase)
    (inv : Inv h (next :: threads.eraseIdx thread)) : Inv h (threads.set thread next) := by
  obtain ⟨bound, _⟩ := List.getElem?_eq_some_iff.mp found
  exact inv.perm (List.set_perm_cons_eraseIdx bound next).symm

theorem HostStep.inv {s t : System} {action : HostAction} (inv : Inv s.host s.threads)
    (taken : HostStep s action t) : Inv t.host t.threads := by
  obtain ⟨enabled, rfl⟩ := taken
  cases action with
  | allocate thread size =>
    apply Inv.unfocus enabled
    apply (inv.focus enabled).goOn <;> split <;> simp [Phase.holds, Phase.spares]
  | free thread allocation =>
    exact ((inv.focus enabled.1).beginFree enabled.2).unfocus enabled.1
  | recordEvent thread ptr ctx stream =>
    have after := recordEvent_inv ptr ctx stream (inv.focus enabled)
    obtain ⟨bound, first⟩ := List.getElem?_eq_some_iff.mp enabled
    have back := List.getElem_cons_eraseIdx_perm bound
    rw [first] at back
    unfold wp at after
    simp only [System.next]
    split at after
    · next ran =>
      simp only [ran, afterRecord]
      exact after.perm back
    · next ran =>
      simp only [ran, afterRecord]
      exact after.perm back
  | emptyCache thread =>
    apply Inv.unfocus enabled
    apply (inv.focus enabled).goOn <;> simp [Phase.holds, Phase.spares]
  | advance thread rt =>
    have running : s.threads[thread]? = some s.threads[thread] :=
      List.getElem?_eq_getElem enabled
    have after := Phase.advance_inv rt _ (inv.focus running)
    unfold wp at after
    simp only [System.next, running]
    split at after
    · next ran =>
      simp only [ran, afterSection]
      exact after.unfocus running
    · next ran =>
      simp only [ran, afterSection]
      exact after.unfocus running
  | complete event => exact inv.complete event

/-- What the allocator promises of the memory it hands out, keeps and deletes. -/
structure Sound (s : System) : Prop where
  unshared : (s.host.live.map (·.block)).Nodup
  large : ∀ allocation ∈ s.host.live, allocation.size ≤ .ofNat (2 ^ 63) →
    ∃ b, s.host.blocks allocation.block = some b ∧ allocation.size ≤ b.size
  unused : ∀ block ∈ s.host.freeList, ∃ b, s.host.blocks block = some b ∧
    b.allocated = false ∧ (∀ allocation ∈ s.host.live, allocation.block ≠ block) ∧
      ∀ event ∈ b.recorded, s.host.completed event = true
  counted : ∀ block b, s.host.blocks block = some b → block ∉ s.host.lost →
    b.eventCount = s.host.entriesOf block + total (Phase.entriesOf block) s.threads
  deletedOnce : (s.host.deleted.map (·.block)).Nodup
  deletedUnused : ∀ deletion ∈ s.host.deleted,
    deletion.allocated = false ∧ deletion.eventCount = 0 ∧ deletion.live = false

theorem count_le_countP (entry : Entry) (list : List Entry) :
    list.count entry ≤ list.countP (·.block = entry.block) :=
  List.countP_mono_left fun other _ same => by simp [eq_of_beq same]

theorem Inv.sound {s : System} (inv : Inv s.host s.threads) : Sound s where
  unshared := by
    rw [List.nodup_iff_count_le_one]
    intro block
    have owned := inv.owned block
    have same : (s.host.live.map (·.block)).count block
        = s.host.live.countP (·.block = block) := by
      simp only [List.count, List.countP_map, Function.comp_def]
      rfl
    simp only [Host.owners] at owned
    omega
  large := inv.sized
  unused := by
    intro block listed
    have owned := inv.owned block
    have present := List.count_pos_iff.mpr listed
    simp only [Host.owners, Host.spares] at owned
    cases found : s.host.blocks block with
    | none =>
      have unowned := (inv.absent block found).1
      simp only [Host.owners, Host.spares] at unowned
      omega
    | some b =>
      have quiet : b.eventCount = 0 := by
        by_contra waiting
        rw [pending_of_found found, if_pos (Nat.pos_of_ne_zero waiting)] at owned
        omega
      have counted := inv.counted block b found
      refine ⟨b, rfl, ?_, ?_, ?_⟩
      · by_contra allocated
        have unallocated := inv.unallocated block b found (by simpa using allocated)
        simp only [Host.spares] at unallocated
        omega
      · intro allocation live same
        have counted : 0 < s.host.live.countP (·.block = block) :=
          List.countP_pos_iff.mpr ⟨allocation, live, by simp [same]⟩
        omega
      · intro event member
        have known := inv.recorded block b found event member
        have queued := count_le_countP ⟨event, block⟩ s.host.gcuEvents
        have inHand : total (fun phase => phase.entries.count ⟨event, block⟩) s.threads
            ≤ total (Phase.entriesOf block) s.threads :=
          total_le_total fun phase _ => count_le_countP ⟨event, block⟩ phase.entries
        simp only [Host.entriesOf] at counted
        rcases known with done | gone | flying
        · exact done
        · have lost := List.count_pos_iff.mpr gone
          omega
        · simp only at queued
          omega
  counted := by
    intro block b found kept
    have counted := inv.counted block b found
    rw [List.count_eq_zero.mpr kept] at counted
    exact counted
  deletedOnce := inv.deletedOnce
  deletedUnused := fun deletion member => (inv.deleted deletion member).2.2

end TorchGcu.TOPSHostAllocator

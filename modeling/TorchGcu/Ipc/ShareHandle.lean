import TorchGcu.CachingAllocator.BaseAllocation
import TorchGcu.Ipc.SharedHandles

/-! The handle of a block: what `shareIpcHandle` sends, and what the receiving process makes of
it. -/
namespace TorchGcu.Ipc
open ProgramLogic
open GCUCachingAllocator (Err TopsError DeviceIndex State BlockId Block Range Reachable Step World
  Sound)

structure ShareableHandle where
  offset : Int
  handle : Bytes
deriving DecidableEq, Repr

/-- `ss.put(SHAREABLE_HANDLE_VERSION)`, `ss.put(SHAREABLE_GCU_MALLOC)`. -/
def shareableHeader : Bytes := [1, 99]

section Sharing
-- `TOPS_IPC_HANDLE_SIZE`, and the answers of the runtime for the addresses of the device
variable (handleSize : Nat) (topsIpcGetMemHandle : Nat → Except TopsError MemHandle)

/-- `DeviceCachingAllocator::shareIpcHandle`; no block is expandable. -/
def shareIpcHandle (st : State) (block : BlockId) : Except Err ShareableHandle :=
  let baseBlock := st.block (st.headOf st.nextBlock block)
  match topsIpcGetMemHandle baseBlock.ptr with
  | .error error => .error (.gcuError error)
  | .ok handle =>
    .ok { offset := (st.block block).ptr - baseBlock.ptr
          handle := shareableHeader ++ handle.take handleSize }

end Sharing

variable {handleSize : Nat} {topsIpcGetMemHandle : Nat → Except TopsError MemHandle}
  {rt : IpcRuntime} {st : State} {b : BlockId} {memory : MemHandle} {shared : ShareableHandle}

theorem shared_length (sized : memory.length = handleSize) :
    (shareableHeader ++ memory).length ≠ handleSize := by
  simp only [shareableHeader, List.length_append, List.length_cons, List.length_nil]
  omega

theorem readType_shared (sized : memory.length = handleSize) (s : HandleCache) :
    (readType handleSize (shareableHeader ++ memory)).run s =
      .ok (shareableGcuMalloc, memory) s := by
  simp only [readType, shared_length sized, ne_eq, not_false_eq_true, if_true]
  rfl

/-- It takes the handle for one of `topsMalloc`, and opens it. -/
theorem openEntry_shared {ptr : DevPtr} {device : DeviceIndex} (sized : memory.length = handleSize)
    (opens : rt.topsIpcOpenMemHandle = .ok ptr) (s : HandleCache) :
    (openEntry handleSize rt device (shareableHeader ++ memory)).run s =
      .ok ⟨device, ptr, none⟩ (s.map ptr (shareableHeader ++ memory) memory) := by
  have read : readHandle handleSize memory rt.uninitialized = memory := by
    simp [readHandle, ← sized]
  have opened : wp (openEntry handleSize rt device (shareableHeader ++ memory))
      (fun entry t => entry = ⟨device, ptr, none⟩ ∧
        t = s.map ptr (shareableHeader ++ memory) memory) (fun _ _ => False) s := by
    rw [openEntry, wp_bind]
    refine (wp_run (readType_shared sized s)).mpr ?_
    simp [opens, read]
  cases ran : (openEntry handleSize rt device (shareableHeader ++ memory)).run s with
  | ok entry t =>
    obtain ⟨rfl, rfl⟩ := wp_ok opened ran
    rfl
  | error e t => exact (wp_error opened ran).elim

theorem shareIpcHandle_ok (made : shareIpcHandle handleSize topsIpcGetMemHandle st b = .ok shared) :
    ∃ memory, topsIpcGetMemHandle (st.block (st.headOf st.nextBlock b)).ptr = .ok memory ∧
      shared = ⟨(st.block b).ptr - (st.block (st.headOf st.nextBlock b)).ptr,
        shareableHeader ++ memory.take handleSize⟩ := by
  simp only [shareIpcHandle] at made
  split at made
  · cases made
  · rename_i memory answer
    exact ⟨memory, answer, (Except.ok.inj made).symm⟩

/-- Where a shared block is: in a device allocation, whose base is what the runtime is asked for. -/
theorem shareIpcHandle_base (sound : Sound True .empty st) (live : st.Live b)
    (made : shareIpcHandle handleSize topsIpcGetMemHandle st b = .ok shared) :
    ∃ range ∈ st.allocations, ∃ memory, topsIpcGetMemHandle range.base = .ok memory ∧
      shared.handle = shareableHeader ++ memory.take handleSize ∧
        range.base + shared.offset = (st.block b).ptr ∧
          shared.offset + (st.block b).size ≤ range.size ∧ 0 ≤ shared.offset := by
  obtain ⟨range, member, allocation, low, high⟩ := sound.getBaseAllocation live
  have base : (st.block (st.headOf st.nextBlock b)).ptr = range.base := congrArg Prod.fst allocation
  obtain ⟨memory, answer, rfl⟩ := shareIpcHandle_ok made
  rw [base] at answer
  refine ⟨range, member, memory, answer, rfl, ?_, ?_, ?_⟩
  all_goals simp only [base]; omega

/-- What a block is shared as, in every state of an orderly run. The receiver opens the device
allocation that the block lies in, and finds the block at the offset; two blocks with bytes are
never shared as the same, if the runtime tells allocations apart. -/
theorem shared_block_found {w : World} (run : Reachable (fun w step => step.Orderly w.st) w)
    (live : w.st.Live b) (sized : ∀ base memory, topsIpcGetMemHandle base = .ok memory →
      memory.length = handleSize)
    (made : shareIpcHandle handleSize topsIpcGetMemHandle w.st b = .ok shared) :
    (∃ range ∈ w.st.allocations, ∃ memory, topsIpcGetMemHandle range.base = .ok memory ∧
      range.base + shared.offset = (w.st.block b).ptr ∧
      shared.offset + (w.st.block b).size ≤ range.size ∧ 0 ≤ shared.offset ∧
      ∀ rt device ptr, rt.topsIpcOpenMemHandle = .ok ptr → ∀ s,
        (openEntry handleSize rt device shared.handle).run s =
          .ok ⟨device, ptr, none⟩ (s.map ptr shared.handle memory)) ∧
    ((∀ r ∈ w.st.allocations, ∀ r' ∈ w.st.allocations, ∀ memory,
        topsIpcGetMemHandle r.base = .ok memory → topsIpcGetMemHandle r'.base = .ok memory → r = r') →
      ∀ c, w.st.Live c → 0 < (w.st.block b).size → 0 < (w.st.block c).size →
        shareIpcHandle handleSize topsIpcGetMemHandle w.st c = .ok shared → c = b) := by
  have sound := run.ordered.1
  obtain ⟨range, member, memory, answer, handle, place, high, low⟩ :=
    shareIpcHandle_base sound live made
  have whole : memory.take handleSize = memory :=
    List.take_of_length_le (sized _ _ answer).le
  rw [whole] at handle
  refine ⟨⟨range, member, memory, answer, place, high, low, fun rt device ptr opens s => ?_⟩,
    fun apart c live' bytes bytes' made' => ?_⟩
  · rw [handle]
    exact openEntry_shared (sized _ _ answer) opens s
  · obtain ⟨range', member', memory', answer', handle', place', _⟩ :=
      shareIpcHandle_base sound live' made'
    rw [List.take_of_length_le (sized _ _ answer').le, handle] at handle'
    obtain rfl := List.append_cancel_left handle'
    obtain rfl := apart range member range' member' memory answer answer'
    by_contra differ
    have away := sound.blocks_apart live live' (Ne.symm differ)
    simp only [Range.Apart, State.rangeOf] at away
    omega

/-- Two blocks of one segment. -/
def twoBlocks : List Step :=
  [⟨{}, .roomAt 4096, .malloc 0 512 1⟩, ⟨{}, .full, .malloc 0 1024 1⟩]

theorem twoBlocks_reached :
    Reachable (fun w step => step.Orderly w.st) (World.run {} twoBlocks) :=
  .plain (by decide +kernel) (by decide +kernel) (by
    simpa [twoBlocks] using ⟨GCUCachingAllocator.roomAt_steady, GCUCachingAllocator.full_steady⟩)

/-- The second block is found 512 bytes after the base of the allocation. -/
theorem shared_block_found_twoBlocks :
    shareIpcHandle 4 (fun base => .ok (List.replicate 4 (UInt8.ofNat base.log2)))
        (World.run {} twoBlocks).st 2 = .ok ⟨512, [1, 99, 12, 12, 12, 12]⟩ ∧
      ∀ c, (World.run {} twoBlocks).st.Live c → 0 < ((World.run {} twoBlocks).st.block c).size →
        shareIpcHandle 4 (fun base => .ok (List.replicate 4 (UInt8.ofNat base.log2)))
          (World.run {} twoBlocks).st c = .ok ⟨512, [1, 99, 12, 12, 12, 12]⟩ → c = 2 := by
  have made : shareIpcHandle 4 (fun base => .ok (List.replicate 4 (UInt8.ofNat base.log2)))
      (World.run {} twoBlocks).st 2 = .ok ⟨512, [1, 99, 12, 12, 12, 12]⟩ := by decide +kernel
  have sized : ∀ base memory, (fun base => Except.ok (List.replicate 4 (UInt8.ofNat base.log2)) :
      Nat → Except TopsError MemHandle) base = .ok memory → memory.length = 4 := by
    intro base memory answer
    obtain rfl := Except.ok.inj answer
    simp
  have alone : (World.run {} twoBlocks).st.allocations = [⟨4096, 2097152⟩] := by decide +kernel
  refine ⟨made, fun c live bytes made' => ?_⟩
  refine (shared_block_found twoBlocks_reached (by decide +kernel) sized made).2 ?_ c live
    (by decide +kernel) bytes made'
  intro r member r' member' _ _ _
  rw [alone, List.mem_singleton] at member member'
  rw [member, member']

end TorchGcu.Ipc

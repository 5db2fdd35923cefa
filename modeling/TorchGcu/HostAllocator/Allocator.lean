import Mathlib.Logic.Function.Basic
import TorchGcu.Checks

/-! `TOPSHostAllocator`, the cache of pinned host memory: `allocate`, `free`, `record_event`
and `empty_cache` by any number of threads. What a thread does between two acquisitions of a
mutex is one section; where it is between two sections is its phase. -/
namespace TorchGcu.TOPSHostAllocator
open ProgramLogic
open GCUCachingAllocator (Err TopsError GCUStream)

abbrev Ptr := Nat
/-- A `Block*`: numbers that are never reused. -/
abbrev BlockId := Nat
/-- One recording of an event. The pool hands an event out again only after the entry that
owned it is gone. -/
abbrev EventId := Nat

/-- `recorded` are the events of the last free. -/
structure Block where
  size : UInt64
  ptr : Ptr
  allocated : Bool := false
  eventCount : Nat := 0
  streams : List GCUStream := []
  recorded : List EventId := []
deriving DecidableEq, Repr

/-- An element of `gcu_events_`. -/
structure Entry where
  event : EventId
  block : BlockId
deriving DecidableEq, Repr

/-- A context that `allocate` has returned, with the size that was asked for. -/
structure Allocation where
  block : BlockId
  size : UInt64
deriving DecidableEq, Repr

/-- A block when `empty_cache` deletes it. -/
structure Deletion where
  block : BlockId
  allocated : Bool
  eventCount : Nat
  live : Bool
deriving DecidableEq, Repr

/-- The members of the allocator and the objects they refer to. `gcuEvents` begins with the
front of the deque. The last four are history: the events that have completed, the contexts
not yet freed, the blocks of entries whose query raised, and the blocks deleted. -/
structure Host where
  blocks : BlockId → Option Block := fun _ => none
  nextBlock : BlockId := 0
  blockSet : List BlockId := []
  ptrToBlock : Ptr → Option BlockId := fun _ => none
  freeList : List BlockId := []
  gcuEvents : List Entry := []
  nextEvent : EventId := 0
  completed : EventId → Bool := fun _ => false
  live : List Allocation := []
  lost : List BlockId := []
  deleted : List Deletion := []

abbrev M := EStateM Err Host

/-- A power of two that is not smaller, for the sizes for which there is one. -/
structure PowerOf2Ceil where
  ceil : UInt64 → UInt64
  le_ceil : ∀ size, size ≤ .ofNat (2 ^ 63) → size ≤ ceil size

def smear (shift a : UInt64) : UInt64 := a ||| (a >>> shift)

def nextPowerOf2 (a : UInt64) : UInt64 :=
  smear 32 (smear 16 (smear 8 (smear 4 (smear 2 (smear 1 a))))) + 1

def powerOf2Ceil (a : UInt64) : UInt64 := if a = 0 then 0 else nextPowerOf2 (a - 1)

theorem le_smear (shift a : UInt64) : a ≤ smear shift a := by
  rw [UInt64.le_iff_toNat_le, smear, UInt64.toNat_or]
  exact Nat.left_le_or

theorem smear_lt {shift a : UInt64} (small : a.toNat < 2 ^ 63) :
    (smear shift a).toNat < 2 ^ 63 := by
  rw [smear, UInt64.toNat_or, UInt64.toNat_shiftRight]
  exact Nat.or_lt_two_pow small (Nat.lt_of_le_of_lt (Nat.shiftRight_le _ _) small)

theorem lt_nextPowerOf2 {a : UInt64} (small : a.toNat < 2 ^ 63) :
    a.toNat < (nextPowerOf2 a).toNat := by
  have smeared : a ≤ smear 32 (smear 16 (smear 8 (smear 4 (smear 2 (smear 1 a))))) :=
    UInt64.le_trans (le_smear 1 a) <| UInt64.le_trans (le_smear 2 _) <|
      UInt64.le_trans (le_smear 4 _) <| UInt64.le_trans (le_smear 8 _) <|
      UInt64.le_trans (le_smear 16 _) (le_smear 32 _)
  have bound : (smear 32 (smear 16 (smear 8 (smear 4 (smear 2 (smear 1 a)))))).toNat < 2 ^ 63 :=
    smear_lt (smear_lt (smear_lt (smear_lt (smear_lt (smear_lt small)))))
  rw [UInt64.le_iff_toNat_le] at smeared
  rw [nextPowerOf2, UInt64.toNat_add, UInt64.toNat_one]
  omega

theorem le_powerOf2Ceil {size : UInt64} (small : size ≤ .ofNat (2 ^ 63)) :
    size ≤ powerOf2Ceil size := by
  unfold powerOf2Ceil
  split
  · next zero => simp [zero]
  · next nonzero =>
    have bound : size.toNat ≤ 2 ^ 63 := by
      simpa [UInt64.le_iff_toNat_le] using small
    have one : 1 ≤ size := by
      rw [UInt64.le_iff_toNat_le]
      have positive : size.toNat ≠ 0 := fun zero => nonzero (UInt64.toNat_inj.mp zero)
      simp only [UInt64.toNat_one]
      omega
    have less : (size - 1).toNat = size.toNat - 1 := UInt64.toNat_sub_of_le _ _ one
    have larger : (size - 1).toNat < (nextPowerOf2 (size - 1)).toNat :=
      lt_nextPowerOf2 (by omega)
    rw [UInt64.le_iff_toNat_le] at one ⊢
    simp only [UInt64.toNat_one] at one
    omega

def PowerOf2Ceil.documented : PowerOf2Ceil := ⟨powerOf2Ceil, fun _ => le_powerOf2Ceil⟩

/-- What the runtime answers in one section, and `c10::llvm::PowerOf2Ceil`. -/
structure HostRuntime where
  topsEventQuery : Option TopsError := none
  recordEvents : Option Err := none
  topsHostMalloc : Except Err Ptr := .ok 0
  topsHostFree : Ptr → Option TopsError := fun _ => none
  powerOf2Ceil : PowerOf2Ceil := .documented

/-! ### The order of the free list -/

/-- The members of a block that the free list is ordered by. -/
structure BlockSize where
  size : UInt64
  ptr : Ptr
deriving DecidableEq, Repr

/-- `BlockComparator`. -/
def blockComparator (a b : BlockSize) : Bool :=
  if a.size ≠ b.size then decide (a.size < b.size) else decide (a.ptr < b.ptr)

namespace Host

def blockSize (h : Host) (block : BlockId) : BlockSize :=
  match h.blocks block with
  | some b => ⟨b.size, b.ptr⟩
  | none => ⟨0, 0⟩

/-- `std::set::insert`: an element that compares equal to one of the set is not inserted. -/
def insertInto (h : Host) (block : BlockId) : List BlockId → List BlockId
  | [] => [block]
  | first :: rest =>
    if blockComparator (h.blockSize block) (h.blockSize first) then
      block :: first :: rest
    else if blockComparator (h.blockSize first) (h.blockSize block) then
      first :: h.insertInto block rest
    else
      first :: rest

def lowerBound (h : Host) (size : UInt64) : Option BlockId :=
  h.freeList.find? fun block => !blockComparator (h.blockSize block) ⟨size, 0⟩

def setBlock (h : Host) (block : BlockId) (b : Block) : Host :=
  { h with blocks := Function.update h.blocks block (some b) }

/-- A block of the free list is allocated again. -/
def handOut (h : Host) (block : BlockId) (b : Block) (size : UInt64) : Host :=
  { h.setBlock block { b with allocated := true } with
    freeList := h.freeList.erase block
    live := ⟨block, size⟩ :: h.live }

def newBlock (h : Host) (powerOf2Ceil : PowerOf2Ceil) (ptr : Ptr) (size : UInt64) : Host :=
  { h.setBlock h.nextBlock { size := powerOf2Ceil.ceil size, ptr, allocated := true } with
    nextBlock := h.nextBlock + 1
    blockSet := h.nextBlock :: h.blockSet
    ptrToBlock :=
      if (h.ptrToBlock ptr).isSome then h.ptrToBlock
      else Function.update h.ptrToBlock ptr (some h.nextBlock)
    live := ⟨h.nextBlock, size⟩ :: h.live }

/-- The block is freed with an event recorded on each of its streams. -/
def recordStreams (h : Host) (block : BlockId) (b : Block) : Host :=
  { h.setBlock block
      { b with
        allocated := false
        eventCount := b.eventCount + b.streams.length
        streams := []
        recorded := List.range' h.nextEvent b.streams.length } with
    nextEvent := h.nextEvent + b.streams.length }

def unlist (h : Host) (block : BlockId) (b : Block) : Host :=
  { h with
    blockSet := h.blockSet.erase block
    ptrToBlock := Function.update h.ptrToBlock b.ptr none }

def delete (h : Host) (block : BlockId) (b : Block) : Host :=
  { h with
    blocks := Function.update h.blocks block none
    deleted :=
      ⟨block, b.allocated, b.eventCount, h.live.any (·.block = block)⟩ :: h.deleted }

end Host

/-! ### Sections -/

/-- Which operation has called `process_events`. -/
inductive Purpose where
  | allocate (size : UInt64)
  | emptyCache
deriving DecidableEq, Repr

/-- What a thread does next. -/
inductive Phase where
  | idle
  | popping (purpose : Purpose)
  | querying (purpose : Purpose) (processed : Entry)
  | pushingBack (purpose : Purpose) (processed : Entry)
  | counting (purpose : Purpose) (processed : Entry)
  | inserting (purpose : Purpose) (block : BlockId)
  | searching (size : UInt64)
  | creating (size : UInt64)
  | emptying
  | freeing (block : BlockId)
  | listing (block : BlockId)
  | queuing (entries : List Entry)
deriving DecidableEq, Repr

/-- What follows `process_events`. -/
def Purpose.next : Purpose → Phase
  | .allocate size => .searching size
  | .emptyCache => .emptying

def popEvent (purpose : Purpose) : M Phase := do
  let h ← get
  match h.gcuEvents.getLast? with
  | none => return purpose.next
  | some processed =>
    set { h with gcuEvents := h.gcuEvents.dropLast }
    return .querying purpose processed

/-- `topsEventQuery`: an error, or whether the event has completed. -/
def eventQuery (answer : Option TopsError) (completed : Bool) : Option TopsError :=
  match answer with
  | some error => some error
  | none => if completed then none else some .notReady

def queryEvent (rt : HostRuntime) (purpose : Purpose) (processed : Entry) : M Phase := do
  let h ← get
  match eventQuery rt.topsEventQuery (h.completed processed.event) with
  | none => return .counting purpose processed
  | some .notReady => return .pushingBack purpose processed
  | some error =>
    -- the exception destroys the entry, and nothing counts it off its block
    set { h with lost := processed.block :: h.lost }
    throw (.gcuError error)

def pushBack (purpose : Purpose) (processed : Entry) : M Phase := do
  modify fun h => { h with gcuEvents := h.gcuEvents ++ [processed] }
  return purpose.next

/-- A block that is not there: no section comes to this. -/
def danglingBlock : Err := .outOfRange

def countEvent (purpose : Purpose) (processed : Entry) : M Phase := do
  let h ← get
  match h.blocks processed.block with
  | none => throw danglingBlock
  | some block =>
    internalAssert (!block.allocated) "!block->allocated_"
    set (h.setBlock processed.block { block with eventCount := block.eventCount - 1 })
    return if block.eventCount - 1 = 0 then .inserting purpose processed.block
      else .popping purpose

def insertFree (block : BlockId) : M Unit :=
  modify fun h => { h with freeList := h.insertInto block h.freeList }

def searchFreeList (size : UInt64) : M Phase := do
  let h ← get
  match h.lowerBound size with
  | none => return .creating size
  | some found =>
    match h.blocks found with
    | none => throw danglingBlock
    | some block =>
      set (h.handOut found block size)
      return .idle

def createBlock (rt : HostRuntime) (size : UInt64) : M Phase := do
  match rt.topsHostMalloc with
  | .error error => throw error
  | .ok ptr =>
    modify (·.newBlock rt.powerOf2Ceil ptr size)
    return .idle

def freeBlock (rt : HostRuntime) (ctx : BlockId) : M Phase := do
  let h ← get
  match h.blocks ctx with
  | none => throw danglingBlock
  | some block =>
    if block.streams = [] then
      set (h.setBlock ctx { block with allocated := false, recorded := [] })
      internalAssert (decide (block.eventCount = 0)) "block->event_count_ == 0"
      return .listing ctx
    else
      match rt.recordEvents with
      | some error =>
        set (h.setBlock ctx { block with allocated := false })
        throw error
      | none =>
        set (h.recordStreams ctx block)
        return .queuing ((List.range' h.nextEvent block.streams.length).map (⟨·, ctx⟩))

def queueEvents (entries : List Entry) : M Unit :=
  modify fun h => { h with gcuEvents := entries.reverse ++ h.gcuEvents }

/-- The loop of `empty_cache` over what was the free list. -/
def removeBlocks (rt : HostRuntime) : List BlockId → M Unit
  | [] => return
  | ctx :: rest => do
    let h ← get
    match h.blocks ctx with
    | none => throw danglingBlock
    | some block =>
      set (h.unlist ctx block)
      gcuCheck (rt.topsHostFree block.ptr)
      modify (·.delete ctx block)
      removeBlocks rt rest

def emptyFreeList (rt : HostRuntime) : M Unit := do
  let h ← get
  set { h with freeList := [] }
  removeBlocks rt h.freeList

def recordEvent (ptr : Ptr) (ctx : BlockId) (stream : GCUStream) : M Bool := do
  let h ← get
  match if ctx ∈ h.blockSet then some ctx else h.ptrToBlock ptr with
  | none => return false
  | some found =>
    match h.blocks found with
    | none => throw danglingBlock
    | some block =>
      internalAssert block.allocated "block->allocated_"
      set (h.setBlock found { block with streams := block.streams.insert stream })
      return true

def Phase.advance (rt : HostRuntime) : Phase → M Phase
  | .idle => return .idle
  | .popping purpose => popEvent purpose
  | .querying purpose processed => queryEvent rt purpose processed
  | .pushingBack purpose processed => pushBack purpose processed
  | .counting purpose processed => countEvent purpose processed
  | .inserting purpose block => do
    insertFree block
    return .popping purpose
  | .searching size => searchFreeList size
  | .creating size => createBlock rt size
  | .emptying => do
    emptyFreeList rt
    return .idle
  | .freeing ctx => freeBlock rt ctx
  | .listing block => do
    insertFree block
    return .idle
  | .queuing entries => do
    queueEvents entries
    return .idle

/-! ### Threads -/

structure System where
  host : Host := {}
  threads : List Phase

/-- An exception ends the call that the thread is in. -/
def afterSection : EStateM.Result Err Host Phase → Host × Phase
  | .ok phase h => (h, phase)
  | .error _ h => (h, .idle)

def afterRecord : EStateM.Result Err Host Bool → Host
  | .ok _ h => h
  | .error _ h => h

inductive HostAction where
  | allocate (thread : Nat) (size : UInt64)
  | free (thread : Nat) (allocation : Allocation)
  | recordEvent (thread : Nat) (ptr : Ptr) (ctx : BlockId) (stream : GCUStream)
  | emptyCache (thread : Nat)
  | advance (thread : Nat) (rt : HostRuntime)
  | complete (event : EventId)

/-- Each context is freed once: freeing takes it out of those that are live. Events complete
at any time and in any order. -/
def System.Enabled (s : System) : HostAction → Prop
  | .allocate thread _ | .recordEvent thread _ _ _ | .emptyCache thread =>
    s.threads[thread]? = some .idle
  | .free thread allocation => s.threads[thread]? = some .idle ∧ allocation ∈ s.host.live
  | .advance thread _ => thread < s.threads.length
  | .complete _ => True

instance (s : System) (action : HostAction) : Decidable (s.Enabled action) := by
  cases action <;> simp only [System.Enabled] <;> infer_instance

def System.next (s : System) : HostAction → System
  | .allocate thread size =>
    ⟨s.host, s.threads.set thread (if size = 0 then .idle else .popping (.allocate size))⟩
  | .free thread allocation =>
    ⟨{ s.host with live := s.host.live.erase allocation },
      s.threads.set thread (.freeing allocation.block)⟩
  | .recordEvent _ ptr ctx stream =>
    ⟨afterRecord ((TOPSHostAllocator.recordEvent ptr ctx stream).run s.host), s.threads⟩
  | .emptyCache thread => ⟨s.host, s.threads.set thread (.popping .emptyCache)⟩
  | .advance thread rt =>
    match s.threads[thread]? with
    | none => s
    | some phase =>
      let (host, next) := afterSection ((phase.advance rt).run s.host)
      ⟨host, s.threads.set thread next⟩
  | .complete event =>
    ⟨{ s.host with completed := Function.update s.host.completed event true }, s.threads⟩

def HostStep (s : System) (action : HostAction) (t : System) : Prop :=
  s.Enabled action ∧ t = s.next action

/-- A process whose threads have not used the allocator. -/
def start (threads : Nat) : System := { threads := List.replicate threads .idle }

end TorchGcu.TOPSHostAllocator

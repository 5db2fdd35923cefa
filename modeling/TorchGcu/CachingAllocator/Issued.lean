import TorchGcu.CachingAllocator.Durable

/-! Block ids are given out in order. No operation, whatever the runtime answers and
however it ends, lets a block live at an id that has not been given out. -/
namespace TorchGcu.GCUCachingAllocator
open ProgramLogic

/-- Every live block has an id that has been given out. -/
def State.Issued (st : State) : Prop := ∀ b, st.Live b → b < st.nextBlock

namespace State.Issued
variable {st : State}

theorem dead (issued : st.Issued) : st.blocks st.nextBlock = none := by
  by_contra alive
  exact (issued st.nextBlock (Option.isSome_iff_ne_none.mpr alive)).false

theorem modifyBlock (issued : st.Issued) (b : BlockId) (f : Block → Block) :
    (st.modifyBlock b f).Issued := by
  intro c live
  refine issued c ?_
  by_cases same : c = b
  · subst same
    simpa [Live, State.modifyBlock] using live
  · simpa [Live, State.modifyBlock, same] using live

theorem newBlock (issued : st.Issued) (block : Block) : (st.newBlock block).Issued := by
  intro c live
  by_cases same : c = st.nextBlock
  · exact same ▸ Nat.lt_succ_self _
  · have old : st.Live c := by simpa [Live, State.newBlock, same] using live
    exact (issued c old).trans (Nat.lt_succ_self _)

theorem deleteBlock (issued : st.Issued) (b : BlockId) : (st.deleteBlock b).Issued := by
  intro c live
  by_cases same : c = b
  · subst same
    simp [Live, State.deleteBlock] at live
  · exact issued c (by simpa [Live, State.deleteBlock, same] using live)

theorem newSegment (issued : st.Issued) (cfg : GCUAllocatorConfig) (params : AllocParams)
    (ptr : Nat) : (st.newSegment cfg params ptr).Issued := by
  simp only [State.newSegment]
  split
  · exact issued.newBlock _
  · exact State.Issued.newBlock (show (st.modifyPrivatePool _ _).Issued from issued) _

theorem countSearch (issued : st.Issued) (cfg : GCUAllocatorConfig) (pool : PoolRef) :
    (st.countSearch cfg pool).Issued := by
  simp only [State.countSearch]
  split
  · exact issued
  · exact issued

end State.Issued

theorem issued_durable : Durable State.Issued :=
  .of_blocks
    (fun st' issued blocks next b live => by
      rw [next]
      refine issued b ?_
      rwa [State.Live, ← blocks])
    (fun b f issued => issued.modifyBlock b f) (fun block issued => issued.newBlock block)
    fun b issued => issued.deleteBlock b

section Operations
variable (cfg : GCUAllocatorConfig) (rt : Runtime)

theorem processEvents_issued : Preserves State.Issued (processEvents rt) :=
  processEvents_durable issued_durable rt

theorem garbageCollectCachedBlocks_issued :
    Preserves State.Issued (garbageCollectCachedBlocks cfg rt) :=
  garbageCollectCachedBlocks_durable issued_durable cfg rt

theorem releaseAvailableCachedBlocks_issued (params : AllocParams) :
    Preserves State.Issued (releaseAvailableCachedBlocks cfg rt params) :=
  releaseAvailableCachedBlocks_durable issued_durable cfg rt params

theorem releaseCachedBlocks_issued : Preserves State.Issued (releaseCachedBlocks cfg rt) :=
  releaseCachedBlocks_durable issued_durable cfg rt

theorem triggerFreeMemoryCallbacks_issued (callbacks : List (List BlockId × Bool))
    (freedMemory : Bool) :
    Preserves State.Issued (triggerFreeMemoryCallbacks cfg rt callbacks freedMemory) :=
  triggerFreeMemoryCallbacks_durable issued_durable cfg rt callbacks freedMemory

end Operations

theorem getPool_issued (size : Nat) (stream : StreamId) :
    Preserves State.Issued (getPool size stream) := getPool_durable size stream

/-! ### Every operation -/

theorem Step.run_issued (step : Step) : Preserves State.Issued step.run :=
  Step.run_durable issued_durable step

end TorchGcu.GCUCachingAllocator

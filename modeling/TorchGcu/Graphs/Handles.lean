import TorchGcu.Graphs.GCUGraph

/-! The handles and the pool that a `GCUGraph` owns: what its flags say of them, and how
each method changes that. -/
namespace TorchGcu.Graphs
open ProgramLogic Ledger
open GCUCachingAllocator (Err TopsError GCUStream DeviceIndex StreamId MempoolId)

/-! ### One kind of handle -/

/-- A member that holds a handle, the flag that says whether it does, and all that has been
done with handles of its kind. -/
structure Slot where
  handle : Option Handle
  held : Bool
  ledger : Ledger Handle

namespace Slot

/-- The flag is up exactly while the handle is live. -/
structure Tidy (slot : Slot) (next : Handle) : Prop where
  orderly : Orderly slot.ledger
  live : ∀ h, Live slot.ledger h ↔ slot.held = true ∧ slot.handle = some h
  named : slot.held = true → slot.handle.isSome = true
  fresh : ∀ h, .obtained h ∈ slot.ledger → h < next
  once : ∀ h, slot.ledger.count (.obtained h) ≤ 1

def obtain (slot : Slot) (h : Handle) : Slot :=
  { handle := some h, held := true, ledger := .obtained h :: slot.ledger }

/-- What is done with the handle in the slot. -/
def log (slot : Slot) (event : Handle → LedgerEvent Handle) : Slot :=
  { slot with
    ledger := match slot.handle with
      | some h => event h :: slot.ledger
      | none => slot.ledger }

def destroy (slot : Slot) : Slot := { slot.log .destroyed with held := false }

variable {slot : Slot} {next next' : Handle}

theorem Tidy.later (tidy : slot.Tidy next) (le : next ≤ next') : slot.Tidy next' :=
  { tidy with fresh := fun h obtained => Nat.lt_of_lt_of_le (tidy.fresh h obtained) le }

theorem Tidy.dead_of_empty (tidy : slot.Tidy next) (empty : slot.held = false) (h : Handle) :
    ¬ Live slot.ledger h := by
  rw [tidy.live h, empty]
  simp

theorem Tidy.replace (tidy : slot.Tidy next) (empty : slot.held = false) (handle : Option Handle) :
    ({ slot with handle } : Slot).Tidy next :=
  { tidy with
    live := fun h => iff_of_false (tidy.dead_of_empty empty h) (by simp [empty])
    named := fun held => by simp [empty] at held }

theorem Tidy.obtain (tidy : slot.Tidy next) (empty : slot.held = false) :
    (slot.obtain next).Tidy (next + 1) where
  orderly := ⟨tidy.dead_of_empty empty next, tidy.orderly⟩
  live h := by
    have dead := tidy.dead_of_empty empty h
    simp [Slot.obtain, dead, eq_comm]
  named _ := rfl
  fresh h obtained := by
    rcases List.mem_cons.mp obtained with same | old
    · cases same
      exact Nat.lt_succ_self _
    · exact Nat.lt_succ_of_lt (tidy.fresh h old)
  once h := by
    have before := tidy.once h
    by_cases same : h = next
    · subst same
      have new : slot.ledger.count (.obtained h) = 0 := List.count_eq_zero_of_not_mem fun old =>
        absurd (tidy.fresh h old) (Nat.lt_irrefl h)
      simp [Slot.obtain, new]
    · simpa [Slot.obtain, List.count_cons, Ne.symm same] using before

theorem Tidy.use (tidy : slot.Tidy next) (held : slot.held = true) : (slot.log .used).Tidy next := by
  obtain ⟨h, handle⟩ := Option.isSome_iff_exists.mp (tidy.named held)
  have live : Live slot.ledger h := (tidy.live h).mpr ⟨held, handle⟩
  constructor
  · simpa [Slot.log, handle] using ⟨live, tidy.orderly⟩
  · simpa [Slot.log, handle] using tidy.live
  · simpa [Slot.log] using tidy.named
  · simpa [Slot.log, handle] using tidy.fresh
  · simpa [Slot.log, handle] using tidy.once

theorem Tidy.destroy (tidy : slot.Tidy next) (held : slot.held = true) :
    slot.destroy.Tidy next := by
  obtain ⟨h, handle⟩ := Option.isSome_iff_exists.mp (tidy.named held)
  have live : Live slot.ledger h := (tidy.live h).mpr ⟨held, handle⟩
  constructor
  · simpa [Slot.destroy, Slot.log, handle] using ⟨live, tidy.orderly⟩
  · intro h'
    simp only [Slot.destroy, Slot.log, handle, live_destroyed, tidy.live h', Bool.false_eq_true,
      false_and, iff_false, not_and]
    rintro other - same
    exact other (Option.some.inj same).symm
  · simp [Slot.destroy]
  · simpa [Slot.destroy, Slot.log, handle] using tidy.fresh
  · simpa [Slot.destroy, Slot.log, handle] using tidy.once

/-- Nothing is destroyed twice. -/
theorem Tidy.destroyed_le (tidy : slot.Tidy next) (h : Handle) :
    slot.ledger.count (.destroyed h) ≤ 1 :=
  (tidy.orderly.destroyed_le h).trans (tidy.once h)

/-- Nothing is used after it has been destroyed. -/
theorem Tidy.used_not_mem (tidy : slot.Tidy next) {newer older : Ledger Handle} {h : Handle}
    (split : slot.ledger = newer ++ .destroyed h :: older) : .used h ∉ newer := by
  have orderly := tidy.orderly
  rw [split] at orderly
  refine orderly.used_not_mem fun again => ?_
  -- A handle that is destroyed has been obtained before, so not again since.
  have live : Live older h := orderly.suffix.1
  have twice := tidy.once h
  rw [split, List.count_append, List.count_cons_of_ne (by simp)] at twice
  have first := List.count_pos_iff.mpr live.obtained_mem
  have second := List.count_pos_iff.mpr again
  omega

end Slot

/-! ### What the object owns -/

structure Books where
  graph : Slot
  exec : Slot
  captureDev : DeviceIndex
  mempoolId : MempoolId
  poolLog : List PoolEvent
  nextHandle : Handle
  debug : Bool

def Session.books (s : Session) : Books where
  graph := ⟨s.this.graph, s.this.hasGraph, s.graphLedger⟩
  exec := ⟨s.this.graphExec, s.this.hasGraphExec, s.execLedger⟩
  captureDev := s.this.captureDev
  mempoolId := s.this.mempoolId
  poolLog := s.poolLog
  nextHandle := s.nextHandle
  debug := s.gcuGraphsDebug

namespace Books

/-- The pool of a completed capture has been released once, or the object still holds it. -/
structure Tidy (books : Books) : Prop where
  graph : books.graph.Tidy books.nextHandle
  exec : books.exec.Tidy books.nextHandle
  released : ∀ e device pool, .poolReleased (some e) device pool ∈ books.poolLog →
    .obtained e ∈ books.exec.ledger ∧ ¬ Live books.exec.ledger e
  completed : ∀ e device pool, .captureCompleted e device pool ∈ books.poolLog →
    (Live books.exec.ledger e ∧ device = books.captureDev ∧ pool = books.mempoolId) ∨
      books.poolLog.count (.poolReleased (some e) device pool) = 1

def obtainGraph (books : Books) : Books :=
  { books with graph := books.graph.obtain books.nextHandle, nextHandle := books.nextHandle + 1 }

def obtainExec (books : Books) : Books :=
  { books with exec := books.exec.obtain books.nextHandle, nextHandle := books.nextHandle + 1 }

def complete (books : Books) : Books :=
  { books with
    poolLog := match books.exec.handle with
      | some e => .captureCompleted e books.captureDev books.mempoolId :: books.poolLog
      | none => books.poolLog }

def logRelease (books : Books) : Books :=
  { books with
    poolLog := .poolReleased (if books.exec.held then books.exec.handle else none) books.captureDev
      books.mempoolId :: books.poolLog }

/-- What `reset` does when nothing it calls raises. -/
def reset (books : Books) : Books :=
  if books.graph.held || books.exec.held then
    { books.logRelease with
      graph := if books.graph.held then books.graph.destroy else books.graph
      exec := if books.exec.held then books.exec.destroy else books.exec }
  else books

variable {books : Books}

/-- A pool whose capture is still held has not been released. -/
theorem Tidy.unreleased (tidy : books.Tidy) {e : Handle} (live : Live books.exec.ledger e)
    (device : DeviceIndex) (pool : MempoolId) :
    books.poolLog.count (.poolReleased (some e) device pool) = 0 :=
  List.count_eq_zero_of_not_mem fun released => (tidy.released e device pool released).2 live

theorem Tidy.relabel (tidy : books.Tidy) (empty : books.exec.held = false) (device : DeviceIndex)
    (pool : MempoolId) : ({ books with captureDev := device, mempoolId := pool } : Books).Tidy where
  graph := tidy.graph
  exec := tidy.exec
  released := tidy.released
  completed e device' pool' completed := by
    rcases tidy.completed e device' pool' completed with ⟨live, _⟩ | once
    · exact absurd live (tidy.exec.dead_of_empty empty e)
    · exact .inr once

theorem Tidy.replaceGraph (tidy : books.Tidy) (empty : books.graph.held = false)
    (handle : Option Handle) : ({ books with graph := { books.graph with handle } } : Books).Tidy :=
  { tidy with graph := tidy.graph.replace empty handle }

theorem Tidy.obtainGraph (tidy : books.Tidy) (empty : books.graph.held = false) :
    books.obtainGraph.Tidy :=
  { tidy with
    graph := tidy.graph.obtain empty
    exec := tidy.exec.later (Nat.le_succ _) }

theorem Tidy.useGraph (tidy : books.Tidy) (held : books.graph.held = true) :
    ({ books with graph := books.graph.log .used } : Books).Tidy :=
  { tidy with graph := tidy.graph.use held }

theorem Tidy.destroyGraph (tidy : books.Tidy) (held : books.graph.held = true) :
    ({ books with graph := books.graph.destroy } : Books).Tidy :=
  { tidy with graph := tidy.graph.destroy held }

theorem Tidy.obtainExec (tidy : books.Tidy) (empty : books.exec.held = false) :
    books.obtainExec.Tidy where
  graph := tidy.graph.later (Nat.le_succ _)
  exec := tidy.exec.obtain empty
  released e device pool released := by
    obtain ⟨obtained, dead⟩ := tidy.released e device pool released
    refine ⟨List.mem_cons_of_mem _ obtained, ?_⟩
    rintro (rfl | live)
    · exact absurd (tidy.exec.fresh _ obtained) (Nat.lt_irrefl _)
    · exact dead live
  completed e device pool completed := by
    rcases tidy.completed e device pool completed with ⟨live, _⟩ | once
    · exact absurd live (tidy.exec.dead_of_empty empty e)
    · exact .inr once

theorem Tidy.useExec (tidy : books.Tidy) (held : books.exec.held = true) :
    ({ books with exec := books.exec.log .used } : Books).Tidy := by
  obtain ⟨h, handle⟩ := Option.isSome_iff_exists.mp (tidy.exec.named held)
  exact
    { tidy with
      exec := tidy.exec.use held
      released := by simpa [Slot.log, handle] using tidy.released
      completed := by simpa [Slot.log, handle] using tidy.completed }

theorem Tidy.complete (tidy : books.Tidy) (held : books.exec.held = true) :
    books.complete.Tidy := by
  obtain ⟨h, handle⟩ := Option.isSome_iff_exists.mp (tidy.exec.named held)
  have live : Live books.exec.ledger h := (tidy.exec.live h).mpr ⟨held, handle⟩
  constructor
  · exact tidy.graph
  · exact tidy.exec
  · simpa [Books.complete, handle] using tidy.released
  · intro e device pool completed
    simp only [Books.complete, handle, List.mem_cons, PoolEvent.captureCompleted.injEq] at completed
    rcases completed with ⟨rfl, rfl, rfl⟩ | old
    · exact .inl ⟨live, rfl, rfl⟩
    · simpa [Books.complete, handle] using tidy.completed e device pool old

theorem Tidy.reset (tidy : books.Tidy) : books.reset.Tidy := by
  unfold Books.reset
  split
  case isFalse => exact tidy
  case isTrue =>
    have graph : (if books.graph.held then books.graph.destroy else books.graph).Tidy
        books.nextHandle := by
      split
      · exact tidy.graph.destroy ‹_›
      · exact tidy.graph
    cases held : books.exec.held with
    | false =>
      constructor
      · exact graph
      · simpa [Books.logRelease, held] using tidy.exec
      · simpa [Books.logRelease, held] using tidy.released
      · simpa [Books.logRelease, held] using tidy.completed
    | true =>
      obtain ⟨h, handle⟩ := Option.isSome_iff_exists.mp (tidy.exec.named held)
      have live : Live books.exec.ledger h := (tidy.exec.live h).mpr ⟨held, handle⟩
      have only : ∀ e, Live books.exec.ledger e → e = h := fun e alive => by
        have here := ((tidy.exec.live e).mp alive).2
        exact Option.some.inj (here.symm.trans handle)
      constructor
      · exact graph
      · simpa [Books.logRelease, held] using tidy.exec.destroy held
      · intro e device pool released
        simp only [Books.logRelease, held, if_true, handle, List.mem_cons,
          PoolEvent.poolReleased.injEq, Option.some.injEq] at released
        simp only [if_true, Slot.destroy, Slot.log, handle, live_destroyed]
        rcases released with ⟨rfl, -, -⟩ | old
        · exact ⟨List.mem_cons_of_mem _ live.obtained_mem, fun still => still.1 rfl⟩
        · obtain ⟨obtained, dead⟩ := tidy.released e device pool old
          exact ⟨List.mem_cons_of_mem _ obtained, fun still => dead still.2⟩
      · intro e device pool completed
        simp only [Books.logRelease, held, if_true, handle, List.mem_cons, reduceCtorEq,
          false_or] at completed ⊢
        refine .inr ?_
        rcases tidy.completed e device pool completed with ⟨alive, rfl, rfl⟩ | once
        · cases only e alive
          rw [List.count_cons_self, tidy.unreleased alive]
        · have other : e ≠ h := by
            rintro rfl
            rw [tidy.unreleased live] at once
            cases once
          simpa [List.count_cons, other.symm] using once

end Books
end TorchGcu.Graphs

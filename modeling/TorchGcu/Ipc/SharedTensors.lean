import TorchGcu.Ipc.CurrentFile
import TorchGcu.Ipc.ShareHandle

/-! Tensors that are shared between processes. The producer puts the storage behind a sent data
and sends a message; a consumer that receives it opens the memory, or uses a storage that it has
already, and releases the counter of the message when it needs it no more. A sent data names
its message, and the storage of a consumer that was made for it. -/
namespace TorchGcu.IpcRefCounters
open Function
open Ipc (ShareableHandle)

abbrev StorageId := Nat
abbrev ConsumerId := Nat

/-- A storage of the producer with its memory, and the sent data it is behind, the newest
first: the context of its data pointer, then that of each `original_ptr_`. -/
structure Storage where
  handle : ShareableHandle
  nbytes : Nat
  sentData : List SentId := []
  alive : Bool := true
  freed : Bool := false

/-- The arguments of `rebuild_gcu_tensor`. -/
structure Message where
  storageHandle : ShareableHandle
  storageSizeBytes : Nat
  refCounter : Slot
deriving DecidableEq

/-- What became of a message. -/
inductive Stage where
  | unsent
  | inFlight
  | opening (consumer : ConsumerId)
  | mapped (consumer : ConsumerId)
  | releasing (consumer : ConsumerId)
  | released
  /-- Its counter is never released. -/
  | lost
deriving DecidableEq

/-- `ptrMapMutex` is held by the thread that shares a storage. -/
structure Sharing where
  producer : Producer := {}
  sharer : Option (ThreadId × StorageId) := none
  storages : StorageId → Option Storage := fun _ => none
  messages : SentId → Option Message := fun _ => none
  stage : SentId → Stage := fun _ => .unsent
  sharedCache : ConsumerId → ShareableHandle → Option SentId := fun _ _ => none

namespace Sharing

def setStage (w : Sharing) (x : SentId) (stage : Stage) : Sharing :=
  { w with stage := update w.stage x stage }

def setStorage (w : Sharing) (s : StorageId) (storage : Storage) : Sharing :=
  { w with storages := update w.storages s (some storage) }

/-! ### The producer -/

/-- `THGPStorage_shareGcu`, up to the section of `GetNewRefCountedSentData`. -/
def share (w : Sharing) (t : ThreadId) (s : StorageId) : Sharing :=
  { w with sharer := some (t, s), producer := w.producer.getNewBegin t }

/-- Its end: the storage is put behind the new sent data, and the message is sent. -/
def send (w : Sharing) (t : ThreadId) (s : StorageId) (storage : Storage) (x : SentId) : Sharing :=
  { w with
    producer := w.producer.checkFull t x
    sharer := none
    storages := update w.storages s (some { storage with sentData := x :: storage.sentData })
    messages := update w.messages x (some
      { storageHandle := storage.handle, storageSizeBytes := storage.nbytes,
        refCounter := w.producer.slots x })
    stage := update w.stage x .inFlight }

/-- A sent data of a storage that nothing holds: the storage and all that was put in front of
this sent data are gone. -/
def LetGo (w : Sharing) (storage : Storage) (x : SentId) : Prop :=
  storage.alive = false ∧ ∃ newer older, storage.sentData = newer ++ x :: older ∧
    ∀ y ∈ newer, y ∉ w.producer.live

/-! ### A consumer -/

/-- `storage_from_cache`: the storage that is cached is there while somebody uses it. -/
def storageFromCache (w : Sharing) (c : ConsumerId) (handle : ShareableHandle) : Option SentId :=
  (w.sharedCache c handle).filter fun y => w.stage y = .mapped c

/-- The choice of `rebuild_gcu_tensor`. -/
def rebuild (w : Sharing) (c : ConsumerId) (x : SentId) (m : Message) : Sharing :=
  if m.storageSizeBytes = 0 then w.setStage x .lost
  else
    match w.storageFromCache c m.storageHandle with
    | some _ => w.setStage x (.releasing c)
    | none => w.setStage x (.opening c)

/-- `_new_shared_gcu`, and the entry for the new storage. -/
def newShared (w : Sharing) (c : ConsumerId) (x : SentId) (m : Message) : Sharing :=
  { w.setStage x (.mapped c) with
    sharedCache := update w.sharedCache c
      (update (w.sharedCache c) m.storageHandle (some x)) }

/-- `_release_ipc_counter`, or the end of the deleter. A file that is gone is not an error. -/
def release (w : Sharing) (x : SentId) (m : Message) : Sharing :=
  if w.producer.refCountersFiles m.refCounter.handle then
    { w.setStage x .released with
      producer := { w.producer with
        counters := update w.producer.counters m.refCounter
          (w.producer.counters m.refCounter - 1) } }
  else w.setStage x .released

end Sharing

/-- The steps that a thread of the producer takes within a call. -/
def Action.within : Action → Bool
  | .getNewBegin _ | .constructRaises _ | .checkFull _ | .deleteBegin _ _ | .consume _ => false
  | _ => true

inductive SharingAction where
  | allocate (s : StorageId)
  | share (t : ThreadId) (s : StorageId)
  | within (act : Action)
  | shareFailed (t : ThreadId)
  | send (t : ThreadId) (x : SentId)
  | drop (s : StorageId)
  | deleteBegin (t : ThreadId) (x : SentId)
  | free (s : StorageId)
  | rebuild (c : ConsumerId) (x : SentId)
  | newShared (c : ConsumerId) (x : SentId)
  | newSharedFailed (c : ConsumerId) (x : SentId)
  | dropShared (c : ConsumerId) (x : SentId)
  | release (c : ConsumerId) (x : SentId)

/-- The steps of the producer's threads, and of the consumers. Memory is where no other is, so
that the handle of a new storage is that of no memory in use. A storage is alive while it is
being shared. The deletion of a sent data begins when nothing holds it, and the memory is freed
after the last of them. -/
inductive SharingStep : Sharing → SharingAction → Sharing → Prop where
  | allocate {w s handle nbytes} (new : w.storages s = none)
      (unused : ∀ s' storage, w.storages s' = some storage → storage.freed = false →
        storage.handle ≠ handle) :
      SharingStep w (.allocate s) (w.setStorage s { handle, nbytes })
  | share {w t s storage} (unlocked : w.sharer = none) (idle : w.producer.phase t = .idle)
      (found : w.storages s = some storage) (alive : storage.alive = true) :
      SharingStep w (.share t s) (w.share t s)
  | within {w act producer} (inside : act.within = true) (taken : Step w.producer act producer) :
      SharingStep w (.within act) { w with producer }
  | shareFailed {w t s} (next : w.producer.phase t = .construct) (mine : w.sharer = some (t, s)) :
      SharingStep w (.shareFailed t)
        { w with producer := w.producer.setPhase t .idle, sharer := none }
  | send {w t s storage x} (next : w.producer.phase t = .checkFull x)
      (mine : w.sharer = some (t, s)) (found : w.storages s = some storage) :
      SharingStep w (.send t x) (w.send t s storage x)
  | drop {w s storage} (found : w.storages s = some storage) (alive : storage.alive = true)
      (unused : ∀ t, w.sharer ≠ some (t, s)) :
      SharingStep w (.drop s) (w.setStorage s { storage with alive := false })
  | deleteBegin {w t x s storage} (idle : w.producer.phase t = .idle)
      (owned : w.producer.place x = .owned) (found : w.storages s = some storage)
      (letGo : w.LetGo storage x) :
      SharingStep w (.deleteBegin t x) { w with producer := w.producer.deleteBegin t x }
  | free {w s storage} (found : w.storages s = some storage) (dead : storage.alive = false)
      (gone : ∀ x ∈ storage.sentData, x ∉ w.producer.live) :
      SharingStep w (.free s) (w.setStorage s { storage with freed := true })
  | rebuild {w c x m} (sent : w.messages x = some m) (arrives : w.stage x = .inFlight) :
      SharingStep w (.rebuild c x) (w.rebuild c x m)
  | newShared {w c x m} (sent : w.messages x = some m) (next : w.stage x = .opening c) :
      SharingStep w (.newShared c x) (w.newShared c x m)
  | newSharedFailed {w c x} (next : w.stage x = .opening c) :
      SharingStep w (.newSharedFailed c x) (w.setStage x .lost)
  | dropShared {w c x} (there : w.stage x = .mapped c) :
      SharingStep w (.dropShared c x) (w.setStage x (.releasing c))
  | release {w c x m} (sent : w.messages x = some m) (next : w.stage x = .releasing c) :
      SharingStep w (.release c x) (w.release x m)

end TorchGcu.IpcRefCounters

import Mathlib.Logic.Function.Basic
import TorchGcu.Logic.Runs

/-! The reference counters of sent data in the producing process: `GetNewRefCountedSentData`,
`GcuIPCSentDataDelete`, `ReturnRefCounter`, the limbo and `GcuIPCCollect`. A step is one section
of a mutex, or one statement outside of them. -/
namespace TorchGcu.IpcRefCounters
open ProgramLogic

/-- A file of counters, whose handle is a new one. -/
abbrev FileId := Nat

/-- A `GcuIPCSentData*`. -/
abbrev SentId := Nat
abbrev ThreadId := Nat

def gcuIPCRefCounterFileSize : Nat := 10000

/-- `GcuIPCRefCountersFile`. A counter of slots that would wrap is negative here. -/
structure RefCountersFile where
  nextOffset : Nat := 0
  usedSlots : Int := 0
deriving DecidableEq

def RefCountersFile.haveOffsets (file : RefCountersFile) : Bool :=
  file.nextOffset < gcuIPCRefCounterFileSize

/-- `offsets_in_use`. -/
def RefCountersFile.offsetsInUse (file : RefCountersFile) : Bool := file.usedSlots ≠ 0

def RefCountersFile.rotateOffset (file : RefCountersFile) : RefCountersFile :=
  { nextOffset := file.nextOffset + 1, usedSlots := file.usedSlots + 1 }

def RefCountersFile.returnOffset (file : RefCountersFile) : RefCountersFile :=
  { file with usedSlots := file.usedSlots - 1 }

/-- The file and the offset of a sent data, which say where its counter is as well. -/
structure Slot where
  handle : FileId
  offset : Nat
deriving DecidableEq

/-- What a thread does after a collection: the end of `GcuIPCSentDataDelete`, which destroys what
it still owns, or the rest of `GcuIPCCollect`. -/
inductive After where
  | destroy (own : Option SentId)
  | checkSize
deriving DecidableEq

/-- The next step of a thread. The first four are `GetNewRefCountedSentData` after its section. -/
inductive Phase where
  | setCounter
  | construct
  | rotate (sent : SentId)
  | checkFull (sent : SentId)
  | idle
  | checkCounter (sent : SentId)
  | addLimbo (sent : SentId)
  | collect (after : After)
  | reset (blocks : List SentId) (after : After)
  | clean
  | crashed
deriving DecidableEq

/-- Who has a sent data: the thread that makes it, a data pointer, the thread that deletes it, the
limbo, or the thread that took it from there. -/
inductive Place where
  | nowhere
  | making (thread : ThreadId)
  | owned
  | held (thread : ThreadId)
  | limbo
  | collected (thread : ThreadId)
deriving DecidableEq

/-- The globals, the heap of sent data and the threads of the producer. The last two are history:
the sent data that exist, and where they are. -/
structure Producer where
  files : FileId → RefCountersFile := fun _ => {}
  created : Nat := 0
  refCountersFiles : FileId → Bool := fun _ => false
  nextAvailable : Option FileId := none
  counters : Slot → Nat := fun _ => 0
  slots : SentId → Slot := fun _ => ⟨0, 0⟩
  made : Nat := 0
  sharedBlocks : List SentId := []
  phase : ThreadId → Phase := fun _ => .idle
  live : List SentId := []
  place : SentId → Place := fun _ => .nowhere

namespace Producer

def setPhase (s : Producer) (t : ThreadId) (phase : Phase) : Producer :=
  { s with phase := Function.update s.phase t phase }

def setPlace (s : Producer) (sent : SentId) (place : Place) : Producer :=
  { s with place := Function.update s.place sent place }

def modifyFile (s : Producer) (file : FileId) (f : RefCountersFile → RefCountersFile) : Producer :=
  { s with files := Function.update s.files file (f (s.files file)) }

def eraseFile (s : Producer) (file : FileId) : Producer :=
  { s with refCountersFiles := Function.update s.refCountersFiles file false }

/-- `next_available_ref_counters_file_->`. -/
def deref (s : Producer) (t : ThreadId) (f : FileId → Producer) : Producer :=
  match s.nextAvailable with
  | some file => f file
  | none => s.setPhase t .crashed

/-! ### `GetNewRefCountedSentData` -/

/-- The section: a new file when there is none. -/
def getNewBegin (s : Producer) (t : ThreadId) : Producer :=
  match s.nextAvailable with
  | some _ => s.setPhase t .setCounter
  | none =>
    { s.setPhase t .setCounter with
      files := Function.update s.files s.created {}
      refCountersFiles := Function.update s.refCountersFiles s.created true
      nextAvailable := some s.created
      created := s.created + 1 }

def setCounter (s : Producer) (t : ThreadId) : Producer :=
  s.deref t fun file =>
    { s.setPhase t .construct with
      counters := Function.update s.counters ⟨file, (s.files file).nextOffset⟩ 1 }

def construct (s : Producer) (t : ThreadId) : Producer :=
  s.deref t fun file =>
    { (s.setPhase t (.rotate s.made)).setPlace s.made (.making t) with
      slots := Function.update s.slots s.made ⟨file, (s.files file).nextOffset⟩
      made := s.made + 1
      live := s.made :: s.live }

def rotate (s : Producer) (t : ThreadId) (sent : SentId) : Producer :=
  s.deref t fun file =>
    ((s.modifyFile file RefCountersFile.rotateOffset).setPlace sent (.held t)).setPhase t
      (.checkFull sent)

def checkFull (s : Producer) (t : ThreadId) (sent : SentId) : Producer :=
  s.deref t fun file =>
    { (s.setPlace sent .owned).setPhase t .idle with
      nextAvailable := if (s.files file).haveOffsets then s.nextAvailable else none }

/-! ### `~GcuIPCSentData` -/

/-- `ReturnRefCounter`. -/
def returnRefCounter (s : Producer) (handle : FileId) : Producer :=
  if s.refCountersFiles handle then
    let s := s.modifyFile handle RefCountersFile.returnOffset
    if (s.files handle).offsetsInUse = false ∧ (s.files handle).haveOffsets = false then
      s.eraseFile handle
    else s
  else s

def destroy (s : Producer) (sent : SentId) : Producer :=
  { (s.returnRefCounter (s.slots sent).handle).setPlace sent .nowhere with
    live := s.live.erase sent }

/-! ### `GcuIPCSentDataDelete` and `GcuIPCCollect` -/

def deleteBegin (s : Producer) (t : ThreadId) (sent : SentId) : Producer :=
  (s.setPlace sent (.held t)).setPhase t (.checkCounter sent)

def checkCounter (s : Producer) (t : ThreadId) (sent : SentId) : Producer :=
  if 0 < s.counters (s.slots sent) then s.setPhase t (.addLimbo sent)
  else s.setPhase t (.collect (.destroy (some sent)))

def addLimbo (s : Producer) (t : ThreadId) (sent : SentId) : Producer :=
  { (s.setPlace sent .limbo).setPhase t (.collect (.destroy none)) with
    sharedBlocks := s.sharedBlocks ++ [sent] }

/-- The section of `collect`. -/
def collect (s : Producer) (t : ThreadId) (after : After) : Producer :=
  let kept := s.sharedBlocks.filter fun sent => 0 < s.counters (s.slots sent)
  let freed := s.sharedBlocks.filter fun sent => ¬ 0 < s.counters (s.slots sent)
  { s.setPhase t (.reset freed after) with
    sharedBlocks := kept
    place := fun sent => if sent ∈ freed then .collected t else s.place sent }

def resetOne (s : Producer) (t : ThreadId) (sent : SentId) (blocks : List SentId)
    (after : After) : Producer :=
  (s.destroy sent).setPhase t (.reset blocks after)

def resetEnd (s : Producer) (t : ThreadId) : After → Producer
  | .destroy (some own) => (s.destroy own).setPhase t .idle
  | .destroy none => s.setPhase t .idle
  | .checkSize => if s.sharedBlocks = [] then s.setPhase t .clean else s.setPhase t .idle

/-- `safe_clean_current_file`. -/
def safeCleanCurrentFile (s : Producer) (t : ThreadId) : Producer :=
  match s.nextAvailable with
  | none => s.setPhase t .idle
  | some file =>
    if (s.files file).offsetsInUse = false then
      { (s.eraseFile file).setPhase t .idle with nextAvailable := none }
    else s.setPhase t .idle

end Producer

inductive Action where
  | getNewBegin (t : ThreadId)
  | setCounter (t : ThreadId)
  | construct (t : ThreadId)
  | constructRaises (t : ThreadId)
  | rotate (t : ThreadId)
  | checkFull (t : ThreadId)
  | deleteBegin (t : ThreadId) (sent : SentId)
  | checkCounter (t : ThreadId)
  | addLimbo (t : ThreadId)
  | collectBegin (t : ThreadId)
  | collect (t : ThreadId)
  | resetOne (t : ThreadId)
  | resetEnd (t : ThreadId)
  | clean (t : ThreadId)
  | consume (slot : Slot)

/-- The steps of all threads, and of the consumers, which decrement counters. The constructor of a
sent data synchronizes its stream, which can raise. -/
inductive Step : Producer → Action → Producer → Prop where
  | getNewBegin {s t} (free : s.phase t = .idle) : Step s (.getNewBegin t) (s.getNewBegin t)
  | setCounter {s t} (next : s.phase t = .setCounter) : Step s (.setCounter t) (s.setCounter t)
  | construct {s t} (next : s.phase t = .construct) : Step s (.construct t) (s.construct t)
  | constructRaises {s t} (next : s.phase t = .construct) :
      Step s (.constructRaises t) (s.setPhase t .idle)
  | rotate {s t sent} (next : s.phase t = .rotate sent) : Step s (.rotate t) (s.rotate t sent)
  | checkFull {s t sent} (next : s.phase t = .checkFull sent) :
      Step s (.checkFull t) (s.checkFull t sent)
  | deleteBegin {s t sent} (free : s.phase t = .idle) (owned : s.place sent = .owned) :
      Step s (.deleteBegin t sent) (s.deleteBegin t sent)
  | checkCounter {s t sent} (next : s.phase t = .checkCounter sent) :
      Step s (.checkCounter t) (s.checkCounter t sent)
  | addLimbo {s t sent} (next : s.phase t = .addLimbo sent) :
      Step s (.addLimbo t) (s.addLimbo t sent)
  | collectBegin {s t} (free : s.phase t = .idle) :
      Step s (.collectBegin t) (s.setPhase t (.collect .checkSize))
  | collect {s t after} (next : s.phase t = .collect after) :
      Step s (.collect t) (s.collect t after)
  | resetOne {s t sent blocks after} (next : s.phase t = .reset (sent :: blocks) after) :
      Step s (.resetOne t) (s.resetOne t sent blocks after)
  | resetEnd {s t after} (next : s.phase t = .reset [] after) :
      Step s (.resetEnd t) (s.resetEnd t after)
  | clean {s t} (next : s.phase t = .clean) : Step s (.clean t) (s.safeCleanCurrentFile t)
  | consume {s slot} (positive : 0 < s.counters slot) :
      Step s (.consume slot)
        { s with counters := Function.update s.counters slot (s.counters slot - 1) }

end TorchGcu.IpcRefCounters

import Mathlib.Logic.Function.Basic
import TorchGcu.Logic.Runs

/-! `PythonCallbackWorker`: records of Python callbacks that stream callbacks enqueue and wait
for, one worker thread that executes them, and `stop`. A step is what one thread does in one
section of a mutex, or between two sections. -/
namespace TorchGcu.PythonCallbackWorker
open ProgramLogic

/-- A `CallbackData*`: numbers that are never reused. -/
abbrev DataId := Nat

/-- One call of `enqueueCallback`. -/
abbrev CallId := Nat

/-- `launched` says that the runtime was given the record, and `deleted` counts how often it was
deleted. -/
structure CallbackData where
  launched : Bool := false
  isValid : Bool := true
  completed : Bool := false
  cached : Bool := false
  deleted : Nat := 0
deriving DecidableEq, Repr

/-- An element of `callback_queue`, with the call that pushed it. -/
structure Entry where
  call : CallId
  data : DataId
deriving DecidableEq, Repr

/-- Where a call of `enqueueCallback` is: before its push, waiting for the worker, before its
claim of the record's place in the cache, or before it puts the record there. -/
inductive CallPhase where
  | enqueuing
  | waiting
  | claiming
  | caching
deriving DecidableEq, Repr

structure Call where
  data : DataId
  phase : CallPhase
deriving DecidableEq, Repr

inductive WorkerPhase where
  | idle
  | executing (entry : Entry)
  | completing (entry : Entry)
  | notifying (data : DataId)
  | exited
deriving DecidableEq, Repr

inductive StopPhase where
  | notCalled
  | joining
  | draining
  | clearing
  | stopped
deriving DecidableEq, Repr

/-- How a call returned: whether its callback had been executed, and whether the worker had been
told to stop. -/
structure Return where
  call : CallId
  executed : Bool
  stopped : Bool
deriving DecidableEq, Repr

/-- The members of the worker, the records, and the calls in progress. The last three are
history: the calls whose callback was executed, the calls that have returned, and the records
that were put in the cache. -/
structure Worker where
  data : DataId → CallbackData := fun _ => {}
  nextData : DataId := 0
  callbackQueue : List Entry := []
  cachedCallbackQueue : List DataId := []
  shouldStop : Bool := false
  phase : WorkerPhase := .idle
  stop : StopPhase := .notCalled
  calls : CallId → Option Call := fun _ => none
  nextCall : CallId := 0
  executed : List CallId := []
  returned : List Return := []
  cachings : List DataId := []

namespace Worker

def modifyData (s : Worker) (d : DataId) (f : CallbackData → CallbackData) : Worker :=
  { s with data := Function.update s.data d (f (s.data d)) }

def setCall (s : Worker) (c : CallId) (call : Option Call) : Worker :=
  { s with calls := Function.update s.calls c call }

/-- `deletePythonData`, which deletes nothing while the interpreter is being finalised. -/
def deletePythonData (alive : DataId → Bool) (s : Worker) (d : DataId) : Worker :=
  s.modifyData d fun record =>
    { record with isValid := false, deleted := record.deleted + if alive d then 1 else 0 }

/-- The end of a call. -/
def leave (s : Worker) (c : CallId) : Worker :=
  { s.setCall c none with
    returned := ⟨c, decide (c ∈ s.executed), s.shouldStop⟩ :: s.returned }

/-! ### `launchHostFunc` -/

/-- A new record, which is deleted at once when its launch fails. -/
def launchHostFunc (fails : Bool) (s : Worker) : Worker :=
  { s.modifyData s.nextData fun _ => { launched := !fails, deleted := if fails then 1 else 0 } with
    nextData := s.nextData + 1 }

/-! ### `enqueueCallback` -/

def enqueueBegin (s : Worker) (d : DataId) : Worker :=
  { (s.modifyData d fun record => { record with completed := false }).setCall s.nextCall
      (some ⟨d, .enqueuing⟩) with
    nextCall := s.nextCall + 1 }

def enqueuePush (s : Worker) (c : CallId) (d : DataId) : Worker :=
  { s.setCall c (some ⟨d, .waiting⟩) with callbackQueue := s.callbackQueue ++ [⟨c, d⟩] }

def enqueueWake (s : Worker) (c : CallId) (d : DataId) : Worker :=
  s.setCall c (some ⟨d, .claiming⟩)

/-- `compare_exchange_strong` on `cached`: only the first call goes on to the cache. -/
def enqueueClaim (s : Worker) (c : CallId) (d : DataId) : Worker :=
  if (s.data d).cached then s.leave c
  else (s.modifyData d fun record => { record with cached := true }).setCall c (some ⟨d, .caching⟩)

def enqueueCache (s : Worker) (c : CallId) (d : DataId) : Worker :=
  { s.leave c with
    cachedCallbackQueue := s.cachedCallbackQueue ++ [d]
    cachings := d :: s.cachings }

/-! ### `workerLoop` -/

/-- The function of a record is called only while the interpreter is there and the record is
valid. -/
def executePythonCallback (alive : Bool) (s : Worker) (entry : Entry) : Worker :=
  { s with
    phase := .completing entry
    executed := if alive && (s.data entry.data).isValid then entry.call :: s.executed
      else s.executed }

def complete (s : Worker) (entry : Entry) : Worker :=
  { s.modifyData entry.data fun record => { record with completed := true } with
    phase := .notifying entry.data }

/-! ### `stop` -/

def stopBegin (s : Worker) : Worker :=
  { s with
    shouldStop := true
    data := fun d =>
      if d ∈ s.callbackQueue.map Entry.data then { s.data d with isValid := false } else s.data d
    stop := .joining }

def stopDrain (alive : DataId → Bool) (s : Worker) : Worker :=
  { (s.callbackQueue.map Entry.data).foldl (deletePythonData alive) s with
    callbackQueue := []
    stop := .clearing }

def stopClear (alive : DataId → Bool) (s : Worker) : Worker :=
  { s.cachedCallbackQueue.foldl (deletePythonData alive) s with
    cachedCallbackQueue := []
    stop := .stopped }

end Worker

inductive Action where
  | launch (fails : Bool)
  | enqueueBegin (d : DataId)
  | enqueuePush (c : CallId)
  | enqueueWake (c : CallId)
  | enqueueClaim (c : CallId)
  | enqueueCache (c : CallId)
  | take
  | exit
  | execute (alive : Bool)
  | complete
  | notify
  | stopBegin
  | stopJoin
  | stopDrain (alive : DataId → Bool)
  | stopClear (alive : DataId → Bool)

/-- The sections of all threads. A stream callback is given a record that was launched; `stop`
does something only while the worker can be joined. -/
inductive Step : Worker → Action → Worker → Prop where
  | launch {s} (fails : Bool) : Step s (.launch fails) (s.launchHostFunc fails)
  | enqueueBegin {s d} (launched : (s.data d).launched = true) :
      Step s (.enqueueBegin d) (s.enqueueBegin d)
  | enqueuePush {s c d} (found : s.calls c = some ⟨d, .enqueuing⟩) :
      Step s (.enqueuePush c) (s.enqueuePush c d)
  | enqueueWake {s c d} (found : s.calls c = some ⟨d, .waiting⟩)
      (completed : (s.data d).completed = true) : Step s (.enqueueWake c) (s.enqueueWake c d)
  | enqueueClaim {s c d} (found : s.calls c = some ⟨d, .claiming⟩) :
      Step s (.enqueueClaim c) (s.enqueueClaim c d)
  | enqueueCache {s c d} (found : s.calls c = some ⟨d, .caching⟩) :
      Step s (.enqueueCache c) (s.enqueueCache c d)
  | take {s entry entries} (idle : s.phase = .idle) (front : s.callbackQueue = entry :: entries) :
      Step s .take { s with phase := .executing entry, callbackQueue := entries }
  | exit {s} (idle : s.phase = .idle) (told : s.shouldStop = true) (empty : s.callbackQueue = []) :
      Step s .exit { s with phase := .exited }
  | execute {s entry} (taken : s.phase = .executing entry) (alive : Bool) :
      Step s (.execute alive) (s.executePythonCallback alive entry)
  | complete {s entry} (executed : s.phase = .completing entry) :
      Step s .complete (s.complete entry)
  | notify {s d} (completed : s.phase = .notifying d) : Step s .notify { s with phase := .idle }
  | stopBegin {s} (joinable : s.stop = .notCalled) : Step s .stopBegin s.stopBegin
  | stopJoin {s} (joining : s.stop = .joining) (exited : s.phase = .exited) :
      Step s .stopJoin { s with stop := .draining }
  | stopDrain {s} (joined : s.stop = .draining) (alive : DataId → Bool) :
      Step s (.stopDrain alive) (s.stopDrain alive)
  | stopClear {s} (drained : s.stop = .clearing) (alive : DataId → Bool) :
      Step s (.stopClear alive) (s.stopClear alive)

end TorchGcu.PythonCallbackWorker

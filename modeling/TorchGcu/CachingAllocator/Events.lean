import TorchGcu.CachingAllocator.Blocks

/-! End-of-life events. `gcuEvents` lists the pairs of all the queues of `gcu_events`,
each tagged with its stream; the queue of a stream is the sublist with that tag. An
event object sits in one pair only, so recording it gives it a fresh number. -/
namespace TorchGcu.GCUCachingAllocator

namespace State

/-- The `std::deque` of one stream. -/
def queue (st : State) (stream : GCUStream) : List PendingEvent :=
  st.gcuEvents.filter (·.stream = stream)

/-- `EventPool::Event event = std::move(e.first)`. -/
def takeEvent (st : State) (event : EventId) : State :=
  { st with
    gcuEvents := st.gcuEvents.map fun e =>
      if e.event = some event then { e with event := none } else e }

/-- `pop_front` on the queue of a stream. -/
def popFront (st : State) (stream : GCUStream) : State :=
  { st with gcuEvents := st.gcuEvents.eraseP (·.stream = stream) }

/-- `block->event_count++` and `gcu_events[stream].emplace_back`. -/
def pushEvent (st : State) (stream : GCUStream) (block : BlockId) : State :=
  let st := (st.log (.recorded st.nextEvent stream)).modifyBlock block fun b =>
    { b with eventCount := b.eventCount + 1 }
  { st with
    nextEvent := st.nextEvent + 1
    gcuEvents := st.gcuEvents ++ [⟨stream, some st.nextEvent, block⟩] }

/-- The streams that have a queue, in the iteration order of the map. -/
def eventStreams (st : State) (rt : Runtime) : List GCUStream :=
  rt.streamOrder (st.gcuEvents.map (·.stream)).dedup

end State

def insertEventsLoop (rt : Runtime) (block : BlockId) : List GCUStream → M Unit
  | [] => pure ()
  | stream :: streams => do
    gcuCheck (rt.setDevice stream.deviceIndex)
    gcuCheck (rt.createEvent stream.deviceIndex)
    gcuCheck (rt.topsEventRecord (← get).nextEvent)
    modify (·.pushEvent stream block)
    insertEventsLoop rt block streams

def insertEvents (rt : Runtime) (block : BlockId) : M Unit := do
  gcuCheck rt.getDevice
  let streams := ((← get).block block).streamUses
  modify (·.modifyBlock block fun b => { b with streamUses := [] })
  insertEventsLoop rt block streams
  gcuCheck rt.maybeSetDevice

def insertDeferredLoop (rt : Runtime) : List BlockId → M Unit
  | [] => pure ()
  | block :: rest => do
    internalAssert (!((← get).block block).streamUses.isEmpty) "!block->stream_uses.empty()"
    insertEvents rt block
    insertDeferredLoop rt rest

def insertEventsDeferredUntilNoCapture (rt : Runtime) : M Unit := do
  insertDeferredLoop rt (← get).needsEventsDeferredUntilNoCapture
  modify fun st => { st with needsEventsDeferredUntilNoCapture := [] }

/-- `block->event_count--`, and the block goes to its pool when it was the last. -/
def eventDone (block : BlockId) (event : EventId) : M Unit := do
  modify fun st => (st.log (.completed event)).modifyBlock block fun b =>
    { b with eventCount := b.eventCount - 1 }
  if ((← get).block block).eventCount = 0 then freeBlock block

/-- One turn of the inner loop of `process_events`; true when a pair was removed. -/
def processFront (rt : Runtime) (stream : GCUStream) : M Bool := do
  match (← get).queue stream with
  | [] => return false
  | e :: _ => do
    let some event := e.event | throw .nullEvent
    match rt.topsEventQuery event with
    | some .notReady => return false
    | some error => do
      modify (·.takeEvent event)
      throw (.gcuError error)
    | none => do
      modify (·.takeEvent event)
      eventDone e.block event
      modify (·.popFront stream)
      return true

/-- `while (!it->second.empty())`; each turn removes a pair or stops. -/
def processQueue (rt : Runtime) (stream : GCUStream) : Nat → M Unit
  | 0 => pure ()
  | turns + 1 => do
    if ← processFront rt stream then processQueue rt stream turns

def processStreams (rt : Runtime) : List GCUStream → M Unit
  | [] => pure ()
  | stream :: streams => do
    processQueue rt stream ((← get).queue stream).length
    processStreams rt streams

def processEvents (rt : Runtime) : M Unit := do
  insertEventsDeferredUntilNoCapture rt
  processStreams rt ((← get).eventStreams rt)

def synchronizeEntries (rt : Runtime) : List PendingEvent → M Unit
  | [] => pure ()
  | e :: entries => do
    let some event := e.event | throw .nullEvent
    modify (·.takeEvent event)
    gcuCheck (rt.topsEventSynchronize event)
    eventDone e.block event
    synchronizeEntries rt entries

def synchronizeStreams (rt : Runtime) : List GCUStream → M Unit
  | [] => pure ()
  | stream :: streams => do
    synchronizeEntries rt ((← get).queue stream)
    synchronizeStreams rt streams

/-- Synchronizes on outstanding events and then frees the associated blocks. -/
def synchronizeAndFreeEvents (rt : Runtime) : M Unit := do
  modify (·.modifyCounters fun c => { c with numSyncAllStreams := c.numSyncAllStreams + 1 })
  internalAssert (← get).capturesUnderway.isEmpty "captures_underway.size() == 0"
  insertEventsDeferredUntilNoCapture rt
  synchronizeStreams rt ((← get).eventStreams rt)
  modify fun st => { st with gcuEvents := [] }

end TorchGcu.GCUCachingAllocator

import TorchGcu.Streams.DeviceSelection

/-! Scopes that switch the device and switch back: nested exchanges, the guards of Python, and the
functions on events, which have no scope of their own. -/
namespace TorchGcu.DeviceSelection
open ProgramLogic

/-! ### Nested exchanges -/

inductive Exchange
  | eager
  | maybe (hasPrimaryContext : Bool)

def Exchange.request : Exchange → Int → Request
  | eager, d => .exchangeDevice d
  | maybe hasPrimaryContext, d => .maybeExchangeDevice hasPrimaryContext d

/-- What a request for a device answers, -1 as in the source when there is no device. -/
def answered (s : Thread) (request : Request) : Int :=
  ((answer request.perform s).getD none).getD (-1)

/-- Exchanges whose answers are given back in the reverse order. -/
inductive Nested
  | nothing
  | seq (first second : Nested)
  | getDevice
  | setTargetDevice
  | scope (enter : Exchange) (device : Int) (inner : Nested) (exit : Exchange)
  /-- A `with` block of `_DeviceGuard` or of `device`. -/
  | deviceGuard (idx : Int) (hasPrimaryContext : Bool) (inner : Nested)

/-- `_exchange_device` answers -1 to a negative index, without a call. -/
def pyExchangeDevice (idx : Int) : List Request :=
  if idx < 0 then [] else [.exchangeDevice idx]

def pyMaybeExchangeDevice (hasPrimaryContext : Bool) (idx : Int) : List Request :=
  if idx < 0 then [] else [.maybeExchangeDevice hasPrimaryContext idx]

namespace Nested

/-- The calls of a thread from `s`, each exchange back with what the exchange before answered. -/
def requests : Nested → Thread → List Request
  | nothing, _ => []
  | seq first second, s =>
      first.requests s ++ second.requests (reached s (first.requests s))
  | getDevice, _ => [.getDevice]
  | setTargetDevice, _ => [.setTargetDevice]
  | scope enter device inner exit, s =>
      let prevIdx := answered s (enter.request device)
      [enter.request device] ++ inner.requests (reached s [enter.request device]) ++
        [exit.request prevIdx]
  | deviceGuard idx hasPrimaryContext inner, s =>
      let prevIdx := if idx < 0 then -1 else answered s (.exchangeDevice idx)
      pyExchangeDevice idx ++ inner.requests (reached s (pyExchangeDevice idx)) ++
        pyMaybeExchangeDevice hasPrimaryContext prevIdx

/-- The devices that scopes are entered with, where a guard may have none. -/
def Valid : Nested → Prop
  | nothing | getDevice | setTargetDevice => True
  | seq first second => first.Valid ∧ second.Valid
  | scope _ device inner _ => (0 ≤ device ∧ device ≤ 127) ∧ inner.Valid
  | deviceGuard idx _ inner => idx ≤ 127 ∧ inner.Valid

end Nested

section Scopes
variable {s : Thread}

theorem lastRequested_append (start : Int) (first second : List Request) :
    lastRequested start (first ++ second) = lastRequested (lastRequested start first) second := by
  simp only [lastRequested, List.foldl_append]

theorem asked_exchange (exchange : Exchange) (d : Int) : (exchange.request d).asked = some d := by
  cases exchange <;> rfl

theorem exchange_valid (exchange : Exchange) {d : Int} (inRange : 0 ≤ d ∧ d ≤ 127) :
    (exchange.request d).Valid := by
  intro asked found
  rw [asked_exchange] at found
  cases found
  exact inRange

theorem exchange_answered (exchange : Exchange) {d : Int} (valid : s.Valid)
    (inRange : 0 ≤ d ∧ d ≤ 127) (lossless : (exchange.request d).Lossless s) :
    answered s (exchange.request d) = s.device := by
  have asks := exchange_valid exchange inRange
  have exact := ((lossless_iff asks).mp lossless).1 (by cases exchange <;> rfl)
  simp [answered, (outcome_perform valid asks).1, exact]

/-- A scope whose steps are lossless: what is asked for last is the device before it. -/
theorem scope_restores {inner : Thread → List Request} {enter : Exchange} {d : Int}
    {exit : Exchange} (valid : s.Valid) (inRange : 0 ≤ d ∧ d ≤ 127)
    (innerAsks : ∀ request ∈ inner (reached s [enter.request d]), request.Valid)
    (requests : List Request)
    (made : requests = [enter.request d] ++ inner (reached s [enter.request d]) ++
      [exit.request (answered s (enter.request d))])
    (lossless : LosslessRun s requests) :
    (∀ request ∈ requests, request.Valid) ∧ (reached s requests).device = s.device := by
  have enters : (enter.request d).Lossless s := by
    rw [made, losslessRun_append, losslessRun_append] at lossless
    exact lossless.1.1.1
  rw [exchange_answered enter valid inRange enters] at made
  have asks : ∀ request ∈ requests, request.Valid := by
    subst made
    simp only [List.forall_mem_append, List.forall_mem_singleton]
    exact ⟨⟨exchange_valid _ inRange, innerAsks⟩, exchange_valid _ (Thread.device_valid valid)⟩
  refine ⟨asks, ?_⟩
  rw [device_reached valid asks lossless, made, lastRequested_append]
  simp [lastRequested, asked_exchange]

/-- Nested exchanges end on the device on which they began, when their steps are lossless. -/
theorem nested_restores (nested : Nested) (valid : s.Valid) (inRange : nested.Valid)
    (lossless : LosslessRun s (nested.requests s)) :
    (∀ request ∈ nested.requests s, request.Valid) ∧
      (reached s (nested.requests s)).device = s.device := by
  induction nested generalizing s with
  | nothing => exact ⟨by simp [Nested.requests], rfl⟩
  | getDevice =>
      have asks : ∀ request ∈ [Request.getDevice], request.Valid := by
        simp [Request.Valid, Request.asked]
      exact ⟨asks, device_reached valid asks lossless⟩
  | setTargetDevice =>
      have asks : ∀ request ∈ [Request.setTargetDevice], request.Valid := by
        simp [Request.Valid, Request.asked]
      exact ⟨asks, device_reached valid asks lossless⟩
  | seq first second ihFirst ihSecond =>
      simp only [Nested.requests] at lossless ⊢
      rw [losslessRun_append] at lossless
      obtain ⟨firstAsks, firstBack⟩ := ihFirst valid inRange.1 lossless.1
      obtain ⟨secondAsks, secondBack⟩ :=
        ihSecond (reached_valid valid firstAsks) inRange.2 lossless.2
      refine ⟨List.forall_mem_append.mpr ⟨firstAsks, secondAsks⟩, ?_⟩
      rw [reached_append, secondBack, firstBack]
  | scope enter device inner exit ih =>
      have entered := reached_valid valid
        (List.forall_mem_singleton.mpr (exchange_valid enter inRange.1))
      have runs := lossless
      simp only [Nested.requests] at runs
      rw [losslessRun_append, losslessRun_append] at runs
      exact scope_restores valid inRange.1
        (ih entered inRange.2 runs.1.2).1 _ rfl lossless
  | deviceGuard idx hasPrimaryContext inner ih =>
      by_cases none : idx < 0
      · have same : (Nested.deviceGuard idx hasPrimaryContext inner).requests s =
            inner.requests s := by
          simp [Nested.requests, pyExchangeDevice, pyMaybeExchangeDevice, none, reached]
        rw [same] at lossless ⊢
        exact ih valid inRange.2 lossless
      · have index : 0 ≤ idx ∧ idx ≤ 127 := ⟨by omega, inRange.1⟩
        have enters := exchange_answered .eager valid index trivial
        have back : ¬ s.device < 0 := Int.not_lt.mpr (Thread.device_valid valid).1
        have same : (Nested.deviceGuard idx hasPrimaryContext inner).requests s =
            [.exchangeDevice idx] ++ inner.requests (reached s [.exchangeDevice idx]) ++
              [.maybeExchangeDevice hasPrimaryContext (answered s (.exchangeDevice idx))] := by
          simp only [Exchange.request] at enters
          simp [Nested.requests, pyExchangeDevice, pyMaybeExchangeDevice, none, enters, back]
        have entered := reached_valid valid
          (List.forall_mem_singleton.mpr (exchange_valid .eager index))
        have runs := lossless
        rw [same, losslessRun_append, losslessRun_append] at runs
        exact @scope_restores s inner.requests .eager idx (.maybe hasPrimaryContext) valid index
          (ih entered inRange.2 runs.1.2).1 _ same lossless

end Scopes

/-! ### The functions on events -/

def guardGetDevice (ok : Bool) : Program Int := do
  match ← getDevice ok with
  | some device => return device
  | none => throw (.gcuError "GetDevice(&device)")

def guardSetDevice (answers : Switch) (device : Int) : Program Unit := do
  gcuCheck "SetDevice(d.index())" (← setDevice answers device)

/-- The answers to the calls that find the device, go to another and come back. -/
structure Trip where
  found : Bool
  there : Switch
  back : Switch

/-- `record` and `block` do their work on the device of the stream. -/
def onDevice {α : Type} (trip : Trip) (device : Int) (work : Program α) : Program α := do
  let origDevice ← guardGetDevice trip.found
  guardSetDevice trip.there device
  let result ← work
  guardSetDevice trip.back origDevice
  return result

def guardSetDeviceIf (condition : Prop) [Decidable condition] (answers : Switch) (device : Int) :
    Program Unit :=
  if condition then guardSetDevice answers device else pure ()

/-- `synchronizeDevice` and `elapsedTime` go there only from another device. -/
def onOtherDevice {α : Type} (trip : Trip) (device : Int) (work : Program α) : Program α := do
  let origDevice ← guardGetDevice trip.found
  guardSetDeviceIf (origDevice ≠ device) trip.there device
  let result ← work
  guardSetDeviceIf (origDevice ≠ device) trip.back origDevice
  return result

inductive EventFlag
  | pytorchDefault
  | backendDefault
  | other (flag : Nat)

inductive TopsEventFlag
  | disableTiming
  | default

def fromRuntime {α : Type} (call : String) : Option α → Except Failure α
  | some a => .ok a
  | none => .error (.gcuError call)

def raising {α : Type} : Except Failure α → Program α
  | .ok a => pure a
  | .error failure => throw failure

/-- `created` is what `topsEventCreateWithFlags` makes of a flag. -/
def createEvent (created : TopsEventFlag → Option Nat) (flag : EventFlag) : Except Failure Nat :=
  let call := "topsEventCreateWithFlags(tops_event, gcu_flag)"
  match flag with
  | .pytorchDefault => fromRuntime call (created .disableTiming)
  | .backendDefault => fromRuntime call (created .default)
  | .other _ => .error (.torchCheck "GCU event received unknown flag")

/-- The answers to the calls on an event. -/
structure EventAnswers where
  created : TopsEventFlag → Option Nat
  recorded : Bool

def EventAnswers.work (answers : EventAnswers) (flag : EventFlag) : Program Unit := do
  let s ← get
  let gcuEvent ← raising (match s.event with
    | some event => .ok event
    | none => createEvent answers.created flag)
  gcuCheck "topsEventRecord(gcu_event, gcu_stream)" answers.recorded
  modify fun s => { s with event := some gcuEvent }

/-- `*event` is the event of the thread. -/
def record (trip : Trip) (answers : EventAnswers) (streamDevice deviceIndex : Int)
    (flag : EventFlag) : Program Unit := do
  torchCheck (deviceIndex = -1 ∨ deviceIndex = streamDevice)
    "Event device index does not match recording stream's device index "
  onDevice trip streamDevice (answers.work flag)

def block (trip : Trip) (waited : Bool) (event : Option Nat) (streamDevice : Int) :
    Program Unit :=
  match event with
  | none => pure ()
  | some _ => onDevice trip streamDevice
      (gcuCheck "topsStreamWaitEvent(gcu_stream, gcu_event, 0)" waited)

def synchronizeDevice (trip : Trip) (synchronized : Bool) (deviceIndex : Int) :
    Program Unit := do
  torchCheck (deviceIndex ≥ 0) "device_index must be non-negative"
  onOtherDevice trip deviceIndex (gcuCheck "topsDeviceSynchronize()" synchronized)

/-- `elapsed` is the time that the runtime answers. -/
def elapsedTime (trip : Trip) (elapsed : Option Float32) (event1 event2 : Option Nat)
    (deviceIndex : Int) : Program Float := do
  torchCheck (event1.isSome ∧ event2.isSome)
    "Both events must be recorded before calculating elapsed time."
  torchCheck (deviceIndex ≥ 0) "device_index must be non-negative"
  onOtherDevice trip deviceIndex
    (Float32.toFloat <$>
      raising (fromRuntime "topsEventElapsedTime(&time_ms, gcu_event1, gcu_event2)" elapsed))

/-- Without the `noexcept`. An error of the runtime is a warning here, and `origDevice` is
`uninitialized` when there is no device to find. -/
def destroyEventUnchecked (trip : Trip) (uninitialized : Int) (event : Option Nat)
    (deviceIndex : Int) : Program Unit :=
  match event with
  | none => pure ()
  | some _ => do
      let found ← getDevice trip.found
      let origDevice := found.getD uninitialized
      let _ ← setDevice trip.there deviceIndex
      let _ ← setDevice trip.back origDevice

/-- A program that is `noexcept`: none when it raises, and the process ends. -/
def noexcept {α : Type} (program : Program α) (s : Thread) : Option Thread :=
  match program.run s with
  | .ok _ t => some t
  | .error _ _ => none

def destroyEvent (trip : Trip) (uninitialized : Int) (event : Option Nat) (deviceIndex : Int)
    (s : Thread) : Option Thread :=
  noexcept (destroyEventUnchecked trip uninitialized event deviceIndex) s

/-! ### Where they come back -/

/-- The work of a function on events leaves the devices. -/
def Quiet {α : Type} (work : Program α) : Prop :=
  ∀ s, (after work s).current = s.current ∧ (after work s).target = s.target

/-- The switch to a device is made. -/
def Switch.lands (answers : Switch) (s : Thread) (device : Int) : Bool :=
  answers.get && (decide (device = s.current) || answers.set)

/-- The device is not looked for, or found; then the switch is not made and nothing was pending
that it dropped, or it is made, and made again or to the device of before. -/
def Trip.Restores (trip : Trip) (s : Thread) (device : Int) (works : Bool) : Prop :=
  s.target < 0 ∧ trip.found = false ∨ device < 0 ∨
  trip.there.lands s device = false ∧ s.current = s.device ∨
  trip.there.lands s device = true ∧
    (device = s.device ∨ works = true ∧ trip.back.get = true ∧ trip.back.set = true)

/-- What `destroyEvent` takes for the device of before. -/
def Trip.origin (trip : Trip) (s : Thread) (uninitialized : Int) : Int :=
  if s.target < 0 ∧ trip.found = false then uninitialized else s.device

/-- Where `destroyEvent` destroys the event. -/
def Trip.stop (trip : Trip) (s : Thread) (device : Int) : Int :=
  if trip.there.lands s device then device else s.current

/-- The process ends, or the switch back is made to the device of before, or it fails there. -/
def Trip.RestoresWarning (trip : Trip) (s : Thread) (uninitialized device : Int) : Prop :=
  (device < 0 ∨ trip.there.get = false ∨ trip.origin s uninitialized < 0 ∨
    trip.back.get = false) ∨
  trip.back.set = true ∧ trip.origin s uninitialized = s.device ∨
  trip.back.set = false ∧ trip.stop s device = s.device

section Guards
variable {s : Thread} {α β : Type} {R : Failure → Thread → Prop}

theorem guardGetDevice_wp (valid : s.Valid) {ok : Bool} {P : Int → Thread → Prop} :
    wp (guardGetDevice ok) P R s ↔
      if s.target < 0 ∧ ok = false then R (.gcuError "GetDevice(&device)") s
      else P s.device s := by
  by_cases lost : s.target < 0 ∧ ok = false <;> simp [guardGetDevice, getDevice_wp valid, lost]

theorem guardSetDevice_wp {answers : Switch} {d : Int} {P : Unit → Thread → Prop} :
    wp (guardSetDevice answers d) P R s ↔
      if d < 0 then R (.torchCheck "device id must be positive!") s
      else if answers.get = false then R (.gcuError "topsGetDevice") s.noTarget
      else if d = s.current ∨ answers.set = true then P () (s.on d)
      else R (.gcuError "SetDevice(d.index())") s.noTarget := by
  simp [guardSetDevice, setDevice_wp, gcuCheck_wp]

theorem Quiet.wp {work : Program α} (quiet : Quiet work) {P Q : Int → Prop} :
    ProgramLogic.wp work (fun _ t => P t.current) (fun _ t => Q t.device) s ↔
      if returns work s then P s.current else Q s.device := by
  obtain ⟨current, target⟩ := quiet s
  simp only [after] at current target
  cases ran : work.run s with
  | ok a t =>
      simp only [ran] at current
      simp [ProgramLogic.wp, returns, ran, current]
  | error e t =>
      simp only [ran] at current target
      simp [ProgramLogic.wp, returns, ran, Thread.device, current, target]

theorem quiet_gcuCheck (call : String) (ok : Bool) : Quiet (gcuCheck call ok) := by
  intro s
  cases ok <;> exact ⟨rfl, rfl⟩

/-- Whether a program leaves the device, which a run of it decides. -/
def Kept (program : Program α) (s : Thread) : Prop :=
  (after program s).device = s.device

theorem kept_iff_wp {program : Program α} :
    Kept program s ↔
      wp program (fun _ t => t.device = s.device) (fun _ t => t.device = s.device) s :=
  (wp_after (Q := fun t : Thread => t.device = s.device)).symm

theorem Quiet.kept {work : Program α} (quiet : Quiet work) (s : Thread) : Kept work s := by
  obtain ⟨current, target⟩ := quiet s
  simp only [Kept, Thread.device, current, target]

theorem onDevice_kept {work : Program α} (valid : s.Valid) (quiet : Quiet work) (trip : Trip)
    (d : Int) :
    Kept (onDevice trip d work) s ↔ trip.Restores s d (returns work (s.on d)) := by
  obtain ⟨found, ⟨getThere, setThere⟩, ⟨getBack, setBack⟩⟩ := trip
  have origin : ¬ s.device < 0 := Int.not_lt.mpr (Thread.device_valid valid).1
  rw [kept_iff_wp]
  simp only [onDevice, wp_bind, guardGetDevice_wp valid, guardSetDevice_wp, wp_pure, origin,
    if_false, Thread.device_on, Thread.device_noTarget, Trip.Restores, Switch.lands]
  by_cases lost : s.target < 0 ∧ found = false
  · simp [lost]
  by_cases negative : d < 0
  · simp [lost, negative]
  have worked := quiet.wp (s := s.on d) (Q := fun device => device = s.device)
    (P := fun current => if getBack = false then current = s.device
      else if s.device = current ∨ setBack = true then True else current = s.device)
  simp only [Thread.device_on] at worked
  have stays : (if getBack = false then (s.on d).current = s.device
      else if s.device = (s.on d).current ∨ setBack = true then True
      else (s.on d).current = s.device) ↔
      d = s.device ∨ getBack = true ∧ setBack = true := by
    have flip : s.device = d ↔ d = s.device := eq_comm
    simp only [Thread.on, flip]
    cases getBack <;> cases setBack <;> simp
  rw [if_neg lost, if_neg negative, worked, stays]
  cases getThere
  · simp [lost, negative]
  by_cases there : d = s.current ∨ setThere = true
  · have lands : (decide (d = s.current) || setThere) = true := by simpa using there
    cases returns work (s.on d) <;> simp [there, lands, lost, negative]
  · have stuck : (decide (d = s.current) || setThere) = false := by simpa using there
    simp [there, stuck, lost, negative]

theorem onOtherDevice_kept {work : Program α} (valid : s.Valid) (quiet : Quiet work) (trip : Trip)
    (d : Int) :
    Kept (onOtherDevice trip d work) s ↔
      d = s.device ∨ trip.Restores s d (returns work (s.on d)) := by
  by_cases same : d = s.device
  · subst same
    have worked := kept_iff_wp.mp (quiet.kept s)
    refine iff_of_true (kept_iff_wp.mpr ?_) (.inl rfl)
    simp [onOtherDevice, guardGetDevice_wp valid, guardSetDeviceIf, worked]
  · have away : s.device ≠ d := fun here => same here.symm
    have switches : Kept (onOtherDevice trip d work) s ↔ Kept (onDevice trip d work) s := by
      rw [kept_iff_wp, kept_iff_wp]
      simp [onOtherDevice, onDevice, guardGetDevice_wp valid, guardSetDeviceIf, away]
    rw [switches, onDevice_kept valid quiet]
    exact (or_iff_right same).symm

/-! ### The work on events -/

/-- Whether the work of `record` returns. -/
def EventAnswers.works (answers : EventAnswers) (flag : EventFlag) (event : Option Nat) : Bool :=
  (event.isSome || (createEvent answers.created flag).isOk) && answers.recorded

theorem raising_wp {result : Except Failure α} {P : α → Thread → Prop} :
    wp (raising result) P R s ↔
      (∀ a, result = .ok a → P a s) ∧ ∀ e, result = .error e → R e s := by
  cases result <;> simp [raising]

theorem quiet_record (answers : EventAnswers) (flag : EventFlag) : Quiet (answers.work flag) := by
  intro s
  apply wp_after (Q := fun t : Thread => t.current = s.current ∧ t.target = s.target) |>.mp
  simp [EventAnswers.work, raising_wp, gcuCheck_wp]

theorem returns_record (answers : EventAnswers) (flag : EventFlag) (s : Thread) :
    returns (answers.work flag) s = answers.works flag s.event := by
  rw [Bool.eq_iff_iff, returns_iff_wp]
  simp only [EventAnswers.work, EventAnswers.works, wp_bind, wp_get, raising_wp, gcuCheck_wp,
    wp_modify]
  cases s.event
  · cases createEvent answers.created flag <;> cases answers.recorded <;>
      simp [Except.isOk, Except.toBool]
  · cases answers.recorded <;> simp

theorem returns_gcuCheck (call : String) (ok : Bool) (s : Thread) :
    returns (gcuCheck call ok) s = ok := by
  cases ok <;> rfl

theorem record_kept (valid : s.Valid) (trip : Trip) (answers : EventAnswers)
    (streamDevice deviceIndex : Int) (flag : EventFlag) :
    Kept (record trip answers streamDevice deviceIndex flag) s ↔
      ¬ (deviceIndex = -1 ∨ deviceIndex = streamDevice) ∨
      trip.Restores s streamDevice (answers.works flag s.event) := by
  have traveled := onDevice_kept valid (quiet_record answers flag) trip streamDevice
  rw [returns_record, kept_iff_wp] at traveled
  rw [kept_iff_wp, record, wp_bind, torchCheck_wp]
  split
  · next matching => rw [traveled]; exact (or_iff_right fun other => other matching).symm
  · next other => exact iff_of_true rfl (.inl other)

theorem block_kept (valid : s.Valid) (trip : Trip) (waited : Bool) (event : Option Nat)
    (streamDevice : Int) :
    Kept (block trip waited event streamDevice) s ↔
      event = none ∨ trip.Restores s streamDevice waited := by
  cases event with
  | none => exact iff_of_true rfl (.inl rfl)
  | some event =>
      have quiet := quiet_gcuCheck "topsStreamWaitEvent(gcu_stream, gcu_event, 0)" waited
      have traveled := onDevice_kept valid quiet trip streamDevice
      rw [returns_gcuCheck] at traveled
      simpa [block] using traveled

theorem synchronizeDevice_kept (valid : s.Valid) (trip : Trip) (synchronized : Bool)
    (deviceIndex : Int) :
    Kept (synchronizeDevice trip synchronized deviceIndex) s ↔
      deviceIndex = s.device ∨ trip.Restores s deviceIndex synchronized := by
  have quiet := quiet_gcuCheck "topsDeviceSynchronize()" synchronized
  have traveled := onOtherDevice_kept valid quiet trip deviceIndex
  rw [returns_gcuCheck, kept_iff_wp] at traveled
  rw [kept_iff_wp, synchronizeDevice, wp_bind, torchCheck_wp]
  split
  · exact traveled
  · next negative => exact iff_of_true rfl (.inr (.inr (.inl (Int.not_le.mp negative))))

theorem quiet_raising (widen : α → β) (result : Except Failure α) :
    Quiet (widen <$> raising result) := by
  intro s
  cases result <;> exact ⟨rfl, rfl⟩

theorem elapsedTime_kept (valid : s.Valid) (trip : Trip) (elapsed : Option Float32)
    (event1 event2 : Option Nat) (deviceIndex : Int) :
    Kept (elapsedTime trip elapsed event1 event2 deviceIndex) s ↔
      ¬ (event1.isSome ∧ event2.isSome) ∨ deviceIndex = s.device ∨
      trip.Restores s deviceIndex elapsed.isSome := by
  have quiet := quiet_raising Float32.toFloat
    (fromRuntime "topsEventElapsedTime(&time_ms, gcu_event1, gcu_event2)" elapsed)
  have traveled := onOtherDevice_kept valid quiet trip deviceIndex
  have works (t : Thread) : returns (Float32.toFloat <$> raising (fromRuntime
      "topsEventElapsedTime(&time_ms, gcu_event1, gcu_event2)" elapsed)) t = elapsed.isSome := by
    cases elapsed <;> rfl
  rw [works, kept_iff_wp] at traveled
  rw [kept_iff_wp, elapsedTime, wp_bind, torchCheck_wp]
  split
  · next recorded =>
    rw [wp_bind, torchCheck_wp, or_iff_right fun missing => missing recorded]
    split
    · exact traveled
    · next negative => exact iff_of_true rfl (.inr (.inr (.inl (Int.not_le.mp negative))))
  · next missing => exact iff_of_true rfl (.inl missing)

theorem noexcept_iff_wp {program : Program α} {P : Thread → Prop} :
    (∀ t, noexcept program s = some t → P t) ↔
      wp program (fun _ t => P t) (fun _ _ => True) s := by
  unfold noexcept wp
  cases program.run s <;> simp

/-- The switch back of `destroyEvent`, from wherever it is. -/
theorem setDevice_back_wp (answers : Switch) (origin start : Int) :
    wp (setDevice answers origin) (fun _ t => t.device = start) (fun _ _ => True) s ↔
      (origin < 0 ∨ answers.get = false) ∨ answers.set = true ∧ origin = start ∨
        answers.set = false ∧ s.current = start := by
  rw [setDevice_wp]
  simp only [Thread.device_on, Thread.device_noTarget]
  obtain ⟨get, set⟩ := answers
  by_cases negative : origin < 0
  · simp [negative]
  cases get
  · simp
  cases set
  · by_cases here : origin = s.current
    · subst here
      simp [negative]
    · simp [negative, here]
  · simp [negative]

theorem destroyEvent_kept (valid : s.Valid) (trip : Trip) (uninitialized : Int)
    (event : Option Nat) (deviceIndex : Int) :
    (∀ t, destroyEvent trip uninitialized event deviceIndex s = some t → t.device = s.device) ↔
      event = none ∨ trip.RestoresWarning s uninitialized deviceIndex := by
  unfold destroyEvent
  rw [noexcept_iff_wp]
  cases event with
  | none => exact iff_of_true rfl (.inl rfl)
  | some event =>
      have taken : (if s.target < 0 ∧ trip.found = false then none else some s.device).getD
          uninitialized = trip.origin s uninitialized := by
        unfold Trip.origin
        split <;> rfl
      simp only [destroyEventUnchecked, wp_bind, getDevice_wp valid, taken, wp_pure,
        @setDevice_wp _ _ trip.there, setDevice_back_wp]
      unfold Trip.RestoresWarning Trip.stop Switch.lands
      by_cases negative : deviceIndex < 0
      · simp [negative]
      cases get : trip.there.get
      · simp
      by_cases there : deviceIndex = s.current ∨ trip.there.set = true
      · have lands : (decide (deviceIndex = s.current) || trip.there.set) = true := by
          simpa using there
        simp [negative, there, lands, Thread.on, or_assoc]
      · have stuck : (decide (deviceIndex = s.current) || trip.there.set) = false := by
          simpa using there
        simp [negative, there, stuck, Thread.noTarget, or_assoc]

end Guards

/-! ### Which device is selected -/

/-- A run follows its requests exactly when every `MaybeExchangeDevice` meets what
`Request.Lossless` says, nested exchanges then end where they began, and each function on events
comes back exactly when its answers let it. -/
theorem selected_iff (s : Thread) (valid : s.Valid) (requests : List Request)
    (asks : ∀ request ∈ requests, request.Valid) (nested : Nested) (scopes : nested.Valid) :
    (Follows s requests ↔ LosslessRun s requests) ∧
    (LosslessRun s (nested.requests s) →
      answer (getDevice true) (reached s (nested.requests s)) = answer (getDevice true) s) ∧
    (∀ trip answers streamDevice deviceIndex flag,
      Kept (record trip answers streamDevice deviceIndex flag) s ↔
        ¬ (deviceIndex = -1 ∨ deviceIndex = streamDevice) ∨
        trip.Restores s streamDevice (answers.works flag s.event)) ∧
    (∀ trip waited event streamDevice,
      Kept (block trip waited event streamDevice) s ↔
        event = none ∨ trip.Restores s streamDevice waited) ∧
    (∀ trip synchronized deviceIndex,
      Kept (synchronizeDevice trip synchronized deviceIndex) s ↔
        deviceIndex = s.device ∨ trip.Restores s deviceIndex synchronized) ∧
    (∀ trip elapsed event1 event2 deviceIndex,
      Kept (elapsedTime trip elapsed event1 event2 deviceIndex) s ↔
        ¬ (event1.isSome ∧ event2.isSome) ∨ deviceIndex = s.device ∨
        trip.Restores s deviceIndex elapsed.isSome) ∧
    (∀ trip uninitialized event deviceIndex,
      (∀ t, destroyEvent trip uninitialized event deviceIndex s = some t → t.device = s.device) ↔
        event = none ∨ trip.RestoresWarning s uninitialized deviceIndex) := by
  refine ⟨follows_run_iff valid asks, fun lossless => ?_, record_kept valid, block_kept valid,
    synchronizeDevice_kept valid, elapsedTime_kept valid, destroyEvent_kept valid⟩
  obtain ⟨made, back⟩ := nested_restores nested valid scopes lossless
  rw [(outcome_getDevice (reached_valid valid made)).1, (outcome_getDevice valid).1, back]

/-- A thread on device 0. -/
def onZero : Thread := ⟨0, -1, none⟩

theorem onZero_valid : onZero.Valid := ⟨by decide, by decide⟩

/-- A switch to device 1 is pending when the thread exchanges its device for device 0. -/
def pendingOne : List Request := [.maybeSetDevice false 1, .maybeExchangeDevice true 0]

theorem pendingOne_valid : ∀ request ∈ pendingOne, request.Valid := by
  simp [pendingOne, Request.Valid, Request.asked]

theorem selected_onZero :
    (Follows onZero pendingOne ↔ LosslessRun onZero pendingOne) ∧
    (LosslessRun onZero ((Nested.deviceGuard 1 false .nothing).requests onZero) →
      answer (getDevice true)
        (reached onZero ((Nested.deviceGuard 1 false .nothing).requests onZero)) =
        answer (getDevice true) onZero) :=
  have selected := selected_iff onZero onZero_valid pendingOne pendingOne_valid
    (.deviceGuard 1 false .nothing) ⟨by decide, trivial⟩
  ⟨selected.1, selected.2.1⟩

/-- The exchange answers device 0 and leaves device 1 pending. -/
theorem pendingOne_not_followed :
    ¬ (∀ (s : Thread) (requests : List Request), s.Valid →
      (∀ request ∈ requests, request.Valid) → Follows s requests) := by
  intro always
  have follows := always onZero pendingOne onZero_valid pendingOne_valid
  have selected := follows.selected pendingOne (List.prefix_refl _)
  have one : answer (getDevice true) (reached onZero pendingOne) = some (some 1) := by decide
  have zero : lastRequested onZero.device pendingOne = 0 := by decide
  rw [one, zero] at selected
  cases selected

end TorchGcu.DeviceSelection

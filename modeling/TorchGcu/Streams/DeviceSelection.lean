import TorchGcu.Logic.Wp

/-! The device of a thread, which lives in two places: the runtime has a device, and a switch to
another may be pending. `Thread.device` is the device that the thread asked for last. -/
namespace TorchGcu.DeviceSelection
open ProgramLogic

/-! ### The two places -/

/-- The devices of one thread. No switch is pending when `target`, which is thread local, is
negative. -/
structure Thread where
  current : Int
  target : Int
  /-- The event that a caller of `record` points to. -/
  event : Option Nat
deriving DecidableEq

inductive Failure
  | gcuError (call : String)
  | torchCheck (message : String)
deriving DecidableEq

abbrev Program := EStateM Failure Thread

namespace Thread

/-- What `GetDevice` answers. -/
def device (s : Thread) : Int :=
  if s.target ≥ 0 then s.target else s.current

/-- The devices are values of a `DeviceIndex`, and the runtime has one. -/
structure Valid (s : Thread) : Prop where
  current : 0 ≤ s.current ∧ s.current ≤ 127
  target : s.target ≤ 127

def noTarget (s : Thread) : Thread := { s with target := -1 }

/-- On a device, with nothing pending. -/
def on (s : Thread) (device : Int) : Thread := { s with current := device, target := -1 }

end Thread

/-! ### The functions of the thread

What the runtime answers to a call is a parameter of the call, true for `topsSuccess`. -/

def torchCheck (condition : Prop) [Decidable condition] (message : String) : Program Unit :=
  if condition then pure () else throw (.torchCheck message)

def gcuCheck (call : String) (ok : Bool) : Program Unit :=
  if ok then pure () else throw (.gcuError call)

def topsGetDevice (ok : Bool) : Program (Option Int) := do
  let s ← get
  return if ok then some s.current else none

/-- A device that cannot be set is not set. -/
def topsSetDevice (ok : Bool) (device : Int) : Program Bool := do
  if ok then modify fun s => { s with current := device }
  return ok

/-- `topsGetDevice` under `C10_GCU_CHECK`. -/
def checkedGetDevice (ok : Bool) : Program Int := do
  match ← topsGetDevice ok with
  | some device => return device
  | none => throw (.gcuError "topsGetDevice")

/-- The answers to the calls of one `SetDevice`. -/
structure Switch where
  get : Bool
  set : Bool

/-- The runtime does what it is asked. -/
def Switch.served : Switch := ⟨true, true⟩

/-- The device, when the call succeeds. -/
def getDevice (ok : Bool) : Program (Option Int) := do
  let s ← get
  if s.target ≥ 0 then
    return some s.target
  else
    match ← topsGetDevice ok with
    | none => return none
    | some tmpDevice =>
      torchCheck (tmpDevice ≥ 0 ∧ tmpDevice ≤ 127) "topsGetDevice returns invalid device "
      return some tmpDevice

def setDevice (answers : Switch) (device : Int) : Program Bool := do
  torchCheck (device ≥ 0) "device id must be positive!"
  modify Thread.noTarget
  let curDevice ← checkedGetDevice answers.get
  if device = curDevice then return true else topsSetDevice answers.set device

/-- `hasPrimaryContext` is what it answers for the device. -/
def maybeSetDevice (answers : Switch) (hasPrimaryContext : Bool) (device : Int) :
    Program Bool := do
  if hasPrimaryContext then
    setDevice answers device
  else
    modify fun s => { s with target := device }
    return true

def exchangeDevice (answers : Switch) (toDevice : Int) : Program Int := do
  let curDevice := (← get).target
  modify Thread.noTarget
  if curDevice < 0 then
    let tmpDevice ← checkedGetDevice answers.get
    if toDevice = tmpDevice then
      return tmpDevice
    else
      gcuCheck "topsSetDevice(to_device)" (← topsSetDevice answers.set toDevice)
      return tmpDevice
  else
    gcuCheck "topsSetDevice(to_device)" (← topsSetDevice answers.set toDevice)
    return curDevice

def maybeExchangeDevice (answers : Switch) (hasPrimaryContext : Bool) (toDevice : Int) :
    Program Int := do
  let curDevice ← checkedGetDevice answers.get
  torchCheck (curDevice ≥ 0 ∧ curDevice ≤ 127) "topsGetDevice returns invalid device "
  if toDevice = curDevice then
    return curDevice
  else if hasPrimaryContext then
    gcuCheck "topsSetDevice(to_device)" (← topsSetDevice answers.set toDevice)
    return curDevice
  else
    modify fun s => { s with target := toDevice }
    return curDevice

def setTargetDevice (answers : Switch) : Program Unit := do
  let s ← get
  if s.target ≥ 0 then
    gcuCheck "SetDevice(targetDeviceIndex)" (← setDevice answers s.target)

/-! ### What each of them does -/

section Functions
variable {s : Thread} {R : Failure → Thread → Prop}

namespace Thread

theorem device_on (d : Int) : (s.on d).device = d := by
  simp [device, on]

theorem device_noTarget : s.noTarget.device = s.current := by
  simp [device, noTarget]

end Thread

theorem getDevice_wp (valid : s.Valid) {ok : Bool} {P : Option Int → Thread → Prop} :
    wp (getDevice ok) P R s ↔
      P (if s.target < 0 ∧ ok = false then none else some s.device) s := by
  obtain ⟨low, high⟩ := valid.current
  by_cases pending : s.target ≥ 0
  · have settled : ¬ s.target < 0 := by omega
    simp [getDevice, Thread.device, pending, settled]
  · have settled : s.target < 0 := by omega
    cases ok <;>
      simp [getDevice, Thread.device, pending, settled, topsGetDevice, torchCheck, low, high]

theorem checkedGetDevice_wp {ok : Bool} {P : Int → Thread → Prop} :
    wp (checkedGetDevice ok) P R s ↔
      if ok then P s.current s else R (.gcuError "topsGetDevice") s := by
  cases ok <;> simp [checkedGetDevice, topsGetDevice]

theorem topsSetDevice_wp {ok : Bool} {d : Int} {P : Bool → Thread → Prop} :
    wp (topsSetDevice ok d) P R s ↔
      if ok then P true { s with current := d } else P false s := by
  cases ok <;> simp [topsSetDevice]

theorem gcuCheck_wp {call : String} {ok : Bool} {P : Unit → Thread → Prop} :
    wp (gcuCheck call ok) P R s ↔ if ok then P () s else R (.gcuError call) s := by
  cases ok <;> simp [gcuCheck]

theorem torchCheck_wp {c : Prop} [Decidable c] {message : String} {P : Unit → Thread → Prop} :
    wp (torchCheck c message) P R s ↔ if c then P () s else R (.torchCheck message) s := by
  unfold torchCheck
  split <;> simp

/-- `SetDevice` drops what is pending before it asks the runtime, whose device stays when it
refuses. -/
theorem setDevice_wp {answers : Switch} {d : Int} {P : Bool → Thread → Prop} :
    wp (setDevice answers d) P R s ↔
      if d < 0 then R (.torchCheck "device id must be positive!") s
      else if answers.get = false then R (.gcuError "topsGetDevice") s.noTarget
      else if d = s.current ∨ answers.set = true then P true (s.on d)
      else P false s.noTarget := by
  obtain ⟨get, set⟩ := answers
  by_cases negative : d < 0
  · have refused : ¬ d ≥ 0 := by omega
    simp [setDevice, torchCheck_wp, negative, refused]
  have allowed : d ≥ 0 := by omega
  simp only [setDevice, wp_bind, torchCheck_wp, if_pos allowed, if_neg negative, wp_modify,
    checkedGetDevice_wp, wp_ite, wp_pure, topsSetDevice_wp]
  cases get
  · simp
  by_cases same : d = s.current
  · subst same
    simp [Thread.noTarget, Thread.on]
  · cases set <;> simp [same, Thread.noTarget, Thread.on]

/-- Whatever was pending is what `ExchangeDevice` answers. -/
theorem exchangeDevice_wp {d : Int} {P : Int → Thread → Prop} :
    wp (exchangeDevice .served d) P R s ↔ P s.device (s.on d) := by
  by_cases pending : s.target < 0
  · have settled : ¬ s.target ≥ 0 := by omega
    by_cases same : d = s.current
    · subst same
      simp [exchangeDevice, checkedGetDevice_wp, pending, settled, Switch.served, Thread.device,
        Thread.noTarget, Thread.on]
    · simp [exchangeDevice, checkedGetDevice_wp, topsSetDevice_wp, gcuCheck_wp, pending, settled,
        same, Switch.served, Thread.device, Thread.noTarget, Thread.on]
  · have waiting : s.target ≥ 0 := by omega
    simp [exchangeDevice, topsSetDevice_wp, gcuCheck_wp, pending, waiting, Switch.served,
      Thread.device, Thread.noTarget, Thread.on]

/-- `MaybeExchangeDevice` asks only the runtime, and leaves what is pending where it switches. -/
theorem maybeExchangeDevice_wp (valid : s.Valid) {hasPrimaryContext : Bool} {d : Int}
    {P : Int → Thread → Prop} :
    wp (maybeExchangeDevice .served hasPrimaryContext d) P R s ↔
      P s.current (if d = s.current then s
        else if hasPrimaryContext then { s with current := d } else { s with target := d }) := by
  obtain ⟨low, high⟩ := valid.current
  have inRange : s.current ≥ 0 ∧ s.current ≤ 127 := ⟨low, high⟩
  by_cases same : d = s.current
  · subst same
    simp [maybeExchangeDevice, checkedGetDevice_wp, torchCheck_wp, inRange, Switch.served]
  · cases hasPrimaryContext <;>
      simp [maybeExchangeDevice, checkedGetDevice_wp, torchCheck_wp, topsSetDevice_wp, gcuCheck_wp,
        inRange, same, Switch.served]

theorem maybeSetDevice_wp {hasPrimaryContext : Bool} {d : Int} (valid : 0 ≤ d)
    {P : Bool → Thread → Prop} :
    wp (maybeSetDevice .served hasPrimaryContext d) P R s ↔
      P true (if hasPrimaryContext then s.on d else { s with target := d }) := by
  have allowed : ¬ d < 0 := by omega
  cases hasPrimaryContext <;> simp [maybeSetDevice, setDevice_wp, allowed, Switch.served]

theorem setTargetDevice_wp {P : Unit → Thread → Prop} :
    wp (setTargetDevice .served) P R s ↔
      P () (if s.target ≥ 0 then s.on s.target else s) := by
  by_cases pending : s.target ≥ 0
  · have settled : ¬ s.target < 0 := by omega
    simp [setTargetDevice, setDevice_wp, gcuCheck_wp, pending, settled, Switch.served]
  · simp [setTargetDevice, pending]

end Functions

/-! ### Sequences of requests -/

/-- A call of a thread, on a runtime that does what it is asked. -/
inductive Request
  | setDevice (device : Int)
  | maybeSetDevice (hasPrimaryContext : Bool) (device : Int)
  | exchangeDevice (device : Int)
  | maybeExchangeDevice (hasPrimaryContext : Bool) (device : Int)
  | setTargetDevice
  | getDevice
deriving DecidableEq

namespace Request

def perform : Request → Program (Option Int)
  | setDevice d => do
      let _ ← DeviceSelection.setDevice .served d
      return none
  | maybeSetDevice hasPrimaryContext d => do
      let _ ← DeviceSelection.maybeSetDevice .served hasPrimaryContext d
      return none
  | exchangeDevice d => some <$> DeviceSelection.exchangeDevice .served d
  | maybeExchangeDevice hasPrimaryContext d =>
      some <$> DeviceSelection.maybeExchangeDevice .served hasPrimaryContext d
  | setTargetDevice => do
      DeviceSelection.setTargetDevice .served
      return none
  | getDevice => DeviceSelection.getDevice true

/-- The device that a call asks for. -/
def asked : Request → Option Int
  | setDevice d | maybeSetDevice _ d | exchangeDevice d | maybeExchangeDevice _ d => some d
  | setTargetDevice | getDevice => none

def exchanges : Request → Bool
  | exchangeDevice _ | maybeExchangeDevice _ _ => true
  | _ => false

def Valid (request : Request) : Prop :=
  ∀ d ∈ request.asked, 0 ≤ d ∧ d ≤ 127

/-- Nothing is pending when `MaybeExchangeDevice` is called, or the device that the runtime has,
which the call then does not make the runtime leave. -/
def Lossless (s : Thread) : Request → Prop
  | maybeExchangeDevice hasPrimaryContext d =>
      s.target < 0 ∨ s.target = s.current ∧ (d = s.current ∨ hasPrimaryContext = false)
  | _ => True

end Request

/-- The device after a sequence of requests, when only what was asked last matters. -/
def lastRequested (start : Int) (requests : List Request) : Int :=
  requests.foldl (fun device request => request.asked.getD device) start

def reached (s : Thread) (requests : List Request) : Thread :=
  requests.foldl (fun s request => after request.perform s) s

/-- At every point `GetDevice` answers what was asked last, and every exchange what `GetDevice`
would have answered. -/
structure Follows (s : Thread) (requests : List Request) : Prop where
  selected : ∀ earlier, earlier <+: requests →
    answer (getDevice true) (reached s earlier) = some (some (lastRequested s.device earlier))
  answered : ∀ earlier request, earlier ++ [request] <+: requests → request.exchanges →
    answer request.perform (reached s earlier) = answer (getDevice true) (reached s earlier)

/-- Every step of the run is lossless. -/
def LosslessRun : Thread → List Request → Prop
  | _, [] => True
  | s, request :: rest => request.Lossless s ∧ LosslessRun (after request.perform s) rest

section Steps
variable {s : Thread} {request : Request}

/-- What a call answers. -/
def Request.reply (s : Thread) : Request → Option Int
  | exchangeDevice _ | getDevice => some s.device
  | maybeExchangeDevice _ _ => some s.current
  | _ => none

/-- What a call leaves. -/
def Request.next (s : Thread) : Request → Thread
  | setDevice d | exchangeDevice d => s.on d
  | maybeSetDevice hasPrimaryContext d =>
      if hasPrimaryContext then s.on d else { s with target := d }
  | maybeExchangeDevice hasPrimaryContext d =>
      if d = s.current then s
      else if hasPrimaryContext then { s with current := d } else { s with target := d }
  | setTargetDevice => if s.target ≥ 0 then s.on s.target else s
  | getDevice => s

theorem outcome_of_wp {α : Type} {program : Program α} {a : α} {t : Thread}
    (holds : wp program (fun b u => b = a ∧ u = t) (fun _ _ => False) s) :
    answer program s = some a ∧ after program s = t := by
  apply wp_outcome (Q := fun b u => b = some a ∧ u = t) |>.mp
  exact wp_mono holds (fun _ _ same => ⟨congrArg some same.1, same.2⟩) fun _ _ never => never.elim

theorem outcome_getDevice (valid : s.Valid) :
    answer (getDevice true) s = some (some s.device) ∧ after (getDevice true) s = s :=
  outcome_of_wp ((getDevice_wp valid).mpr (by simp))

/-- A call of a valid device returns. -/
theorem outcome_perform (valid : s.Valid) (asks : request.Valid) :
    answer request.perform s = some (request.reply s) ∧
      after request.perform s = request.next s := by
  apply outcome_of_wp
  cases request with
  | setDevice d =>
      have allowed : ¬ d < 0 := Int.not_lt.mpr (asks d rfl).1
      simp [Request.perform, setDevice_wp, allowed, Switch.served, Request.reply, Request.next]
  | maybeSetDevice hasPrimaryContext d =>
      simp [Request.perform, maybeSetDevice_wp (asks d rfl).1, Request.reply, Request.next]
  | exchangeDevice d =>
      simp [Request.perform, exchangeDevice_wp, Request.reply, Request.next]
  | maybeExchangeDevice hasPrimaryContext d =>
      simp [Request.perform, maybeExchangeDevice_wp valid, Request.reply, Request.next]
  | setTargetDevice =>
      simp [Request.perform, setTargetDevice_wp, Request.reply, Request.next]
  | getDevice => simp [Request.perform, getDevice_wp valid, Request.reply, Request.next]

theorem Thread.device_valid (valid : s.Valid) : 0 ≤ s.device ∧ s.device ≤ 127 := by
  have runtime := valid.current
  have pending := valid.target
  unfold Thread.device
  split <;> omega

theorem Thread.on_valid {d : Int} (inRange : 0 ≤ d ∧ d ≤ 127) : (s.on d).Valid :=
  ⟨inRange, by simp [Thread.on]⟩

theorem next_valid (valid : s.Valid) (asks : request.Valid) : (request.next s).Valid := by
  obtain ⟨current, target⟩ := valid
  cases request with
  | setDevice d => exact Thread.on_valid (asks d rfl)
  | exchangeDevice d => exact Thread.on_valid (asks d rfl)
  | maybeSetDevice hasPrimaryContext d =>
      cases hasPrimaryContext
      · exact ⟨current, (asks d rfl).2⟩
      · exact Thread.on_valid (asks d rfl)
  | maybeExchangeDevice hasPrimaryContext d =>
      have inRange := asks d rfl
      simp only [Request.next]
      split
      · exact ⟨current, target⟩
      · split
        · exact ⟨inRange, target⟩
        · exact ⟨current, inRange.2⟩
  | setTargetDevice =>
      simp only [Request.next]
      split
      · next pending => exact Thread.on_valid ⟨pending, target⟩
      · exact ⟨current, target⟩
  | getDevice => exact ⟨current, target⟩

/-- A step does what was asked of it exactly when it is lossless. -/
theorem lossless_iff (asks : request.Valid) :
    request.Lossless s ↔ (request.exchanges → request.reply s = some s.device) ∧
      (request.next s).device = request.asked.getD s.device := by
  cases request with
  | setDevice d => simp [Request.Lossless, Request.exchanges, Request.next, Request.asked,
      Thread.device_on]
  | exchangeDevice d => simp [Request.Lossless, Request.exchanges, Request.next, Request.asked,
      Request.reply, Thread.device_on]
  | maybeSetDevice hasPrimaryContext d =>
      have allowed := (asks d rfl).1
      cases hasPrimaryContext
      · simp [Request.Lossless, Request.exchanges, Request.next, Request.asked, Thread.device,
          allowed]
      · simp [Request.Lossless, Request.exchanges, Request.next, Request.asked, Thread.device_on]
  | maybeExchangeDevice hasPrimaryContext d =>
      have allowed := (asks d rfl).1
      simp only [Request.Lossless, Request.exchanges, Request.next, Request.asked, Request.reply,
        Thread.device, Option.some.injEq, Option.getD_some, forall_const]
      cases hasPrimaryContext <;> grind
  | setTargetDevice =>
      by_cases pending : s.target ≥ 0 <;>
        simp [Request.Lossless, Request.exchanges, Request.next, Request.asked, pending,
          Thread.on, Thread.device]
  | getDevice => simp [Request.Lossless, Request.exchanges, Request.next, Request.asked]

end Steps

/-! ### Runs -/

section Runs
variable {s : Thread} {requests : List Request}

theorem reached_cons (s : Thread) (request : Request) (rest : List Request) :
    reached s (request :: rest) = reached (after request.perform s) rest := rfl

theorem reached_append (s : Thread) (first second : List Request) :
    reached s (first ++ second) = reached (reached s first) second := by
  simp only [reached, List.foldl_append]

theorem losslessRun_append (first second : List Request) :
    LosslessRun s (first ++ second) ↔
      LosslessRun s first ∧ LosslessRun (reached s first) second := by
  induction first generalizing s with
  | nil => simp [LosslessRun, reached]
  | cons request rest ih =>
      simp only [List.cons_append, LosslessRun, ih, and_assoc]
      rfl

theorem reached_valid (valid : s.Valid) (asks : ∀ request ∈ requests, request.Valid) :
    (reached s requests).Valid := by
  induction requests generalizing s with
  | nil => exact valid
  | cons request rest ih =>
      rw [List.forall_mem_cons] at asks
      rw [reached_cons, (outcome_perform valid asks.1).2]
      exact ih (next_valid valid asks.1) asks.2

theorem follows_nil (valid : s.Valid) : Follows s [] where
  selected earlier before := by
    rw [List.prefix_nil.mp before]
    exact (outcome_getDevice valid).1
  answered earlier request before := by
    have never := List.prefix_nil.mp before
    simp at never

theorem follows_cons {request : Request} (valid : s.Valid) (asks : request.Valid) :
    Follows s (request :: requests) ↔
      request.Lossless s ∧ Follows (request.next s) requests := by
  obtain ⟨replied, stepped⟩ := outcome_perform valid asks
  have asked := (outcome_getDevice valid).1
  have askedNext := (outcome_getDevice (next_valid valid asks)).1
  rw [lossless_iff asks]
  constructor
  · intro follows
    have landed : (request.next s).device = request.asked.getD s.device := by
      have selected := follows.selected [request] (by simp)
      simpa [reached, lastRequested, stepped, askedNext] using selected
    refine ⟨⟨fun exchanges => ?_, landed⟩, ?_, ?_⟩
    · have answered := follows.answered [] request (by simp) exchanges
      simpa [reached, replied, asked] using answered
    · intro earlier before
      have selected := follows.selected (request :: earlier) (by simpa using before)
      simpa [reached, lastRequested, stepped, landed] using selected
    · intro earlier later before exchanges
      have answered := follows.answered (request :: earlier) later (by simpa using before) exchanges
      simpa [reached, stepped] using answered
  · rintro ⟨⟨exact, landed⟩, follows⟩
    constructor
    · intro earlier before
      cases earlier with
      | nil => exact asked
      | cons first earlier =>
          obtain ⟨rfl, rest⟩ := List.cons_prefix_cons.mp before
          simpa [reached, lastRequested, stepped, landed] using follows.selected earlier rest
    · intro earlier later before exchanges
      cases earlier with
      | nil =>
          obtain ⟨rfl, -⟩ := List.cons_prefix_cons.mp before
          simp [reached, replied, asked, exact exchanges]
      | cons first earlier =>
          obtain ⟨rfl, rest⟩ := List.cons_prefix_cons.mp before
          simpa [reached, stepped] using follows.answered earlier later rest exchanges

/-- A run follows its requests exactly when its steps are lossless. -/
theorem follows_run_iff (valid : s.Valid) (asks : ∀ request ∈ requests, request.Valid) :
    Follows s requests ↔ LosslessRun s requests := by
  induction requests generalizing s with
  | nil => exact iff_of_true (follows_nil valid) trivial
  | cons request rest ih =>
      rw [List.forall_mem_cons] at asks
      have stepped := (outcome_perform valid asks.1).2
      rw [follows_cons valid asks.1, ih (next_valid valid asks.1) asks.2, LosslessRun, stepped]

/-- Where a lossless run ends. -/
theorem device_reached (valid : s.Valid) (asks : ∀ request ∈ requests, request.Valid)
    (lossless : LosslessRun s requests) :
    (reached s requests).device = lastRequested s.device requests := by
  have selected := ((follows_run_iff valid asks).mpr lossless).selected requests
    (List.prefix_refl _)
  rw [(outcome_getDevice (reached_valid valid asks)).1] at selected
  simpa using selected

end Runs
end TorchGcu.DeviceSelection

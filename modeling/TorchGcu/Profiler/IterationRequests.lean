import TorchGcu.Logic.MachineIntegers

/-! The trace requests of `ActivityProfilerController` that start at an iteration: they wait for a
step of the application, or move on to a later one when they come too late. -/
namespace TorchGcu.ActivityProfilerController
open TorchGcu.Logic

/-! ### Requests -/

/-- The fields of `Config` that tell when a trace starts and ends. -/
structure Config where
  profileStartIteration : Int32
  activitiesWarmupIterations : Int32
  activitiesRunIterations : Int32
  profileStartIterationRoundUp : Int32
deriving DecidableEq, Repr

namespace Config

def hasProfileStartIteration (config : Config) : Bool :=
  decide (0 ≤ config.profileStartIteration) && decide (0 < config.activitiesRunIterations)

def setProfileStartIteration (config : Config) (iter : Int32) : Config :=
  { config with profileStartIteration := iter }

def startIterationIncludingWarmup (config : Config) : Int32 :=
  if !config.hasProfileStartIteration then -1
  else config.profileStartIteration - config.activitiesWarmupIterations

end Config

/-- A start in the past is calculated again, and kept as an `int`. -/
def recalculate (currentIter : Int64) (config : Config) : Config × Bool :=
  let newProfileStart := currentIter + config.activitiesWarmupIterations.toInt64
  if config.profileStartIterationRoundUp > 0 then
    let divisor := config.profileStartIterationRoundUp.toInt64
    let rem := newProfileStart % divisor
    let newProfileStart := newProfileStart + if rem = 0 then 0 else divisor - rem
    let config := config.setProfileStartIteration newProfileStart.toInt32
    (config, currentIter == config.startIterationIncludingWarmup.toInt64)
  else (config.setProfileStartIteration newProfileStart.toInt32, true)

/-- `shouldActivateIterationConfig`, with the request as it leaves it. -/
def shouldActivateIterationConfig (currentIter : Int64) (config : Config) : Config × Bool :=
  if !config.hasProfileStartIteration then (config, false)
  else
    let rootIter := config.startIterationIncludingWarmup.toInt64
    if currentIter < rootIter then (config, false)
    else if currentIter > rootIter then recalculate currentIter config
    else (config, true)

/-! ### The profiler -/

structure ConfigDerivedState where
  profilingByIter : Bool
  profileStartIter : Int64
  profileEndIter : Int64
deriving DecidableEq, Repr

def ConfigDerivedState.ofConfig (config : Config) : ConfigDerivedState where
  profilingByIter := config.hasProfileStartIteration
  profileStartIter :=
    if config.hasProfileStartIteration then config.profileStartIteration.toInt64 else -1
  profileEndIter :=
    if config.hasProfileStartIteration then
      config.profileStartIteration.toInt64 + config.activitiesRunIterations.toInt64
    else Int64.maxValue

namespace ConfigDerivedState

/-- The clock says whether there is still time, which a trace by iterations does not ask. -/
def canStart (derived : ConfigDerivedState) (inTime : Bool) : Bool :=
  derived.profilingByIter || inTime

def isWarmupDone (derived : ConfigDerivedState) (timeReached : Bool) (currentIter : Int64) : Bool :=
  if !derived.profilingByIter && decide (currentIter < 0) then timeReached
  else if derived.profilingByIter && decide (currentIter ≥ 0) then
    decide (currentIter ≥ derived.profileStartIter)
  else false

def isCollectionDone (derived : ConfigDerivedState) (timeReached : Bool) (currentIter : Int64) :
    Bool :=
  if !derived.profilingByIter && decide (currentIter < 0) then timeReached
  else if derived.profilingByIter && decide (currentIter ≥ 0) then
    decide (currentIter ≥ derived.profileEndIter)
  else false

end ConfigDerivedState

inductive RunloopState where
  | waitForRequest | warmup | collectTrace | processTrace
deriving DecidableEq, Repr

/-- What a call reads of the clock and of the tracing library. -/
structure Clock where
  /-- A request by time is due. -/
  due : Bool
  inTime : Bool
  timeReached : Bool
  stopCollection : Bool

structure Profiler where
  currentRunloopState : RunloopState := .waitForRequest
  derivedConfig : Option ConfigDerivedState := none
deriving DecidableEq

namespace Profiler

def isActive (profiler : Profiler) : Bool := profiler.currentRunloopState != .waitForRequest

def configure (profiler : Profiler) (config : Config) (clock : Clock) : Profiler :=
  if profiler.isActive then profiler
  else
    let derived := ConfigDerivedState.ofConfig config
    if !derived.canStart clock.inTime then { profiler with derivedConfig := some derived }
    else { currentRunloopState := .warmup, derivedConfig := some derived }

/-- `performRunLoopStep`. -/
def performRunLoopStep (profiler : Profiler) (clock : Clock) (currentIter : Int64) : Profiler :=
  match profiler.derivedConfig with
  | none => profiler
  | some derived =>
    match profiler.currentRunloopState with
    | .waitForRequest => profiler
    | .warmup =>
      if clock.stopCollection then { profiler with currentRunloopState := .waitForRequest }
      else if derived.isWarmupDone clock.timeReached currentIter then
        { profiler with currentRunloopState := .collectTrace }
      else profiler
    | .collectTrace =>
      if derived.isCollectionDone clock.timeReached currentIter || clock.stopCollection then
        { profiler with currentRunloopState := .processTrace }
      else profiler
    | .processTrace =>
      if currentIter ≥ 0 then profiler
      else { profiler with currentRunloopState := .waitForRequest }

end Profiler

/-! ### The controller -/

structure Controller where
  iterationCount : Int64 := -1
  asyncRequestConfig : Option Config := none
  profiler : Profiler := {}

namespace Controller

/-- `scheduleTrace`. -/
def scheduleTrace (controller : Controller) (config : Config) : Controller :=
  if controller.profiler.isActive then controller
  else if config.hasProfileStartIteration && decide (controller.iterationCount < 0) then controller
  else if controller.asyncRequestConfig.isSome then controller
  else { controller with asyncRequestConfig := some config }

def activateConfig (controller : Controller) (config : Config) (clock : Clock) : Controller :=
  { controller with
    profiler := controller.profiler.configure config clock
    asyncRequestConfig := none }

def runLoopStep (controller : Controller) (clock : Clock) (currentIter : Int64) : Controller :=
  if controller.profiler.isActive then
    { controller with
      profiler := controller.profiler.performRunLoopStep clock currentIter }
  else controller

/-- The request of a controller whose profiler is idle is looked at in a step. -/
def tryIteration (controller : Controller) (clock : Clock) (currentIter : Int64) : Controller :=
  match controller.asyncRequestConfig with
  | none => controller
  | some config =>
    if controller.profiler.isActive then controller
    else
      let answer := shouldActivateIterationConfig currentIter config
      if answer.2 then controller.activateConfig answer.1 clock
      else { controller with asyncRequestConfig := some answer.1 }

/-- `step`. -/
def step (controller : Controller) (clock : Clock) : Controller :=
  let currentIter := controller.iterationCount + 1
  let controller := { controller with iterationCount := currentIter }
  (controller.tryIteration clock currentIter).runLoopStep clock currentIter

/-- One turn of `profilerLoop`, which calls `performRunLoopStep` without an iteration. -/
def turn (controller : Controller) (clock : Clock) : Controller :=
  let controller :=
    match controller.asyncRequestConfig with
    | none => controller
    | some config =>
      if controller.profiler.isActive then controller
      else if config.hasProfileStartIteration then controller
      else if clock.due then controller.activateConfig config clock
      else controller
  controller.runLoopStep clock (-1)

inductive Action where
  | step (clock : Clock)
  | turn (clock : Clock)

def act (controller : Controller) : Action → Controller
  | .step clock => controller.step clock
  | .turn clock => controller.turn clock

def run (controller : Controller) (actions : List Action) : Controller :=
  actions.foldl act controller

end Controller

/-- How often the application calls `step`. -/
def steps (actions : List Controller.Action) : Nat :=
  actions.countP fun action =>
    match action with
    | .step _ => true
    | .turn _ => false

/-! ### What is promised -/

/-- The controller after some actions, when the request is activated at a step. -/
structure Controller.Activates (controller : Controller) (first step start : Int) : Prop where
  waiting : ∀ actions, first + steps actions ≤ step →
    (controller.run actions).asyncRequestConfig.isSome ∧
      (controller.run actions).profiler = controller.profiler
  activated : ∀ actions, step < first + steps actions →
    (controller.run actions).asyncRequestConfig = none ∧
      ∃ derived, (controller.run actions).profiler.derivedConfig = some derived ∧
        derived.profilingByIter = true ∧ derived.profileStartIter.toInt = start

/-- A request by iterations that is accepted. -/
structure Request where
  config : Config
  start : 0 ≤ config.profileStartIteration
  warmup : 0 ≤ config.activitiesWarmupIterations
  iterations : 0 < config.activitiesRunIterations

namespace Request

variable (request : Request)

def startIter : Int := request.config.profileStartIteration.toInt
def warmupIters : Int := request.config.activitiesWarmupIterations.toInt
def roundUp : Int := request.config.profileStartIterationRoundUp.toInt

/-- Iterations at which a request may start that is found late in a step. -/
def Admissible (currentIter : Int) (start : Int) : Prop :=
  currentIter + request.warmupIters ≤ start ∧ (0 < request.roundUp → request.roundUp ∣ start)

/-- The iteration at which a request starts, by the first step after it. -/
structure Starts (first start : Int) : Prop where
  ahead : first ≤ request.startIter - request.warmupIters → start = request.startIter
  late : request.startIter - request.warmupIters < first →
    IsLeast {start | request.Admissible first start} start
  prompt : request.startIter - request.warmupIters < first → request.roundUp ≤ 0 →
    start - request.warmupIters = first
  bounded : request.startIter - request.warmupIters < first → 0 < request.roundUp →
    start - request.warmupIters ≤ first + request.roundUp

/-- The request before the step with this number, when the profiler is idle after an earlier one. -/
def controller (first : Int64) (earlier : Option ConfigDerivedState) : Controller where
  iterationCount := first - 1
  asyncRequestConfig := some request.config
  profiler := { derivedConfig := earlier }

/-- The request is activated at the step at which its warm-up starts. -/
def Served (first : Int64) (earlier : Option ConfigDerivedState) : Prop :=
  ∃ start, request.Starts first.toInt start ∧ start - request.warmupIters < 2 ^ 63 ∧
    (request.controller first earlier).Activates first.toInt (start - request.warmupIters) start

/-- The least admissible iteration. -/
def lateStart (currentIter : Int) : Int :=
  let newProfileStart := currentIter + request.warmupIters
  if 0 < request.roundUp then roundUpTo request.roundUp newProfileStart else newProfileStart

end Request

end TorchGcu.ActivityProfilerController

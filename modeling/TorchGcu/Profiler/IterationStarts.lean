import TorchGcu.Profiler.IterationRequests

/-! A request by iterations is found late at most once: then it waits for the step at which its
warm-up starts, and the controller activates it there. -/
namespace TorchGcu.ActivityProfilerController
open TorchGcu.Logic

/-! ### The start of a late request -/

namespace Request

variable (request : Request)

theorem start_nonneg : 0 ≤ request.startIter := Int32.le_iff_toInt_le.mp request.start

theorem warmup_nonneg : 0 ≤ request.warmupIters := Int32.le_iff_toInt_le.mp request.warmup

theorem lateStart_isLeast (currentIter : Int) :
    IsLeast {start | request.Admissible currentIter start} (request.lateStart currentIter) := by
  unfold lateStart
  simp only
  split
  · rename_i positive
    obtain ⟨⟨above, divides⟩, least⟩ :=
      roundUpTo_isLeast positive (currentIter + request.warmupIters)
    exact ⟨⟨above, fun _ => divides⟩, fun start admissible =>
      least ⟨admissible.1, admissible.2 positive⟩⟩
  · rename_i absent
    exact ⟨⟨le_refl _, fun positive => absurd positive absent⟩, fun start admissible =>
      admissible.1⟩

theorem lateStart_starts {first : Int} (late : request.startIter - request.warmupIters < first) :
    request.Starts first (request.lateStart first) where
  ahead := fun ahead => absurd late (not_lt.mpr ahead)
  late := fun _ => request.lateStart_isLeast first
  prompt := fun _ absent => by
    rw [lateStart, if_neg (not_lt.mpr absent)]
    omega
  bounded := fun _ positive => by
    have := roundUpTo_lt positive (first + request.warmupIters)
    rw [lateStart, if_pos positive]
    omega

theorem startIter_starts {first : Int} (ahead : first ≤ request.startIter - request.warmupIters) :
    request.Starts first request.startIter where
  ahead := fun _ => rfl
  late := fun late => absurd late (not_lt.mpr ahead)
  prompt := fun late => absurd late (not_lt.mpr ahead)
  bounded := fun late => absurd late (not_lt.mpr ahead)

end Request

/-- A request that waits with this start, after a late one was rounded up or as it came. -/
structure Waits (request : Request) (start : Int) (config : Config) : Prop where
  same : config.profileStartIteration.toInt = start
  nonneg : 0 ≤ start
  warmup : config.activitiesWarmupIterations = request.config.activitiesWarmupIterations
  runs : config.activitiesRunIterations = request.config.activitiesRunIterations

namespace Waits

variable {request : Request} {start : Int} {config : Config}

theorem hasProfileStartIteration (waits : Waits request start config) :
    config.hasProfileStartIteration = true := by
  have started : 0 ≤ config.profileStartIteration := by
    rw [Int32.le_iff_toInt_le, waits.same]
    exact waits.nonneg
  have runs := request.iterations
  rw [← waits.runs] at runs
  simp [Config.hasProfileStartIteration, started, runs]

theorem rootIter (waits : Waits request start config) :
    config.startIterationIncludingWarmup.toInt64.toInt = start - request.warmupIters := by
  have same := waits.same
  have nonneg := waits.nonneg
  have least := request.warmup_nonneg
  have upper := config.profileStartIteration.toInt_lt
  have upper' := config.activitiesWarmupIterations.toInt_lt
  have warmup : config.activitiesWarmupIterations.toInt = request.warmupIters := by
    rw [waits.warmup, Request.warmupIters]
  rw [Config.startIterationIncludingWarmup, waits.hasProfileStartIteration]
  simp only [Bool.not_true, Bool.false_eq_true, if_false]
  rw [Int32.toInt_toInt64, sub_exact_32 (by omega) (by omega)]
  omega

end Waits

theorem Request.waits (request : Request) : Waits request request.startIter request.config :=
  ⟨rfl, request.start_nonneg, rfl, rfl⟩

/-- What is left of a request when its start is set. -/
theorem Waits.of_set (request : Request) {start : Int} {iter : Int64} (exact : iter.toInt = start)
    (nonneg : 0 ≤ start) (fits : start < 2 ^ 31) :
    Waits request start (request.config.setProfileStartIteration iter.toInt32) where
  same := by
    rw [Config.setProfileStartIteration, narrow_exact (by omega) (by omega), exact]
  nonneg := nonneg
  warmup := rfl
  runs := rfl

/-- A start in the past is set to the least admissible iteration, if that is an `int`. -/
theorem recalculate_waits (request : Request) {currentIter : Int64}
    (late : request.startIter - request.warmupIters < currentIter.toInt)
    (fits : request.lateStart currentIter.toInt < 2 ^ 31) :
    Waits request (request.lateStart currentIter.toInt)
        (recalculate currentIter request.config).1 ∧
      ((recalculate currentIter request.config).2 = true ↔
        currentIter.toInt = request.lateStart currentIter.toInt - request.warmupIters) := by
  have startLeast := request.start_nonneg
  have warmupLeast := request.warmup_nonneg
  have least := (request.lateStart_isLeast currentIter.toInt).1.1
  have sum : (currentIter + request.config.activitiesWarmupIterations.toInt64).toInt =
      currentIter.toInt + request.warmupIters := by
    have width : request.config.activitiesWarmupIterations.toInt64.toInt = request.warmupIters :=
      Int32.toInt_toInt64 _
    rw [add_exact (by omega) (by omega), width]
  rw [recalculate]
  by_cases positive : 0 < request.roundUp
  · have divides : request.config.profileStartIterationRoundUp > 0 :=
      Int32.lt_iff_toInt_lt.mpr positive
    have upper : request.roundUp < 2 ^ 31 := request.config.profileStartIterationRoundUp.toInt_lt
    have divisor : request.config.profileStartIterationRoundUp.toInt64.toInt = request.roundUp :=
      Int32.toInt_toInt64 _
    have rounded := roundUpTo_eq positive (a := currentIter.toInt + request.warmupIters)
    rw [Request.lateStart, if_pos positive] at fits least ⊢
    simp only [if_pos divides]
    generalize request.config.profileStartIterationRoundUp.toInt64 = d at divisor
    generalize currentIter + request.config.activitiesWarmupIterations.toInt64 = newProfileStart
      at sum
    have small := Int.emod_lt_of_pos (currentIter.toInt + request.warmupIters) positive
    have rest := Int.emod_nonneg (currentIter.toInt + request.warmupIters) positive.ne'
    have remainder : (newProfileStart % d).toInt =
        (currentIter.toInt + request.warmupIters) % request.roundUp := by
      rw [Int64.toInt_mod, sum, divisor, Int.tmod_eq_emod_of_nonneg (by omega)]
    have missing : (if newProfileStart % d = 0 then 0 else d - newProfileStart % d).toInt =
        if (currentIter.toInt + request.warmupIters) % request.roundUp = 0 then 0
        else request.roundUp - (currentIter.toInt + request.warmupIters) % request.roundUp := by
      rw [← remainder]
      by_cases none : newProfileStart % d = 0
      · rw [if_pos none, if_pos (by rw [none]; rfl)]
        rfl
      · have left : (newProfileStart % d).toInt ≠ 0 := fun zero => none (Int64.toInt_inj.mp zero)
        rw [if_neg none, if_neg left, sub_exact (by omega) (by omega), divisor]
    have total : (newProfileStart + if newProfileStart % d = 0 then 0
        else d - newProfileStart % d).toInt =
          roundUpTo request.roundUp (currentIter.toInt + request.warmupIters) := by
      rw [add_exact (by rw [missing, sum]; omega) (by rw [missing, sum]; omega), missing, sum,
        rounded]
    have waits := Waits.of_set request total (by omega) fits
    refine ⟨waits, ?_⟩
    rw [beq_iff_eq, ← Int64.toInt_inj, waits.rootIter]
  · have absent : ¬ request.config.profileStartIterationRoundUp > 0 := fun divides =>
      positive (Int32.lt_iff_toInt_lt.mp divides)
    rw [Request.lateStart, if_neg positive] at fits least ⊢
    simp only [if_neg absent, true_iff]
    exact ⟨Waits.of_set request sum (by omega) fits, by omega⟩

/-! ### Runs -/

/-- The request before a step: with its start, or still to be found late. -/
def Request.IsFor (request : Request) (start step : Int) (config : Config) : Prop :=
  Waits request start config ∨
    config = request.config ∧ request.startIter - request.warmupIters < step ∧
      start = request.lateStart step

theorem Request.IsFor.hasProfileStartIteration {request : Request} {start step : Int}
    {config : Config} (isFor : request.IsFor start step config) :
    config.hasProfileStartIteration = true := by
  rcases isFor with waits | ⟨rfl, _⟩
  · exact waits.hasProfileStartIteration
  · exact request.waits.hasProfileStartIteration

/-- A step up to the one at which the warm-up starts. -/
theorem shouldActivate_waits {request : Request} {start : Int} {config : Config}
    {currentIter : Int64} (isFor : request.IsFor start currentIter.toInt config)
    (fits : start < 2 ^ 31) (soon : currentIter.toInt ≤ start - request.warmupIters) :
    Waits request start (shouldActivateIterationConfig currentIter config).1 ∧
      ((shouldActivateIterationConfig currentIter config).2 = true ↔
        currentIter.toInt = start - request.warmupIters) := by
  have has := isFor.hasProfileStartIteration
  simp only [shouldActivateIterationConfig, has, Bool.not_true, Bool.false_eq_true, if_false,
    GT.gt, Int64.lt_iff_toInt_lt]
  rcases isFor with waits | ⟨rfl, late, rfl⟩
  · rw [waits.rootIter]
    by_cases before : currentIter.toInt < start - request.warmupIters
    · rw [if_pos before]
      exact ⟨waits, by simp; omega⟩
    · rw [if_neg before, if_neg (by omega)]
      exact ⟨waits, by simp; omega⟩
  · rw [request.waits.rootIter, if_neg (by omega), if_pos late]
    exact recalculate_waits request late fits

namespace Controller

/-- The request is pending before the step with this number. -/
structure Pending (request : Request) (profiler : Profiler) (start step : Int)
    (controller : Controller) : Prop where
  config : ∃ config, controller.asyncRequestConfig = some config ∧
    request.IsFor start step config
  profiler : controller.profiler = profiler
  next : (controller.iterationCount + 1).toInt = step
  soon : step ≤ start - request.warmupIters

/-- The profiler has the request with its start. -/
def Activated (start : Int) (controller : Controller) : Prop :=
  controller.asyncRequestConfig = none ∧
    ∃ derived, controller.profiler.derivedConfig = some derived ∧
      derived.profilingByIter = true ∧ derived.profileStartIter.toInt = start

variable {request : Request} {profiler : Profiler} {start : Int} {step : Int}
  {controller : Controller}

theorem performRunLoopStep_derivedConfig (profiler : Profiler) (clock : Clock)
    (currentIter : Int64) :
    (profiler.performRunLoopStep clock currentIter).derivedConfig = profiler.derivedConfig := by
  unfold Profiler.performRunLoopStep
  repeat' split
  all_goals rfl

theorem Activated.runLoopStep (activated : Activated start controller) (clock : Clock)
    (currentIter : Int64) : Activated start (controller.runLoopStep clock currentIter) := by
  unfold Controller.runLoopStep
  split
  · obtain ⟨none, derived, isDerived, known⟩ := activated
    exact ⟨none, derived, (performRunLoopStep_derivedConfig _ _ _).trans isDerived, known⟩
  · exact activated

theorem Activated.act (activated : Activated start controller) (action : Action) :
    Activated start (controller.act action) := by
  have none := activated.1
  cases action with
  | step clock =>
    rw [Controller.act, Controller.step]
    refine Activated.runLoopStep ?_ clock _
    simp only [tryIteration, none]
    exact ⟨rfl, activated.2⟩
  | turn clock =>
    rw [Controller.act, Controller.turn]
    refine Activated.runLoopStep ?_ clock _
    simp only [none]
    exact activated

theorem Activated.run (activated : Activated start controller) (actions : List Action) :
    Activated start (controller.run actions) := by
  induction actions generalizing controller with
  | nil => exact activated
  | cons action actions ih => exact ih (activated.act action)

/-- The controller thread leaves a request by iterations alone. -/
theorem Pending.turn (pending : Pending request profiler start step controller)
    (idle : profiler.isActive = false) (clock : Clock) : controller.turn clock = controller := by
  obtain ⟨config, isConfig, isFor⟩ := pending.config
  have has := isFor.hasProfileStartIteration
  have inactive : controller.profiler.isActive = false := pending.profiler ▸ idle
  simp [Controller.turn, isConfig, inactive, has, Controller.runLoopStep]

/-- Other requests are ignored while one is pending. -/
theorem Pending.scheduleTrace (pending : Pending request profiler start step controller)
    (other : Config) : controller.scheduleTrace other = controller := by
  obtain ⟨config, isConfig, _⟩ := pending.config
  unfold Controller.scheduleTrace
  rw [isConfig]
  repeat' split
  · rfl
  · rfl
  · rfl
  · rename_i free
    exact absurd rfl free

theorem Pending.afterStep (pending : Pending request profiler start step controller)
    (idle : profiler.isActive = false) (fits : start < 2 ^ 31) (clock : Clock) :
    if step = start - request.warmupIters then Activated start (controller.step clock)
    else Pending request profiler start (step + 1) (controller.step clock) := by
  obtain ⟨⟨config, isConfig, isFor⟩, same, next, soon⟩ := pending
  have inactive : controller.profiler.isActive = false := same ▸ idle
  rw [← next] at isFor soon
  obtain ⟨waits, answer⟩ := shouldActivate_waits isFor fits soon
  rw [next] at answer soon
  split
  · rename_i now
    rw [Controller.step]
    refine Activated.runLoopStep ?_ clock _
    have activates := answer.mpr now
    simp only [tryIteration, isConfig, inactive, activates, Bool.false_eq_true, if_false, if_true]
    refine ⟨rfl, ConfigDerivedState.ofConfig _, ?_, waits.hasProfileStartIteration, ?_⟩
    · simp only [activateConfig, Profiler.configure, inactive, Bool.false_eq_true, if_false]
      split <;> rfl
    · simp only [ConfigDerivedState.ofConfig, waits.hasProfileStartIteration, if_true]
      rw [Int32.toInt_toInt64, waits.same]
  · rename_i later
    have waiting : (shouldActivateIterationConfig (controller.iterationCount + 1) config).2 =
        false := by
      rw [← Bool.not_eq_true]
      exact fun now => later (answer.mp now)
    have after : controller.step clock =
        { controller with
          iterationCount := controller.iterationCount + 1
          asyncRequestConfig :=
            some (shouldActivateIterationConfig (controller.iterationCount + 1) config).1 } := by
      simp [Controller.step, tryIteration, isConfig, inactive, waiting, Controller.runLoopStep]
    rw [after]
    have least := request.warmup_nonneg
    have lower := (controller.iterationCount + 1).le_toInt
    refine ⟨⟨_, rfl, .inl waits⟩, same, ?_, by omega⟩
    change (controller.iterationCount + 1 + 1).toInt = step + 1
    have one : (1 : Int64).toInt = 1 := rfl
    rw [add_exact (by omega) (by omega), next, one]

theorem Pending.run (idle : profiler.isActive = false) (fits : start < 2 ^ 31)
    (actions : List Action) {step : Int} {controller : Controller}
    (pending : Pending request profiler start step controller) :
    if step + steps actions ≤ start - request.warmupIters then
      Pending request profiler start (step + steps actions) (controller.run actions)
    else Activated start (controller.run actions) := by
  induction actions generalizing controller step with
  | nil =>
    have soon := pending.soon
    have none : step + ((steps [] : Nat) : Int) = step := by simp [steps]
    rw [none, if_pos soon]
    exact pending
  | cons action actions ih =>
    have split : (controller.run (action :: actions)) = (controller.act action).run actions := rfl
    rw [split]
    cases action with
    | turn clock =>
      have same : steps (.turn clock :: actions) = steps actions := by simp [steps]
      rw [same, Controller.act, pending.turn idle]
      exact ih pending
    | step clock =>
      have more : ((steps (.step clock :: actions) : Nat) : Int) = steps actions + 1 := by
        simp [steps]
      have stepped := pending.afterStep idle fits clock
      have soon := pending.soon
      rw [Controller.act, more]
      by_cases now : step = start - request.warmupIters
      · rw [if_pos now] at stepped
        rw [if_neg (by omega)]
        exact stepped.run actions
      · rw [if_neg now] at stepped
        have rest := ih stepped
        have order : step + 1 + (steps actions : Int) = step + (steps actions + 1) := by omega
        rwa [order] at rest

/-- A start that the profiler got was kept as an `int`. -/
def Narrow (controller : Controller) : Prop :=
  controller.asyncRequestConfig = none →
    ∀ derived, controller.profiler.derivedConfig = some derived →
      derived.profileStartIter.toInt < 2 ^ 31

theorem ofConfig_narrow (config : Config) :
    (ConfigDerivedState.ofConfig config).profileStartIter.toInt < 2 ^ 31 := by
  simp only [ConfigDerivedState.ofConfig]
  split
  · rw [Int32.toInt_toInt64]
    exact config.profileStartIteration.toInt_lt
  · decide

theorem Narrow.activateConfig {config : Config} {clock : Clock}
    (inactive : ¬ controller.profiler.isActive = true) :
    Narrow (controller.activateConfig config clock) := by
  rintro - derived isDerived
  have given : some (ConfigDerivedState.ofConfig config) = some derived := by
    rw [← isDerived]
    simp only [Controller.activateConfig, Profiler.configure, inactive, if_false,
      Bool.false_eq_true]
    split <;> rfl
  cases given
  exact ofConfig_narrow config

theorem Narrow.runLoopStep (narrow : Narrow controller) (clock : Clock) (currentIter : Int64) :
    Narrow (controller.runLoopStep clock currentIter) := by
  unfold Controller.runLoopStep
  split
  · intro none derived isDerived
    exact narrow none derived
      ((performRunLoopStep_derivedConfig _ clock currentIter).symm.trans isDerived)
  · exact narrow

theorem Narrow.act (narrow : Narrow controller) (action : Action) :
    Narrow (controller.act action) := by
  cases action with
  | step clock =>
    rw [Controller.act, Controller.step]
    refine Narrow.runLoopStep ?_ clock _
    unfold tryIteration
    split
    · exact narrow
    · split
      · exact narrow
      · rename_i config _ inactive
        by_cases now : (shouldActivateIterationConfig (controller.iterationCount + 1) config).2 = true
        · simp only [now, if_true]
          exact Narrow.activateConfig inactive
        · simp only [now, if_false, Bool.false_eq_true]
          rintro ⟨⟩
  | turn clock =>
    rw [Controller.act, Controller.turn]
    refine Narrow.runLoopStep ?_ clock _
    split
    · exact narrow
    · split
      · exact narrow
      · rename_i inactive
        split
        · exact narrow
        · split
          · exact Narrow.activateConfig inactive
          · exact narrow

theorem Narrow.run (narrow : Narrow controller) (actions : List Action) :
    Narrow (controller.run actions) := by
  induction actions generalizing controller with
  | nil => exact narrow
  | cons action actions ih => exact ih (narrow.act action)

end Controller

namespace Request

variable (request : Request)

/-- The request is accepted by an idle controller that counts iterations. -/
theorem controller_of_schedule {iterationCount : Int64} (counts : 0 ≤ iterationCount)
    (earlier : Option ConfigDerivedState) :
    Controller.scheduleTrace
        { iterationCount := iterationCount, profiler := { derivedConfig := earlier } }
        request.config =
      request.controller (iterationCount + 1) earlier := by
  have counted : decide (iterationCount < 0) = false := by
    rw [decide_eq_false_iff_not, Int64.not_lt]
    exact counts
  simp [Controller.scheduleTrace, controller, Profiler.isActive, counted]

/-- A request that is pending with its start is activated there. -/
theorem activates_of_pending {first : Int64} {earlier : Option ConfigDerivedState} {start : Int}
    (isFor : request.IsFor start first.toInt request.config)
    (soon : first.toInt ≤ start - request.warmupIters) (fits : start < 2 ^ 31) :
    (request.controller first earlier).Activates first.toInt (start - request.warmupIters)
      start := by
  have pending : (request.controller first earlier).Pending request { derivedConfig := earlier }
      start first.toInt :=
    ⟨⟨request.config, rfl, isFor⟩, rfl, by simp [controller], soon⟩
  constructor
  · intro actions before
    have run := pending.run rfl fits actions
    rw [if_pos before] at run
    obtain ⟨config, isConfig, _⟩ := run.config
    exact ⟨by rw [isConfig]; rfl, run.profiler⟩
  · intro actions after
    have run := pending.run rfl fits actions
    rwa [if_neg (by omega)] at run

/-- A late request is served with an `int` only. -/
theorem Served.fits {request : Request} {first : Int64} {earlier : Option ConfigDerivedState}
    (served : request.Served first earlier)
    (late : request.startIter - request.warmupIters < first.toInt) :
    request.lateStart first.toInt < 2 ^ 31 := by
  obtain ⟨start, starts, _, activates⟩ := served
  have warmupLeast := request.warmup_nonneg
  have same := (starts.late late).unique (request.lateStart_isLeast first.toInt)
  have least := (starts.late late).1.1
  let clock : Clock := ⟨false, false, false, false⟩
  let actions := List.replicate (start - request.warmupIters - first.toInt + 1).toNat
    (Controller.Action.step clock)
  have count : (steps actions : Int) = start - request.warmupIters - first.toInt + 1 := by
    simp [actions, steps, List.countP_replicate]
    omega
  obtain ⟨none, derived, isDerived, _, begins⟩ := activates.activated actions (by omega)
  have narrow : Controller.Narrow (request.controller first earlier) := by
    rintro ⟨⟩
  have := narrow.run actions none derived isDerived
  omega

/-- A request is activated where it should be exactly if it comes in time, or if the start that
it gets instead is an `int`. -/
theorem served_iff (first : Int64) (earlier : Option ConfigDerivedState) :
    request.Served first earlier ↔
      first.toInt ≤ request.startIter - request.warmupIters ∨
        request.lateStart first.toInt < 2 ^ 31 := by
  constructor
  · intro served
    exact or_iff_not_imp_left.mpr fun late => served.fits (not_le.mp late)
  · intro either
    have warmupLeast := request.warmup_nonneg
    by_cases ahead : first.toInt ≤ request.startIter - request.warmupIters
    · have fits : request.startIter < 2 ^ 31 := request.config.profileStartIteration.toInt_lt
      exact ⟨request.startIter, request.startIter_starts ahead, by omega,
        request.activates_of_pending (.inl request.waits) ahead fits⟩
    · have late := not_le.mp ahead
      have fits := either.resolve_left ahead
      have least := (request.lateStart_isLeast first.toInt).1.1
      exact ⟨request.lateStart first.toInt, request.lateStart_starts late, by omega,
        request.activates_of_pending (.inr ⟨rfl, late, rfl⟩) (by omega) fits⟩

/-- A request for iteration 0, to be rounded up to a multiple of 1500000000. -/
def rounded : Request where
  config :=
    { profileStartIteration := 0
      activitiesWarmupIterations := 2000000000
      activitiesRunIterations := 1
      profileStartIterationRoundUp := 1500000000 }
  start := by decide
  warmup := by decide
  iterations := by decide

/-- It should start at iteration 3000000000, which is no `int`: it waits for ever. -/
theorem rounded_not_served : ¬ rounded.Served 1 none := by
  intro served
  have fits := served.fits (by decide)
  revert fits
  decide

end Request

end TorchGcu.ActivityProfilerController

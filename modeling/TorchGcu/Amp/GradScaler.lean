import TorchGcu.Logic.Wp
import TorchGcu.Logic.Dictionaries

/-! An enabled gradient scaler. Whatever it calls may raise, which is a parameter of the call, and
the program that uses it goes on. What happens to gradients and optimizers is logged. -/
namespace TorchGcu.GradScaler
open ProgramLogic

/-! ### Gradients, optimizers and the scaler -/

inductive Dtype
  | float16
  | other (code : Nat)
deriving DecidableEq

/-- A gradient, or the `_values()` of a sparse one. -/
structure Gradient (V : Type) where
  device : Nat
  dtype : Dtype
  value : V

/-- An optimizer without `_step_supports_amp_scaling`. Parameters are numbers. -/
structure Optimizer where
  id : Nat
  paramGroups : List (List Nat)
deriving DecidableEq

def Optimizer.params (optimizer : Optimizer) : List Nat := optimizer.paramGroups.flatten

inductive OptState
  | ready
  | unscaled
  | stepped
deriving DecidableEq

/-- The table has the `found_inf` of each device. -/
structure OptimizerState where
  stage : OptState
  foundInfPerDevice : List (Nat × Nat)
deriving DecidableEq

def refreshPerOptimizerState : OptimizerState := ⟨.ready, []⟩

inductive Event
  | unscaled (param : Nat) (found : Bool)
  /-- `optimizer.step` with the parameters that have a gradient. -/
  | entered (optimizer : Nat) (applied : List Nat)
  | completed (optimizer : Nat)
  | skipped (optimizer : Nat)
  | updated (backedOff : Bool)
  /-- `update` with a scale of the user. -/
  | assigned
deriving DecidableEq

inductive Failure
  | valueError (message : String)
  | runtimeError (message : String)
  | assertionError (message : String)
  /-- Something that the scaler calls. -/
  | raised (callee : String)
deriving DecidableEq

/-- The scale is a tensor on a device. `log` has the latest event first. -/
structure Scaler (F V : Type) where
  scale : Option (F × Nat)
  growthTracker : Option Nat
  perOptimizerStates : List (Nat × OptimizerState)
  /-- `param.grad`. -/
  grad : Nat → Option (Gradient V)
  log : List Event

abbrev Program (F V : Type) := EStateM Failure (Scaler F V)

/-- The arithmetic of tensors, and what is inherited: the check that there is a scale and a growth
tracker. -/
structure Arithmetic (F V : Type) where
  reciprocal : F → F
  times : F → F → F
  isFinite : F → Bool
  multiply : V → F → V
  /-- A tensor has an inf or a NaN. -/
  nonFinite : V → Bool
  checkScaleGrowthTracker : String → Program F V (F × Nat)
  checks (funcname : String) (s : Scaler F V) :
    match s.scale, s.growthTracker with
    | some scale, some _ => (checkScaleGrowthTracker funcname).run s = .ok scale s
    | _, _ => ∃ message, (checkScaleGrowthTracker funcname).run s = .error (.assertionError message) s

/-- What the scaler is made with. -/
structure Config (F : Type) where
  initScale : F
  growthFactor : F
  backoffFactor : F
  growthInterval : Nat

variable {F V ρ : Type}

def returning (callee : String) (returns : Bool) : Program F V Unit :=
  if returns then pure () else throw (.raised callee)

def record (event : Event) : Program F V Unit :=
  modify fun s => { s with log := event :: s.log }

/-- `self._per_optimizer_states[id(optimizer)]`. -/
def optimizerState (id : Nat) : Program F V OptimizerState := do
  modify fun s => { s with
    perOptimizerStates :=
      Dictionary.change refreshPerOptimizerState (fun state => state) id s.perOptimizerStates }
  let s ← get
  return Dictionary.read refreshPerOptimizerState id s.perOptimizerStates

def changeOptimizerState (id : Nat) (change : OptimizerState → OptimizerState) :
    Program F V Unit :=
  modify fun s => { s with
    perOptimizerStates :=
      Dictionary.change refreshPerOptimizerState change id s.perOptimizerStates }

/-! ### scale -/

/-- The outputs in the order in which they are reached. -/
inductive Output (V : Type)
  | tensor (isGcu : Bool) (device : Nat) (value : V) (multiplies : Bool)
  | other

/-- Whether the two `torch.full` return. -/
structure InitAnswers where
  scale : Bool
  growthTracker : Bool

def lazyInitScaleGrowthTracker (config : Config F) (answers : InitAnswers) (device : Nat) :
    Program F V Unit := do
  let s ← get
  if s.growthTracker.isSome then
    throw (.assertionError "_growth_tracker initialized before _scale")
  else
    returning "torch.full" answers.scale
    modify fun s => { s with scale := some (config.initScale, device) }
    returning "torch.full" answers.growthTracker
    modify fun s => { s with growthTracker := some 0 }

def initIfNone (config : Config F) (answers : InitAnswers) (device : Nat) :
    Program F V Unit := do
  let s ← get
  if s.scale.isNone then lazyInitScaleGrowthTracker config answers device else pure ()

def applyScale (arithmetic : Arithmetic F V) (config : Config F) (answers : InitAnswers) :
    Output V → Program F V V
  | .other => throw (.valueError "outputs must be a Tensor or an iterable of Tensors")
  | .tensor isGcu device value multiplies => do
      if isGcu then
        initIfNone config answers device
        let s ← get
        match s.scale with
        | none => throw (.runtimeError "_scale is None.")
        | some scale =>
          returning "mul" multiplies
          return arithmetic.multiply value scale.1
      else throw (.valueError "Device type of val should be gcu.")

def scale (arithmetic : Arithmetic F V) (config : Config F) (answers : InitAnswers)
    (outputs : List (Output V)) : Program F V (List V) :=
  outputs.mapM (applyScale arithmetic config answers)

/-! ### unscale_ -/

/-- What the calls of an `unscale_` do. -/
structure UnscaleAnswers where
  /-- The reciprocal of the scale and the new `found_inf` are made. -/
  prepared : Bool
  /-- The values of the gradients are at hand. -/
  gathered : Bool
  /-- The number of gradients that are unscaled when the operator, or a copy to a device, raises. -/
  raisesAfter : Option Nat

/-- Gradients by device and by type. -/
abbrev Groups (V : Type) := List (Nat × List (Dtype × List (Nat × Gradient V)))

def Groups.add (groups : Groups V) (grad : Nat × Gradient V) : Groups V :=
  Dictionary.change [] (Dictionary.change [] (· ++ [grad]) grad.2.dtype) grad.2.device groups

/-- The gradients as the operator gets them. -/
def Groups.order (groups : Groups V) : List (Nat × Gradient V) :=
  groups.flatMap fun perDevice => perDevice.2.flatMap fun perDtype => perDtype.2

/-- The parameters with a gradient. -/
def gradsOf (grad : Nat → Option (Gradient V)) (params : List Nat) : List (Nat × Gradient V) :=
  params.filterMap fun param => (grad param).map fun g => (param, g)

def perDeviceAndDtypeGrads (grads : List (Nat × Gradient V)) : Groups V :=
  grads.foldl Groups.add []

/-- `_amp_foreach_non_finite_check_and_unscale_` on one gradient. -/
def checkAndUnscale (arithmetic : Arithmetic F V) (invScale : F) (grad : Nat × Gradient V) :
    Program F V Unit :=
  modify fun s => { s with
    grad := Function.update s.grad grad.1
      (some { grad.2 with value := arithmetic.multiply grad.2.value invScale })
    log := .unscaled grad.1 (arithmetic.nonFinite grad.2.value) :: s.log }

def foundInf (arithmetic : Arithmetic F V) (grads : List (Nat × Gradient V)) : Nat :=
  if grads.any fun grad => arithmetic.nonFinite grad.2.value then 1 else 0

/-- The tensors of the replicator of `found_inf`, with the one on its own device. -/
def foundInfs (arithmetic : Arithmetic F V) (groups : Groups V) (device : Nat) :
    List (Nat × Nat) :=
  Dictionary.change 0 (fun found => found) device
    (groups.map fun perDevice =>
      (perDevice.1, foundInf arithmetic (perDevice.2.flatMap fun perDtype => perDtype.2)))

/-- `_unscale_grads_`, where `allow_fp16` is false. -/
def unscaleGrads (arithmetic : Arithmetic F V) (answers : UnscaleAnswers) (optimizer : Optimizer)
    (invScale : F) (device : Nat) : Program F V (List (Nat × Nat)) := do
  let s ← get
  let grads := gradsOf s.grad optimizer.params
  if grads.any fun grad => grad.2.dtype = .float16 then
    throw (.valueError "Attempting to unscale FP16 gradients.")
  else
    returning "_values" answers.gathered
    let groups := perDeviceAndDtypeGrads grads
    match answers.raisesAfter with
    | some count =>
      (groups.order.take count).forM (checkAndUnscale arithmetic invScale)
      throw (.raised "_amp_foreach_non_finite_check_and_unscale_")
    | none =>
      groups.order.forM (checkAndUnscale arithmetic invScale)
      return foundInfs arithmetic groups device

def unscale (arithmetic : Arithmetic F V) (answers : UnscaleAnswers) (optimizer : Optimizer) :
    Program F V Unit := do
  let scale ← arithmetic.checkScaleGrowthTracker "unscale_"
  let state ← optimizerState optimizer.id
  match state.stage with
  | .unscaled => throw (.runtimeError
      "unscale_() has already been called on this optimizer since the last update().")
  | .stepped => throw (.runtimeError "unscale_() is being called after step().")
  | .ready =>
    returning "reciprocal" answers.prepared
    let found ← unscaleGrads arithmetic answers optimizer (arithmetic.reciprocal scale.1) scale.2
    changeOptimizerState optimizer.id fun _ => ⟨.unscaled, found⟩

/-! ### step -/

structure StepAnswers (ρ : Type) where
  unscale : UnscaleAnswers
  /-- The tensors of the table are read. -/
  read : Bool
  /-- What `optimizer.step` returns, unless it raises. -/
  stepped : Option ρ

def unscaleIfReady (arithmetic : Arithmetic F V) (answers : UnscaleAnswers)
    (optimizer : Optimizer) (stage : OptState) : Program F V Unit :=
  if stage = .ready then unscale arithmetic answers optimizer else pure ()

def optimizerStep (answers : StepAnswers ρ) (optimizer : Optimizer) : Program F V ρ := do
  let s ← get
  record (.entered optimizer.id ((gradsOf s.grad optimizer.params).map Prod.fst))
  match answers.stepped with
  | none => throw (.raised "optimizer.step")
  | some retval =>
    record (.completed optimizer.id)
    return retval

def maybeOptStep (answers : StepAnswers ρ) (optimizer : Optimizer) (state : OptimizerState) :
    Program F V (Option ρ) := do
  returning "item" answers.read
  if total Prod.snd state.foundInfPerDevice = 0 then
    some <$> optimizerStep answers optimizer
  else
    record (.skipped optimizer.id)
    return none

def step (arithmetic : Arithmetic F V) (answers : StepAnswers ρ) (optimizer : Optimizer)
    (closure : Bool) : Program F V (Option ρ) := do
  if closure then
    throw (.runtimeError "Closure use is not currently supported if GradScaler is enabled.")
  else
    let _ ← arithmetic.checkScaleGrowthTracker "step"
    let state ← optimizerState optimizer.id
    if state.stage = .stepped then
      throw (.runtimeError "step() has already been called since the last update().")
    else
      unscaleIfReady arithmetic answers.unscale optimizer state.stage
      let state ← optimizerState optimizer.id
      if state.foundInfPerDevice.length = 0 then
        throw (.runtimeError "No inf checks were recorded for this optimizer.")
      else
        let retval ← maybeOptStep answers optimizer state
        changeOptimizerState optimizer.id fun state => { state with stage := .stepped }
        return retval

/-! ### update -/

inductive NewScale (F : Type)
  | float (value : F)
  /-- Whether it is a `torch.gcu.FloatTensor`, its `numel` and `requires_grad`. -/
  | tensor (isGcuFloat : Bool) (numel : Nat) (requiresGrad : Bool) (value : F) (device : Nat)

structure UpdateAnswers where
  /-- The tables are copied to the device of the scale, or the scale is filled. -/
  moved : Bool
  /-- The number of additions after which one raises. -/
  addsOnly : Option Nat
  updates : Bool

/-- All tensors of all tables. -/
def allFoundInfs (states : List (Nat × OptimizerState)) : List (Nat × Nat) :=
  states.flatMap fun state => state.2.foundInfPerDevice

/-- `found_infs[0]` is a tensor of a table when it is on the device of the scale, and the others
are added to it in place. -/
def addToFirst (device found : Nat) : List (Nat × OptimizerState) → List (Nat × OptimizerState)
  | [] => []
  | (id, state) :: rest =>
    match state.foundInfPerDevice with
    | [] => (id, state) :: addToFirst device found rest
    | (d, first) :: more =>
      (id, { state with
        foundInfPerDevice := (d, if d = device then first + found else first) :: more }) :: rest

def addFoundInfs (device : Nat) (found : List (Nat × Nat)) : Program F V Unit :=
  modify fun s => { s with
    perOptimizerStates := addToFirst device (total Prod.snd found) s.perOptimizerStates }

/-- `_amp_update_scale_`. -/
def ampUpdateScale (arithmetic : Arithmetic F V) (config : Config F) (growthTracker found : Nat)
    (scale : F) : F × Nat :=
  if found ≠ 0 then (arithmetic.times scale config.backoffFactor, 0)
  else if growthTracker + 1 = config.growthInterval then
    (if arithmetic.isFinite (arithmetic.times scale config.growthFactor) then
      arithmetic.times scale config.growthFactor else scale, 0)
  else (scale, growthTracker + 1)

def updateScale (arithmetic : Arithmetic F V) (config : Config F) (answers : UpdateAnswers)
    (scale : F × Nat) : Program F V Unit := do
  returning "to" answers.moved
  let s ← get
  match allFoundInfs s.perOptimizerStates with
  | [] => throw (.assertionError "No inf checks were recorded prior to update.")
  | first :: others =>
    match answers.addsOnly with
    | some count =>
      addFoundInfs scale.2 (others.take count)
      throw (.raised "add_")
    | none =>
      addFoundInfs scale.2 others
      returning "_amp_update_scale_" answers.updates
      let found := first.2 + total Prod.snd others
      let updated :=
        ampUpdateScale arithmetic config (s.growthTracker.getD 0) found scale.1
      modify fun s => { s with
        scale := some (updated.1, scale.2)
        growthTracker := some updated.2
        log := .updated (decide (found ≠ 0)) :: s.log }

def setScale (answers : UpdateAnswers) (scale : F × Nat) : NewScale F → Program F V Unit
  | .float value => do
      returning "fill_" answers.moved
      modify fun s => { s with scale := some (value, scale.2), log := .assigned :: s.log }
  | .tensor isGcuFloat numel requiresGrad value device =>
      if isGcuFloat && numel = 1 && !requiresGrad then
        modify fun s => { s with scale := some (value, device), log := .assigned :: s.log }
      else throw (.valueError
        "new_scale should be a float or a 1-element torch.gcu.FloatTensor with requires_grad=False.")

def update (arithmetic : Arithmetic F V) (config : Config F) (answers : UpdateAnswers)
    (newScale : Option (NewScale F)) : Program F V Unit := do
  let scale ← arithmetic.checkScaleGrowthTracker "update"
  match newScale with
  | some newScale => setScale answers scale newScale
  | none => updateScale arithmetic config answers scale
  modify fun s => { s with perOptimizerStates := [] }

end TorchGcu.GradScaler

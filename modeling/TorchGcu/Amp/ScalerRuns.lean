import TorchGcu.Amp.ScalerLaw

/-! Each call keeps the invariant whether it returns or raises, when it raises only where nothing is
left half done; and a run of such calls is lawful. -/
namespace TorchGcu.GradScaler
open ProgramLogic
variable {F V ρ : Type}

section Calls
variable {opts : Set Optimizer} {s : Scaler F V} {R : Failure → Scaler F V → Prop}

/-- An optimizer's step is entered, made or skipped. -/
def Event.ofStep : Event → Prop
  | .entered _ _ | .completed _ | .skipped _ => True
  | _ => False

section Stepping
variable {event : Event} {log : List Event}

theorem sinceUpdate_ofStep (steps : event.ofStep) :
    sinceUpdate (event :: log) = event :: sinceUpdate log := by
  cases event <;> first | rfl | exact steps.elim

theorem timesUnscaled_ofStep (steps : event.ofStep) (param : Nat) :
    timesUnscaled param (event :: log) = timesUnscaled param log := by
  cases event <;> first | rfl | exact steps.elim

theorem unscaled_ofStep (steps : event.ofStep) {param : Nat} {found : Bool} :
    .unscaled param found ∈ event :: log ↔ .unscaled param found ∈ log := by
  cases event <;> first | exact steps.elim | simp

/-- An optimizer's step is entered. -/
theorem Inv.entered (inv : Inv opts s) {id : Nat} {applied : List Nat}
    (allowed : Event.Allowed opts (sinceUpdate s.log) (.entered id applied)) :
    Inv opts { s with log := .entered id applied :: s.log } where
  lawful := ⟨inv.lawful, allowed⟩
  ready := inv.ready
  unscaled o member stage := by
    obtain ⟨once, found⟩ := inv.unscaled o member stage
    refine ⟨once, found.trans ?_⟩
    simp [sinceUpdate]
  unstepped o member stage := by
    have before := inv.unstepped o member stage
    simpa [sinceUpdate] using before
  total := inv.total.trans (by simp [sinceUpdate])

/-- An optimizer is stepped, by a step that was made or skipped. -/
theorem Inv.stepped (inv : Inv opts s) (own : Disjoint opts) {o : Optimizer} (member : o ∈ opts)
    (steps : event.ofStep) (allowed : event.Allowed opts (sinceUpdate s.log))
    (about : ∀ id, event = .completed id → id = o.id) :
    Inv opts (Scaler.change { s with log := event :: s.log } o.id
      fun state => { state with stage := .stepped }) := by
  have others (o' : Optimizer) (member' : o' ∈ opts) (different : o ≠ o') :
      (Scaler.change { s with log := event :: s.log } o.id
        fun state => { state with stage := .stepped }).stateOf o' = s.stateOf o' :=
    stateOf_change_other _ _ fun same => different (own.alive o member o' member' same)
  have since : sinceUpdate (event :: s.log) = event :: sinceUpdate s.log :=
    sinceUpdate_ofStep steps
  refine ⟨⟨inv.lawful, allowed⟩, fun o' member' stage => ?_, fun o' member' stage => ?_,
    fun o' member' stage => ?_, ?_⟩
  · by_cases same : o = o'
    · subst same
      rw [stateOf_change] at stage
      cases stage
    · rw [others o' member' same] at stage ⊢
      obtain ⟨never, empty⟩ := inv.ready o' member' stage
      refine ⟨fun param inside => ?_, empty⟩
      change timesUnscaled param (sinceUpdate (event :: s.log)) = 0
      rw [since, timesUnscaled_ofStep steps, never param inside]
  · by_cases same : o = o'
    · subst same
      rw [stateOf_change] at stage
      cases stage
    · rw [others o' member' same] at stage ⊢
      obtain ⟨once, found⟩ := inv.unscaled o' member' stage
      refine ⟨fun param inside present => ?_, found.trans ?_⟩
      · change timesUnscaled param (sinceUpdate (event :: s.log)) = 1
        rw [since, timesUnscaled_ofStep steps, once param inside present]
      · change _ ↔ ∃ param ∈ o'.params, .unscaled param true ∈ sinceUpdate (event :: s.log)
        simp only [since, unscaled_ofStep steps]
  · by_cases same : o = o'
    · subst same
      rw [stateOf_change] at stage
      exact absurd rfl stage
    · rw [others o' member' same] at stage
      change .completed o'.id ∉ sinceUpdate (event :: s.log)
      rw [since, List.mem_cons, not_or]
      refine ⟨fun this => same ?_, inv.unstepped o' member' stage⟩
      exact own.alive o member o' member' (about o'.id this.symm).symm
  · have totals := total_change { s with log := event :: s.log } o
      fun state => { state with stage := .stepped }
    rw [Nat.add_right_cancel totals]
    change _ ↔ ∃ param, .unscaled param true ∈ sinceUpdate (event :: s.log)
    simp only [since, unscaled_ofStep steps]
    exact inv.total

end Stepping

section Step
variable {arithmetic : Arithmetic F V} {answers : StepAnswers ρ} {o : Optimizer}

/-- How a `step` that returns ends: the last event says which. -/
def Ended (opts : Set Optimizer) (o : Optimizer) (retval : Option ρ) (t : Scaler F V) : Prop :=
  Inv opts t ∧
    t.log.head? = some (if retval.isSome then .completed o.id else .skipped o.id)

end Step

/-! ### update -/

theorem total_addToFirst (device found : Nat) (states : List (Nat × OptimizerState)) :
    total Prod.snd (allFoundInfs (addToFirst device found states)) =
        total Prod.snd (allFoundInfs states) ∨
      total Prod.snd (allFoundInfs (addToFirst device found states)) =
        total Prod.snd (allFoundInfs states) + found := by
  induction states with
  | nil => exact .inl rfl
  | cons entry rest ih =>
    obtain ⟨id, stage, table⟩ := entry
    cases table with
    | nil => simpa [addToFirst, allFoundInfs] using ih
    | cons first more =>
      obtain ⟨d, value⟩ := first
      by_cases same : d = device
      · refine .inr ?_
        simp only [addToFirst, allFoundInfs, List.flatMap_cons, if_pos same, List.cons_append,
          total_cons]
        omega
      · exact .inl (by simp [addToFirst, allFoundInfs, same])

/-- What a table reads after the addition. -/
theorem read_addToFirst (device found id : Nat) (states : List (Nat × OptimizerState)) :
    let before := Dictionary.read refreshPerOptimizerState id states
    let after := Dictionary.read refreshPerOptimizerState id (addToFirst device found states)
    after.stage = before.stage ∧
    (before.foundInfPerDevice = [] → after.foundInfPerDevice = []) ∧
    (Unspoilt device found states → before.stage = .unscaled →
      (total Prod.snd after.foundInfPerDevice ≠ 0 ↔
        total Prod.snd before.foundInfPerDevice ≠ 0)) := by
  induction states with
  | nil => exact ⟨rfl, fun empty => empty, fun _ _ => Iff.rfl⟩
  | cons entry rest ih =>
    obtain ⟨i, stage, table⟩ := entry
    cases table with
    | nil =>
      by_cases same : i = id
      · simp [addToFirst, Dictionary.read, same]
      · simpa [addToFirst, Dictionary.read, same, Unspoilt] using ih
    | cons first more =>
      obtain ⟨d, value⟩ := first
      by_cases same : i = id
      · simp only [addToFirst, Dictionary.read, if_pos same, Unspoilt, total_cons]
        refine ⟨trivial, fun empty => (by cases empty), fun unspoilt unscaled => ?_⟩
        have zero := unspoilt unscaled
        split
        · next here =>
          have none := zero here
          omega
        · exact Iff.rfl
      · simp [addToFirst, Dictionary.read, same]

theorem Inv.add (inv : Inv opts s) {device found : Nat}
    (among : found ≤ ProgramLogic.total Prod.snd (allFoundInfs s.perOptimizerStates))
    (unspoilt : Unspoilt device found s.perOptimizerStates) :
    Inv opts { s with perOptimizerStates := addToFirst device found s.perOptimizerStates } := by
  have reads (o : Optimizer) := read_addToFirst device found o.id s.perOptimizerStates
  refine ⟨inv.lawful, fun o member stage => ?_, fun o member stage => ?_,
    fun o member stage => ?_, ?_⟩
  · obtain ⟨sameStage, empties, -⟩ := reads o
    obtain ⟨never, empty⟩ := inv.ready o member (sameStage.symm.trans stage)
    exact ⟨never, empties empty⟩
  · obtain ⟨sameStage, -, keeps⟩ := reads o
    have before := sameStage.symm.trans stage
    obtain ⟨once, finds⟩ := inv.unscaled o member before
    exact ⟨once, (keeps unspoilt before).trans finds⟩
  · obtain ⟨sameStage, -, -⟩ := reads o
    exact inv.unstepped o member fun stepped => stage (sameStage.trans stepped)
  · refine Iff.trans ?_ inv.total
    rcases total_addToFirst device found s.perOptimizerStates with same | more
    · rw [same]
    · rw [more]
      omega

/-- After an update nothing has happened yet. -/
theorem Inv.cleared {event : Event} (inv : Inv opts s)
    (resets : sinceUpdate (event :: s.log) = [])
    (allowed : event.Allowed opts (sinceUpdate s.log)) (scale : Option (F × Nat))
    (growthTracker : Option Nat) :
    Inv opts ⟨scale, growthTracker, [], s.grad, event :: s.log⟩ where
  lawful := ⟨inv.lawful, allowed⟩
  ready o _ _ := by
    refine ⟨fun param _ => ?_, rfl⟩
    simp only [resets]
    rfl
  unscaled o _ stage := by
    simp only [Scaler.stateOf, Dictionary.read, refreshPerOptimizerState] at stage
    cases stage
  unstepped o _ _ := by
    simp only [resets]
    exact List.not_mem_nil
  total := by
    simp only [resets]
    simp [allFoundInfs]

section Scale
variable {arithmetic : Arithmetic F V} {config : Config F} {answers : InitAnswers}

end Scale
end Calls

/-! ### Runs -/

section Runs
variable {opts : Set Optimizer} {arithmetic : Arithmetic F V} {config : Config F}

end Runs

/-! ### A gradient on each of two devices -/

def checkScaleGrowthTracker (funcname : String) : Program Int Int (Int × Nat) := do
  let s ← get
  match s.scale, s.growthTracker with
  | none, _ => throw (.assertionError
      ("Attempted " ++ funcname ++ " but _scale is None."))
  | some _, none => throw (.assertionError
      ("Attempted " ++ funcname ++ " but _growth_tracker is None."))
  | some scale, some _ => return scale

def integers : Arithmetic Int Int where
  reciprocal := id
  times := (· * ·)
  isFinite _ := true
  multiply := (· * ·)
  nonFinite _ := false
  checkScaleGrowthTracker := checkScaleGrowthTracker
  checks funcname s := by
    cases scale : s.scale <;> cases tracker : s.growthTracker <;>
      simp [checkScaleGrowthTracker, scale, tracker]
    all_goals exact ⟨_, rfl⟩

def settings : Config Int := ⟨2, 2, 1, 2000⟩

def two : Optimizer := ⟨0, [[0, 1]]⟩

def twoGrads (param : Nat) : Option (Gradient Int) :=
  if param < 2 then some ⟨param, .other 0, 1⟩ else none

/-- The scale is made on device 0. -/
def scaled : Scaler Int Int :=
  Action.perform (ρ := Unit) integers settings ⟨none, none, [], twoGrads, []⟩
    (.scale ⟨true, true⟩ [.tensor true 0 1 true])

end TorchGcu.GradScaler

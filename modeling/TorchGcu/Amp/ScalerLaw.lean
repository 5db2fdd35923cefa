import TorchGcu.Amp.UnscaledGradients

/-! The law of the scaler as a predicate on its log, the runs of calls in which anything may raise,
and the invariant that carries the law through them. -/
namespace TorchGcu.GradScaler
open ProgramLogic
variable {F V ρ : Type}

/-! ### The law -/

def sinceUpdate : List Event → List Event
  | [] => []
  | .updated _ :: _ | .assigned :: _ => []
  | event :: before => event :: sinceUpdate before

def Event.unscales (param : Nat) : Event → Bool
  | .unscaled p _ => p == param
  | _ => false

def timesUnscaled (param : Nat) (events : List Event) : Nat :=
  events.countP (Event.unscales param)

/-- What may happen after the events since the last update. -/
def Event.Allowed (opts : Set Optimizer) (since : List Event) : Event → Prop
  | .unscaled param _ => timesUnscaled param since = 0
  | .entered id applied => ∀ o ∈ opts, o.id = id →
      (∀ param ∈ applied, timesUnscaled param since = 1) ∧
      ∀ param ∈ o.params, .unscaled param true ∉ since
  | .completed id => .completed id ∉ since
  | .skipped id => ∀ o ∈ opts, o.id = id → ∃ param ∈ o.params, .unscaled param true ∈ since
  | .updated backedOff => backedOff = true ↔ ∃ param, .unscaled param true ∈ since
  | .assigned => True

/-- Every event of a log, the latest first, was allowed. -/
def Lawful (opts : Set Optimizer) : List Event → Prop
  | [] => True
  | event :: before => Lawful opts before ∧ event.Allowed opts (sinceUpdate before)

/-! ### Runs -/

/-- Optimizers that stay alive, with parameters of their own. -/
structure Disjoint (opts : Set Optimizer) : Prop where
  alive : ∀ o ∈ opts, ∀ o' ∈ opts, o.id = o'.id → o = o'
  params : ∀ o ∈ opts, ∀ o' ∈ opts, o ≠ o' → ∀ param ∈ o.params, param ∉ o'.params

def Scaler.stateOf (s : Scaler F V) (optimizer : Optimizer) : OptimizerState :=
  Dictionary.read refreshPerOptimizerState optimizer.id s.perOptimizerStates

inductive Action (F V ρ : Type)
  | scale (answers : InitAnswers) (outputs : List (Output V))
  | unscale (answers : UnscaleAnswers) (optimizer : Optimizer)
  | step (answers : StepAnswers ρ) (optimizer : Optimizer) (closure : Bool)
  | update (answers : UpdateAnswers) (newScale : Option (NewScale F))
  /-- Gradients come and go. -/
  | backward (grad : Nat → Option (Gradient V))

/-- The program goes on after what raises. -/
def Action.perform (arithmetic : Arithmetic F V) (config : Config F) (s : Scaler F V) :
    Action F V ρ → Scaler F V
  | scale answers outputs => after (GradScaler.scale arithmetic config answers outputs) s
  | unscale answers optimizer => after (GradScaler.unscale arithmetic answers optimizer) s
  | step answers optimizer closure =>
      after (GradScaler.step arithmetic answers optimizer closure) s
  | update answers newScale => after (GradScaler.update arithmetic config answers newScale) s
  | backward grad => { s with grad := grad }

/-- The optimizers are those of the program. Gradients of an optimizer that have been unscaled may
be clipped or dropped before `update`, and none is added to them. -/
def Action.Proper (opts : Set Optimizer) (s : Scaler F V) : Action F V ρ → Prop
  | unscale _ optimizer | step _ optimizer _ => optimizer ∈ opts
  | backward grad => ∀ o ∈ opts, ∀ param ∈ o.params, (s.stateOf o).stage = .unscaled →
      (grad param).isSome → (s.grad param).isSome
  | scale _ _ | update _ _ => True

/-- What is added to the first tensor of the tables makes no optimizer one with an inf. -/
def Unspoilt (device found : Nat) : List (Nat × OptimizerState) → Prop
  | [] => True
  | (_, state) :: rest =>
    match state.foundInfPerDevice with
    | [] => Unspoilt device found rest
    | (d, _) :: _ => state.stage = .unscaled → d = device →
        total Prod.snd state.foundInfPerDevice = 0 → found = 0

/-- The states of runs whose steps meet a condition. -/
inductive Reached (arithmetic : Arithmetic F V) (config : Config F) (opts : Set Optimizer)
    (meets : Scaler F V → Action F V ρ → Prop) : Scaler F V → Prop
  | start (grad : Nat → Option (Gradient V)) :
      Reached arithmetic config opts meets ⟨none, none, [], grad, []⟩
  | next {s : Scaler F V} (run : Reached arithmetic config opts meets s) (action : Action F V ρ)
      (proper : action.Proper opts s) (met : meets s action) :
      Reached arithmetic config opts meets (action.perform arithmetic config s)

/-! ### Logs -/

section Logs
variable {opts : Set Optimizer} {log : List Event} {grads : List (Nat × Gradient V)}
  {arithmetic : Arithmetic F V}

theorem sinceUpdate_unscaled :
    sinceUpdate (grads.map (unscaleEvent arithmetic) ++ log) =
      grads.map (unscaleEvent arithmetic) ++ sinceUpdate log := by
  induction grads with
  | nil => rfl
  | cons grad rest ih =>
    simp only [List.map_cons, List.cons_append, unscaleEvent, sinceUpdate] at ih ⊢
    rw [ih]

theorem timesUnscaled_append (param : Nat) (events more : List Event) :
    timesUnscaled param (events ++ more) = timesUnscaled param events + timesUnscaled param more :=
  List.countP_append

theorem timesUnscaled_events (param : Nat) :
    timesUnscaled param (grads.map (unscaleEvent arithmetic)) =
      (grads.map Prod.fst).count param := by
  simp only [timesUnscaled, List.countP_map, List.count_eq_countP]
  rfl

theorem mem_unscaleEvents {param : Nat} {found : Bool} :
    .unscaled param found ∈ grads.map (unscaleEvent arithmetic) ↔
      ∃ x ∈ grads, x.1 = param ∧ arithmetic.nonFinite x.2.value = found := by
  simp [unscaleEvent]

/-- An event that unscales a parameter is one of those counted. -/
theorem not_mem_of_timesUnscaled {param : Nat} (never : timesUnscaled param log = 0)
    (found : Bool) : .unscaled param found ∉ log := by
  intro member
  have counted := List.countP_eq_zero.mp never _ member
  simp [Event.unscales] at counted

/-- One pass over gradients that have not been unscaled is lawful. -/
theorem lawful_pass (lawful : Lawful opts log) (distinct : (grads.map Prod.fst).Nodup)
    (fresh : ∀ x ∈ grads, timesUnscaled x.1 (sinceUpdate log) = 0) :
    Lawful opts (grads.map (unscaleEvent arithmetic) ++ log) := by
  induction grads with
  | nil => exact lawful
  | cons grad rest ih =>
    rw [List.map_cons, List.nodup_cons] at distinct
    rw [List.forall_mem_cons] at fresh
    refine ⟨ih distinct.2 fresh.2, ?_⟩
    simp only [unscaleEvent, Event.Allowed]
    change timesUnscaled grad.1
      (sinceUpdate (rest.map (unscaleEvent arithmetic) ++ log)) = 0
    rw [sinceUpdate_unscaled, timesUnscaled_append, timesUnscaled_events, fresh.1,
      List.count_eq_zero.mpr distinct.1]

end Logs

/-! ### The invariant -/

/-- The stages and tables say what has happened since the last update. -/
structure Inv (opts : Set Optimizer) (s : Scaler F V) : Prop where
  lawful : Lawful opts s.log
  ready : ∀ o ∈ opts, (s.stateOf o).stage = .ready →
    (∀ param ∈ o.params, timesUnscaled param (sinceUpdate s.log) = 0) ∧
    (s.stateOf o).foundInfPerDevice = []
  unscaled : ∀ o ∈ opts, (s.stateOf o).stage = .unscaled →
    (∀ param ∈ o.params, (s.grad param).isSome →
      timesUnscaled param (sinceUpdate s.log) = 1) ∧
    (total Prod.snd (s.stateOf o).foundInfPerDevice ≠ 0 ↔
      ∃ param ∈ o.params, .unscaled param true ∈ sinceUpdate s.log)
  unstepped : ∀ o ∈ opts, (s.stateOf o).stage ≠ .stepped →
    .completed o.id ∉ sinceUpdate s.log
  total : total Prod.snd (allFoundInfs s.perOptimizerStates) ≠ 0 ↔
    ∃ param, .unscaled param true ∈ sinceUpdate s.log

section Invariant
variable {opts : Set Optimizer} {s t : Scaler F V}

/-- The invariant reads only the log, the gradients and the tables. -/
theorem Inv.congr (inv : Inv opts s) (log : t.log = s.log)
    (grad : ∀ o ∈ opts, ∀ param ∈ o.params, (s.stateOf o).stage = .unscaled →
      (t.grad param).isSome → (s.grad param).isSome)
    (states : ∀ o, t.stateOf o = s.stateOf o)
    (totals : ProgramLogic.total Prod.snd (allFoundInfs t.perOptimizerStates) =
      ProgramLogic.total Prod.snd (allFoundInfs s.perOptimizerStates)) : Inv opts t where
  lawful := by rw [log]; exact inv.lawful
  ready o member stage := by
    rw [states] at stage ⊢
    rw [log]
    exact inv.ready o member stage
  unscaled o member stage := by
    rw [states] at stage ⊢
    rw [log]
    obtain ⟨once, found⟩ := inv.unscaled o member stage
    exact ⟨fun param own present => once param own (grad o member param own stage present), found⟩
  unstepped o member stage := by
    rw [states] at stage
    rw [log]
    exact inv.unstepped o member stage
  total := by rw [log, totals]; exact inv.total

theorem total_allFoundInfs (states : List (Nat × OptimizerState)) :
    ProgramLogic.total Prod.snd (allFoundInfs states) =
      ProgramLogic.total
        (fun entry => ProgramLogic.total Prod.snd entry.2.foundInfPerDevice) states := by
  induction states with
  | nil => rfl
  | cons entry rest ih => simp [allFoundInfs, ← ih]

/-- The tables with the state of one optimizer changed. -/
def Scaler.change (s : Scaler F V) (id : Nat) (f : OptimizerState → OptimizerState) :
    Scaler F V :=
  { s with
    perOptimizerStates := Dictionary.change refreshPerOptimizerState f id s.perOptimizerStates }

theorem stateOf_change (s : Scaler F V) (o : Optimizer) (f : OptimizerState → OptimizerState) :
    (s.change o.id f).stateOf o = f (s.stateOf o) := Dictionary.read_change

theorem stateOf_change_other (s : Scaler F V) {o o' : Optimizer}
    (f : OptimizerState → OptimizerState) (different : o.id ≠ o'.id) :
    (s.change o.id f).stateOf o' = s.stateOf o' := Dictionary.read_change_other different

theorem total_change (s : Scaler F V) (o : Optimizer) (f : OptimizerState → OptimizerState) :
    ProgramLogic.total Prod.snd (allFoundInfs (s.change o.id f).perOptimizerStates) +
        ProgramLogic.total Prod.snd (s.stateOf o).foundInfPerDevice =
      ProgramLogic.total Prod.snd (allFoundInfs s.perOptimizerStates) +
        ProgramLogic.total Prod.snd (f (s.stateOf o)).foundInfPerDevice := by
  rw [total_allFoundInfs, total_allFoundInfs]
  exact Dictionary.total_change
    (fun state : OptimizerState => ProgramLogic.total Prod.snd state.foundInfPerDevice) rfl

/-- A table that is looked up is there. -/
theorem Inv.touch (inv : Inv opts s) (o : Optimizer) :
    Inv opts (s.change o.id fun state => state) := by
  refine inv.congr rfl (fun _ _ _ _ _ => id) (fun o' => ?_) ?_
  · by_cases same : o.id = o'.id
    · have read := stateOf_change s o fun state => state
      simp only [Scaler.stateOf, same] at read ⊢
      exact read
    · exact stateOf_change_other s _ same
  · exact Nat.add_right_cancel (total_change s o fun state => state)

section Pass
variable {o : Optimizer} {arithmetic : Arithmetic F V} {invScale : F} {device : Nat}
  {grads : List (Nat × Gradient V)}

theorem sinceUpdate_pass :
    sinceUpdate (unscaledAll arithmetic invScale grads s).log =
      grads.reverse.map (unscaleEvent arithmetic) ++ sinceUpdate s.log := by
  rw [unscaledAll_log, sinceUpdate_unscaled]

theorem timesUnscaled_pass (param : Nat) :
    timesUnscaled param (sinceUpdate (unscaledAll arithmetic invScale grads s).log) =
      (grads.map Prod.fst).count param + timesUnscaled param (sinceUpdate s.log) := by
  rw [sinceUpdate_pass, timesUnscaled_append, timesUnscaled_events, List.map_reverse,
    List.count_reverse]

theorem found_pass (param : Nat) :
    .unscaled param true ∈ sinceUpdate (unscaledAll arithmetic invScale grads s).log ↔
      (∃ x ∈ grads, x.1 = param ∧ arithmetic.nonFinite x.2.value = true) ∨
      .unscaled param true ∈ sinceUpdate s.log := by
  rw [sinceUpdate_pass, List.mem_append, mem_unscaleEvents]
  simp only [List.mem_reverse]

theorem completed_pass (id : Nat) :
    .completed id ∈ sinceUpdate (unscaledAll arithmetic invScale grads s).log ↔
      .completed id ∈ sinceUpdate s.log := by
  rw [sinceUpdate_pass, List.mem_append]
  simp [unscaleEvent]

/-- The gradients of an optimizer are unscaled in one pass, and their table is recorded. -/
theorem Inv.pass (inv : Inv opts s) (own : Disjoint opts) (member : o ∈ opts)
    (distinct : o.params.Nodup) (ready : (s.stateOf o).stage = .ready)
    (each : grads.Perm (gradsOf s.grad o.params)) {table : List (Nat × Nat)}
    (finds : ProgramLogic.total Prod.snd table ≠ 0 ↔
      ∃ x ∈ grads, arithmetic.nonFinite x.2.value = true) :
    Inv opts ((unscaledAll arithmetic invScale grads s).change o.id fun _ =>
      ⟨.unscaled, table⟩) := by
  have once : (grads.map Prod.fst).Nodup :=
    (each.map Prod.fst).nodup_iff.mpr (gradsOf_nodup distinct)
  have owned (x : Nat × Gradient V) (inside : x ∈ grads) :
      x.1 ∈ o.params ∧ s.grad x.1 = some x.2 := mem_gradsOf.mp (each.mem_iff.mp inside)
  have present (param : Nat) :
      param ∈ grads.map Prod.fst ↔ param ∈ o.params ∧ (s.grad param).isSome := by
    rw [(each.map Prod.fst).mem_iff]
    exact fst_mem_gradsOf
  have kept : ∀ o', (unscaledAll arithmetic invScale grads s).stateOf o' = s.stateOf o' := by
    intro o'
    simp only [Scaler.stateOf, unscaledAll_states]
  have others (o' : Optimizer) (member' : o' ∈ opts) (different : o ≠ o') :
      ((unscaledAll arithmetic invScale grads s).change o.id fun _ =>
        ⟨.unscaled, table⟩).stateOf o' = s.stateOf o' := by
    rw [stateOf_change_other _ _ fun same => different (own.alive o member o' member' same), kept]
  have apart (o' : Optimizer) (member' : o' ∈ opts) (different : o ≠ o') (param : Nat)
      (inside : param ∈ o'.params) : param ∉ grads.map Prod.fst := fun among =>
    own.params o member o' member' different param ((present param).mp among).1 inside
  obtain ⟨never, empty⟩ := inv.ready o member ready
  refine ⟨?_, fun o' member' stage => ?_, fun o' member' stage => ?_, fun o' member' stage => ?_,
    ?_⟩
  · change Lawful opts (unscaledAll arithmetic invScale grads s).log
    rw [unscaledAll_log]
    refine lawful_pass inv.lawful ?_ fun x inside => ?_
    · rw [List.map_reverse, List.nodup_reverse]
      exact once
    · exact never x.1 (owned x (List.mem_reverse.mp inside)).1
  · by_cases same : o = o'
    · subst same
      rw [stateOf_change] at stage
      cases stage
    · rw [others o' member' same] at stage ⊢
      obtain ⟨never', empty'⟩ := inv.ready o' member' stage
      refine ⟨fun param inside => ?_, empty'⟩
      change timesUnscaled param (sinceUpdate (unscaledAll arithmetic invScale grads s).log) = 0
      rw [timesUnscaled_pass, never' param inside,
        List.count_eq_zero.mpr (apart o' member' same param inside)]
  · change (∀ param ∈ o'.params,
        ((unscaledAll arithmetic invScale grads s).grad param).isSome → timesUnscaled param
          (sinceUpdate (unscaledAll arithmetic invScale grads s).log) = 1) ∧
      (_ ↔ ∃ param ∈ o'.params, .unscaled param true ∈
        sinceUpdate (unscaledAll arithmetic invScale grads s).log)
    have present' : ∀ x ∈ grads, (s.grad x.1).isSome := fun x inside => by
      rw [(owned x inside).2]; rfl
    have isSome := @unscaledAll_isSome _ _ arithmetic invScale grads s present'
    simp only [isSome, timesUnscaled_pass, found_pass]
    by_cases same : o = o'
    · subst same
      rw [stateOf_change]
      refine ⟨fun param inside found => ?_, ?_⟩
      · rw [never param inside, List.count_eq_one_of_mem once ((present param).mpr ⟨inside, found⟩)]
      · rw [finds]
        constructor
        · rintro ⟨x, inside, found⟩
          exact ⟨x.1, (owned x inside).1, .inl ⟨x, inside, rfl, found⟩⟩
        · rintro ⟨param, inside, ⟨x, among, -, found⟩ | before⟩
          · exact ⟨x, among, found⟩
          · exact absurd before (not_mem_of_timesUnscaled (never param inside) true)
    · rw [others o' member' same] at stage ⊢
      obtain ⟨once', found'⟩ := inv.unscaled o' member' stage
      refine ⟨fun param inside found => ?_, found'.trans ?_⟩
      · rw [once' param inside found,
          List.count_eq_zero.mpr (apart o' member' same param inside)]
      · refine exists_congr fun param => and_congr_right fun inside => ?_
        refine ⟨Or.inr, ?_⟩
        rintro (⟨x, among, rfl, -⟩ | before)
        · exact absurd (List.mem_map_of_mem among) (apart o' member' same x.1 inside)
        · exact before
  · change .completed o'.id ∉ sinceUpdate (unscaledAll arithmetic invScale grads s).log
    rw [completed_pass]
    by_cases same : o = o'
    · subst same
      exact inv.unstepped o member (by rw [ready]; decide)
    · rw [others o' member' same] at stage
      exact inv.unstepped o' member' stage
  · change _ ↔ ∃ param, .unscaled param true ∈
      sinceUpdate (unscaledAll arithmetic invScale grads s).log
    have totals := total_change (unscaledAll arithmetic invScale grads s) o fun _ =>
      ⟨.unscaled, table⟩
    rw [kept, empty, unscaledAll_states] at totals
    simp only [total_nil, Nat.add_zero] at totals
    have either (a b : Nat) : a + b ≠ 0 ↔ b ≠ 0 ∨ a ≠ 0 := by omega
    rw [totals, either, finds, inv.total]
    simp only [found_pass, exists_or]
    refine or_congr ?_ Iff.rfl
    constructor
    · rintro ⟨x, inside, found⟩
      exact ⟨x.1, x, inside, rfl, found⟩
    · rintro ⟨param, x, inside, -, found⟩
      exact ⟨x, inside, found⟩

end Pass
end Invariant
end TorchGcu.GradScaler

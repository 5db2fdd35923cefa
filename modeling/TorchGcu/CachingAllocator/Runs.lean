import TorchGcu.CachingAllocator.Checkpoint

/-! Runs: a client that keeps the checkpoints it has been given and issues one operation
after another. What the actions keep holds in every state of a run. -/
namespace TorchGcu.GCUCachingAllocator
open ProgramLogic

/-- One `DeviceCachingAllocator` and the checkpoints that have been taken of it. -/
structure World where
  st : State := {}
  saved : List PrivatePoolState := []

namespace World

def ended (w : World) : EStateM.Result Err State Answer → World
  | .ok (.checkpoint pps) st => { st, saved := pps :: w.saved }
  | .ok _ st => { w with st }
  | .error _ st => { w with st }

/-- The world after an operation, whether it returned or raised. -/
def next (w : World) (step : Step) : World := w.ended (step.run.run w.st)

end World

def Op.Given (saved : List PrivatePoolState) : Op → Prop
  | .setCheckpointPoolState pps => pps ∈ saved
  | _ => True

/-- What a client has to respect: it passes blocks it holds, and checkpoints it was given. -/
structure Legal (w : World) (step : Step) : Prop where
  admissible : step.op.Admissible w.st
  given : step.op.Given w.saved

/-- The worlds reached by operations each of which meets a condition. -/
inductive Reachable (meets : World → Step → Prop) : World → Prop where
  | start : Reachable meets {}
  | next {w : World} {step : Step} (run : Reachable meets w) (legal : Legal w step)
      (met : meets w step) : Reachable meets (w.next step)

instance (st : State) (op : Op) : Decidable (op.Admissible st) := by
  cases op <;> unfold Op.Admissible <;> infer_instance

instance (saved : List PrivatePoolState) (op : Op) : Decidable (op.Given saved) := by
  cases op <;> unfold Op.Given <;> infer_instance

instance (w : World) (step : Step) : Decidable (Legal w step) :=
  decidable_of_iff (step.op.Admissible w.st ∧ step.op.Given w.saved)
    ⟨fun legal => ⟨legal.1, legal.2⟩, fun legal => ⟨legal.1, legal.2⟩⟩

/-- A sequence of operations, and whether a client may issue it. -/
def World.run (w : World) (steps : List Step) : World := steps.foldl World.next w

def World.legalRun : World → List Step → Bool
  | _, [] => true
  | w, step :: steps => decide (Legal w step) && (w.next step).legalRun steps

/-- A device that has room at one address only. -/
def Runtime.roomAt (ptr : Nat) : Runtime where
  topsMalloc _ live size := if Fresh live ptr size then .ok ptr else .error .memoryAllocation
  topsMalloc_fresh := by
    intro _ live size ptr' answer
    split at answer
    · cases answer
      assumption
    · cases answer

/-- A device without any room. -/
def Runtime.full : Runtime := .roomAt 0

variable {mode : Mode} {P : Hand → State → Prop} {w : World} {step : Step}
  {meets meets' : World → Step → Prop}

theorem Reachable.steps (run : Reachable meets w) {steps : List Step}
    (legal : w.legalRun steps = true) (met : ∀ w, ∀ step ∈ steps, meets w step) :
    Reachable meets (w.run steps) := by
  induction steps generalizing w with
  | nil => exact run
  | cons step steps ih =>
    simp only [World.legalRun, Bool.and_eq_true, decide_eq_true_eq] at legal
    exact ih (.next run legal.1 (met w step List.mem_cons_self)) legal.2
      fun w step member => met w step (List.mem_cons_of_mem _ member)

/-- The checkpoints of a world are as checkpoints are. -/
def World.Genuine (w : World) : Prop := ∀ pps ∈ w.saved, pps.Proper

namespace World

theorem next_state {Q : State → Prop}
    (ends : wp step.run (fun _ st' => Q st') (fun _ st' => Q st') w.st) : Q (w.next step).st := by
  simp only [next, ended]
  unfold wp at ends
  cases ran : step.run.run w.st with
  | ok answer st' =>
    simp only [ran] at ends
    cases answer <;> exact ends
  | error e st' =>
    simp only [ran] at ends
    exact ends

/-- Every operation but a restore keeps what the actions keep. -/
theorem next_keeps (servable : Servable mode step.cfg step.rt P)
    (calls : step.op.isPoolCall = true → ¬ mode.serving) (legal : Legal w step)
    (safe : step.Safe mode w.st) (other : step.op.isRestore = false) (holds : P .empty w.st) :
    P .empty (w.next step).st :=
  next_state (Step.keeps servable calls legal.admissible safe other holds)

/-- Only `getCheckpointState` answers with a checkpoint. -/
theorem run_answers {exact : Prop} {h : Hand} {st : State} (sound : Sound exact h st) (step : Step) :
    wp step.run (fun answer _ => ∀ pps, answer = .checkpoint pps → pps.Proper) (fun _ _ => True)
      st := by
  obtain ⟨cfg, rt, op⟩ := step
  cases op
  case getCheckpointState id =>
    simp only [Step.run, wp_bind, wp_pure]
    refine wp_mono (getCheckpointState_result id st) (fun pps st' done => ?_) (fun _ _ _ => trivial)
    obtain ⟨rfl, pool, _, rfl, _⟩ := done
    rintro _ ⟨⟩
    exact sound.recorded_proper rt id pool
  all_goals
    simp only [Step.run, wp_bind, wp_pure]
    exact wp_intro (fun _ _ pps answered => by cases answered) (fun _ _ => trivial)

theorem next_genuine {exact : Prop} {h : Hand} (sound : Sound exact h w.st) (genuine : w.Genuine) :
    (w.next step).Genuine := by
  have answers := run_answers sound step
  simp only [next, ended]
  split
  · rename_i pps st' ran
    intro pps' member
    rcases List.mem_cons.mp member with rfl | old
    · exact wp_ok answers ran _ rfl
    · exact genuine pps' old
  · exact genuine
  · exact genuine

/-- Every operation keeps what the actions keep in a heap that need not be tiled. -/
theorem next_keeps_inexact (mode : Mode) (P : Hand → State → Prop) (restorable : ∀ spares,
      Restorable { mode with spares } step.cfg step.rt P) (moves : ¬ mode.still)
    (spends : ¬ mode.frugal) (calls : step.op.isPoolCall = true → ¬ mode.serving) (legal : Legal w step)
    (safe : step.Safe { mode with spares := fun _ => False } w.st)
    (genuine : w.Genuine) (holds : P .empty w.st) :
    P .empty (w.next step).st ∧ (w.next step).Genuine := by
  have base := restorable fun _ => False
  refine ⟨?_, next_genuine (base.sound holds) genuine⟩
  cases other : step.op.isRestore with
  | false =>
    have servable : Servable { mode with spares := fun _ => False } step.cfg step.rt P :=
      ⟨base.closed, fun _ => id, moves, spends, base.steady,
        fun _ holds => (base.sound holds).distinct⟩
    exact next_keeps servable calls legal safe other holds
  | true =>
    obtain ⟨cfg, rt, op⟩ := step
    cases op <;> simp only [Op.isRestore, Bool.false_eq_true] at other
    rename_i pps
    have proper := genuine pps legal.given
    refine next_state ?_
    simp only [Step.run, wp_bind, wp_pure]
    exact setCheckpointPoolState_keeps restorable proper w.st holds

end World

end TorchGcu.GCUCachingAllocator

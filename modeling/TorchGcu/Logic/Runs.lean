import Mathlib.Init

/-! Runs of a transition system, and what holds in every state of a run. -/
namespace ProgramLogic
variable {σ α : Type}

/-- The states reached from `s` by steps of a transition relation. -/
inductive Reaches (step : σ → α → σ → Prop) (s : σ) : σ → Prop where
  | refl : Reaches step s s
  | next {t u : σ} {a : α} (run : Reaches step s t) (taken : step t a u) : Reaches step s u

/-- The steps of a relation that meet a condition on the state and the label. -/
def Meeting (meets : σ → α → Prop) (step : σ → α → σ → Prop) (s : σ) (a : α) (t : σ) : Prop :=
  meets s a ∧ step s a t

namespace Reaches
variable {step step' : σ → α → σ → Prop} {s t u : σ} {P Q : σ → Prop}

theorem invariant (preserves : ∀ {s a t}, P s → step s a t → P t) (run : Reaches step s t)
    (initial : P s) : P t := by
  induction run with
  | refl => exact initial
  | next _ taken ih => exact preserves ih taken

theorem trans (first : Reaches step s t) (second : Reaches step t u) : Reaches step s u := by
  induction second with
  | refl => exact first
  | next _ taken ih => exact ih.next taken

theorem mono (weaker : ∀ s a t, step s a t → step' s a t) (run : Reaches step s t) :
    Reaches step' s t := by
  induction run with
  | refl => exact .refl
  | next _ taken ih => exact ih.next (weaker _ _ _ taken)

end Reaches

/-! ### Given sequences of labels -/

/-- The state after a sequence of labels, each of which has one outcome. -/
def runAll (next : σ → α → σ) (s : σ) : List α → σ
  | [] => s
  | a :: labels => runAll next (next s a) labels

theorem runAll_append (next : σ → α → σ) (s : σ) (first second : List α) :
    runAll next s (first ++ second) = runAll next (runAll next s first) second := by
  induction first generalizing s with
  | nil => rfl
  | cons a first ih => exact ih (next s a)

def Allowed (enabled : σ → α → Prop) (next : σ → α → σ) (s : σ) : List α → Prop
  | [] => True
  | a :: labels => enabled s a ∧ Allowed enabled next (next s a) labels

variable {enabled enabled' : σ → α → Prop} {next : σ → α → σ} {step : σ → α → σ → Prop}

instance allowedDecidable [∀ s a, Decidable (enabled s a)] :
    (s : σ) → (labels : List α) → Decidable (Allowed enabled next s labels)
  | _, [] => .isTrue trivial
  | s, a :: labels =>
    have := allowedDecidable (next s a) labels
    inferInstanceAs (Decidable (enabled s a ∧ Allowed enabled next (next s a) labels))

theorem Allowed.reaches (taken : ∀ s a, enabled s a → step s a (next s a)) {s : σ}
    {labels : List α} (allowed : Allowed enabled next s labels) :
    Reaches step s (runAll next s labels) := by
  induction labels generalizing s with
  | nil => exact .refl
  | cons a labels ih => exact .trans (.next .refl (taken s a allowed.1)) (ih allowed.2)

/-- Two conditions on steps agree on a run when they agree where an invariant holds that steps
under the first of them keep. -/
theorem allowed_iff {P : σ → Prop} (alike : ∀ s a, P s → (enabled s a ↔ enabled' s a))
    (preserves : ∀ s a, P s → enabled s a → P (next s a)) {s : σ} (initial : P s)
    (labels : List α) : Allowed enabled next s labels ↔ Allowed enabled' next s labels := by
  induction labels generalizing s with
  | nil => exact Iff.rfl
  | cons a labels ih =>
    rw [Allowed, Allowed, ← alike s a initial]
    exact and_congr_right fun here => ih (preserves s a initial here)

end ProgramLogic

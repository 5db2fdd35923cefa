import TorchGcu.Amp.GradScaler
import Mathlib.Data.List.Nodup
import Mathlib.Data.Set.Basic

/-! What one pass over the gradients of an optimizer leaves: the log, the gradients and the table
of what was found. -/
namespace TorchGcu.GradScaler
open ProgramLogic
variable {F V : Type}

/-! ### The order of the operator -/

theorem order_add (groups : Groups V) (grad : Nat × Gradient V) :
    (groups.add grad).order.Perm (grad :: groups.order) := by
  apply Dictionary.flatMap_change_perm
    (fun perDtype : List (Dtype × List (Nat × Gradient V)) => perDtype.flatMap fun g => g.2) rfl
  intro perDtype
  apply Dictionary.flatMap_change_perm (fun grads : List (Nat × Gradient V) => grads) rfl
  intro grads
  exact List.perm_append_singleton grad grads

/-- The operator gets each gradient once. -/
theorem order_perm (grads : List (Nat × Gradient V)) :
    (perDeviceAndDtypeGrads grads).order.Perm grads := by
  have adds (groups : Groups V) :
      (grads.foldl Groups.add groups).order.Perm (groups.order ++ grads) := by
    induction grads generalizing groups with
    | nil => simp
    | cons grad rest ih =>
      have added := (order_add groups grad).append_right rest
      exact (ih (groups.add grad)).trans (added.trans List.perm_middle.symm)
  simpa [perDeviceAndDtypeGrads, Groups.order] using adds []

section GradsOf
variable {grad : Nat → Option (Gradient V)} {params : List Nat}

theorem mem_gradsOf {x : Nat × Gradient V} :
    x ∈ gradsOf grad params ↔ x.1 ∈ params ∧ grad x.1 = some x.2 := by
  obtain ⟨p, g⟩ := x
  simp only [gradsOf, List.mem_filterMap, Option.map_eq_some_iff, Prod.mk.injEq]
  constructor
  · rintro ⟨q, member, h, found, rfl, rfl⟩
    exact ⟨member, found⟩
  · rintro ⟨member, found⟩
    exact ⟨p, member, g, found, rfl, rfl⟩

theorem gradsOf_nodup (distinct : params.Nodup) :
    ((gradsOf grad params).map Prod.fst).Nodup := by
  induction params with
  | nil => exact List.nodup_nil
  | cons p rest ih =>
    obtain ⟨absent, distinct⟩ := List.nodup_cons.mp distinct
    have outside : p ∉ (gradsOf grad rest).map Prod.fst := by
      intro inside
      obtain ⟨x, member, same⟩ := List.mem_map.mp inside
      exact absent (same ▸ (mem_gradsOf.mp member).1)
    cases found : grad p with
    | none => simpa [gradsOf, found] using ih distinct
    | some g =>
      have more := List.nodup_cons.mpr ⟨outside, ih distinct⟩
      simpa [gradsOf, found] using more

theorem fst_mem_gradsOf {p : Nat} :
    p ∈ (gradsOf grad params).map Prod.fst ↔ p ∈ params ∧ (grad p).isSome := by
  simp only [List.mem_map, Option.isSome_iff_exists]
  constructor
  · rintro ⟨x, member, rfl⟩
    exact ⟨(mem_gradsOf.mp member).1, x.2, (mem_gradsOf.mp member).2⟩
  · rintro ⟨member, g, found⟩
    exact ⟨(p, g), mem_gradsOf.mpr ⟨member, found⟩, rfl⟩

end GradsOf

/-! ### One pass -/

section Pass
variable (arithmetic : Arithmetic F V) (invScale : F)

def unscaleEvent (grad : Nat × Gradient V) : Event :=
  .unscaled grad.1 (arithmetic.nonFinite grad.2.value)

def unscaledOne (s : Scaler F V) (grad : Nat × Gradient V) : Scaler F V :=
  { s with
    grad := Function.update s.grad grad.1
      (some { grad.2 with value := arithmetic.multiply grad.2.value invScale })
    log := unscaleEvent arithmetic grad :: s.log }

def unscaledAll (grads : List (Nat × Gradient V)) (s : Scaler F V) : Scaler F V :=
  grads.foldl (unscaledOne arithmetic invScale) s

variable {arithmetic invScale} {grads : List (Nat × Gradient V)} {s : Scaler F V}

theorem unscaledAll_states :
    (unscaledAll arithmetic invScale grads s).perOptimizerStates = s.perOptimizerStates := by
  induction grads generalizing s with
  | nil => rfl
  | cons grad rest ih => exact ih

theorem unscaledAll_log :
    (unscaledAll arithmetic invScale grads s).log =
      grads.reverse.map (unscaleEvent arithmetic) ++ s.log := by
  induction grads generalizing s with
  | nil => rfl
  | cons grad rest ih =>
    have passed := ih (s := unscaledOne arithmetic invScale s grad)
    simpa [unscaledAll, unscaledOne] using passed

/-- No gradient comes or goes. -/
theorem unscaledAll_isSome (present : ∀ x ∈ grads, (s.grad x.1).isSome) (p : Nat) :
    ((unscaledAll arithmetic invScale grads s).grad p).isSome = (s.grad p).isSome := by
  induction grads generalizing s with
  | nil => rfl
  | cons grad rest ih =>
    have one (q : Nat) :
        ((unscaledOne arithmetic invScale s grad).grad q).isSome = (s.grad q).isSome := by
      by_cases same : q = grad.1
      · subst same
        simp [unscaledOne, present grad List.mem_cons_self]
      · simp [unscaledOne, Function.update_of_ne same]
    have passed := ih (s := unscaledOne arithmetic invScale s grad)
      (fun x member => by rw [one]; exact present x (List.mem_cons_of_mem _ member))
    rw [← one p]
    exact passed

end Pass

/-! ### The table of what was found -/

section Table
variable {arithmetic : Arithmetic F V}

end Table
end TorchGcu.GradScaler

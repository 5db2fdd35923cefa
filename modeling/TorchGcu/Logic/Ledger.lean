import Mathlib.Data.List.Basic
import Mathlib.Data.List.Count

/-! A ledger of what is done with handles, newest entry first. In an orderly ledger only
a live handle is used or destroyed, and only one that is not live is obtained; from that
alone follows that nothing is destroyed twice or used after its end. -/
namespace ProgramLogic

inductive LedgerEvent (H : Type) where
  | obtained (h : H)
  | used (h : H)
  | destroyed (h : H)
deriving DecidableEq, Repr

abbrev Ledger (H : Type) := List (LedgerEvent H)

namespace Ledger
variable {H : Type}

/-- Obtained, and not destroyed since. -/
def Live : Ledger H → H → Prop
  | [], _ => False
  | .obtained h' :: older, h => h = h' ∨ Live older h
  | .used _ :: older, h => Live older h
  | .destroyed h' :: older, h => h ≠ h' ∧ Live older h

def Orderly : Ledger H → Prop
  | [] => True
  | .obtained h :: older => ¬ Live older h ∧ Orderly older
  | .used h :: older => Live older h ∧ Orderly older
  | .destroyed h :: older => Live older h ∧ Orderly older

variable {ledger newer older : Ledger H} {h h' : H}

@[simp] theorem live_nil : ¬ Live ([] : Ledger H) h := id

@[simp] theorem live_obtained : Live (.obtained h' :: ledger) h ↔ h = h' ∨ Live ledger h := Iff.rfl

@[simp] theorem live_used : Live (.used h' :: ledger) h ↔ Live ledger h := Iff.rfl

@[simp] theorem live_destroyed : Live (.destroyed h' :: ledger) h ↔ h ≠ h' ∧ Live ledger h := Iff.rfl

@[simp] theorem orderly_nil : Orderly ([] : Ledger H) := trivial

@[simp] theorem orderly_obtained :
    Orderly (.obtained h :: ledger) ↔ ¬ Live ledger h ∧ Orderly ledger := Iff.rfl

@[simp] theorem orderly_used :
    Orderly (.used h :: ledger) ↔ Live ledger h ∧ Orderly ledger := Iff.rfl

@[simp] theorem orderly_destroyed :
    Orderly (.destroyed h :: ledger) ↔ Live ledger h ∧ Orderly ledger := Iff.rfl

theorem Live.obtained_mem (live : Live ledger h) : .obtained h ∈ ledger := by
  induction ledger with
  | nil => exact live.elim
  | cons event older ih =>
    cases event with
    | obtained h' =>
      rcases live with rfl | live
      · exact List.mem_cons_self
      · exact List.mem_cons_of_mem _ (ih live)
    | used h' => exact List.mem_cons_of_mem _ (ih live)
    | destroyed h' => exact List.mem_cons_of_mem _ (ih live.2)

theorem Orderly.suffix (orderly : Orderly (newer ++ older)) : Orderly older := by
  induction newer with
  | nil => exact orderly
  | cons event newer ih =>
    cases event <;> exact ih orderly.2

theorem live_of_append (live : Live (newer ++ older) h) (absent : .obtained h ∉ newer) :
    Live older h := by
  induction newer with
  | nil => exact live
  | cons event newer ih =>
    simp only [List.mem_cons, not_or] at absent
    cases event with
    | obtained h' =>
      rcases live with rfl | live
      · exact (absent.1 rfl).elim
      · exact ih live absent.2
    | used h' => exact ih live absent.2
    | destroyed h' => exact ih live.2 absent.2

/-- A handle is not used between its end and the next time it is obtained. -/
theorem Orderly.used_not_mem (orderly : Orderly (newer ++ .destroyed h :: older))
    (absent : .obtained h ∉ newer) : .used h ∉ newer := by
  intro used
  obtain ⟨newest, between, rfl⟩ := List.append_of_mem used
  have within := (List.append_assoc newest (.used h :: between) _ ▸ orderly).suffix
  have live : Live (between ++ .destroyed h :: older) h := within.1
  have gone : .obtained h ∉ between := fun member =>
    absent (List.mem_append_right _ (List.mem_cons_of_mem _ member))
  exact (live_of_append live gone).1 rfl

section Counting
variable [DecidableEq H]

instance decidableLive : (ledger : Ledger H) → (h : H) → Decidable (Live ledger h)
  | [], _ => inferInstanceAs (Decidable False)
  | .obtained h' :: older, h =>
    have := decidableLive older h
    inferInstanceAs (Decidable (h = h' ∨ Live older h))
  | .used _ :: older, h => decidableLive older h
  | .destroyed h' :: older, h =>
    have := decidableLive older h
    inferInstanceAs (Decidable (h ≠ h' ∧ Live older h))

/-- Every time it was obtained, a handle has been destroyed once, but for the last time
if it is live. -/
theorem Orderly.balance (orderly : Orderly ledger) (h : H) :
    ledger.count (.obtained h) = ledger.count (.destroyed h) + if Live ledger h then 1 else 0 := by
  induction ledger with
  | nil => simp
  | cons event older ih =>
    have before := ih (by cases event <;> exact orderly.2)
    cases event with
    | obtained h' =>
      by_cases same : h = h'
      · subst same
        have dead : ¬ Live older h := orderly.1
        simp_all
      · simp_all [Ne.symm same]
    | used h' => simp_all
    | destroyed h' =>
      by_cases same : h = h'
      · subst same
        have live : Live older h := orderly.1
        simp_all
      · simp_all [Ne.symm same]

theorem Orderly.destroyed_le (orderly : Orderly ledger) (h : H) :
    ledger.count (.destroyed h) ≤ ledger.count (.obtained h) := by
  have balance := orderly.balance h
  omega

end Counting
end Ledger
end ProgramLogic

import TorchGcu.CachingAllocator.State
import TorchGcu.Logic.Wp

/-! The checks of the source, for programs over any state. -/
namespace TorchGcu
open ProgramLogic
open GCUCachingAllocator (Err TopsError)
variable {σ : Type} {normal : Unit → σ → Prop} {raised : Err → σ → Prop} {s : σ}

def torchCheck (condition : Bool) (message : String) : EStateM Err σ Unit :=
  if condition then pure () else throw (.torchCheck message)

def internalAssert (condition : Bool) (message : String) : EStateM Err σ Unit :=
  if condition then pure () else throw (.internalAssert message)

/-- `C10_GCU_CHECK`, and `AT_GCU_CHECK`, which is the same macro. -/
def gcuCheck (answer : Option TopsError) : EStateM Err σ Unit :=
  match answer with
  | none => pure ()
  | some error => throw (.gcuError error)

theorem wp_torchCheck (condition : Bool) (message : String) :
    wp (torchCheck condition message) normal raised s ↔
      (condition = true → normal () s) ∧ (condition = false → raised (.torchCheck message) s) := by
  cases condition <;> simp [torchCheck]

theorem wp_internalAssert (condition : Bool) (message : String) :
    wp (internalAssert condition message) normal raised s ↔
      (condition = true → normal () s) ∧
        (condition = false → raised (.internalAssert message) s) := by
  cases condition <;> simp [internalAssert]

theorem wp_gcuCheck (answer : Option TopsError) :
    wp (gcuCheck answer) normal raised s ↔
      (answer = none → normal () s) ∧ (∀ error, answer = some error → raised (.gcuError error) s) := by
  cases answer <;> simp [gcuCheck]

theorem allocator_torchCheck :
    GCUCachingAllocator.torchCheck = (torchCheck : Bool → String → GCUCachingAllocator.M Unit) := rfl

theorem allocator_internalAssert : GCUCachingAllocator.internalAssert =
    (internalAssert : Bool → String → GCUCachingAllocator.M Unit) := rfl

variable {P : σ → Prop}

theorem torchCheck_preserves (condition : Bool) (message : String) :
    Preserves P (torchCheck condition message) := fun _ holds =>
  (wp_torchCheck condition message).mpr ⟨fun _ => holds, fun _ => holds⟩

theorem internalAssert_preserves (condition : Bool) (message : String) :
    Preserves P (internalAssert condition message) := fun _ holds =>
  (wp_internalAssert condition message).mpr ⟨fun _ => holds, fun _ => holds⟩

theorem gcuCheck_preserves (answer : Option TopsError) : Preserves P (gcuCheck answer) :=
  fun _ holds => (wp_gcuCheck answer).mpr ⟨fun _ => holds, fun _ _ => holds⟩

end TorchGcu

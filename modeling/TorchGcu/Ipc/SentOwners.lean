import Mathlib.Data.List.Nodup
import TorchGcu.Ipc.RefCounters

/-! The owners of sent data: each is at one place, whatever threads do. -/
namespace TorchGcu.IpcRefCounters
open Function

variable {s after : Producer} {act : Action} {t u : ThreadId} {x y : SentId} {file : FileId}

def After.own : After → Option SentId
  | .destroy own => own
  | .checkSize => none

/-- The sent data that a thread has for itself. -/
def Phase.own : Phase → Option SentId
  | .checkFull x | .checkCounter x | .addLimbo x => some x
  | .collect after | .reset _ after => after.own
  | _ => none

/-- The sent data that a thread took from the limbo. -/
def Phase.blocks : Phase → List SentId
  | .reset blocks _ => blocks
  | _ => []

/-- What the destruction of a sent data changes: its file loses a used slot and may be erased. -/
theorem destroy_eq (s : Producer) (x : SentId) : ∃ files registered, s.destroy x =
    { s with
      files
      refCountersFiles := registered
      place := update s.place x .nowhere
      live := s.live.erase x } := by
  simp only [Producer.destroy, Producer.returnRefCounter, Producer.setPlace]
  by_cases known : s.refCountersFiles (s.slots x).handle = true
  · simp only [known, if_true]
    by_cases unused : (((s.modifyFile (s.slots x).handle RefCountersFile.returnOffset).files
        (s.slots x).handle).offsetsInUse = false ∧
      ((s.modifyFile (s.slots x).handle RefCountersFile.returnOffset).files
        (s.slots x).handle).haveOffsets = false)
    · rw [if_pos unused]
      exact ⟨_, _, rfl⟩
    · rw [if_neg unused]
      exact ⟨_, _, rfl⟩
  · rw [if_neg known]
    exact ⟨_, _, rfl⟩

/-! ### Owners -/

/-- Each sent data is at one place, and the threads and the limbo know what they have. -/
structure Owners (s : Producer) : Prop where
  making : ∀ t x, s.phase t = .rotate x → s.place x = .making t
  held : ∀ t x, (s.phase t).own = some x → s.place x = .held t
  collected : ∀ t, (s.phase t).blocks.Nodup ∧ ∀ x ∈ (s.phase t).blocks, s.place x = .collected t
  limbo : s.sharedBlocks.Nodup ∧ ∀ x ∈ s.sharedBlocks, s.place x = .limbo
  live : s.live.Nodup ∧ ∀ x, x ∈ s.live ↔ s.place x ≠ .nowhere
  bound : ∀ x ∈ s.live, x < s.made

theorem owners_start : Owners {} := by
  constructor <;> simp [Phase.own, Phase.blocks]

/-- A thread goes on with what it has, or with less. -/
theorem Owners.goOn (inv : Owners s) {p : Phase} (place : after.place = s.place)
    (live : after.live = s.live) (made : after.made = s.made)
    (shared : after.sharedBlocks = s.sharedBlocks) (phase : after.phase = update s.phase t p)
    (own : ∀ x, p.own = some x → (s.phase t).own = some x) (blocks : p.blocks = [])
    (making : ∀ x, p ≠ .rotate x) : Owners after := by
  refine ⟨fun u x rotating => ?_, fun u x has => ?_, fun u => ?_, ?_, ?_, ?_⟩
  · rw [phase, update_apply] at rotating
    rw [place]
    split at rotating
    · exact absurd rotating (making x)
    · exact inv.making u x rotating
  · rw [phase, update_apply] at has
    rw [place]
    split at has
    · case isTrue this => exact this ▸ inv.held t x (own x has)
    · exact inv.held u x has
  · rw [phase, update_apply, place]
    split
    · simp [blocks]
    · exact inv.collected u
  · exact shared ▸ place ▸ inv.limbo
  · exact live ▸ place ▸ inv.live
  · exact live ▸ made ▸ inv.bound

/-- A thread gives away what it has, or has made something new. -/
theorem Owners.give (inv : Owners s) {p : Phase} {q : Place}
    (mine : s.place x = .making t ∨ s.place x = .held t ∨ s.place x = .owned)
    (place : after.place = update s.place x q)
    (somewhere : q ≠ .nowhere) (live : after.live = s.live) (made : after.made = s.made)
    (shared : after.sharedBlocks = if q = .limbo then s.sharedBlocks ++ [x] else s.sharedBlocks)
    (phase : after.phase = update s.phase t p) (own : ∀ y, p.own = some y → y = x ∧ q = .held t)
    (blocks : p.blocks = []) (making : ∀ x, p ≠ .rotate x) : Owners after := by
  constructor
  all_goals simp only [place, live, made, shared, phase, update_apply]
  all_goals grind -ring -linarith [Owners]

/-- A thread destroys a sent data that it has, or that it took from the limbo. -/
theorem Owners.lose (inv : Owners s) {p : Phase}
    (mine : s.place x = .held t ∨ s.place x = .collected t)
    (place : after.place = update s.place x .nowhere) (live : after.live = s.live.erase x)
    (made : after.made = s.made) (shared : after.sharedBlocks = s.sharedBlocks)
    (phase : after.phase = update s.phase t p)
    (own : ∀ y, p.own = some y → y ≠ x ∧ (s.phase t).own = some y)
    (blocks : p.blocks = [] ∨ (s.phase t).blocks = x :: p.blocks)
    (making : ∀ x, p ≠ .rotate x) : Owners after := by
  constructor
  all_goals simp only [place, live, made, shared, phase, update_apply]
  all_goals grind -ring -linarith [Owners]

theorem Owners.step (inv : Owners s) (taken : Step s act after) : Owners after := by
  cases taken with
  | getNewBegin free =>
    simp only [Producer.getNewBegin]
    split
    all_goals exact inv.goOn rfl rfl rfl rfl rfl (by simp [Phase.own]) rfl (by simp)
  | setCounter next =>
    simp only [Producer.setCounter, Producer.deref]
    split
    all_goals exact inv.goOn rfl rfl rfl rfl rfl (by simp [Phase.own]) rfl (by simp)
  | construct next =>
    have fresh : s.place s.made = .nowhere := by
      by_contra somewhere
      exact Nat.lt_irrefl _ (inv.bound _ ((inv.live.2 _).mpr somewhere))
    simp only [Producer.construct, Producer.deref]
    split
    · constructor
      all_goals simp only [Producer.setPhase, Producer.setPlace, update_apply]
      all_goals grind -ring -linarith [Owners, Phase.own, Phase.blocks]
    · exact inv.goOn rfl rfl rfl rfl rfl (by simp [Phase.own]) rfl (by simp)
  | constructRaises next =>
    exact inv.goOn rfl rfl rfl rfl rfl (by simp [Phase.own]) rfl (by simp)
  | rotate next =>
    simp only [Producer.rotate, Producer.deref]
    split
    · exact inv.give (.inl (inv.making _ _ next)) rfl (by simp) rfl rfl rfl rfl
        (by simp [Phase.own]) rfl (by simp)
    · exact inv.goOn rfl rfl rfl rfl rfl (by simp [Phase.own]) rfl (by simp)
  | checkFull next =>
    have mine := inv.held _ _ (congrArg Phase.own next)
    simp only [Producer.checkFull, Producer.deref]
    split
    · exact inv.give (.inr (.inl mine)) rfl (by simp) rfl rfl rfl rfl (by simp [Phase.own]) rfl
        (by simp)
    · exact inv.goOn rfl rfl rfl rfl rfl (by simp [Phase.own]) rfl (by simp)
  | deleteBegin free owned =>
    exact inv.give (.inr (.inr owned)) rfl (by simp) rfl rfl rfl rfl (by simp [Phase.own]) rfl
      (by simp)
  | checkCounter next =>
    simp only [Producer.checkCounter]
    split
    all_goals
      exact inv.goOn rfl rfl rfl rfl rfl (by simp [next, Phase.own, After.own]) rfl (by simp)
  | addLimbo next =>
    have mine := inv.held _ _ (congrArg Phase.own next)
    exact inv.give (.inr (.inl mine)) rfl (by simp) rfl rfl rfl rfl
      (by simp [Phase.own, After.own]) rfl (by simp)
  | collectBegin free =>
    exact inv.goOn rfl rfl rfl rfl rfl (by simp [Phase.own, After.own]) rfl (by simp)
  | collect next =>
    constructor
    all_goals simp only [Producer.collect, Producer.setPhase, update_apply]
    all_goals grind -ring -linarith [Owners, Phase.own, Phase.blocks]
  | @resetOne t x blocks last next =>
    obtain ⟨files, registered, destroyed⟩ := destroy_eq s x
    have mine := inv.collected t
    rw [next] at mine
    simp only [Producer.resetOne, destroyed]
    refine inv.lose (.inr (mine.2 x (by simp [Phase.blocks]))) rfl rfl rfl rfl rfl ?_ ?_ (by simp)
    · intro y has
      have held := inv.held t y (next ▸ has)
      refine ⟨?_, next ▸ has⟩
      rintro rfl
      exact absurd (held.symm.trans (mine.2 y (by simp [Phase.blocks]))) (by simp)
    · exact .inr (by rw [next]; rfl)
  | @resetEnd t last next =>
    cases last with
    | checkSize =>
      simp only [Producer.resetEnd]
      split
      all_goals exact inv.goOn rfl rfl rfl rfl rfl (by simp [Phase.own]) rfl (by simp)
    | destroy own =>
      cases own with
      | none => exact inv.goOn rfl rfl rfl rfl rfl (by simp [Phase.own]) rfl (by simp)
      | some x =>
        have mine := inv.held _ _ (congrArg Phase.own next)
        obtain ⟨files, registered, destroyed⟩ := destroy_eq s x
        simp only [Producer.resetEnd, destroyed]
        exact inv.lose (.inl mine) rfl rfl rfl rfl rfl (by simp [Phase.own]) (.inl rfl) (by simp)
  | clean next =>
    simp only [Producer.safeCleanCurrentFile]
    split
    · exact inv.goOn rfl rfl rfl rfl rfl (by simp [Phase.own]) rfl (by simp)
    · split
      all_goals exact inv.goOn rfl rfl rfl rfl rfl (by simp [Phase.own]) rfl (by simp)
  | consume positive =>
    exact ⟨inv.making, inv.held, inv.collected, inv.limbo, inv.live, inv.bound⟩

end TorchGcu.IpcRefCounters

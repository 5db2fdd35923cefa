import TorchGcu.Ipc.SharedTensors
import TorchGcu.Logic.Runs

/-! What is kept while tensors are shared: the memory behind a message is not freed before its
counter is released, and a consumer that finds a storage in its cache has found the right one. -/
namespace TorchGcu.IpcRefCounters
open ProgramLogic Function

variable {s after : Producer} {act : Action} {t : ThreadId} {p : Phase} {x : SentId}
  {released : SentId → Prop}

/-! ### What a step of the producer does -/

/-- The sent data that a thread is going to destroy. -/
@[simp]
def Phase.doomed : Phase → Option SentId
  | .collect after | .reset _ after => after.own
  | _ => none

/-- The sent data that a thread is making, and has not handed over. -/
def Phase.makes : Phase → Option SentId
  | .rotate x | .checkFull x => some x
  | _ => none

/-- A thread goes on; it makes no sent data, and leaves the counters and the slots alone. -/
structure Moved (s : Producer) (act : Action) (t : ThreadId) (p : Phase) (after : Producer) :
    Prop where
  phase : after.phase = update s.phase t p
  counters : after.counters = s.counters
  slots : after.slots = s.slots
  made : after.made = s.made
  live : ∀ x ∈ after.live, x ∈ s.live
  gone : ∀ x ∈ s.live, x ∉ after.live → x ∈ (s.phase t).blocks ∨ (s.phase t).doomed = some x
  offsets : act.usesCurrent = some t ∨ ∀ file, after.nextAvailable = some file →
    s.nextAvailable = some file ∧ (after.files file).nextOffset = (s.files file).nextOffset
  enters : p.inGetNew = true → (p = .setCounter ∧ act = .getNewBegin t) ∨
    ∃ x, s.phase t = .rotate x ∧ p = .checkFull x
  doomed : ∀ x, p.doomed = some x → (s.phase t).doomed = some x ∨ s.counters (s.slots x) = 0

namespace Moved

/-- No sent data is destroyed. -/
theorem same (phase : after.phase = update s.phase t p)
    (rest : (after.counters, after.slots, after.made, after.live) =
      (s.counters, s.slots, s.made, s.live))
    (offsets : act.usesCurrent = some t ∨
      (after.nextAvailable, after.files) = (s.nextAvailable, s.files))
    (enters : p.inGetNew = false ∨ (p = .setCounter ∧ act = .getNewBegin t) ∨
      ∃ x, s.phase t = .rotate x ∧ p = .checkFull x)
    (doomed : ∀ x, p.doomed = some x → (s.phase t).doomed = some x ∨ s.counters (s.slots x) = 0) :
    Moved s act t p after := by
  simp only [Prod.mk.injEq] at rest offsets
  obtain ⟨counters, slots, made, live⟩ := rest
  refine ⟨phase, counters, slots, made, fun x => live ▸ id, fun x found gone =>
    absurd (live ▸ found) gone, offsets.imp_right fun here file current => ?_,
    fun inside => enters.resolve_left (by simp [inside]), doomed⟩
  rw [here.2]
  exact ⟨here.1 ▸ current, rfl⟩

theorem destroys (going : x ∈ (s.phase t).blocks ∨ (s.phase t).doomed = some x)
    (later : p.inGetNew = false) (doomed : ∀ x, p.doomed = some x → (s.phase t).doomed = some x) :
    Moved s act t p ((s.destroy x).setPhase t p) := by
  obtain ⟨files, registered, destroyed⟩ := destroy_eq s x
  have offset (file : FileId) : ((s.destroy x).files file).nextOffset =
      (s.files file).nextOffset := by
    have returned : ((s.modifyFile (s.slots x).handle RefCountersFile.returnOffset).files
        file).nextOffset = (s.files file).nextOffset := by
      simp only [Producer.modifyFile, update_apply]
      split
      · rename_i here
        exact here ▸ rfl
      · rfl
    simp only [Producer.destroy, Producer.returnRefCounter, Producer.setPlace]
    split
    · split <;> exact returned
    · rfl
  refine ⟨?_, ?_, ?_, ?_, fun y => ?_, fun y found erased => ?_, .inr fun file current =>
    ⟨?_, offset file⟩, fun inside => by simp [later] at inside, fun y here =>
      .inl (doomed y here)⟩
  all_goals rw [destroyed] at *
  any_goals rfl
  · exact List.mem_of_mem_erase
  · by_cases here : y = x
    · exact here ▸ going
    · exact absurd ((List.mem_erase_of_ne here).mpr found) erased
  · exact current

end Moved

/-- What each step does. -/
theorem Step.effect (taken : Step s act after) : (∃ t p, Moved s act t p after) ∨
    (∃ t file, s.phase t = .setCounter ∧ s.nextAvailable = some file ∧ after =
      { s.setPhase t .construct with
        counters := update s.counters ⟨file, (s.files file).nextOffset⟩ 1 }) ∨
    (∃ t file, s.phase t = .construct ∧ s.nextAvailable = some file ∧ act = .construct t ∧ after =
      { (s.setPhase t (.rotate s.made)).setPlace s.made (.making t) with
        slots := update s.slots s.made ⟨file, (s.files file).nextOffset⟩
        made := s.made + 1
        live := s.made :: s.live }) ∨
    ∃ slot, act = .consume slot ∧ after =
      { s with counters := update s.counters slot (s.counters slot - 1) } := by
  cases taken with
  | @setCounter t next =>
    simp only [Producer.setCounter, Producer.deref]
    split
    · rename_i file current
      exact .inr (.inl ⟨t, file, next, current, rfl⟩)
    · exact .inl ⟨t, .crashed, .same rfl rfl (.inl rfl) (.inl rfl) (by simp)⟩
  | @construct t next =>
    simp only [Producer.construct, Producer.deref]
    split
    · rename_i file current
      exact .inr (.inr (.inl ⟨t, file, next, current, rfl, rfl⟩))
    · exact .inl ⟨t, .crashed, .same rfl rfl (.inl rfl) (.inl rfl) (by simp)⟩
  | @constructRaises t next =>
    exact .inl ⟨t, .idle, .same rfl rfl (.inl rfl) (.inl rfl) (by simp)⟩
  | consume positive => exact .inr (.inr (.inr ⟨_, rfl, rfl⟩))
  | @getNewBegin t free =>
    refine .inl ⟨t, .setCounter, ?_⟩
    simp only [Producer.getNewBegin]
    split
    all_goals
      exact .same rfl rfl (.inl rfl) (.inr (.inl ⟨rfl, rfl⟩))
        (by simp)
  | @rotate t x next =>
    simp only [Producer.rotate, Producer.deref]
    split
    · exact .inl ⟨t, .checkFull x, .same rfl rfl (.inl rfl)
        (.inr (.inr ⟨x, next, rfl⟩)) (by simp)⟩
    · exact .inl ⟨t, .crashed, .same rfl rfl (.inl rfl) (.inl rfl)
        (by simp)⟩
  | @checkFull t x next =>
    simp only [Producer.checkFull, Producer.deref]
    split
    · exact .inl ⟨t, .idle, .same rfl rfl (.inl rfl) (.inl rfl)
        (by simp)⟩
    · exact .inl ⟨t, .crashed, .same rfl rfl (.inl rfl) (.inl rfl)
        (by simp)⟩
  | @deleteBegin t x free owned =>
    exact .inl ⟨t, .checkCounter x, .same rfl rfl (.inr rfl) (.inl rfl)
      (by simp)⟩
  | @checkCounter t x next =>
    simp only [Producer.checkCounter]
    split
    · exact .inl ⟨t, .addLimbo x, .same rfl rfl (.inr rfl) (.inl rfl)
        (by simp)⟩
    · rename_i none
      refine .inl ⟨t, .collect (.destroy (some x)), .same rfl rfl (.inr rfl) (.inl rfl)
        fun y doomed => ?_⟩
      cases doomed
      exact .inr (Nat.eq_zero_of_not_pos none)
  | @addLimbo t x next =>
    exact .inl ⟨t, .collect (.destroy none), .same rfl rfl (.inr rfl) (.inl rfl)
      (by simp [After.own])⟩
  | @collectBegin t free =>
    exact .inl ⟨t, .collect .checkSize, .same rfl rfl (.inr rfl) (.inl rfl)
      (by simp [After.own])⟩
  | @collect t last next =>
    exact .inl ⟨t, .reset _ last, .same rfl rfl (.inr rfl) (.inl rfl)
      fun y doomed => .inl (by rwa [next])⟩
  | @resetOne t x blocks last next =>
    exact .inl ⟨t, .reset blocks last, .destroys (.inl (by simp [next, Phase.blocks]))
      rfl fun y doomed => by rwa [next]⟩
  | @resetEnd t last next =>
    rcases last with (_ | x) | _
    · exact .inl ⟨t, .idle, .same rfl rfl (.inr rfl) (.inl rfl)
        (by simp)⟩
    · exact .inl ⟨t, .idle, .destroys (.inr (by rw [next]; rfl)) rfl
        (by simp)⟩
    · simp only [Producer.resetEnd]
      split
      · exact .inl ⟨t, .clean, .same rfl rfl (.inr rfl) (.inl rfl)
          (by simp)⟩
      · exact .inl ⟨t, .idle, .same rfl rfl (.inr rfl) (.inl rfl)
          (by simp)⟩
  | @clean t next =>
    refine .inl ⟨t, .idle, ?_⟩
    simp only [Producer.safeCleanCurrentFile]
    split
    · exact .same rfl rfl (.inl rfl) (.inl rfl) (by simp)
    · split
      all_goals exact .same rfl rfl (.inl rfl) (.inl rfl) (by simp)

/-- What a step of the producer leaves alone, whoever takes it. -/
structure Forward (s : Producer) (act : Action) (after : Producer) : Prop where
  made : s.made ≤ after.made
  slots : ∀ x, x < s.made → after.slots x = s.slots x
  live : ∀ x ∈ after.live, x ∈ s.live ∨ s.made ≤ x
  inside : ∀ u, (after.phase u).inGetNew = true →
    (s.phase u).inGetNew = true ∨ act = .getNewBegin u
  makes : ∀ u x, (after.phase u).makes = some x → (s.phase u).makes = some x ∨ s.made ≤ x

theorem Step.forward (taken : Step s act after) : Forward s act after := by
  obtain ⟨t, p, moved⟩ | ⟨t, file, next, _, rfl⟩ | ⟨t, file, next, _, rfl, rfl⟩ | ⟨slot, rfl, rfl⟩ :=
    taken.effect
  · refine ⟨moved.made.ge, fun x _ => by rw [moved.slots], fun x found => .inl (moved.live x found),
      fun u here => ?_, fun u x here => ?_⟩
    · rw [moved.phase, update_apply] at here
      split at here
      · rename_i this
        rcases moved.enters here with ⟨_, begun⟩ | ⟨x, next, _⟩
        · exact .inr (this ▸ begun)
        · exact .inl (by rw [this, next]; rfl)
      · exact .inl here
    · rw [moved.phase, update_apply] at here
      split at here
      · rename_i this
        have inside : p.inGetNew = true := by
          cases p <;> simp_all [Phase.makes, Phase.inGetNew]
        rcases moved.enters inside with ⟨rfl, _⟩ | ⟨y, next, rfl⟩
        · cases here
        · exact .inl (by rw [this, next]; exact here)
      · exact .inl here
  · refine ⟨Nat.le_refl _, fun _ _ => rfl, fun _ => .inl, fun u here => ?_, fun u x here => ?_⟩
    · simp only [Producer.setPhase, update_apply] at here
      split at here
      · rename_i this
        exact .inl (by rw [this, next]; rfl)
      · exact .inl here
    · simp only [Producer.setPhase, update_apply] at here
      split at here
      · cases here
      · exact .inl here
  · refine ⟨Nat.le_succ _, fun x old => update_of_ne old.ne .., fun x found => ?_,
      fun u here => ?_, fun u x here => ?_⟩
    · exact (List.mem_cons.mp found).symm.imp_right fun new => new.ge
    · simp only [Producer.setPhase, Producer.setPlace, update_apply] at here
      split at here
      · rename_i this
        exact .inl (by rw [this, next]; rfl)
      · exact .inl here
    · simp only [Producer.setPhase, Producer.setPlace, update_apply] at here
      split at here
      · exact .inr (Option.some.inj here).le
      · exact .inl here
  · exact ⟨Nat.le_refl _, fun _ _ => rfl, fun _ => .inl, fun _ => .inl, fun _ _ => .inl⟩

/-! ### The counters -/

/-- Each live sent data has its counter at one until its message is released. -/
structure Books (s : Producer) (released : SentId → Prop) : Prop where
  pending : ∀ x ∈ s.live, ¬ released x → s.counters (s.slots x) = 1
  done : ∀ x ∈ s.live, released x → s.counters (s.slots x) = 0
  prepared : ∀ t file, s.phase t = .construct → s.nextAvailable = some file →
    s.counters ⟨file, (s.files file).nextOffset⟩ = 1
  doomed : ∀ t x, (s.phase t).doomed = some x → s.counters (s.slots x) = 0

theorem Books.congr {released' : SentId → Prop} (books : Books s released)
    (same : ∀ x ∈ s.live, released' x ↔ released x) : Books s released' :=
  ⟨fun x found pending => books.pending x found fun done => pending ((same x found).mpr done),
    fun x found done => books.done x found ((same x found).mp done), books.prepared, books.doomed⟩

/-- A thread that deletes has what it deletes alive. -/
theorem Owners.doomed_live (owners : Owners s) (doomed : (s.phase t).doomed = some x) :
    x ∈ s.live := by
  have own : (s.phase t).own = some x := by
    cases phase : s.phase t <;> simp_all [Phase.doomed, Phase.own]
  have held := owners.held t x own
  exact (owners.live.2 x).mpr (by simp [held])

/-- The slot that is set up has no user yet. -/
theorem Current.slot_free (current : Current s) (inside : s.phase t = .setCounter ∨
    s.phase t = .construct) {file : FileId} (found : x ∈ s.live) :
    s.slots x ≠ ⟨file, (s.files file).nextOffset⟩ := by
  intro same
  have settled : (s.place x).isMaking = false := by
    by_contra making
    obtain ⟨u, rotating⟩ := current.rotates (Bool.not_eq_false _ ▸ making)
    have this : u = t := current.alone u t (by rw [rotating]; rfl)
      (by rcases inside with here | here <;> rw [here] <;> rfl)
    subst this
    rcases inside with here | here <;> simp [here] at rotating
  have before := current.offset x found settled
  simp [same] at before

/-- What a step of the producer keeps. -/
theorem Books.step (books : Books s released) (owners : Owners s) (current : Current s)
    (allowed : Undisturbed s act) (fresh : ¬ released s.made) (unconsumed : ∀ slot, act ≠ .consume slot)
    (taken : Step s act after) : Books after released := by
  obtain ⟨t, p, moved⟩ | ⟨t, file, next, here, rfl⟩ | ⟨t, file, next, here, rfl, rfl⟩ |
    ⟨slot, rfl, rfl⟩ := taken.effect
  · refine ⟨fun x found => ?_, fun x found => ?_, fun u file constructs current => ?_,
      fun u x doomed => ?_⟩
    · rw [moved.counters, moved.slots]
      exact books.pending x (moved.live x found)
    · rw [moved.counters, moved.slots]
      exact books.done x (moved.live x found)
    · rw [moved.phase, update_apply] at constructs
      split at constructs
      · subst constructs
        obtain ⟨impossible, _⟩ | ⟨_, _, impossible⟩ := moved.enters rfl
        all_goals cases impossible
      · rename_i other
        rcases moved.offsets with uses | offsets
        · have outside := allowed t uses u other
          simp [constructs, Phase.inGetNew] at outside
        · obtain ⟨current, offset⟩ := offsets file current
          rw [moved.counters, offset]
          exact books.prepared u file constructs current
    · rw [moved.counters, moved.slots]
      rw [moved.phase, update_apply] at doomed
      split at doomed
      · exact (moved.doomed x doomed).elim (books.doomed t x) id
      · exact books.doomed u x doomed
  · have free : ∀ x ∈ s.live, s.slots x ≠ ⟨file, (s.files file).nextOffset⟩ := fun x =>
      current.slot_free (.inl next)
    refine ⟨fun x found pending => ?_, fun x found done => ?_, fun u file' _ there => ?_,
      fun u x doomed => ?_⟩
    · exact (update_of_ne (free x found) ..).trans (books.pending x found pending)
    · exact (update_of_ne (free x found) ..).trans (books.done x found done)
    · cases here.symm.trans there
      exact update_self ..
    · simp only [Producer.setPhase, update_apply] at doomed
      split at doomed
      · cases doomed
      · exact (update_of_ne (free x (owners.doomed_live doomed)) ..).trans (books.doomed u x doomed)
  · have old : ∀ x ∈ s.live, x ≠ s.made := fun x found => (owners.bound x found).ne
    refine ⟨fun x found pending => ?_, fun x found done => ?_, fun u file' constructs _ => ?_,
      fun u x doomed => ?_⟩
    · rcases List.mem_cons.mp found with rfl | found
      · simp only [update_self]
        exact books.prepared t file next here
      · simp only [update_of_ne (old x found)]
        exact books.pending x found pending
    · rcases List.mem_cons.mp found with rfl | found
      · exact absurd done fresh
      · simp only [update_of_ne (old x found)]
        exact books.done x found done
    · simp only [Producer.setPhase, Producer.setPlace, update_apply] at constructs
      split at constructs
      · cases constructs
      · rename_i other
        have outside := allowed t rfl u other
        simp [constructs, Phase.inGetNew] at outside
    · simp only [Producer.setPhase, Producer.setPlace, update_apply] at doomed
      split at doomed
      · cases doomed
      · simp only [update_of_ne (old x (owners.doomed_live doomed))]
        exact books.doomed u x doomed
  · exact absurd rfl (unconsumed _)

/-- A sent data is destroyed after its message was released. -/
theorem Books.destroyed (books : Books s released) (freed : Freed s) (taken : Step s act after)
    (found : x ∈ s.live) (gone : x ∉ after.live) : released x := by
  have none : s.counters (s.slots x) = 0 := by
    obtain ⟨t, p, moved⟩ | ⟨t, file, _, _, rfl⟩ | ⟨t, file, _, _, _, rfl⟩ | ⟨slot, _, rfl⟩ :=
      taken.effect
    · exact (moved.gone x found gone).elim (freed t x) (books.doomed t x)
    · exact absurd found gone
    · exact absurd (List.mem_cons_of_mem _ found) gone
    · exact absurd found gone
  by_contra pending
  have one := books.pending x found pending
  omega

/-! ### The protocol -/

variable {w w' : Sharing} {action : SharingAction}

/-- What the processes have between two steps. -/
structure Consistent (w : Sharing) : Prop where
  owners : Owners w.producer
  current : Current w.producer
  freed : Freed w.producer
  books : Books w.producer fun x => w.stage x = .released
  /-- A thread makes a sent data for the storage that it shares. -/
  mutex : ∀ t, (w.producer.phase t).inGetNew = true → ∃ s, w.sharer = some (t, s)
  making : ∀ t x, (w.producer.phase t).makes = some x → w.messages x = none
  sharer : ∀ t s, w.sharer = some (t, s) →
    ∃ storage, w.storages s = some storage ∧ storage.alive = true
  unfreed : ∀ s storage, w.storages s = some storage → storage.alive = true → storage.freed = false
  /-- A message says where the storage is, and where its own counter is. -/
  sent : ∀ x m, w.messages x = some m → x < w.producer.made ∧
    m.refCounter = w.producer.slots x ∧ ∃ s storage, w.storages s = some storage ∧
      x ∈ storage.sentData ∧ m.storageHandle = storage.handle
  unsent : ∀ x, w.messages x = none → w.stage x = .unsent
  kept : ∀ x m, w.messages x = some m → w.stage x ≠ .released → x ∈ w.producer.live
  gone : ∀ s storage, w.storages s = some storage → storage.freed = true →
    ∀ x ∈ storage.sentData, x ∉ w.producer.live
  handles : ∀ s s' storage storage', w.storages s = some storage → w.storages s' = some storage' →
    storage.freed = false → storage'.freed = false → storage.handle = storage'.handle → s = s'
  members : ∀ s storage x, w.storages s = some storage → x ∈ storage.sentData →
    ∃ m, w.messages x = some m
  cached : ∀ c handle y, w.sharedCache c handle = some y →
    ∃ m, w.messages y = some m ∧ m.storageHandle = handle

/-- No thread cleans the current file of counters while a storage is shared. -/
def CleansApart (w : Sharing) (action : SharingAction) : Prop :=
  ∀ t, action = .within (.clean t) → w.sharer = none

namespace Consistent

theorem start : Consistent {} := by
  have books : Books {} fun _ => (Stage.unsent = Stage.released) := by
    constructor <;> simp [Phase.doomed]
  constructor
  case owners => exact owners_start
  case current => exact current_start
  case freed => simp [Freed, Phase.blocks]
  case books => exact books
  all_goals simp [Phase.inGetNew]

/-- Only the thread that holds the mutex looks at the current file. -/
theorem alone (inv : Consistent w) {s : StorageId} (mine : w.sharer = some (t, s)) (u : ThreadId)
    (other : u ≠ t) : (w.producer.phase u).inGetNew = false := by
  by_contra inside
  obtain ⟨s', theirs⟩ := inv.mutex u (by simpa using inside)
  rw [mine] at theirs
  cases theirs
  exact other rfl

theorem nobody (inv : Consistent w) (unlocked : w.sharer = none) (u : ThreadId) :
    (w.producer.phase u).inGetNew = false := by
  by_contra inside
  obtain ⟨s, theirs⟩ := inv.mutex u (by simpa using inside)
  rw [unlocked] at theirs
  cases theirs

theorem undisturbed (inv : Consistent w) {producer : Producer} (inside : act.within = true)
    (apart : CleansApart w (.within act)) (taken : Step w.producer act producer) :
    Undisturbed w.producer act := by
  intro t uses u other
  have mine : (w.producer.phase t).inGetNew = true → (w.producer.phase u).inGetNew = false := by
    intro here
    obtain ⟨s, held⟩ := inv.mutex t here
    exact inv.alone held u other
  cases taken with
  | setCounter next | construct next | rotate next =>
    cases uses
    exact mine (by rw [next]; rfl)
  | clean next =>
    cases uses
    exact inv.nobody (apart t rfl) u
  | getNewBegin | constructRaises | checkFull => cases inside
  | deleteBegin | checkCounter | addLimbo | collectBegin | collect | resetOne | resetEnd
  | consume => cases uses

/-- A step of the producer, with nothing else but the mutex. -/
theorem produce (inv : Consistent w) {producer : Producer} {sharer : Option (ThreadId × StorageId)}
    (taken : Step w.producer act producer) (allowed : Undisturbed w.producer act)
    (unconsumed : ∀ slot, act ≠ .consume slot)
    (mutex : ∀ t, (producer.phase t).inGetNew = true → ∃ s, sharer = some (t, s))
    (holder : ∀ t s, sharer = some (t, s) →
      ∃ storage, w.storages s = some storage ∧ storage.alive = true) :
    Consistent { w with producer, sharer } := by
  have forward := taken.forward
  have madeUnsent : ∀ x, w.producer.made ≤ x → w.messages x = none := fun x later => by
    cases sent : w.messages x with
    | none => rfl
    | some m => exact absurd (inv.sent x m sent).1 (Nat.not_lt.mpr later)
  have fresh : w.stage w.producer.made ≠ .released := by
    rw [inv.unsent _ (madeUnsent _ (Nat.le_refl _))]
    simp
  exact { inv with
    owners := inv.owners.step taken
    current := inv.current.step inv.owners allowed taken
    freed := inv.freed.step inv.owners inv.current taken
    books := inv.books.step inv.owners inv.current allowed fresh unconsumed taken
    mutex := mutex
    making := fun t x makes => (forward.makes t x makes).elim (inv.making t x) (madeUnsent x)
    sharer := holder
    sent := fun x m sent => by
      obtain ⟨old, slot, home⟩ := inv.sent x m sent
      exact ⟨old.trans_le forward.made, slot.trans (forward.slots x old).symm, home⟩
    kept := fun x m sent pending => by
      by_contra destroyed
      exact pending (inv.books.destroyed inv.freed taken (inv.kept x m sent pending) destroyed)
    gone := fun s storage found freed x member here => by
      rcases forward.live x here with old | new
      · exact inv.gone s storage found freed x member old
      · obtain ⟨m, sent⟩ := inv.members s storage x found member
        rw [madeUnsent x new] at sent
        cases sent }

theorem share (inv : Consistent w) {s : StorageId} {storage : Storage} (unlocked : w.sharer = none)
    (idle : w.producer.phase t = .idle) (found : w.storages s = some storage)
    (alive : storage.alive = true) : Consistent (w.share t s) := by
  refine inv.produce (.getNewBegin idle) (fun _ _ u _ => inv.nobody unlocked u) (by simp)
    (fun u inside => ?_) fun u s' held => ?_
  · have forward := (Step.getNewBegin idle).forward
    rcases forward.inside u inside with before | begun
    · simp [inv.nobody unlocked u] at before
    · cases begun
      exact ⟨s, rfl⟩
  · cases held
    exact ⟨storage, found, alive⟩

/-- The new sent data is handed over to the storage, and its message is sent. -/
theorem deliver (inv : Consistent w) {s : StorageId} {storage : Storage}
    (nobody : ∀ u, (w.producer.phase u).inGetNew = false)
    (found : w.storages s = some storage) (alive : storage.alive = true)
    (live : x ∈ w.producer.live) (new : w.messages x = none) : Consistent { w with
      sharer := none
      storages := update w.storages s (some { storage with sentData := x :: storage.sentData })
      messages := update w.messages x (some
        { storageHandle := storage.handle, storageSizeBytes := storage.nbytes,
          refCounter := w.producer.slots x })
      stage := update w.stage x .inFlight } := by
  have nobodyMakes : ∀ u y, (w.producer.phase u).makes ≠ some y := fun u y makes => by
    have outside := nobody u
    cases phase : w.producer.phase u <;> simp_all [Phase.makes, Phase.inGetNew]
  have other : ∀ y m, y ≠ x → w.messages y = some m → ∃ s' storage',
      update w.storages s (some { storage with sentData := x :: storage.sentData }) s' =
        some storage' ∧ y ∈ storage'.sentData ∧ m.storageHandle = storage'.handle := by
    intro y m differ sent
    obtain ⟨_, _, s', storage', found', member, handle⟩ := inv.sent y m sent
    by_cases here : s' = s
    · subst here
      cases found.symm.trans found'
      exact ⟨s', _, update_self .., List.mem_cons_of_mem _ member, handle⟩
    · exact ⟨s', storage', by rw [update_of_ne here, found'], member, handle⟩
  have storages : ∀ s' storage',
      update w.storages s (some { storage with sentData := x :: storage.sentData }) s' =
        some storage' → ∃ before, w.storages s' = some before ∧ before.handle = storage'.handle ∧
          before.alive = storage'.alive ∧ before.freed = storage'.freed ∧
            ∀ y ∈ storage'.sentData, (y = x ∧ s' = s) ∨ y ∈ before.sentData := by
    intro s' storage' found'
    by_cases here : s' = s
    · subst here
      rw [update_self] at found'
      cases found'
      refine ⟨storage, found, rfl, rfl, rfl, fun y member => ?_⟩
      exact (List.mem_cons.mp member).imp_left fun same => ⟨same, rfl⟩
    · rw [update_of_ne here] at found'
      exact ⟨storage', found', rfl, rfl, rfl, fun y => .inr⟩
  constructor
  case owners => exact inv.owners
  case current => exact inv.current
  case freed => exact inv.freed
  case books =>
    refine inv.books.congr fun y _ => ?_
    by_cases here : y = x
    · simp [here, inv.unsent x new]
    · simp only [update_of_ne here]
  case mutex =>
    intro u inside
    simp [nobody u] at inside
  case making => exact fun u y makes => absurd makes (nobodyMakes u y)
  case sharer => simp
  case unfreed =>
    intro s' storage' found' alive'
    obtain ⟨before, was, _, lives, frees, _⟩ := storages s' storage' found'
    exact frees ▸ inv.unfreed s' before was (lives.trans alive')
  case sent =>
    intro y m sent
    by_cases here : y = x
    · subst here
      simp only [update_self, Option.some.injEq] at sent
      subst sent
      exact ⟨inv.owners.bound y live, rfl, s, _, update_self .., List.mem_cons_self, rfl⟩
    · simp only [update_of_ne here] at sent
      obtain ⟨old, slot, _⟩ := inv.sent y m sent
      exact ⟨old, slot, other y m here sent⟩
  case unsent =>
    intro y none
    have differ : y ≠ x := by
      rintro rfl
      simp at none
    simp only [update_of_ne differ] at none ⊢
    exact inv.unsent y none
  case kept =>
    intro y m sent pending
    by_cases here : y = x
    · exact here ▸ live
    · simp only [update_of_ne here] at sent pending
      exact inv.kept y m sent pending
  case gone =>
    intro s' storage' found' freed y member
    obtain ⟨before, was, _, _, frees, members⟩ := storages s' storage' found'
    rcases members y member with ⟨_, rfl⟩ | old
    · cases found.symm.trans was
      rw [← frees, inv.unfreed s' storage found alive] at freed
      cases freed
    · exact inv.gone s' before was (frees.trans freed) y old
  case handles =>
    intro s₁ s₂ storage₁ storage₂ found₁ found₂ unfreed₁ unfreed₂ same
    obtain ⟨before₁, was₁, handle₁, _, frees₁, _⟩ := storages s₁ storage₁ found₁
    obtain ⟨before₂, was₂, handle₂, _, frees₂, _⟩ := storages s₂ storage₂ found₂
    exact inv.handles s₁ s₂ before₁ before₂ was₁ was₂ (frees₁.trans unfreed₁)
      (frees₂.trans unfreed₂) (handle₁.trans (same.trans handle₂.symm))
  case members =>
    intro s' storage' y found' member
    by_cases here : y = x
    · subst here
      exact ⟨_, update_self ..⟩
    · obtain ⟨before, was, _, _, _, members⟩ := storages s' storage' found'
      obtain ⟨m, sent⟩ := inv.members s' before y was
        ((members y member).resolve_left fun same => here same.1)
      exact ⟨m, (update_of_ne here ..).trans sent⟩
  case cached =>
    intro c handle y cached
    obtain ⟨m, sent, same⟩ := inv.cached c handle y cached
    have differ : y ≠ x := by
      rintro rfl
      rw [new] at sent
      cases sent
    exact ⟨m, (update_of_ne differ ..).trans sent, same⟩

theorem send (inv : Consistent w) {s : StorageId} {storage : Storage}
    (next : w.producer.phase t = .checkFull x) (mine : w.sharer = some (t, s))
    (found : w.storages s = some storage) : Consistent (w.send t s storage x) := by
  have taken : Step w.producer (.checkFull t) (w.producer.checkFull t x) := .checkFull next
  have allowed : Undisturbed w.producer (.checkFull t) := by
    intro u uses v other
    cases uses
    exact inv.alone mine v other
  have held := inv.owners.held t x (congrArg Phase.own next)
  have live : x ∈ w.producer.live := (inv.owners.live.2 x).mpr (by simp [held])
  have forward := taken.forward
  have here := inv.current.checking t x next
  have nobody : ∀ u, ((w.producer.checkFull t x).phase u).inGetNew = false := by
    intro u
    simp only [Producer.checkFull, Producer.deref, here, Producer.setPhase, Producer.setPlace,
      update_apply]
    split
    · rfl
    · rename_i other
      exact inv.alone mine u other
  obtain ⟨storage', found', alive⟩ := inv.sharer t s mine
  cases found.symm.trans found'
  have checked : Consistent { w with producer := w.producer.checkFull t x } :=
    inv.produce taken allowed (by simp) (fun u inside => by simp [nobody u] at inside) inv.sharer
  have stays : x ∈ (w.producer.checkFull t x).live := by
    simp only [Producer.checkFull, Producer.deref, here]
    exact live
  have new : w.messages x = none := inv.making t x (by rw [next]; rfl)
  have delivered := checked.deliver nobody found alive stays new
  have slot : (w.producer.checkFull t x).slots x = w.producer.slots x :=
    forward.slots x (inv.owners.bound x live)
  simp only [slot] at delivered
  exact delivered

/-! ### Storages -/

/-- A storage is made, or it is changed and keeps its handle and its sent data. -/
theorem setStorage (inv : Consistent w) {s : StorageId} {storage' : Storage}
    (unused : ∀ t, w.sharer ≠ some (t, s)) (same : ∀ storage, w.storages s = some storage →
      storage'.handle = storage.handle ∧ storage'.sentData = storage.sentData)
    (unfreed : storage'.alive = true → storage'.freed = false)
    (gone : storage'.freed = true → ∀ x ∈ storage'.sentData, x ∉ w.producer.live)
    (members : ∀ x ∈ storage'.sentData, ∃ m, w.messages x = some m)
    (apart : storage'.freed = false → ∀ s' storage, w.storages s' = some storage →
      storage.freed = false → storage.handle = storage'.handle → s' = s) :
    Consistent (w.setStorage s storage') := by
  have storages : ∀ s' storage, (w.setStorage s storage').storages s' = some storage →
      (s' = s ∧ storage = storage') ∨ w.storages s' = some storage := by
    intro s' storage there
    simp only [Sharing.setStorage, update_apply] at there
    split at there
    · rename_i here
      exact .inl ⟨here, (Option.some.inj there).symm⟩
    · exact .inr there
  exact { inv with
    sharer := fun t s' mine => by
      obtain ⟨storage, there, alive⟩ := inv.sharer t s' mine
      have other : s' ≠ s := by
        rintro rfl
        exact unused t mine
      exact ⟨storage, (update_of_ne other ..).trans there, alive⟩
    unfreed := fun s' storage there alive => by
      rcases storages s' storage there with ⟨_, rfl⟩ | there
      · exact unfreed alive
      · exact inv.unfreed s' storage there alive
    sent := fun x m sent => by
      obtain ⟨old, slot, s', storage, there, member, home⟩ := inv.sent x m sent
      by_cases here : s' = s
      · subst here
        obtain ⟨handle, sentData⟩ := same storage there
        exact ⟨old, slot, s', storage', update_self .., sentData ▸ member, home.trans handle.symm⟩
      · exact ⟨old, slot, s', storage, (update_of_ne here ..).trans there, member, home⟩
    gone := fun s' storage there freed x member => by
      rcases storages s' storage there with ⟨_, rfl⟩ | there
      · exact gone freed x member
      · exact inv.gone s' storage there freed x member
    handles := fun s₁ s₂ storage₁ storage₂ there₁ there₂ unfreed₁ unfreed₂ equal => by
      rcases storages s₁ storage₁ there₁ with ⟨rfl, rfl⟩ | old₁
      · rcases storages s₂ storage₂ there₂ with ⟨rfl, rfl⟩ | old₂
        · rfl
        · exact (apart unfreed₁ s₂ storage₂ old₂ unfreed₂ equal.symm).symm
      · rcases storages s₂ storage₂ there₂ with ⟨rfl, rfl⟩ | old₂
        · exact apart unfreed₂ s₁ storage₁ old₁ unfreed₁ equal
        · exact inv.handles s₁ s₂ storage₁ storage₂ old₁ old₂ unfreed₁ unfreed₂ equal
    members := fun s' storage x there member => by
      rcases storages s' storage there with ⟨_, rfl⟩ | there
      · exact members x member
      · exact inv.members s' storage x there member }

theorem allocate (inv : Consistent w) {s : StorageId} {handle : Ipc.ShareableHandle} {nbytes : Nat}
    (new : w.storages s = none)
    (unused : ∀ s' storage, w.storages s' = some storage → storage.freed = false →
      storage.handle ≠ handle) : Consistent (w.setStorage s { handle, nbytes }) := by
  refine inv.setStorage (fun t mine => ?_) (fun storage found => ?_) (fun _ => rfl) (by simp)
    (by simp) fun _ s' storage found unfreed same => absurd same (unused s' storage found unfreed)
  · obtain ⟨storage, found, _⟩ := inv.sharer t s mine
    rw [new] at found
    cases found
  · rw [new] at found
    cases found

/-! ### Messages -/

theorem unsent_other (inv : Consistent w) {m : Message} {stage : Stage}
    (sent : w.messages x = some m) (y : SentId) (none : w.messages y = none) :
    update w.stage x stage y = .unsent := by
  have differ : y ≠ x := by
    rintro rfl
    exact absurd (sent.symm.trans none) (by simp)
  rw [update_of_ne differ, inv.unsent y none]

theorem started (inv : Consistent w) (next : w.stage x ≠ .unsent) : ∃ m, w.messages x = some m :=
  Option.ne_none_iff_exists'.mp fun none => next (inv.unsent x none)

/-- A message goes on, and is not released yet. -/
theorem goOn (inv : Consistent w) {m : Message} {stage : Stage}
    {sharedCache : ConsumerId → Ipc.ShareableHandle → Option SentId}
    (sent : w.messages x = some m) (pending : w.stage x ≠ .released) (still : stage ≠ .released)
    (cached : ∀ c handle y, sharedCache c handle = some y →
      (y = x ∧ handle = m.storageHandle) ∨ w.sharedCache c handle = some y) :
    Consistent { w.setStage x stage with sharedCache } := by
  have released : ∀ y, update w.stage x stage y = .released ↔ w.stage y = .released := by
    intro y
    by_cases here : y = x
    · subst here
      simp [pending, still]
    · rw [update_of_ne here]
  exact { inv with
    books := inv.books.congr fun y _ => released y
    unsent := inv.unsent_other sent
    kept := fun y m' sent' pending' => inv.kept y m' sent' fun done =>
      pending' ((released y).mpr done)
    cached := fun c handle y there => by
      rcases cached c handle y there with ⟨rfl, rfl⟩ | before
      · exact ⟨m, sent, rfl⟩
      · exact inv.cached c handle y before }

theorem release (inv : Consistent w) {m : Message} (sent : w.messages x = some m)
    (pending : w.stage x ≠ .released) : Consistent (w.release x m) := by
  have live := inv.kept x m sent pending
  obtain ⟨old, slot, _⟩ := inv.sent x m sent
  have registered := inv.current.registered x live
  have one := inv.books.pending x live pending
  have taken := @Step.consume w.producer m.refCounter (by rw [slot, one]; exact Nat.one_pos)
  have counters : ∀ y, w.producer.slots y ≠ w.producer.slots x →
      update w.producer.counters m.refCounter (w.producer.counters m.refCounter - 1)
        (w.producer.slots y) = w.producer.counters (w.producer.slots y) := fun y differ => by
    rw [slot, update_of_ne differ]
  have emptied : update w.producer.counters m.refCounter
      (w.producer.counters m.refCounter - 1) (w.producer.slots x) = 0 := by
    rw [slot, update_self, one]
  have differs : ∀ y ∈ w.producer.live, y ≠ x → w.producer.slots y ≠ w.producer.slots x :=
    fun y found other same => other (inv.current.distinct y found x live same)
  rw [Sharing.release, if_pos (slot ▸ registered)]
  have stages : ∀ y, update w.stage x .released y = .released ↔ y = x ∨ w.stage y = .released := by
    intro y
    by_cases here : y = x
    · simp [here]
    · simp [here]
  exact { inv with
    owners := inv.owners.step taken
    current := inv.current.step inv.owners (fun _ uses => by cases uses) taken
    freed := inv.freed.step inv.owners inv.current taken
    books := by
      refine ⟨fun y found pending' => ?_, fun y found done => ?_, fun t file here there => ?_,
        fun t y doomed => ?_⟩
      · have other : y ≠ x := fun same => pending' ((stages y).mpr (.inl same))
        have before := inv.books.pending y found fun done => pending' ((stages y).mpr (.inr done))
        exact (counters y (differs y found other)).trans before
      · rcases (stages y).mp done with rfl | done
        · exact emptied
        · by_cases same : w.producer.slots y = w.producer.slots x
          · exact (congrArg _ same).trans emptied
          · exact (counters y same).trans (inv.books.done y found done)
      · have free : ⟨file, (w.producer.files file).nextOffset⟩ ≠ m.refCounter := by
          rw [slot]
          exact (inv.current.slot_free (.inr here) live).symm
        exact (update_of_ne free ..).trans (inv.books.prepared t file here there)
      · by_cases same : w.producer.slots y = w.producer.slots x
        · exact (congrArg _ same).trans emptied
        · exact (counters y same).trans (inv.books.doomed t y doomed)
    unsent := inv.unsent_other sent
    kept := fun y m' sent' pending' => inv.kept y m' sent' fun done =>
      pending' ((stages y).mpr (.inr done)) }

/-- What each step keeps. -/
theorem step (inv : Consistent w) (apart : CleansApart w action)
    (taken : SharingStep w action w') : Consistent w' := by
  cases taken with
  | allocate new unused => exact inv.allocate new unused
  | share unlocked idle found alive => exact inv.share unlocked idle found alive
  | within inside taken =>
    have allowed := inv.undisturbed inside apart taken
    refine inv.produce taken allowed (fun slot same => ?_) (fun t here => ?_) inv.sharer
    · subst same
      cases inside
    · refine inv.mutex t ((taken.forward.inside t here).resolve_right fun same => ?_)
      subst same
      cases inside
  | @shareFailed t s next mine =>
    have alone := inv.alone mine
    refine inv.produce (.constructRaises next) (fun _ uses => by cases uses; exact alone) (by simp)
      (fun u inside => ?_) (by simp)
    simp only [Producer.setPhase, update_apply] at inside
    split at inside
    · cases inside
    · rename_i other
      simp [alone u other] at inside
  | send next mine found => exact inv.send next mine found
  | @drop s storage found alive unused =>
    have unfreed := inv.unfreed s storage found alive
    refine inv.setStorage unused (fun storage' found' => ?_) (by simp) (by simp [unfreed])
      (inv.members s storage · found) fun _ s' storage' found' unfreed' same =>
        inv.handles s' s storage' storage found' found unfreed' unfreed same
    cases found.symm.trans found'
    exact ⟨rfl, rfl⟩
  | deleteBegin idle owned found letGo =>
    refine inv.produce (.deleteBegin idle owned) (fun _ uses => by cases uses) (by simp)
      (fun t here => ?_) inv.sharer
    exact inv.mutex t (((Step.deleteBegin idle owned).forward.inside t here).resolve_right (by simp))
  | @free s storage found dead gone =>
    refine inv.setStorage (fun t mine => ?_) (fun storage' found' => ?_) (by simp [dead])
      (fun _ => gone) (inv.members s storage · found) (by simp)
    · obtain ⟨storage', found', alive⟩ := inv.sharer t s mine
      cases found.symm.trans found'
      simp [dead] at alive
    · cases found.symm.trans found'
      exact ⟨rfl, rfl⟩
  | @rebuild c x m sent arrives =>
    have pending : w.stage x ≠ .released := by simp [arrives]
    simp only [Sharing.rebuild]
    split
    · exact inv.goOn sent pending (by simp) fun _ _ _ => .inr
    · split
      · exact inv.goOn sent pending (by simp) fun _ _ _ => .inr
      · exact inv.goOn sent pending (by simp) fun _ _ _ => .inr
  | @newShared c x m sent next =>
    refine inv.goOn sent (by simp [next]) (by simp) fun c' handle y there => ?_
    simp only [update_apply] at there
    split at there
    · rename_i same
      simp only [update_apply] at there
      split at there
      · rename_i here
        exact .inl ⟨(Option.some.inj there).symm, here⟩
      · exact .inr (same ▸ there)
    · exact .inr there
  | @newSharedFailed c x next =>
    obtain ⟨m, sent⟩ := inv.started (x := x) (by simp [next])
    exact inv.goOn sent (by simp [next]) (by simp) fun _ _ _ => .inr
  | @dropShared c x there =>
    obtain ⟨m, sent⟩ := inv.started (x := x) (by simp [there])
    exact inv.goOn sent (by simp [there]) (by simp) fun _ _ _ => .inr
  | release sent next => exact inv.release sent (by simp [next])

end Consistent

/-! ### Runs -/

/-- No memory is freed that a consumer uses or is going to open, and none is mistaken for
another. -/
structure SharingSafe (w : Sharing) : Prop where
  /-- Until the counter of its message is released, the storage that a message speaks of has its
  memory, where the message says. -/
  intact : ∀ x m, w.messages x = some m → w.stage x ≠ .released →
    ∃ s storage, w.storages s = some storage ∧ storage.freed = false ∧
      storage.handle = m.storageHandle ∧ x ∈ storage.sentData
  /-- A storage that a consumer finds in its cache is the one that the message speaks of. -/
  found : ∀ c x y m, w.messages x = some m → w.stage x ≠ .released →
    w.storageFromCache c m.storageHandle = some y →
      ∃ s storage, w.storages s = some storage ∧ x ∈ storage.sentData ∧ y ∈ storage.sentData
  /-- Its sent data is alive, and has a counter of its own at one, in a file that is there. -/
  counted : ∀ x m, w.messages x = some m → w.stage x ≠ .released →
    x ∈ w.producer.live ∧ w.producer.refCountersFiles m.refCounter.handle = true ∧
      w.producer.counters m.refCounter = 1 ∧
      ∀ y m', w.messages y = some m' → w.stage y ≠ .released → m'.refCounter = m.refCounter → y = x
  /-- Nothing keeps a sent data in the limbo whose message is released. -/
  reclaimed : ∀ x ∈ w.producer.sharedBlocks, w.stage x = .released →
    ∀ t after, x ∉ (w.producer.collect t after).sharedBlocks

theorem Consistent.safe (inv : Consistent w) : SharingSafe w := by
  have intact : ∀ x m, w.messages x = some m → w.stage x ≠ .released →
      ∃ s storage, w.storages s = some storage ∧ storage.freed = false ∧
        storage.handle = m.storageHandle ∧ x ∈ storage.sentData := by
    intro x m sent pending
    obtain ⟨_, _, s, storage, found, member, handle⟩ := inv.sent x m sent
    refine ⟨s, storage, found, ?_, handle.symm, member⟩
    by_contra freed
    exact inv.gone s storage found (by simpa using freed) x member (inv.kept x m sent pending)
  refine ⟨intact, fun c x y m sent pending cached => ?_, fun x m sent pending => ?_,
    fun x limbo done t after stays => ?_⟩
  · obtain ⟨s, storage, found, unfreed, handle, member⟩ := intact x m sent pending
    obtain ⟨entry, mapped⟩ := Option.filter_eq_some_iff.mp cached
    have there : w.stage y = .mapped c := by simpa using mapped
    obtain ⟨m', sent', same⟩ := inv.cached c m.storageHandle y entry
    obtain ⟨s', storage', found', unfreed', handle', member'⟩ :=
      intact y m' sent' (by simp [there])
    have this : s' = s := inv.handles s' s storage' storage found' found unfreed' unfreed
      (handle'.trans (same.trans handle.symm))
    subst this
    cases found.symm.trans found'
    exact ⟨s', storage, found, member, member'⟩
  · have live := inv.kept x m sent pending
    obtain ⟨_, slot, _⟩ := inv.sent x m sent
    refine ⟨live, slot ▸ inv.current.registered x live, slot ▸ inv.books.pending x live pending,
      fun y m' sent' pending' same => ?_⟩
    obtain ⟨_, slot', _⟩ := inv.sent y m' sent'
    exact inv.current.distinct y (inv.kept y m' sent' pending') x live
      (slot'.symm.trans (same.trans slot))
  · have place := inv.owners.limbo.2 x limbo
    have live := (inv.owners.live.2 x).mpr (by simp [place])
    have none := inv.books.done x live done
    simp [Producer.collect, none] at stays

/-- Sharing is safe in every interleaving of the producer's threads and the consumers, as long
as no thread cleans the current file of counters while a storage is shared. -/
theorem sharing_safe (run : Reaches (Meeting CleansApart SharingStep) {} w) : SharingSafe w := by
  have inv : Consistent w := run.invariant (fun inv taken => inv.step taken.1 taken.2) .start
  exact inv.safe

/-- A storage that was shared with a consumer, which has it open, and dropped by the producer,
whose deletion of the sent data goes on. -/
def droppedWhileOpen : Sharing :=
  let begun := (({} : Sharing).setStorage 0 { handle := ⟨0, [1]⟩, nbytes := 4 }).share 0 0
  let made := { begun with producer := ((begun.producer.setCounter 0).construct 0).rotate 0 0 }
  let sent := made.send 0 0 { handle := ⟨0, [1]⟩, nbytes := 4 } 0
  let message : Message := ⟨⟨0, [1]⟩, 4, ⟨0, 0⟩⟩
  let opened := (sent.rebuild 1 0 message).newShared 1 0 message
  let dropped := opened.setStorage 0
    { handle := ⟨0, [1]⟩, nbytes := 4, sentData := [0], alive := false }
  { dropped with producer := ((dropped.producer.deleteBegin 0 0).checkCounter 0 0).addLimbo 0 0 }

theorem reaches_next {first : Sharing} (run : Reaches (Meeting CleansApart SharingStep) first w)
    (unclean : ∀ t, action ≠ .within (.clean t)) (taken : SharingStep w action w') :
    Reaches (Meeting CleansApart SharingStep) first w' :=
  run.next ⟨fun t same => absurd same (unclean t), taken⟩

theorem droppedWhileOpen_reached :
    Reaches (Meeting CleansApart SharingStep) {} droppedWhileOpen := by
  have allocated := reaches_next .refl (by simp) (@SharingStep.allocate {} 0 ⟨0, [1]⟩ 4 rfl (by simp))
  have shared := reaches_next allocated (by simp) (.share (t := 0) (s := 0) rfl rfl rfl rfl)
  have set := reaches_next shared (by simp) (.within rfl (.setCounter (t := 0) rfl))
  have constructed := reaches_next set (by simp) (.within rfl (.construct (t := 0) rfl))
  have rotated := reaches_next constructed (by simp) (.within rfl (.rotate (t := 0) (by rfl)))
  have sent := reaches_next rotated (by simp) (.send (t := 0) (s := 0) (x := 0) rfl rfl rfl)
  have arrived := reaches_next sent (by simp) (.rebuild (c := 1) (x := 0) rfl rfl)
  have opened := reaches_next arrived (by simp) (.newShared (c := 1) (x := 0) rfl (by rfl))
  have dropped := reaches_next opened (by simp) (.drop (s := 0) rfl rfl (by
    intro t held
    cases held))
  have deleted := reaches_next dropped (by simp) (.deleteBegin (t := 0) (x := 0) (s := 0) rfl rfl
    rfl ⟨rfl, [], [], rfl, by simp⟩)
  have checked := reaches_next deleted (by simp) (.within rfl (.checkCounter (t := 0) rfl))
  exact reaches_next checked (by simp) (.within rfl (.addLimbo (t := 0) rfl))

theorem sharing_safe_droppedWhileOpen :
    (droppedWhileOpen.stage 0 = .mapped 1 ∧ droppedWhileOpen.producer.sharedBlocks = [0]) ∧
      SharingSafe droppedWhileOpen :=
  ⟨⟨rfl, rfl⟩, sharing_safe droppedWhileOpen_reached⟩

end TorchGcu.IpcRefCounters

import TorchGcu.Ipc.CurrentFile

/-! Slots of sent data in whole runs. -/
namespace TorchGcu.IpcRefCounters
open ProgramLogic Function

variable {s after : Producer} {act : Action} {t u : ThreadId} {x y : SentId} {file : FileId}

/-! ### Runs -/

/-- What holds in every state that is reached. -/
structure SlotsSafe (s : Producer) : Prop where
  /-- No two live sent data share a slot. -/
  distinct : ∀ x ∈ s.live, ∀ y ∈ s.live, s.slots x = s.slots y → x = y
  /-- The file of a live sent data is registered. -/
  registered : ∀ x ∈ s.live, s.refCountersFiles (s.slots x).handle = true
  /-- The current file is there with a free slot when a thread sets a counter, makes a sent data
  or rotates the offset, and it is there when a thread checks whether it is full. -/
  dereferences : ∀ t, (s.phase t).inGetNew = true → ∃ file, s.nextAvailable = some file ∧
    ((∀ x, s.phase t ≠ .checkFull x) → (s.files file).haveOffsets = true)
  /-- The used slots of a registered file are its live sent data, other than one that is made but
  whose offset was not rotated yet. -/
  used : ∀ file, s.refCountersFiles file = true → (s.files file).usedSlots = s.used file
  calm : ∀ t, s.phase t ≠ .crashed

/-- What holds of every step. -/
structure StepSafe (s after : Producer) : Prop where
  /-- A file is erased only when it has no live sent data. -/
  erased : ∀ file, s.refCountersFiles file = true → after.refCountersFiles file = false →
    ∀ x ∈ after.live, (after.slots x).handle ≠ file
  /-- The current file is dropped only when it has no live sent data, or is full. -/
  dropped : ∀ file, s.nextAvailable = some file → after.nextAvailable ≠ some file →
    (s.files file).haveOffsets = false ∨ ∀ x ∈ after.live, (after.slots x).handle ≠ file
  /-- A sent data that is in the limbo is not destroyed, and one that was there has no consumer
  any more. -/
  destroyed : ∀ x ∈ s.live, x ∉ after.live → x ∉ s.sharedBlocks ∧
    ∀ t, s.place x = .collected t → s.counters (s.slots x) = 0

/-- The current file is dropped when it is full, or erased. -/
theorem dropped_or_erased (taken : Step s act after) (current : s.nextAvailable = some file)
    (dropped : after.nextAvailable ≠ some file) :
    (s.files file).haveOffsets = false ∨ after.refCountersFiles file = false := by
  have destroys : ∀ x, (s.destroy x).nextAvailable = s.nextAvailable := fun x => by
    obtain ⟨files, registered, destroyed⟩ := destroy_eq s x
    rw [destroyed]
  cases taken with
  | checkFull next =>
    simp only [Producer.checkFull, Producer.deref, current] at dropped
    split at dropped
    · simp at dropped
    · case isFalse full => exact .inl (by simpa using full)
  | clean next =>
    simp only [Producer.safeCleanCurrentFile, current] at dropped ⊢
    split at dropped
    · case isTrue unused =>
      simp [unused, Producer.eraseFile, Producer.setPhase]
    · exact absurd current dropped
  | @resetEnd t last next =>
    refine absurd ?_ dropped
    rcases last with (_ | x) | _
    · exact current
    · exact (destroys x).trans current
    · simp only [Producer.resetEnd]
      split <;> exact current
  | resetOne next => exact absurd ((destroys _).trans current) dropped
  | getNewBegin | setCounter | construct | rotate =>
    refine absurd ?_ dropped
    simp [Producer.getNewBegin, Producer.setCounter, Producer.construct, Producer.rotate,
      Producer.deref, Producer.setPhase, Producer.setPlace, Producer.modifyFile, current]
  | checkCounter =>
    refine absurd ?_ dropped
    simp only [Producer.checkCounter]
    split <;> exact current
  | constructRaises | deleteBegin | addLimbo | collectBegin | collect | consume =>
    exact absurd current dropped

/-- A sent data is destroyed by the thread that took it from the limbo, or that deletes it. -/
theorem destroyed_by (taken : Step s act after) (found : x ∈ s.live) (gone : x ∉ after.live) :
    ∃ t, x ∈ (s.phase t).blocks ∨ (s.phase t).own = some x := by
  have destroys : ∀ {y}, x ∉ (s.destroy y).live → x = y := by
    intro y erased
    by_contra differs
    obtain ⟨files, registered, destroyed⟩ := destroy_eq s y
    rw [destroyed] at erased
    exact erased ((List.mem_erase_of_ne differs).mpr found)
  cases taken with
  | @resetOne t y blocks last next =>
    have same := destroys gone
    exact ⟨t, .inl (by rw [next, same]; exact List.mem_cons_self)⟩
  | @resetEnd t last next =>
    rcases last with (_ | y) | _
    · exact absurd found gone
    · have same := destroys gone
      exact ⟨t, .inr (by rw [next, same]; rfl)⟩
    · simp only [Producer.resetEnd] at gone
      split at gone
      all_goals exact absurd found gone
  | construct | getNewBegin | setCounter | rotate | checkFull =>
    refine absurd ?_ gone
    cases current : s.nextAvailable
    all_goals simp [Producer.getNewBegin, Producer.setCounter, Producer.construct, Producer.rotate,
      Producer.checkFull, Producer.deref, Producer.setPhase, Producer.setPlace,
      Producer.modifyFile, current, found]
  | checkCounter =>
    simp only [Producer.checkCounter] at gone
    split at gone
    all_goals exact absurd found gone
  | clean =>
    simp only [Producer.safeCleanCurrentFile] at gone
    split at gone
    · exact absurd found gone
    · split at gone
      all_goals exact absurd found gone
  | constructRaises | deleteBegin | addLimbo | collectBegin | collect | consume =>
    exact absurd found gone

theorem slotsSafe_of (inv : Current s) : SlotsSafe s where
  distinct := inv.distinct
  registered := inv.registered
  dereferences t inside := by
    cases phase : s.phase t with
    | setCounter =>
      obtain ⟨file, current, free⟩ := inv.room t (.inl phase)
      exact ⟨file, current, fun _ => free⟩
    | construct =>
      obtain ⟨file, current, free⟩ := inv.room t (.inr phase)
      exact ⟨file, current, fun _ => free⟩
    | rotate x =>
      obtain ⟨current, free, -⟩ := inv.rotating t x phase
      exact ⟨_, current, fun _ => free⟩
    | checkFull x => exact ⟨_, inv.checking t x phase, fun other => absurd rfl (other x)⟩
    | _ => simp [phase, Phase.inGetNew] at inside
  used := inv.used
  calm := inv.calm

theorem stepSafe_of (owners : Owners s) (freed : Freed s) (inv' : Current after)
    (taken : Step s act after) : StepSafe s after where
  erased file _ gone x found here := by
    have stays := inv'.registered x found
    rw [here, gone] at stays
    cases stays
  dropped file current dropped := by
    refine (dropped_or_erased taken current dropped).imp_right fun gone x found here => ?_
    have stays := inv'.registered x found
    rw [here, gone] at stays
    cases stays
  destroyed x found gone := by
    obtain ⟨t, taken | held⟩ := destroyed_by taken found gone
    · have place := (owners.collected t).2 x taken
      refine ⟨fun inLimbo => ?_, fun u _ => freed t x taken⟩
      have limbo := owners.limbo.2 x inLimbo
      simp [place] at limbo
    · have place := owners.held t x held
      refine ⟨fun inLimbo => ?_, fun u collected => ?_⟩
      · have limbo := owners.limbo.2 x inLimbo
        simp [place] at limbo
      · simp [place] at collected

/-- In every interleaving in which nobody disturbs a thread in `GetNewRefCountedSentData`, slots
are neither shared nor lost. -/
theorem sent_data_slots (s : Producer) (run : Reaches (Meeting Undisturbed Step) {} s) :
    SlotsSafe s ∧ ∀ act after, Undisturbed s act → Step s act after → StepSafe s after := by
  have inv : Owners s ∧ Current s ∧ Freed s := by
    refine run.invariant (P := fun s => Owners s ∧ Current s ∧ Freed s) ?_
      ⟨owners_start, current_start, by simp [Freed, Phase.blocks]⟩
    rintro s act after ⟨owners, inv, freed⟩ ⟨allowed, taken⟩
    exact ⟨owners.step taken, inv.step owners allowed taken, freed.step owners inv taken⟩
  obtain ⟨owners, inv, freed⟩ := inv
  exact ⟨slotsSafe_of inv, fun act after allowed taken =>
    stepSafe_of owners freed (inv.step owners allowed taken) taken⟩

/-! ### Runs of one thread, and of two -/

/-- A thread is not disturbed while all others do nothing. -/
theorem undisturbed_alone (others : ∀ u, u ≠ t → s.phase u = .idle)
    (mine : act.usesCurrent = none ∨ act.usesCurrent = some t) : Undisturbed s act := by
  intro u uses v differs
  rcases mine with none | same
  · simp [none] at uses
  · obtain rfl : t = u := Option.some.inj (same.symm.trans uses)
    rw [others v differs]
    rfl

/-- One thread has made `n` sent data in the first file. -/
structure Filling (n : Nat) (s : Producer) : Prop where
  idle : ∀ t, s.phase t = .idle
  current : s.nextAvailable = some 0
  offset : (s.files 0).nextOffset = n
  first : 0 ∈ s.live ∧ (s.slots 0).handle = 0 ∧ 0 < s.made

/-- One more sent data, up to the check whether the file is full. -/
structure Rotated (n : Nat) (s : Producer) : Prop where
  next : ∃ x, s.phase 0 = .checkFull x
  others : ∀ t, t ≠ 0 → s.phase t = .idle
  current : s.nextAvailable = some 0
  offset : (s.files 0).nextOffset = n
  first : 0 ∈ s.live ∧ (s.slots 0).handle = 0 ∧ 0 < s.made

theorem Filling.rotated {n : Nat} (filling : Filling n s) :
    ∃ later, Reaches (Meeting Undisturbed Step) s later ∧ Rotated (n + 1) later := by
  obtain ⟨idle, current, offset, first⟩ := filling
  refine ⟨(((((s.getNewBegin 0).setCounter 0).construct 0).rotate 0 s.made)), ?_, ?_⟩
  · refine .next (a := .rotate 0) (.next (a := .construct 0) (.next (a := .setCounter 0)
      (.next (a := .getNewBegin 0) .refl ⟨?_, .getNewBegin (idle 0)⟩) ⟨?_, .setCounter ?_⟩)
      ⟨?_, .construct ?_⟩) ⟨?_, .rotate ?_⟩
    all_goals
      try refine undisturbed_alone (t := 0) (fun u differs => ?_) (.inr rfl)
      simp [Producer.getNewBegin, Producer.setCounter, Producer.construct, Producer.deref,
        Producer.setPhase, Producer.setPlace, *]
  · constructor
    all_goals
      simp [Producer.getNewBegin, Producer.setCounter, Producer.construct, Producer.rotate,
        Producer.deref, Producer.setPhase, Producer.setPlace, Producer.modifyFile,
        RefCountersFile.rotateOffset, current, offset]
    · exact fun t differs => by simp [differs, idle]
    · have differs : 0 ≠ s.made := by omega
      simp [update_of_ne differs, first]

theorem Rotated.undisturbed {n : Nat} (rotated : Rotated n s) : Undisturbed s (.checkFull 0) :=
  undisturbed_alone rotated.others (.inr rfl)

theorem Rotated.filling {n : Nat} (rotated : Rotated n s) (room : n < gcuIPCRefCounterFileSize) :
    ∃ later, Reaches (Meeting Undisturbed Step) s later ∧ Filling n later := by
  obtain ⟨x, next⟩ := rotated.next
  refine ⟨s.checkFull 0 x, .next .refl ⟨rotated.undisturbed, .checkFull next⟩, ?_⟩
  have free : (s.files 0).haveOffsets = true := by
    simpa [RefCountersFile.haveOffsets, rotated.offset] using room
  simp only [Producer.checkFull, Producer.deref, rotated.current, Producer.setPhase,
    Producer.setPlace, free, if_true]
  refine ⟨fun t => ?_, rfl, rotated.offset, rotated.first⟩
  simp only [update_apply]
  split
  · rfl
  · case isFalse differs => exact rotated.others t differs

/-- The first sent data of a new file. -/
def firstSent : Producer :=
  ((((({} : Producer).getNewBegin 0).setCounter 0).construct 0).rotate 0 0)

theorem firstSent_reached : Reaches (Meeting Undisturbed Step) {} firstSent := by
  refine .next (a := .rotate 0) (.next (a := .construct 0) (.next (a := .setCounter 0)
    (.next (a := .getNewBegin 0) .refl ⟨?_, .getNewBegin rfl⟩) ⟨?_, .setCounter rfl⟩)
    ⟨?_, .construct rfl⟩) ⟨?_, .rotate rfl⟩
  all_goals
    refine undisturbed_alone (t := 0) (fun u differs => ?_) (.inr rfl)
    simp [Producer.getNewBegin, Producer.setCounter, Producer.construct, Producer.deref,
      Producer.setPhase, Producer.setPlace, differs]

theorem firstSent_rotated : Rotated 1 firstSent := by
  refine ⟨⟨0, rfl⟩, fun t differs => ?_, rfl, rfl, ⟨List.mem_cons_self, rfl, Nat.one_pos⟩⟩
  simp [firstSent, Producer.getNewBegin, Producer.setCounter, Producer.construct, Producer.rotate,
    Producer.deref, Producer.setPhase, Producer.setPlace, Producer.modifyFile, differs]

/-- A step of one of two threads, with the other one and those behind them outside of it. -/
theorem reaches_by (t : ThreadId) {start : Producer}
    (run : Reaches (Meeting Undisturbed Step) start s) (two : t = 0 ∨ t = 1)
    (uses : act.usesCurrent = some t) (other : (s.phase (1 - t)).inGetNew = false)
    (rest : ∀ u, (s.phase (u + 2)).inGetNew = false) (taken : Step s act after) :
    Reaches (Meeting Undisturbed Step) start after := by
  refine run.next ⟨fun t' uses' u different => ?_, taken⟩
  obtain rfl : t = t' := Option.some.inj (uses.symm.trans uses')
  rcases u with _ | _ | u
  · rcases two with rfl | rfl
    · exact absurd rfl different
    · exact other
  · rcases two with rfl | rfl
    · exact other
    · exact absurd rfl different
  · exact rest u

theorem reaches_apart {start : Producer} (run : Reaches (Meeting Undisturbed Step) start s)
    (apart : act.usesCurrent = none) (taken : Step s act after) :
    Reaches (Meeting Undisturbed Step) start after :=
  run.next ⟨fun t uses => by simp [apart] at uses, taken⟩

/-- Two threads make sent data in turns, while the first one deletes what a consumer uses still; it
is destroyed by a collection that cleans as well. -/
theorem sent_data_slots_inTurns : ∃ s, Reaches (Meeting Undisturbed Step) {} s ∧ s.live = [2, 1] ∧
    s.slots 1 = ⟨0, 1⟩ ∧ s.slots 2 = ⟨0, 2⟩ ∧ s.place 0 = .nowhere ∧ SlotsSafe s ∧
      ∀ act after, Undisturbed s act → Step s act after → StepSafe s after := by
  have run : Reaches (Meeting Undisturbed Step) {} {} := .refl
  -- the first thread makes a sent data, and the second begins with one
  have run := reaches_by 0 run (.inl rfl) rfl rfl (fun _ => rfl) (.getNewBegin rfl)
  have run := reaches_by 0 run (.inl rfl) rfl rfl (fun _ => rfl) (.setCounter rfl)
  have run := reaches_by 0 run (.inl rfl) rfl rfl (fun _ => rfl) (.construct rfl)
  have run := reaches_by 0 run (.inl rfl) rfl rfl (fun _ => rfl) (.rotate (by rfl))
  have run := reaches_by 0 run (.inl rfl) rfl rfl (fun _ => rfl) (.checkFull (by rfl))
  have run := reaches_by 1 run (.inr rfl) rfl rfl (fun _ => rfl) (.getNewBegin rfl)
  have run := reaches_by 1 run (.inr rfl) rfl rfl (fun _ => rfl) (.setCounter rfl)
  have run := reaches_by 1 run (.inr rfl) rfl rfl (fun _ => rfl) (.construct rfl)
  have run := reaches_by 1 run (.inr rfl) rfl rfl (fun _ => rfl) (.rotate (by rfl))
  -- the first thread deletes its own, which goes to the limbo
  have run := reaches_apart run rfl (show Step _ (.deleteBegin 0 0) _ from .deleteBegin rfl rfl)
  have run := reaches_apart run rfl (.checkCounter (t := 0) rfl)
  have run := reaches_apart run rfl (.addLimbo (t := 0) rfl)
  have run := reaches_by 1 run (.inr rfl) rfl rfl (fun _ => rfl) (.checkFull (by rfl))
  have run := reaches_apart run rfl (.collect (t := 0) rfl)
  -- the second thread makes another one, while the consumer lets go of the first
  have run := reaches_by 1 run (.inr rfl) rfl rfl (fun _ => rfl) (.getNewBegin rfl)
  have run := reaches_by 1 run (.inr rfl) rfl rfl (fun _ => rfl) (.setCounter rfl)
  have run := reaches_apart run rfl (show Step _ (.consume ⟨0, 0⟩) _ from .consume (by decide))
  have run := reaches_by 1 run (.inr rfl) rfl rfl (fun _ => rfl) (.construct rfl)
  have run := reaches_apart run rfl (.resetEnd (t := 0) rfl)
  have run := reaches_by 1 run (.inr rfl) rfl rfl (fun _ => rfl) (.rotate (by rfl))
  have run := reaches_by 1 run (.inr rfl) rfl rfl (fun _ => rfl) (.checkFull (by rfl))
  -- the collection destroys the first, and cleans
  have run := reaches_apart run rfl (.collectBegin (t := 0) rfl)
  have run := reaches_apart run rfl (.collect (t := 0) rfl)
  have run := reaches_apart run rfl (.resetOne (t := 0) rfl)
  have run := reaches_apart run rfl (.resetEnd (t := 0) rfl)
  have run := reaches_by 0 run (.inl rfl) rfl rfl (fun _ => rfl) (.clean rfl)
  exact ⟨_, run, rfl, rfl, rfl, rfl, sent_data_slots _ run⟩

theorem rotated_up_to (n : Nat) (fits : n < gcuIPCRefCounterFileSize) :
    ∃ s, Reaches (Meeting Undisturbed Step) {} s ∧ Rotated (n + 1) s := by
  induction n with
  | zero => exact ⟨firstSent, firstSent_reached, firstSent_rotated⟩
  | succ n ih =>
    obtain ⟨s, reached, rotated⟩ := ih (by omega)
    obtain ⟨filled, more, filling⟩ := rotated.filling fits
    obtain ⟨later, last, again⟩ := filling.rotated
    exact ⟨later, (reached.trans more).trans last, again⟩

/-- A full file is dropped as the current one while its sent data are alive. -/
theorem full_file_dropped : ∃ s after, Reaches (Meeting Undisturbed Step) {} s ∧
    Step s (.checkFull 0) after ∧ s.nextAvailable = some 0 ∧ after.nextAvailable = none ∧
      ∃ x ∈ after.live, (after.slots x).handle = 0 := by
  obtain ⟨s, reached, rotated⟩ := rotated_up_to 9999 (by decide)
  obtain ⟨x, next⟩ := rotated.next
  have full : (s.files 0).haveOffsets = false := by
    simp [RefCountersFile.haveOffsets, rotated.offset, gcuIPCRefCounterFileSize]
  refine ⟨s, s.checkFull 0 x, reached, .checkFull next, rotated.current, ?_, 0, ?_, ?_⟩
  all_goals simp only [Producer.checkFull, Producer.deref, rotated.current, Producer.setPhase,
    Producer.setPlace, full]
  · rfl
  · exact rotated.first.1
  · exact rotated.first.2.1

/-- Two threads that make their sent data at once. -/
def racing : Producer :=
  ((((((({} : Producer).getNewBegin 0).getNewBegin 1).setCounter 0).setCounter 1).construct
    0).construct 1)

theorem racing_reached : Reaches Step {} racing :=
  .next (a := .construct 1) (.next (a := .construct 0) (.next (a := .setCounter 1)
    (.next (a := .setCounter 0) (.next (a := .getNewBegin 1) (.next (a := .getNewBegin 0) .refl
      (.getNewBegin rfl)) (.getNewBegin rfl)) (.setCounter rfl)) (.setCounter rfl))
      (.construct rfl)) (.construct rfl)

/-- Slots are shared when threads race, and a full file is dropped while it has live sent data. -/
theorem racing_threads_share_a_slot :
    (∃ s, Reaches Step {} s ∧ ∃ x ∈ s.live, ∃ y ∈ s.live, x ≠ y ∧ s.slots x = s.slots y) ∧
      ∃ s after, Reaches (Meeting Undisturbed Step) {} s ∧ Step s (.checkFull 0) after ∧
        s.nextAvailable = some 0 ∧ after.nextAvailable = none ∧
          ∃ x ∈ after.live, (after.slots x).handle = 0 :=
  ⟨⟨racing, racing_reached, 0, by decide, 1, by decide, by decide, rfl⟩, full_file_dropped⟩

end TorchGcu.IpcRefCounters

import TorchGcu.Ipc.SentOwners

/-! The current file of counters: it has a free slot for the thread that makes a sent data, and
each slot one user, as long as no other thread looks at it meanwhile. -/
namespace TorchGcu.IpcRefCounters
open Function

variable {s after : Producer} {act : Action} {t u : ThreadId} {x y : SentId} {file : FileId}

/-- Between the section of `GetNewRefCountedSentData` and its end. -/
def Phase.inGetNew : Phase → Bool
  | .setCounter | .construct | .rotate _ | .checkFull _ => true
  | _ => false

/-! ### The current file -/

def Place.isMaking : Place → Bool
  | .making _ => true
  | _ => false

/-- A sent data uses a slot of a file once its offset was rotated. -/
def Producer.uses (s : Producer) (file : FileId) (x : SentId) : Bool :=
  (s.slots x).handle = file ∧ (s.place x).isMaking = false

/-- The live sent data that use a slot of a file. -/
def Producer.used (s : Producer) (file : FileId) : Nat := s.live.countP (s.uses file)

/-- The thread of a step that looks at the current file. -/
def Action.usesCurrent : Action → Option ThreadId
  | .getNewBegin t | .setCounter t | .construct t | .constructRaises t | .rotate t | .checkFull t
  | .clean t => some t
  | _ => none

/-- No other thread is between the section of `GetNewRefCountedSentData` and its end when a thread
looks at the current file. -/
def Undisturbed (s : Producer) (act : Action) : Prop :=
  ∀ t, act.usesCurrent = some t → ∀ u, u ≠ t → (s.phase u).inGetNew = false

/-- The current file has a free slot, unless it is about to be dropped; its slots and those of
all registered files have one user each. -/
structure Current (s : Producer) : Prop where
  alone : ∀ t u, (s.phase t).inGetNew = true → (s.phase u).inGetNew = true → t = u
  making : ∀ t x, s.place x = .making t → s.phase t = .rotate x
  room : ∀ t, s.phase t = .setCounter ∨ s.phase t = .construct → ∃ file, s.nextAvailable = some file ∧
    (s.files file).haveOffsets = true
  rotating : ∀ t x, s.phase t = .rotate x → s.nextAvailable = some (s.slots x).handle ∧
    (s.files (s.slots x).handle).haveOffsets = true ∧
      (s.slots x).offset = (s.files (s.slots x).handle).nextOffset
  checking : ∀ t x, s.phase t = .checkFull x → s.nextAvailable = some (s.slots x).handle
  full : ∀ file, s.nextAvailable = some file → (s.files file).haveOffsets = true ∨
    ∃ t x, s.phase t = .checkFull x
  known : ∀ file, s.nextAvailable = some file → s.refCountersFiles file = true
  created : ∀ file, s.refCountersFiles file = true → file < s.created
  registered : ∀ x ∈ s.live, s.refCountersFiles (s.slots x).handle = true
  offset : ∀ x ∈ s.live, (s.place x).isMaking = false →
    (s.slots x).offset < (s.files (s.slots x).handle).nextOffset
  distinct : ∀ x ∈ s.live, ∀ y ∈ s.live, s.slots x = s.slots y → x = y
  used : ∀ file, s.refCountersFiles file = true → (s.files file).usedSlots = s.used file
  calm : ∀ t, s.phase t ≠ .crashed

theorem current_start : Current {} := by
  constructor <;> simp [Phase.inGetNew]

theorem used_congr (live : after.live = s.live) (slots : after.slots = s.slots)
    (making : ∀ x ∈ s.live, (after.place x).isMaking = (s.place x).isMaking) (file : FileId) :
    after.used file = s.used file := by
  simp only [Producer.used, live]
  exact List.countP_congr fun x found => by simp [Producer.uses, slots, making x found]

theorem Place.isMaking_iff {place : Place} : place.isMaking = true ↔ ∃ t, place = .making t := by
  cases place <;> simp [Place.isMaking]

/-- A thread that goes on outside of `GetNewRefCountedSentData` changes no phase of it. -/
theorem phase_same {p : Phase} (phases : after.phase = update s.phase t p)
    (before : (s.phase t).inGetNew = false) (later : p.inGetNew = false) (u : ThreadId) {q : Phase}
    (getNew : q.inGetNew = true) : after.phase u = q ↔ s.phase u = q := by
  rw [phases, update_apply]
  split
  · case isTrue this =>
    subst this
    constructor
    all_goals
      rintro rfl
      simp_all
  · rfl

theorem inGetNew_same {p : Phase} (phases : after.phase = update s.phase t p)
    (before : (s.phase t).inGetNew = false) (later : p.inGetNew = false) (u : ThreadId) :
    (after.phase u).inGetNew = (s.phase u).inGetNew := by
  rw [phases, update_apply]
  split
  · case isTrue this => rw [this, before, later]
  · rfl

/-- A step that leaves the files, the slots and the sent data as they are. -/
theorem Current.keep (inv : Current s) {p : Phase} (files : after.files = s.files)
    (created : after.created = s.created) (registered : after.refCountersFiles = s.refCountersFiles)
    (next : after.nextAvailable = s.nextAvailable) (slots : after.slots = s.slots)
    (live : after.live = s.live) (phase : after.phase = update s.phase t p)
    (place : ∀ x u, after.place x = .making u ↔ s.place x = .making u)
    (before : (s.phase t).inGetNew = false) (later : p.inGetNew = false) (calm : p ≠ .crashed) :
    Current after := by
  have making : ∀ x, (after.place x).isMaking = (s.place x).isMaking := by
    intro x
    rw [Bool.eq_iff_iff, Place.isMaking_iff, Place.isMaking_iff]
    exact exists_congr fun u => place x u
  have same := fun u q => phase_same (q := q) phase before later u
  have inside := inGetNew_same phase before later
  constructor
  · simpa only [inside] using inv.alone
  · intro u x held
    exact (same u _ rfl).mpr (inv.making u x ((place x u).mp held))
  · intro u phases
    rw [same u _ rfl, same u _ rfl] at phases
    exact next ▸ files ▸ inv.room u phases
  · intro u x rotating
    rw [same u _ rfl] at rotating
    exact next ▸ slots ▸ files ▸ inv.rotating u x rotating
  · intro u x checking
    rw [same u _ rfl] at checking
    exact next ▸ slots ▸ inv.checking u x checking
  · intro file current
    rw [next] at current
    rw [files]
    refine (inv.full file current).imp_right fun ⟨u, x, checking⟩ => ⟨u, x, ?_⟩
    exact (same u _ rfl).mpr checking
  · exact next ▸ registered ▸ inv.known
  · exact registered ▸ created ▸ inv.created
  · exact live ▸ slots ▸ registered ▸ inv.registered
  · simpa only [live, slots, files, making] using inv.offset
  · exact live ▸ slots ▸ inv.distinct
  · intro file known
    rw [registered] at known
    rw [files, used_congr live slots (fun x _ => making x), inv.used file known]
  · intro u
    rw [phase, update_apply]
    split
    · exact calm
    · exact inv.calm u

/-- What the destruction of a sent data with a registered file does to the files. -/
theorem destroy_files (known : s.refCountersFiles (s.slots x).handle = true) :
    (s.destroy x).files = update s.files (s.slots x).handle
      (s.files (s.slots x).handle).returnOffset ∧
    ((s.destroy x).refCountersFiles = s.refCountersFiles ∨
      (s.destroy x).refCountersFiles = update s.refCountersFiles (s.slots x).handle false ∧
        (s.files (s.slots x).handle).usedSlots = 1 ∧
          (s.files (s.slots x).handle).haveOffsets = false) := by
  simp only [Producer.destroy, Producer.returnRefCounter, Producer.setPlace, known, if_true]
  split
  · case isTrue unused =>
    refine ⟨rfl, .inr ⟨rfl, ?_, ?_⟩⟩
    · have zero := unused.1
      simp [Producer.modifyFile, RefCountersFile.offsetsInUse, RefCountersFile.returnOffset] at zero
      omega
    · simpa [Producer.modifyFile, RefCountersFile.haveOffsets, RefCountersFile.returnOffset]
        using unused.2
  · exact ⟨rfl, .inl rfl⟩

theorem used_erase (live : after.live = s.live.erase x) (slots : after.slots = s.slots)
    (place : after.place = update s.place x .nowhere) (nodup : s.live.Nodup) (found : x ∈ s.live)
    (made : (s.place x).isMaking = false) (file : FileId) :
    s.used file = after.used file + if (s.slots x).handle = file then 1 else 0 := by
  have others : after.live.countP (after.uses file) = after.live.countP (s.uses file) := by
    refine List.countP_congr fun y held => ?_
    have differs : y ≠ x := fun same => by
      rw [live, same] at held
      exact nodup.not_mem_erase held
    simp [Producer.uses, slots, place, differs]
  have split := (List.perm_cons_erase found).countP_eq (s.uses file)
  rw [List.countP_cons] at split
  rw [Producer.used, Producer.used, others, live, split]
  congr 1
  simp [Producer.uses, made]

/-- A sent data that is destroyed gives its slot back; a full file goes with its last one. -/
theorem Current.lose (inv : Current s) (owners : Owners s) {p : Phase}
    (mine : s.place x = .held t ∨ s.place x = .collected t) (phases : after.phase = update s.phase t p)
    (files : after.files = (s.destroy x).files)
    (registered : after.refCountersFiles = (s.destroy x).refCountersFiles)
    (created : after.created = s.created) (next : after.nextAvailable = s.nextAvailable)
    (slots : after.slots = s.slots) (live : after.live = s.live.erase x)
    (place : after.place = update s.place x .nowhere)
    (before : (s.phase t).inGetNew = false) (later : p.inGetNew = false) (calm : p ≠ .crashed) :
    Current after := by
  have found : x ∈ s.live := by
    rw [owners.live.2]
    rcases mine with held | held <;> simp [held]
  have made : (s.place x).isMaking = false := by
    rcases mine with held | held <;> simp [held, Place.isMaking]
  obtain ⟨filesEq, registeredEq⟩ := destroy_files (inv.registered x found)
  have same := fun u q => phase_same (q := q) phases before later u
  have inside := inGetNew_same phases before later
  have offsets : ∀ file, (after.files file).nextOffset = (s.files file).nextOffset := by
    intro file
    rw [files, filesEq, update_apply]
    split
    · case isTrue this => rw [this]; rfl
    · rfl
  have haveOffsets : ∀ file, (after.files file).haveOffsets = (s.files file).haveOffsets := by
    intro file
    simp only [RefCountersFile.haveOffsets, offsets]
  have usedEq : ∀ file, s.refCountersFiles file = true →
      (after.files file).usedSlots = after.used file := by
    intro file known
    have count := used_erase live slots place owners.live.1 found made file
    have old := inv.used file known
    rw [files, filesEq, update_apply]
    split
    · case isTrue this =>
      subst this
      simp only [if_true, RefCountersFile.returnOffset] at count ⊢
      omega
    · case isFalse others =>
      rw [if_neg (fun same => others same.symm)] at count
      omega
  -- a file that is erased has no user any more
  have noUser : ∀ file, s.refCountersFiles file = true → after.refCountersFiles file = false →
      (s.files file).haveOffsets = false ∧ after.used file = 0 := by
    intro file known gone
    rw [registered] at gone
    rcases registeredEq with kept | ⟨erased, one, fullFile⟩
    · rw [kept, known] at gone
      cases gone
    · rw [erased, update_apply] at gone
      split at gone
      · case isTrue this =>
        have count := usedEq file known
        rw [files, filesEq, this, update_self] at count
        simp only [RefCountersFile.returnOffset, one] at count
        rw [this]
        exact ⟨fullFile, by omega⟩
      · rw [known] at gone
        cases gone
  have others : ∀ y ∈ after.live, y ∈ s.live ∧ after.place y = s.place y := by
    intro y held
    rw [live] at held
    have differs : y ≠ x := fun same => owners.live.1.not_mem_erase (same ▸ held)
    exact ⟨List.mem_of_mem_erase held, by rw [place, update_of_ne differs]⟩
  have uses : ∀ y ∈ after.live, (s.place y).isMaking = false →
      after.used (s.slots y).handle ≠ 0 := by
    intro y held notMaking
    refine Nat.pos_iff_ne_zero.mp (List.countP_pos_iff.mpr ⟨y, held, ?_⟩)
    simp [Producer.uses, slots, (others y held).2, notMaking]
  constructor
  · simpa only [inside] using inv.alone
  · intro u y held
    rw [place, update_apply] at held
    refine (same u _ rfl).mpr (inv.making u y ?_)
    split at held
    · cases held
    · exact held
  · intro u starting
    rw [same u _ rfl, same u _ rfl] at starting
    obtain ⟨file, current, free⟩ := inv.room u starting
    exact ⟨file, next ▸ current, (haveOffsets file).trans free⟩
  · intro u y rotating
    rw [same u _ rfl] at rotating
    obtain ⟨current, free, at'⟩ := inv.rotating u y rotating
    rw [next, slots, haveOffsets, offsets]
    exact ⟨current, free, at'⟩
  · intro u y checking
    rw [same u _ rfl] at checking
    exact next ▸ slots ▸ inv.checking u y checking
  · intro file current
    rw [next] at current
    rw [haveOffsets]
    refine (inv.full file current).imp_right fun ⟨u, y, checking⟩ => ⟨u, y, ?_⟩
    exact (same u _ rfl).mpr checking
  · intro file current
    rw [next] at current
    have known := inv.known file current
    cases gone : after.refCountersFiles file with
    | true => rfl
    | false =>
      obtain ⟨fullFile, zero⟩ := noUser file known gone
      rcases inv.full file current with free | ⟨u, y, checking⟩
      · exact absurd (fullFile.symm.trans free) (by simp)
      · -- the thread that is about to drop the file still has its last slot
        have held := owners.held u y (congrArg Phase.own checking)
        have here : (s.slots y).handle = file :=
          Option.some.inj ((inv.checking u y checking).symm.trans current)
        have differs : y ≠ x := by
          rintro rfl
          rcases mine with mine | mine
          · obtain rfl : u = t := by simpa [held] using mine
            simp [checking, Phase.inGetNew] at before
          · simp [held] at mine
        have stays : y ∈ after.live := by
          rw [live]
          exact (List.mem_erase_of_ne differs).mpr ((owners.live.2 y).mpr (by simp [held]))
        exact absurd (here ▸ zero) (uses y stays (by simp [held, Place.isMaking]))
  · intro file known
    rw [registered] at known
    rw [created]
    refine inv.created file ?_
    rcases registeredEq with kept | ⟨erased, -⟩
    · exact kept ▸ known
    · rw [erased, update_apply] at known
      split at known
      · cases known
      · exact known
  · intro y held
    obtain ⟨old, samePlace⟩ := others y held
    rw [slots]
    cases gone : after.refCountersFiles (s.slots y).handle with
    | true => rfl
    | false =>
      obtain ⟨fullFile, zero⟩ := noUser _ (inv.registered y old) gone
      cases making : (s.place y).isMaking with
      | false => exact absurd zero (uses y held making)
      | true =>
        obtain ⟨u, place⟩ := Place.isMaking_iff.mp making
        have free := (inv.rotating u y (inv.making u y place)).2.1
        exact absurd (fullFile.symm.trans free) (by simp)
  · intro y held notMaking
    obtain ⟨old, samePlace⟩ := others y held
    rw [slots, offsets]
    exact inv.offset y old (samePlace ▸ notMaking)
  · intro y heldY z heldZ sameSlot
    rw [slots] at sameSlot
    rw [live] at heldY heldZ
    exact inv.distinct y (List.mem_of_mem_erase heldY) z (List.mem_of_mem_erase heldZ) sameSlot
  · intro file known
    refine usedEq file ?_
    rw [registered] at known
    rcases registeredEq with kept | ⟨erased, -⟩
    · exact kept ▸ known
    · rw [erased, update_apply] at known
      split at known
      · cases known
      · exact known
  · intro u
    rw [phases, update_apply]
    split
    · exact calm
    · exact inv.calm u

/-- A sent data uses its slot once it is made. -/
theorem used_settle {q : Place} (live : after.live = s.live) (slots : after.slots = s.slots)
    (place : after.place = update s.place x q) (nodup : s.live.Nodup) (found : x ∈ s.live)
    (making : (s.place x).isMaking = true) (made : q.isMaking = false) (file : FileId) :
    after.used file = s.used file + if (s.slots x).handle = file then 1 else 0 := by
  have others : (s.live.erase x).countP (after.uses file) = (s.live.erase x).countP (s.uses file) := by
    refine List.countP_congr fun y held => ?_
    have differs : y ≠ x := fun same => nodup.not_mem_erase (same ▸ held)
    simp [Producer.uses, slots, place, differs]
  have split := (List.perm_cons_erase found).countP_eq (after.uses file)
  have splitBefore := (List.perm_cons_erase found).countP_eq (s.uses file)
  rw [List.countP_cons] at split splitBefore
  rw [Producer.used, Producer.used, live, split, splitBefore, others]
  simp [Producer.uses, slots, place, making, made]

/-! ### `GetNewRefCountedSentData` -/

theorem Current.getNewBegin (inv : Current s) (free : s.phase t = .idle)
    (alone : ∀ u, u ≠ t → (s.phase u).inGetNew = false) : Current (s.getNewBegin t) := by
  have outside : (s.phase t).inGetNew = false := by simp [free, Phase.inGetNew]
  have nobody : ∀ u, (s.phase u).inGetNew = false := by
    intro u
    by_cases this : u = t
    · exact this ▸ outside
    · exact alone u this
  have noRotate : ∀ u x, s.phase u ≠ .rotate x := fun u x rotating => by
    simpa [rotating, Phase.inGetNew] using nobody u
  have noCheck : ∀ u x, s.phase u ≠ .checkFull x := fun u x checking => by
    simpa [checking, Phase.inGetNew] using nobody u
  have unregistered : ∀ x ∈ s.live, (s.slots x).handle ≠ s.created := fun x found =>
    Nat.ne_of_lt (inv.created _ (inv.registered x found))
  simp only [Producer.getNewBegin, Producer.setPhase]
  split
  · constructor
    case used => exact fun file known => inv.used file known
    all_goals simp only [update_apply]
    all_goals grind -ring -linarith [Current, Phase.inGetNew]
  · constructor
    case room => exact fun _ _ => ⟨_, rfl, by simp [update_self]; decide⟩
    case full =>
      intro file current
      cases current
      exact .inl (by simp [update_self]; decide)
    case used =>
      intro file known
      show (update s.files s.created {} file).usedSlots = (s.used file : Int)
      by_cases new : file = s.created
      · have none : s.used s.created = 0 := by
          refine List.countP_eq_zero.mpr fun x found => ?_
          simp [Producer.uses, unregistered x found]
        simp [new, none]
      · simp only [update_of_ne new] at known ⊢
        exact inv.used file known
    all_goals simp only [update_apply]
    all_goals grind -ring -linarith [Current, Phase.inGetNew]

theorem Current.setCounter (inv : Current s) (next : s.phase t = .setCounter)
    (alone : ∀ u, u ≠ t → (s.phase u).inGetNew = false) : Current (s.setCounter t) := by
  obtain ⟨file, current, free⟩ := inv.room t (.inl next)
  simp only [Producer.setCounter, Producer.deref, Producer.setPhase, current]
  constructor
  case used => exact fun file known => inv.used file known
  all_goals simp only [update_apply]
  all_goals grind -ring -linarith [Current, Phase.inGetNew]

/-- A sent data that is being made is made by the thread that rotates its offset. -/
theorem Current.rotates (inv : Current s) (making : (s.place x).isMaking = true) :
    ∃ u, s.phase u = .rotate x := by
  obtain ⟨u, place⟩ := Place.isMaking_iff.mp making
  exact ⟨u, inv.making u x place⟩

theorem Current.construct (inv : Current s) (owners : Owners s) (next : s.phase t = .construct)
    (alone : ∀ u, u ≠ t → (s.phase u).inGetNew = false) : Current (s.construct t) := by
  obtain ⟨file, current, free⟩ := inv.room t (.inr next)
  have noRotate : ∀ u x, s.phase u ≠ .rotate x := by
    intro u x rotating
    have this : u = t := inv.alone u t (by rw [rotating]; rfl) (by rw [next]; rfl)
    simp [this, next] at rotating
  have settled : ∀ x, (s.place x).isMaking = false := fun x => by
    cases making : (s.place x).isMaking with
    | false => rfl
    | true =>
      obtain ⟨u, rotating⟩ := inv.rotates making
      exact absurd rotating (noRotate u x)
  have isNew : ∀ x ∈ s.live, x ≠ s.made := fun x found => Nat.ne_of_lt (owners.bound x found)
  have registered := inv.known file current
  simp only [Producer.construct, Producer.deref, Producer.setPhase, Producer.setPlace, current]
  constructor
  case used =>
    intro other known
    refine (inv.used other known).trans (congrArg Int.ofNat ?_)
    simp only [Producer.used, List.countP_cons]
    rw [if_neg (by simp [Producer.uses, Place.isMaking]), Nat.add_zero]
    refine List.countP_congr fun x found => ?_
    simp [Producer.uses, update_of_ne (isNew x found)]
  case distinct =>
    have fresh : ∀ x ∈ s.live, s.slots x ≠ ⟨file, (s.files file).nextOffset⟩ := by
      intro x found same
      have before := inv.offset x found (settled x)
      simp [same] at before
    simp only [update_apply]
    grind -ring -linarith [Current]
  all_goals simp only [update_apply]
  all_goals grind -ring -linarith [Current, Phase.inGetNew, Place.isMaking]

theorem Current.constructRaises (inv : Current s) (next : s.phase t = .construct) :
    Current (s.setPhase t .idle) := by
  simp only [Producer.setPhase]
  constructor
  case used => exact fun file known => inv.used file known
  all_goals simp only [update_apply]
  all_goals grind -ring -linarith [Current, Phase.inGetNew]

theorem Current.rotate (inv : Current s) (owners : Owners s) (next : s.phase t = .rotate x)
    (alone : ∀ u, u ≠ t → (s.phase u).inGetNew = false) : Current (s.rotate t x) := by
  obtain ⟨current, free, offset⟩ := inv.rotating t x next
  have making := owners.making t x next
  have found : x ∈ s.live := (owners.live.2 x).mpr (by simp [making])
  simp only [Producer.rotate, Producer.deref, Producer.setPhase, Producer.setPlace,
    Producer.modifyFile, current]
  constructor
  case used =>
    intro file known
    have old := inv.used file known
    have isMaking : (s.place x).isMaking = true := by simp [making, Place.isMaking]
    refine Eq.trans ?_ (congrArg Int.ofNat (used_settle (s := s) (q := .held t) ?_ ?_ ?_
      owners.live.1 found isMaking rfl file).symm)
    · simp only [update_apply]
      split
      · case isTrue this =>
        subst this
        simp [RefCountersFile.rotateOffset, old]
      · case isFalse other => simp [old, Ne.symm other]
    all_goals rfl
  all_goals simp only [update_apply]
  all_goals
    grind -ring -linarith [Current, Phase.inGetNew, Place.isMaking, RefCountersFile.rotateOffset]

theorem Current.checkFull (inv : Current s) (owners : Owners s) (next : s.phase t = .checkFull x)
    (alone : ∀ u, u ≠ t → (s.phase u).inGetNew = false) : Current (s.checkFull t x) := by
  have current := inv.checking t x next
  have held := owners.held t x (congrArg Phase.own next)
  simp only [Producer.checkFull, Producer.deref, Producer.setPhase, Producer.setPlace, current]
  constructor
  case used =>
    intro file known
    refine (inv.used file known).trans (congrArg Int.ofNat ?_)
    symm
    refine used_congr ?_ ?_ (fun y _ => ?_) file
    · rfl
    · rfl
    · simp only [update_apply]
      split
      · case isTrue this => simp [this, held, Place.isMaking]
      · rfl
  all_goals simp only [update_apply]
  all_goals grind -ring -linarith [Current, Phase.inGetNew, Place.isMaking]

theorem Current.clean (inv : Current s) (next : s.phase t = .clean)
    (alone : ∀ u, u ≠ t → (s.phase u).inGetNew = false) : Current (s.safeCleanCurrentFile t) := by
  have outside : (s.phase t).inGetNew = false := by rw [next]; rfl
  simp only [Producer.safeCleanCurrentFile]
  split
  · exact inv.keep rfl rfl rfl rfl rfl rfl rfl (fun _ _ => Iff.rfl) outside rfl (by simp)
  · case h_2 file current =>
    split
    · case isTrue unused =>
      have nobody : ∀ u, (s.phase u).inGetNew = false := by
        intro u
        by_cases this : u = t
        · exact this ▸ outside
        · exact alone u this
      have settled : ∀ x, (s.place x).isMaking = false := fun x => by
        cases making : (s.place x).isMaking with
        | false => rfl
        | true =>
          obtain ⟨u, rotating⟩ := inv.rotates making
          simpa [rotating, Phase.inGetNew] using nobody u
      have noUser : ∀ x ∈ s.live, (s.slots x).handle ≠ file := by
        intro x found here
        have uses : s.used file ≠ 0 := Nat.pos_iff_ne_zero.mp
          (List.countP_pos_iff.mpr ⟨x, found, by simp [Producer.uses, here, settled x]⟩)
        have count := inv.used file (inv.known file current)
        simp [RefCountersFile.offsetsInUse] at unused
        omega
      simp only [Producer.eraseFile, Producer.setPhase]
      constructor
      case used =>
        intro other known
        refine inv.used other ?_
        simp only [update_apply] at known
        split at known
        · cases known
        · exact known
      all_goals simp only [update_apply]
      all_goals grind -ring -linarith [Current, Phase.inGetNew]
    · exact inv.keep rfl rfl rfl rfl rfl rfl rfl (fun _ _ => Iff.rfl) outside rfl (by simp)

/-- What a step preserves that is not disturbed. -/
theorem Current.step (inv : Current s) (owners : Owners s) (allowed : Undisturbed s act)
    (taken : Step s act after) : Current after := by
  cases taken with
  | getNewBegin free => exact inv.getNewBegin free (allowed _ rfl)
  | setCounter next => exact inv.setCounter next (allowed _ rfl)
  | construct next => exact inv.construct owners next (allowed _ rfl)
  | constructRaises next => exact inv.constructRaises next
  | rotate next => exact inv.rotate owners next (allowed _ rfl)
  | checkFull next => exact inv.checkFull owners next (allowed _ rfl)
  | clean next => exact inv.clean next (allowed _ rfl)
  | @deleteBegin t x free owned =>
    refine inv.keep (p := .checkCounter x) rfl rfl rfl rfl rfl rfl rfl (fun y u => ?_)
      (by rw [free]; rfl) rfl (by simp)
    simp only [Producer.deleteBegin, Producer.setPhase, Producer.setPlace, update_apply]
    grind -ring -linarith
  | @checkCounter t x next =>
    have outside : (s.phase t).inGetNew = false := by rw [next]; rfl
    simp only [Producer.checkCounter]
    split
    all_goals exact inv.keep rfl rfl rfl rfl rfl rfl rfl (fun _ _ => Iff.rfl) outside rfl (by simp)
  | @addLimbo t x next =>
    have held := owners.held t x (congrArg Phase.own next)
    refine inv.keep (p := .collect (.destroy none)) rfl rfl rfl rfl rfl rfl rfl (fun y u => ?_)
      (by rw [next]; rfl) rfl (by simp)
    simp only [Producer.addLimbo, Producer.setPhase, Producer.setPlace, update_apply]
    grind -ring -linarith
  | collectBegin free =>
    exact inv.keep rfl rfl rfl rfl rfl rfl rfl (fun _ _ => Iff.rfl) (by rw [free]; rfl) rfl (by simp)
  | @collect t last next =>
    refine inv.keep rfl rfl rfl rfl rfl rfl rfl (fun y u => ?_) (by rw [next]; rfl) rfl (by simp)
    have inLimbo := owners.limbo.2 y
    simp only [Producer.collect, Producer.setPhase]
    grind -ring -linarith
  | @resetOne t x blocks last next =>
    obtain ⟨files, registered, destroyed⟩ := destroy_eq s x
    have mine := (owners.collected t).2 x (by simp [next, Phase.blocks])
    exact inv.lose owners (.inr mine) (by simp [Producer.resetOne, destroyed]; rfl) rfl rfl
      (by simp [Producer.resetOne, destroyed]; rfl) (by simp [Producer.resetOne, destroyed]; rfl)
      (by simp [Producer.resetOne, destroyed]; rfl) (by simp [Producer.resetOne, destroyed]; rfl)
      (by simp [Producer.resetOne, destroyed]; rfl) (by rw [next]; rfl) rfl (by simp)
  | @resetEnd t last next =>
    have outside : (s.phase t).inGetNew = false := by rw [next]; rfl
    cases last with
    | checkSize =>
      simp only [Producer.resetEnd]
      split
      all_goals
        exact inv.keep rfl rfl rfl rfl rfl rfl rfl (fun _ _ => Iff.rfl) outside rfl (by simp)
    | destroy own =>
      cases own with
      | none => exact inv.keep rfl rfl rfl rfl rfl rfl rfl (fun _ _ => Iff.rfl) outside rfl (by simp)
      | some x =>
        obtain ⟨files, registered, destroyed⟩ := destroy_eq s x
        have mine := owners.held t x (congrArg Phase.own next)
        exact inv.lose owners (.inl mine) (by simp [Producer.resetEnd, destroyed]; rfl) rfl rfl
          (by simp [Producer.resetEnd, destroyed]; rfl) (by simp [Producer.resetEnd, destroyed]; rfl)
          (by simp [Producer.resetEnd, destroyed]; rfl) (by simp [Producer.resetEnd, destroyed]; rfl)
          (by simp [Producer.resetEnd, destroyed]; rfl) outside rfl (by simp)
  | consume positive =>
    exact ⟨inv.alone, inv.making, inv.room, inv.rotating, inv.checking, inv.full, inv.known,
      inv.created, inv.registered, inv.offset, inv.distinct, inv.used, inv.calm⟩

/-! ### Counters -/

/-- What a thread took from the limbo has no consumer, and gets none. -/
def Freed (s : Producer) : Prop :=
  ∀ t, ∀ x ∈ (s.phase t).blocks, s.counters (s.slots x) = 0

theorem Freed.keep (freed : Freed s) {p : Phase} (counters : after.counters = s.counters)
    (slots : after.slots = s.slots) (phase : after.phase = update s.phase t p)
    (blocks : ∀ x ∈ p.blocks, x ∈ (s.phase t).blocks) : Freed after := by
  intro u x found
  rw [counters, slots]
  rw [phase, update_apply] at found
  split at found
  · exact freed t x (blocks x found)
  · exact freed u x found

theorem Freed.step (freed : Freed s) (owners : Owners s) (inv : Current s)
    (taken : Step s act after) : Freed after := by
  have none : ∀ {p : Phase}, p.blocks = [] → ∀ t, ∀ x ∈ p.blocks, x ∈ (s.phase t).blocks := by
    intro p empty t x found
    simp [empty] at found
  cases taken with
  | getNewBegin free =>
    simp only [Producer.getNewBegin]
    split
    all_goals exact freed.keep rfl rfl rfl (none rfl _)
  | @setCounter t next =>
    obtain ⟨file, current, -⟩ := inv.room t (.inl next)
    have known := inv.known file current
    simp only [Producer.setCounter, Producer.deref, Producer.setPhase, current]
    intro u x found
    simp only [update_apply] at found
    split at found
    · simp [Phase.blocks] at found
    · -- the counter that is set is the one of a slot that nobody uses yet
      have collected := (owners.collected u).2 x found
      have live := (owners.live.2 x).mpr (by simp [collected])
      have before := inv.offset x live (by simp [collected, Place.isMaking])
      have differs : s.slots x ≠ ⟨file, (s.files file).nextOffset⟩ := by
        intro same
        simp [same] at before
      simpa only [update_of_ne differs] using freed u x found
  | @construct t next =>
    simp only [Producer.construct, Producer.deref]
    split
    · intro u x found
      simp only [Producer.setPhase, Producer.setPlace, update_apply] at found
      split at found
      · simp [Phase.blocks] at found
      · have collected := (owners.collected u).2 x found
        have old := owners.bound x ((owners.live.2 x).mpr (by simp [collected]))
        simpa only [Producer.setPhase, Producer.setPlace, update_of_ne (Nat.ne_of_lt old)]
          using freed u x found
    · exact freed.keep rfl rfl rfl (none rfl _)
  | constructRaises next => exact freed.keep rfl rfl rfl (none rfl _)
  | rotate next =>
    simp only [Producer.rotate, Producer.deref]
    split
    all_goals exact freed.keep rfl rfl rfl (none rfl _)
  | checkFull next =>
    simp only [Producer.checkFull, Producer.deref]
    split
    all_goals exact freed.keep rfl rfl rfl (none rfl _)
  | deleteBegin free owned => exact freed.keep rfl rfl rfl (none rfl _)
  | checkCounter next =>
    simp only [Producer.checkCounter]
    split
    all_goals exact freed.keep rfl rfl rfl (none rfl _)
  | addLimbo next => exact freed.keep rfl rfl rfl (none rfl _)
  | collectBegin free => exact freed.keep rfl rfl rfl (none rfl _)
  | @collect t last next =>
    intro u x found
    simp only [Producer.collect, Producer.setPhase, update_apply] at found ⊢
    split at found
    · simp only [Phase.blocks, List.mem_filter] at found
      simpa using found.2
    · exact freed u x found
  | @resetOne t x blocks last next =>
    obtain ⟨files, registered, destroyed⟩ := destroy_eq s x
    simp only [Producer.resetOne, destroyed]
    refine freed.keep rfl rfl rfl fun y found => ?_
    rw [next]
    exact List.mem_cons_of_mem _ found
  | @resetEnd t last next =>
    cases last with
    | checkSize =>
      simp only [Producer.resetEnd]
      split
      all_goals exact freed.keep rfl rfl rfl (none rfl _)
    | destroy own =>
      cases own with
      | none => exact freed.keep rfl rfl rfl (none rfl _)
      | some x =>
        obtain ⟨files, registered, destroyed⟩ := destroy_eq s x
        simp only [Producer.resetEnd, destroyed]
        exact freed.keep rfl rfl rfl (none rfl _)
  | clean next =>
    simp only [Producer.safeCleanCurrentFile]
    split
    · exact freed.keep rfl rfl rfl (none rfl _)
    · split
      all_goals exact freed.keep rfl rfl rfl (none rfl _)
  | consume positive =>
    intro u x found
    have zero := freed u x found
    simp only [update_apply]
    split
    · case isTrue same =>
      rw [same] at zero
      omega
    · exact zero

end TorchGcu.IpcRefCounters

import TorchGcu.Logic.Runs
import TorchGcu.Logic.Wp

/-! Whether a device may read the memory of another. The answer for each ordered pair is kept in
one flat table, where it is written before peer access has been enabled. -/
namespace TorchGcu.PeerAccess
open ProgramLogic

structure Memory where
  p2pAccessEnabled : List Int
  numDevices : Int
  /-- The indices at which the table was read or written, the last one first. -/
  accessed : List Int
  /-- The ordered pairs for which `enablePeerAccess` returned. -/
  enabled : List (Int × Int)

inductive Failure
  | torchCheck (device : Int)
  | internalAssert
  | gcuError
  | enablePeerAccess
  /-- An access outside the table, of which the language says nothing. -/
  | outOfBounds (index : Int)
deriving DecidableEq

abbrev Program := EStateM Failure Memory

/-- The diagonal is known and the rest is not. -/
def initP2pAccessCache (numDevices : Nat) : Memory where
  p2pAccessEnabled := (List.range numDevices).foldl
    (fun table i => table.set (i * numDevices + i) 1) (List.replicate (numDevices * numDevices) (-1))
  numDevices := numDevices
  accessed := []
  enabled := []

/-- One call, with what the runtime answers to it: whether the device can access its peer, if the
question succeeds, and whether `enablePeerAccess` returns. -/
structure Call where
  dev : Int
  devToAccess : Int
  canAccess : Option Bool
  enables : Bool
deriving DecidableEq

def torchCheck (condition : Prop) [Decidable condition] (device : Int) : Program Unit :=
  if condition then pure () else throw (.torchCheck device)

/-- `operator[]` of a vector: the entry, where there is one. -/
def Memory.at (s : Memory) (index : Int) : Option Int :=
  if index < 0 then none else s.p2pAccessEnabled[index.toNat]?

def Memory.touch (s : Memory) (index : Int) : Memory :=
  { s with accessed := index :: s.accessed }

def Memory.write (s : Memory) (index value : Int) : Memory :=
  { s with p2pAccessEnabled := s.p2pAccessEnabled.set index.toNat value }

def Memory.enable (s : Memory) (pair : Int × Int) : Memory :=
  { s with enabled := pair :: s.enabled }

def readCache (index : Int) : Program Int := do
  modify fun s => s.touch index
  match (← get).at index with
  | some value => return value
  | none => throw (.outOfBounds index)

def writeCache (index value : Int) : Program Unit := do
  let _ ← readCache index
  modify fun s => s.write index value

def enablePeerAccess (call : Call) : Program Unit :=
  if call.enables then modify fun s => s.enable (call.dev, call.devToAccess)
  else throw .enablePeerAccess

def enableIf (cache : Int) (call : Call) : Program Unit :=
  if cache ≠ 0 then enablePeerAccess call else pure ()

/-- The part of `get_p2p_access` that asks the runtime, when the entry is unknown. -/
def askRuntime (call : Call) (index : Int) : Program Bool :=
  match call.canAccess with
  | none => throw .gcuError
  | some result => do
    writeCache index (if result then 1 else 0)
    enableIf (← readCache index) call
    return (← readCache index) ≠ 0

/-- The checks accept every index once there is a table: they are joined by an `or`. -/
def getP2pAccess (call : Call) : Program Bool := do
  let numDevices := (← get).numDevices
  torchCheck (call.dev ≥ 0 ∨ call.dev < numDevices) call.dev
  torchCheck (call.devToAccess ≥ 0 ∨ call.devToAccess < numDevices) call.devToAccess
  if numDevices ≥ 0 then
    let index := call.dev * numDevices + call.devToAccess
    let cache ← readCache index
    if cache ≠ -1 then return cache ≠ 0 else askRuntime call index
  else throw .internalAssert

/-! ### What a call does -/

section Calls
variable {s : Memory} {call : Call} {n : Nat} {index value : Int}
variable {R : Failure → Memory → Prop}

@[simp] theorem Memory.at_touch (other : Int) : (s.touch other).at index = s.at index := rfl

@[simp] theorem Memory.at_enable (pair : Int × Int) : (s.enable pair).at index = s.at index := rfl

theorem Memory.at_write (there : (s.at index).isSome) :
    (s.write index value).at index = some value := by
  unfold Memory.at Memory.write at *
  split at there
  · cases there
  · next nonneg =>
    rw [if_neg nonneg]
    exact List.getElem?_set_self (by simpa using there)

theorem Memory.at_write_ne {other : Int} (nonneg : 0 ≤ index) (different : other ≠ index) :
    (s.write index value).at other = s.at other := by
  unfold Memory.at Memory.write
  by_cases negative : other < 0
  · simp only [if_pos negative]
  · simp only [if_neg negative]
    exact List.getElem?_set_ne (by omega)

theorem readCache_some (there : s.at index = some value) {P : Int → Memory → Prop} :
    wp (readCache index) P R s ↔ P value (s.touch index) := by
  simp [readCache, there]

theorem readCache_none (outside : s.at index = none) {P : Int → Memory → Prop} :
    wp (readCache index) P R s ↔ R (.outOfBounds index) (s.touch index) := by
  simp [readCache, outside]

theorem writeCache_wp (there : (s.at index).isSome) {P : Unit → Memory → Prop} :
    wp (writeCache index value) P R s ↔ P () ((s.touch index).write index value) := by
  obtain ⟨old, there⟩ := Option.isSome_iff_exists.mp there
  simp [writeCache, readCache_some there]

/-- The table after an entry was read, and then written and read again. -/
def Memory.learn (s : Memory) (index value : Int) : Memory :=
  ((s.touch index).write index value).touch index

theorem Memory.at_learn (value : Int) (there : (s.at index).isSome) :
    (s.learn index value).at index = some value :=
  Memory.at_write (s := s.touch index) there

theorem askRuntime_wp (there : (s.at index).isSome) {P : Bool → Memory → Prop} :
    wp (askRuntime call index) P R s ↔
      (call.canAccess = none → R .gcuError s) ∧
      (call.canAccess = some false → P false ((s.learn index 0).touch index)) ∧
      (call.canAccess = some true → call.enables = true →
        P true (((s.learn index 1).enable (call.dev, call.devToAccess)).touch index)) ∧
      (call.canAccess = some true → call.enables = false →
        R .enablePeerAccess (s.learn index 1)) := by
  have written (v : Int) : ((s.touch index).write index v).at index = some v :=
    Memory.at_write (s := s.touch index) there
  have learnt (v : Int) : (s.learn index v).at index = some v := Memory.at_learn v there
  unfold askRuntime
  rcases call with ⟨dev, devToAccess, canAccess | (_ | _), enables⟩
  · simp
  · have again : (((s.touch index).write index 0).touch index).at index = some 0 := learnt 0
    simp [writeCache_wp there, readCache_some (written 0), enableIf, readCache_some again]
    rfl
  · have again : ((((s.touch index).write index 1).touch index).enable (dev, devToAccess)).at index
        = some 1 := learnt 1
    cases enables <;>
      simp [writeCache_wp there, readCache_some (written 1), enableIf, enablePeerAccess,
        readCache_some again] <;> rfl

/-- The index of the entry of a call. -/
def Call.entry (n : Nat) (call : Call) : Int := call.dev * n + call.devToAccess

/-- The table of `n` devices, whose checks accept every index. -/
structure Ready (n : Nat) (s : Memory) : Prop where
  numDevices : s.numDevices = n
  size : s.p2pAccessEnabled.length = n * n

theorem getP2pAccess_wp (ready : Ready n s) {P : Bool → Memory → Prop} :
    wp (getP2pAccess call) P R s ↔
      wp (readCache (call.entry n)) (fun cache t =>
        if cache ≠ -1 then P (cache ≠ 0) t else wp (askRuntime call (call.entry n)) P R t) R s := by
  have accepts (device : Int) : device ≥ 0 ∨ device < (n : Int) := by omega
  have initialized : (n : Int) ≥ 0 := by omega
  simp only [getP2pAccess, wp_bind, wp_get, ready.numDevices, torchCheck, if_pos (accepts _),
    wp_pure, if_pos initialized]
  have isEntry : call.dev * n + call.devToAccess = call.entry n := rfl
  rw [isEntry]
  unfold wp
  cases (readCache (call.entry n)).run s with
  | ok cache t => by_cases known : cache ≠ -1 <;> simp [known]
  | error e t => rfl

/-! ### Calls of two devices -/

/-- The device is one of the `n`. -/
def InRange (n : Nat) (device : Int) : Prop := 0 ≤ device ∧ device < n

instance : Decidable (InRange n value) := inferInstanceAs (Decidable (_ ∧ _))

def Call.InRange (n : Nat) (call : Call) : Prop :=
  PeerAccess.InRange n call.dev ∧ PeerAccess.InRange n call.devToAccess

instance : Decidable (call.InRange n) := inferInstanceAs (Decidable (_ ∧ _))

/-- No two pairs of devices have one entry. -/
theorem index_inj {i j k l : Int} (first : InRange n j) (second : InRange n l)
    (same : i * n + j = k * n + l) : i = k ∧ j = l := by
  obtain ⟨low, high⟩ := first
  obtain ⟨low', high'⟩ := second
  have rows : i = k := by
    have left := Int.add_mul_ediv_right j i (by omega : (n : Int) ≠ 0)
    have right := Int.add_mul_ediv_right l k (by omega : (n : Int) ≠ 0)
    rw [Int.ediv_eq_zero_of_lt low high] at left
    rw [Int.ediv_eq_zero_of_lt low' high'] at right
    have both : j + i * n = l + k * n := by omega
    rw [both] at left
    omega
  subst rows
  exact ⟨rfl, by omega⟩

theorem index_bounds {i j : Int} (first : InRange n i) (second : InRange n j) :
    0 ≤ i * n + j ∧ i * n + j < (n * n : Nat) := by
  obtain ⟨low, high⟩ := first
  obtain ⟨low', high'⟩ := second
  have nonneg : 0 ≤ i * n := Int.mul_nonneg low (by omega)
  have rows : i * n ≤ (n - 1) * n := Int.mul_le_mul_of_nonneg_right (by omega) (by omega)
  have square : ((n : Int) - 1) * n + n = (n * n : Nat) := by
    rw [Int.sub_mul]
    omega
  omega

theorem Ready.at_isSome (ready : Ready n s) (inRange : call.InRange n) :
    (s.at (call.entry n)).isSome := by
  obtain ⟨low, high⟩ := index_bounds inRange.1 inRange.2
  have nonneg : ¬ call.entry n < 0 := by
    unfold Call.entry
    omega
  have short : (call.entry n).toNat < s.p2pAccessEnabled.length := by
    rw [ready.size]
    unfold Call.entry
    omega
  unfold Memory.at
  rw [if_neg nonneg, List.getElem?_eq_getElem short]
  rfl

/-- Every pair said to have access is one device or has been enabled. -/
structure Truthful (n : Nat) (s : Memory) : Prop extends Ready n s where
  known : ∀ {i j value}, InRange n i → InRange n j → s.at (i * n + j) = some value →
    value ≠ -1 → value ≠ 0 → i = j ∨ (i, j) ∈ s.enabled

/-- What a call may do: refuse an index that is no device, before it looks at the table; answer
that a pair has access where it has; or fail and leave the table. -/
def Lawful (n : Nat) (s : Memory) (call : Call) : Prop :=
  wp (getP2pAccess call)
    (fun answer t => call.InRange n ∧
      (answer = true → call.dev = call.devToAccess ∨ (call.dev, call.devToAccess) ∈ t.enabled))
    (fun e t => (∀ index, e ≠ .outOfBounds index) ∧ t.p2pAccessEnabled = s.p2pAccessEnabled ∧
      (¬ call.InRange n → t.accessed = s.accessed)) s

/-- The indices are devices, and `enablePeerAccess` does not raise when it is called, which is
when the entry is unknown and the runtime says that the device can access its peer. -/
def Sound (n : Nat) (s : Memory) (call : Call) : Prop :=
  call.InRange n ∧
    ¬ (s.at (call.entry n) = some (-1) ∧ call.canAccess = some true ∧ call.enables = false)

theorem Truthful.touch (truthful : Truthful n s) (other : Int) : Truthful n (s.touch other) where
  numDevices := truthful.numDevices
  size := truthful.size
  known := truthful.known

theorem Truthful.enable (truthful : Truthful n s) (pair : Int × Int) :
    Truthful n (s.enable pair) where
  numDevices := truthful.numDevices
  size := truthful.size
  known here there isValue unknown refused := by
    rcases truthful.known here there isValue unknown refused with same | before
    · exact .inl same
    · exact .inr (List.mem_cons_of_mem pair before)

theorem Truthful.write (truthful : Truthful n s) (inRange : call.InRange n) (value : Int)
    (allowed : value ≠ -1 → value ≠ 0 →
      call.dev = call.devToAccess ∨ (call.dev, call.devToAccess) ∈ s.enabled) :
    Truthful n (s.write (call.entry n) value) where
  numDevices := truthful.numDevices
  size := by rw [Memory.write, List.length_set, truthful.size]
  known {i j v} here there isValue unknown refused := by
    by_cases same : i * n + j = call.entry n
    · obtain ⟨rfl, rfl⟩ := index_inj there inRange.2 same
      rw [same, Memory.at_write (truthful.at_isSome inRange), Option.some.injEq] at isValue
      subst isValue
      exact allowed unknown refused
    · have nonneg : 0 ≤ call.entry n := (index_bounds inRange.1 inRange.2).1
      rw [Memory.at_write_ne nonneg same] at isValue
      exact truthful.known here there isValue unknown refused

/-- A sound call keeps the table truthful, and answers by it. -/
theorem sound_wp (truthful : Truthful n s) (sound : Sound n s call) :
    wp (getP2pAccess call)
      (fun answer t => Truthful n t ∧
        (answer = true → call.dev = call.devToAccess ∨ (call.dev, call.devToAccess) ∈ t.enabled))
      (fun e t => Truthful n t ∧ e = .gcuError ∧ t.p2pAccessEnabled = s.p2pAccessEnabled) s := by
  obtain ⟨inRange, noFailure⟩ := sound
  have there := truthful.at_isSome inRange
  obtain ⟨cache, isCache⟩ := Option.isSome_iff_exists.mp there
  rw [getP2pAccess_wp truthful.toReady, readCache_some isCache]
  have touched := truthful.touch (call.entry n)
  by_cases unknown : cache = -1
  · subst unknown
    rw [if_neg (by simp), askRuntime_wp (s := s.touch _) there]
    refine ⟨fun _ => ⟨touched, rfl, rfl⟩, fun _ => ⟨?_, by simp⟩, fun _ _ => ⟨?_, ?_⟩, ?_⟩
    · have refused := touched.touch (call.entry n) |>.write inRange 0 (by simp)
      exact refused.touch _ |>.touch _
    · -- The entry was written first, which makes no difference once peer access is enabled.
      have enabled := touched.touch (call.entry n) |>.enable (call.dev, call.devToAccess)
      have written := enabled.write inRange 1
        fun _ _ => .inr List.mem_cons_self
      exact written.touch _ |>.touch _
    · exact fun _ => .inr List.mem_cons_self
    · intro yes raises
      exact absurd ⟨isCache, yes, raises⟩ noFailure
  · rw [if_pos unknown]
    refine ⟨touched, fun yes => ?_⟩
    exact truthful.known inRange.1 inRange.2 isCache unknown (of_decide_eq_true yes)

theorem sound_keeps (truthful : Truthful n s) (sound : Sound n s call) :
    Truthful n (after (getP2pAccess call) s) :=
  wp_after.mp (wp_mono (sound_wp truthful sound) (fun _ _ kept => kept.1) fun _ _ kept => kept.1)

/-- A call looks at the table whatever its indices are. -/
theorem getP2pAccess_accesses (ready : Ready n s) :
    wp (getP2pAccess call) (fun _ _ => True) (fun _ t => t.accessed ≠ s.accessed) s := by
  rw [getP2pAccess_wp ready]
  cases isCache : s.at (call.entry n) with
  | none =>
    rw [readCache_none isCache]
    simp [Memory.touch]
  | some cache =>
    rw [readCache_some isCache]
    by_cases unknown : cache = -1
    · have there : (s.at (call.entry n)).isSome := by simp [isCache]
      rw [if_neg (by simp [unknown]), askRuntime_wp (s := s.touch _) there]
      refine ⟨fun _ => ?_, fun _ => trivial, fun _ _ => trivial, fun _ _ => ?_⟩
      · simp [Memory.touch]
      · intro same
        have lengths := congrArg List.length same
        simp only [Memory.learn, Memory.touch, Memory.write, List.length_cons] at lengths
        omega
    · rw [if_pos unknown]
      trivial

theorem lawful_iff (truthful : Truthful n s) : Lawful n s call ↔ Sound n s call := by
  constructor
  · intro lawful
    have inRange : call.InRange n := by
      refine Decidable.byContradiction fun outside => ?_
      have both := wp_and lawful (getP2pAccess_accesses truthful.toReady)
      exact wp_false (wp_mono both (fun _ _ here => outside here.1.1)
        fun _ _ here => here.2 (here.1.2.2 outside))
    refine ⟨inRange, fun ⟨unknown, yes, raises⟩ => ?_⟩
    have there := truthful.at_isSome inRange
    rw [Lawful, getP2pAccess_wp truthful.toReady, readCache_some unknown, if_neg (by simp),
      askRuntime_wp (s := s.touch _) there] at lawful
    have table := (lawful.2.2.2 yes raises).2.1
    have written := Memory.at_learn (s := s.touch (call.entry n)) 1 there
    unfold Memory.at at written unknown
    rw [table] at written
    have impossible := unknown.symm.trans written
    simp at impossible
  · intro sound
    exact wp_mono (sound_wp truthful sound) (fun _ _ kept => ⟨sound.1, kept.2⟩)
      fun _ _ kept => ⟨by simp [kept.2.1], kept.2.2, fun outside => absurd sound.1 outside⟩

end Calls

/-! ### Runs -/

section Runs
variable {n : Nat}

/-- The state after a call, whether it returns or raises. -/
def next (s : Memory) (call : Call) : Memory := after (getP2pAccess call) s

theorem size_diagonal (is : List Nat) (table : List Int) :
    (is.foldl (fun table i => table.set (i * n + i) 1) table).length = table.length := by
  induction is generalizing table with
  | nil => rfl
  | cons i rest ih => rw [List.foldl_cons, ih, List.length_set]

theorem diagonal_some (is : List Nat) (table : List Int) {m : Nat} {value : Int}
    (isValue : (is.foldl (fun table i => table.set (i * n + i) 1) table)[m]? = some value) :
    table[m]? = some value ∨ ∃ i ∈ is, m = i * n + i := by
  induction is generalizing table with
  | nil => exact .inl isValue
  | cons i rest ih =>
    rcases ih _ isValue with before | ⟨k, member, rfl⟩
    · by_cases same : m = i * n + i
      · exact .inr ⟨i, List.mem_cons_self, same⟩
      · rw [List.getElem?_set_ne (Ne.symm same)] at before
        exact .inl before
    · exact .inr ⟨k, List.mem_cons_of_mem i member, rfl⟩

theorem truthful_init (n : Nat) : Truthful n (initP2pAccessCache n) where
  numDevices := rfl
  size := by simp [initP2pAccessCache, size_diagonal]
  known {i j value} here there isValue unknown _ := by
    obtain ⟨nonneg, -⟩ := index_bounds here there
    have settled : ¬ i * n + j < 0 := by omega
    rw [Memory.at, if_neg settled] at isValue
    rcases diagonal_some _ _ isValue with fresh | ⟨k, member, same⟩
    · rw [List.getElem?_replicate] at fresh
      split at fresh
      · exact absurd (Option.some.inj fresh).symm unknown
      · cases fresh
    · have diagonal : PeerAccess.InRange n k := ⟨by omega, by simpa using member⟩
      have entries : i * n + j = (k : Int) * n + k := by
        rw [← Int.toNat_of_nonneg nonneg, same]
        simp
      obtain ⟨rfl, rfl⟩ := index_inj there diagonal entries
      exact .inl rfl

/-- A run from the first table is lawful at each of its calls exactly when each call names two
devices and does not raise in `enablePeerAccess`. -/
theorem lawful_run_iff (n : Nat) (calls : List Call) :
    Allowed (Lawful n) next (initP2pAccessCache n) calls ↔
      Allowed (Sound n) next (initP2pAccessCache n) calls :=
  allowed_iff (P := Truthful n) (fun _ _ truthful => lawful_iff truthful)
    (fun _ _ truthful lawful => sound_keeps truthful ((lawful_iff truthful).mp lawful))
    (truthful_init n) calls

/-- The question for a pair that the runtime allows and `enablePeerAccess` refuses is answered by
the table from then on. -/
theorem not_lawful :
    ¬ ∀ n calls, Allowed (Lawful n) next (initP2pAccessCache n) calls := by
  intro lawful
  have run := (lawful_run_iff 2 [⟨0, 1, some true, false⟩]).mp (lawful 2 _)
  exact run.1.2 ⟨by decide, rfl, rfl⟩

end Runs

end TorchGcu.PeerAccess

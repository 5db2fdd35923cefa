import TorchGcu.CpuFallback.Repair
import TorchGcu.CpuFallback.WriteBack

/-! The retry with Float copies, for kernels that have no `Half`: with what the kernel is called,
and what becomes of its arguments and returns. -/
namespace TorchGcu.CpuFallback
open ProgramLogic

variable {α ω : Type}

theorem reloadBackup_here (backup : List (IValue ω)) :
    ∀ (front old : List (IValue ω)) (s : State α ω), s.stack = front ++ old →
      old.length = backup.length →
      (reloadBackup front.length backup).run s = .ok () { s with stack := front ++ backup } := by
  induction backup with
  | nil =>
    intro front old s stack length
    rw [List.length_nil, List.length_eq_zero_iff] at length
    subst length
    simp only [← stack]
    rfl
  | cons v backup ih =>
    intro front old s stack length
    cases old with
    | nil => simp at length
    | cons w old =>
      have here := setStackAt_here s front old w v stack
      have rest := ih (front ++ [v]) old { s with stack := front ++ v :: old } (by simp)
        (by simpa using length)
      have place : (front ++ [v]).length = front.length + 1 := by simp
      rw [place] at rest
      simp only [EStateM.run] at here rest ⊢
      simp only [reloadBackup, bind, EStateM.bind, here, rest, List.append_assoc,
        List.singleton_append]

/-! ### What a kernel does -/

/-- A kernel writes none but its arguments, never changes the type of a tensor, and returns
arguments or new tensors. -/
def Lawful (kernel : Kernel α ω) : Prop :=
  ∀ arguments heap returns after, (kernel arguments).run heap = .ok returns after →
    heap.next ≤ after.next ∧
    (∀ t, t < heap.next → (after.contents t).dtype = (heap.contents t).dtype) ∧
    (∀ t, t < heap.next → (∀ v ∈ arguments, some t ∉ v.tensors) →
      after.contents t = heap.contents t) ∧
    ∀ v ∈ returns, ∀ t, some t ∈ v.tensors → t < after.next ∧
      (heap.next ≤ t ∨ ∃ w ∈ arguments, some t ∈ w.tensors)

/-- A meta kernel computes nothing: it writes meta tensors only. -/
def LawfulMeta (kernel : Kernel α ω) : Prop :=
  ∀ arguments heap returns after, (kernel arguments).run heap = .ok returns after →
    heap.next ≤ after.next ∧
    (∀ t, t < heap.next → (heap.contents t).device ≠ .metaDevice →
      after.contents t = heap.contents t) ∧
    ∀ v ∈ returns, v.Present after

/-! ### A run -/

/-- The kernel that the retry calls. -/
def Operator.kernel (op : Operator α ω) (isCpuCpuFallback : Bool) : Kernel α ω :=
  if isCpuCpuFallback then op.cpuKernel else op.cpuFallback

/-- The steps of a retry that returns. -/
structure RetryRun (b : Backend α) (op : Operator α ω) (isCpuCpuFallback : Bool)
    (backup : List (IValue ω)) (before after : State α ω) (metaStack : List (IValue ω))
    (typed : Heap α) (promoted : Promoted) (arguments : List (IValue ω)) (called : Heap α)
    (returns : List (IValue ω)) (computed : Heap α) : Prop where
  types : ∃ metaArguments metaHeap, (convertToMeta backup).run before.heap =
    .ok metaArguments metaHeap ∧ (op.metaKernel metaArguments).run metaHeap = .ok metaStack typed
  converted : (convertTensorToF32 b 0 0 backup.length).run ⟨backup, typed, before.calls⟩ =
    .ok promoted ⟨arguments, called, before.calls⟩
  computes : (op.kernel isCpuCpuFallback arguments).run called = .ok returns computed
  finishes : ∃ first second third,
    (writeBackTensors b op backup promoted.tensors).run computed = .ok () first ∧
    (writeBackLists b op backup promoted.lists).run first = .ok () second ∧
    (writeBackOptionals b op backup promoted.optionals).run second = .ok () third ∧
    (repairStack b metaStack 0 returns.length).run
      ⟨returns, third, (arguments, called) :: before.calls⟩ = .ok () after

theorem wp_onHeap {β : Type} (m : HeapM α β) (s : State α ω) {normal : β → State α ω → Prop}
    (rest : ∀ value heap, m.run s.heap = .ok value heap → normal value { s with heap }) :
    wp (onHeap m) normal (fun _ _ => True) s := by
  unfold onHeap
  rw [wp_zoom]
  exact wp_of_runs rest fun _ _ _ => trivial

theorem retry_runs (b : Backend α) (op : Operator α ω) (isCpuCpuFallback : Bool)
    (backup : List (IValue ω)) (before : State α ω)
    (stack : before.stack.length = op.arguments.length)
    (length : backup.length = op.arguments.length)
    (there : ∀ v ∈ backup, v.Present before.heap) (lawfulMeta : LawfulMeta op.metaKernel) :
    wp (xdeviceCpuFallbackWithConvert b op backup isCpuCpuFallback) (fun _ after =>
      ∃ metaStack typed promoted arguments called returns computed,
        RetryRun b op isCpuCpuFallback backup before after metaStack typed promoted arguments called
          returns computed) (fun _ _ => True) before := by
  have whole : backup.take op.arguments.length = backup := by rw [← length, List.take_length]
  have reloaded : (reloadBackup 0 backup).run before = .ok () { before with stack := backup } :=
    reloadBackup_here backup [] before.stack before rfl (stack.trans length.symm)
  unfold xdeviceCpuFallbackWithConvert
  rw [whole, wp_bind, wp_run reloaded, wp_bind]
  refine wp_onHeap _ _ fun metaArguments metaHeap metaRan => ?_
  rw [wp_bind]
  refine wp_onHeap _ _ fun metaStack typed metaCalled => ?_
  have grown := wp_ok (convertToMeta_grows backup before.heap) metaRan
  have typedNext := (lawfulMeta _ _ _ _ metaCalled).1
  rw [wp_bind, wp_get]
  simp only [← length, Nat.sub_self]
  rw [wp_bind]
  have promotes := convertTensorToF32_makes b typed backup [] ⟨backup, typed, before.calls⟩ rfl
    (.refl typed) fun v member t found => Nat.lt_of_lt_of_le (there v member t found)
      (Nat.le_trans grown.next typedNext)
  refine wp_of_runs (fun promoted after converts => ?_) fun _ _ _ => trivial
  obtain ⟨arguments, converted⟩ := wp_ok promotes converts
  obtain ⟨stored, called, calls⟩ := after
  have sameStack : stored = arguments := converted.stack
  have sameCalls : calls = before.calls := converted.calls
  subst sameStack sameCalls
  have count : stored.length = op.arguments.length := by
    rw [← converted.values.length_eq, length]
  rw [wp_bind, wp_modify, wp_bind]
  refine wp_of_runs (fun _ after ran => ?_) fun _ _ _ => trivial
  obtain ⟨returns, computes, same⟩ := callBoxed_ok count ran
  obtain ⟨stackAfter, computed, callsAfter⟩ := after
  cases same
  rw [wp_bind]
  refine wp_onHeap _ _ fun _ first wroteTensors => ?_
  rw [wp_bind]
  refine wp_onHeap _ _ fun _ second wroteLists => ?_
  rw [wp_bind]
  refine wp_onHeap _ _ fun _ third wroteOptionals => ?_
  rw [wp_bind, wp_get]
  refine wp_of_runs (fun _ after repairs => ?_) fun _ _ _ => trivial
  exact ⟨metaStack, typed, promoted, stored, called, returns, computed,
    ⟨metaArguments, metaHeap, metaRan, metaCalled⟩, converts, computes,
    first, second, third, wroteTensors, wroteLists, wroteOptionals, repairs⟩

/-! ### What the retry is for -/

def ReplacedOptional (b : Backend α) (before after : Heap α) : Option Tensor → Option Tensor → Prop
  | none, none => True
  | some t, some t' => Replaced b before after t t'
  | _, _ => False

/-- The argument with a Float copy in the place of every Half tensor. -/
def ReplacedValue (b : Backend α) (before after : Heap α) : IValue ω → IValue ω → Prop
  | .tensor t, .tensor t' => Replaced b before after t t'
  | .tensorList l, .tensorList l' => List.Forall₂ (Replaced b before after) l l'
  | .optionalTensorList l, .optionalTensorList l' => List.Forall₂ (ReplacedOptional b before after) l l'
  | .other v, .other v' => v' = v
  | _, _ => False

/-- The kernel was called with Float copies in the place of Half tensors. Written Half tensors have
what the kernel left in their copies, other Half tensors are as they were, and the returns have the
types that the meta kernel gives. -/
structure RetriedWith (b : Backend α) (op : Operator α ω) (backup : List (IValue ω))
    (before after : State α ω) (metaStack : List (IValue ω)) (typed : Heap α)
    (arguments : List (IValue ω)) (called : Heap α) (returns : List (IValue ω))
    (computed : Heap α) : Prop where
  replaced : List.Forall₂ (ReplacedValue b before.heap called) backup arguments
  unchanged : ∀ v ∈ backup, ∀ t, some t ∈ v.tensors → called.contents t = before.heap.contents t
  written : ∀ (i : Nat) v v' t copy, backup[i]? = some v → arguments[i]? = some v' →
    op.writes i = true → (some t, some copy) ∈ v.tensors.zip v'.tensors → IsHalf before.heap t →
    after.heap.contents t = { before.heap.contents t with
      sizes := (computed.contents copy).sizes
      data := b.convert .float .half (computed.contents copy).data }
  others : ∀ (i : Nat) v t, backup[i]? = some v → op.writes i = false → some t ∈ v.tensors →
    IsHalf before.heap t → after.heap.contents t = before.heap.contents t
  returned : Alongside (RepairedValue b computed typed after.heap) returns metaStack after.stack

def Retried (b : Backend α) (op : Operator α ω) (isCpuCpuFallback : Bool)
    (backup : List (IValue ω)) (before after : State α ω) : Prop :=
  ∃ metaArguments metaHeap metaStack typed arguments called returns computed,
    (convertToMeta backup).run before.heap = .ok metaArguments metaHeap ∧
    (op.metaKernel metaArguments).run metaHeap = .ok metaStack typed ∧
    after.calls = (arguments, called) :: before.calls ∧
    (op.kernel isCpuCpuFallback arguments).run called = .ok returns computed ∧
    RetriedWith b op backup before after metaStack typed arguments called returns computed

/-- A Half tensor of a written argument is no other argument, and is there once. -/
def WrittenOnce (op : Operator α ω) (backup : List (IValue ω)) (heap : Heap α) : Prop :=
  ∀ (i : Nat) v t, backup[i]? = some v → op.writes i = true → some t ∈ v.tensors → IsHalf heap t →
    v.tensors.count (some t) = 1 ∧
    ∀ (other : Nat) w, backup[other]? = some w → some t ∈ w.tensors → other = i

/-- The tensors of an argument are there, and hold data. -/
def IValue.Real (heap : Heap α) (v : IValue ω) : Prop :=
  ∀ t, some t ∈ v.tensors → t < heap.next ∧ (heap.contents t).device ≠ .metaDevice

/-! ### What is on the stack for a Half tensor -/

theorem zip_of_forall₂ {β : Type} {related : β → β → Prop} {l l' : List β}
    (all : List.Forall₂ related l l') : ∀ pair ∈ l.zip l', related pair.1 pair.2 := by
  induction all with
  | nil => exact fun _ member => absurd member List.not_mem_nil
  | cons head _ ih =>
    intro pair member
    rw [List.zip_cons_cons, List.mem_cons] at member
    obtain rfl | member := member
    · exact head
    · exact ih pair member

theorem mem_of_forall₂ {β : Type} {related : β → β → Prop} {l l' : List β}
    (all : List.Forall₂ related l l') : ∀ entry ∈ l', ∃ v ∈ l, related v entry := by
  induction all with
  | nil => exact fun _ member => absurd member List.not_mem_nil
  | cons head _ ih =>
    intro entry member
    rw [List.mem_cons] at member
    obtain rfl | member := member
    · exact ⟨_, List.mem_cons_self, head⟩
    · obtain ⟨v, inList, holds⟩ := ih entry member
      exact ⟨v, List.mem_cons_of_mem _ inList, holds⟩

theorem Replaced.copy {b : Backend α} {before after : Heap α} {t copy : TensorId}
    (replaced : Replaced b before after (some t) (some copy)) (half : IsHalf before t) :
    FloatCopy b before after t copy := by
  obtain ⟨-, made⟩ | ⟨other, -⟩ := replaced
  · exact made
  · exact absurd half other

/-- The copy of a Half tensor of an argument. -/
theorem Stored.copy {b : Backend α} {before after : Heap α} {v stored : IValue ω} {t copy : TensorId}
    (holds : Stored b before after v stored) (without : v.NoHalfOptional before)
    (pair : (some t, some copy) ∈ v.tensors.zip stored.tensors) (half : IsHalf before t) :
    FloatCopy b before after t copy := by
  match v, stored, holds with
  | .tensor u, .tensor u', replaced =>
    simp only [IValue.tensors, List.zip_cons_cons, List.zip_nil_left, List.mem_singleton,
      Prod.mk.injEq] at pair
    obtain ⟨rfl, rfl⟩ := pair
    exact Replaced.copy replaced half
  | .tensorList l, .tensorList l', replaced =>
    exact Replaced.copy (zip_of_forall₂ replaced _ pair) half
  | .optionalTensorList l, .optionalTensorList _, _ =>
    exact absurd half (without rfl t (List.of_mem_zip pair).1)
  | .other _, .other _, _ => simp [IValue.tensors] at pair

/-- A tensor on the stack is new, or an argument that is not Half. -/
theorem Stored.origin {b : Backend α} {before after : Heap α} {v stored : IValue ω} {u : TensorId}
    (holds : Stored b before after v stored) (without : v.NoHalfOptional before)
    (member : some u ∈ stored.tensors) :
    before.next ≤ u ∨ (some u ∈ v.tensors ∧ ¬ IsHalf before u) := by
  have ofReplaced : ∀ t, Replaced b before after t (some u) →
      before.next ≤ u ∨ (t = some u ∧ ¬ IsHalf before u) := by
    intro t replaced
    cases t with
    | none => exact replaced.elim
    | some t =>
      obtain ⟨-, made⟩ | ⟨other, rfl⟩ := replaced
      · exact .inl made.fresh
      · exact .inr ⟨rfl, other⟩
  match v, stored, holds with
  | .tensor t, .tensor t', replaced =>
    have same : t' = some u := by simpa [IValue.tensors, eq_comm] using member
    subst same
    obtain fresh | ⟨rfl, other⟩ := ofReplaced t replaced
    · exact .inl fresh
    · exact .inr ⟨by simp [IValue.tensors], other⟩
  | .tensorList l, .tensorList l', replaced =>
    obtain ⟨t, inList, each⟩ := mem_of_forall₂ replaced _ member
    obtain fresh | ⟨rfl, other⟩ := ofReplaced t each
    · exact .inl fresh
    · exact .inr ⟨inList, other⟩
  | .optionalTensorList l, .optionalTensorList _, rfl =>
    exact .inr ⟨member, without rfl u member⟩
  | .other _, .other _, _ => simp [IValue.tensors] at member

/-- The stack is as it should be, but for optional tensor lists. -/
theorem Stored.replaced {b : Backend α} {before typed called : Heap α} {v stored : IValue ω}
    (holds : Stored b typed called v stored) (next : before.next ≤ typed.next)
    (same : ∀ t, some t ∈ v.tensors → typed.contents t = before.contents t)
    (without : v.NoHalfOptional typed) : ReplacedValue b before called v stored := by
  have each (t t' : Tensor) (inValue : t ∈ v.tensors) (replaced : Replaced b typed called t t') :
      Replaced b before called t t' := by
    cases t with
    | none => cases t' <;> exact replaced
    | some t =>
      cases t' with
      | none => exact replaced.elim
      | some t' =>
        obtain ⟨half, made⟩ | ⟨other, given⟩ := replaced
        · have kept := same t inValue
          exact .inl ⟨by rwa [IsHalf, ← kept], Nat.le_trans next made.fresh, made.below,
            by rw [made.contents, kept]⟩
        · exact .inr ⟨by rwa [IsHalf, ← same t inValue], given⟩
  cases v with
  | tensor t =>
    cases stored with
    | tensor t' => exact each t t' (by simp [IValue.tensors]) holds
    | _ => exact holds.elim
  | tensorList l =>
    cases stored with
    | tensorList l' =>
      have alike : List.Forall₂ (Replaced b typed called) l l' := holds
      exact List.forall₂_iff_zip.mpr ⟨alike.length_eq, fun {t t'} pair =>
        each t t' (List.of_mem_zip pair).1 (zip_of_forall₂ alike _ pair)⟩
    | _ => exact holds.elim
  | optionalTensorList l =>
    cases stored with
    | optionalTensorList l' =>
      obtain rfl : l' = l := holds
      refine List.forall₂_same.mpr fun t inList => ?_
      rcases t with _ | _ | t
      · trivial
      · trivial
      · have member : some t ∈ IValue.tensors (.optionalTensorList l' : IValue ω) :=
          List.mem_map.mpr ⟨some (some t), inList, rfl⟩
        refine .inr ⟨?_, rfl⟩
        rw [IsHalf, ← same t member]
        exact without rfl t member
    | _ => exact holds.elim
  | other v =>
    cases stored with
    | other v' => exact holds
    | _ => exact holds.elim

/-- It is not as it should be where a Half tensor is in an optional tensor list. -/
theorem Stored.not_replaced {b : Backend α} {before typed called : Heap α} {v stored : IValue ω}
    (holds : Stored b typed called v stored) (there : v.Present before)
    (replaced : ReplacedValue b before called v stored) : v.NoHalfOptional before := by
  intro isList t inValue half
  match v, stored, holds with
  | .optionalTensorList l, .optionalTensorList _, rfl =>
    obtain ⟨entry, inList, given⟩ := List.mem_map.mp inValue
    have each := List.forall₂_same.mp replaced entry inList
    match entry, given with
    | some (some _), rfl =>
      obtain ⟨-, made⟩ | ⟨other, -⟩ := each
      · exact absurd (there t inValue) (Nat.not_lt.mpr made.fresh)
      · exact other half
  | .tensor _, .tensor _, _ | .tensorList _, .tensorList _, _ | .other _, .other _, _ =>
    simp [IValue.isOptionalTensorList] at isList

/-! ### A run, with laws for the kernels -/

section run
variable {b : Backend α} {op : Operator α ω} {isCpuCpuFallback : Bool} {backup : List (IValue ω)}
  {before after : State α ω} {metaStack : List (IValue ω)} {typed : Heap α} {promoted : Promoted}
  {arguments : List (IValue ω)} {called : Heap α} {returns : List (IValue ω)} {computed : Heap α}

/-- The arguments are as they were after the meta kernel. -/
theorem RetryRun.typed_same
    (run : RetryRun b op isCpuCpuFallback backup before after metaStack typed promoted arguments
      called returns computed) (lawfulMeta : LawfulMeta op.metaKernel) :
    before.heap.next ≤ typed.next ∧ (∀ m ∈ metaStack, m.Present typed) ∧
    ∀ t, t < before.heap.next → (before.heap.contents t).device ≠ .metaDevice →
      typed.contents t = before.heap.contents t := by
  obtain ⟨metaArguments, metaHeap, metaRan, metaCalled⟩ := run.types
  have grown := wp_ok (convertToMeta_grows backup before.heap) metaRan
  obtain ⟨next, same, there⟩ := lawfulMeta _ _ _ _ metaCalled
  refine ⟨Nat.le_trans grown.next next, there, fun t below real => ?_⟩
  have first := grown.same t below
  rw [same t (Nat.lt_of_lt_of_le below grown.next) (first ▸ real), first]

theorem RetryRun.converts
    (run : RetryRun b op isCpuCpuFallback backup before after metaStack typed promoted arguments
      called returns computed) (there : ∀ v ∈ backup, v.Present typed) :
    Converted b typed [] backup ⟨backup, typed, before.calls⟩ promoted
      ⟨arguments, called, before.calls⟩ arguments := by
  have promotes := convertTensorToF32_makes b typed backup [] ⟨backup, typed, before.calls⟩ rfl
    (.refl typed) there
  obtain ⟨stored, converted⟩ := wp_ok promotes run.converted
  have same : arguments = stored := converted.stack
  exact same ▸ converted

/-- The written Half tensors with their copies. -/
def WrittenPair (op : Operator α ω) (backup arguments : List (IValue ω)) (heap : Heap α)
    (t copy : TensorId) : Prop :=
  ∃ (i : Nat) (v v' : IValue ω), backup[i]? = some v ∧ arguments[i]? = some v' ∧
    op.writes i = true ∧ (some t, some copy) ∈ v.tensors.zip v'.tensors ∧ IsHalf heap t

theorem mem_zip_iff {β : Type} {l l' : List β} {x y : β} :
    (x, y) ∈ l.zip l' ↔ ∃ k : Nat, l[k]? = some x ∧ l'[k]? = some y := by
  simp only [List.mem_iff_getElem?, List.getElem?_zip_eq_some]

/-- The positions that were kept are those of the written Half tensors. -/
theorem Copies.writtenPairs {heap : Heap α} (copies : Copies heap 0 backup arguments promoted)
    (alike : List.Forall₂ (Stored b heap called) backup arguments)
    (without : ∀ v ∈ backup, v.NoHalfOptional heap) (t copy : TensorId) :
    PairsOf (TensorPair op backup) promoted.tensors t copy ∨
      PairsOf (EntryPair op backup) promoted.lists t copy ↔
      WrittenPair op backup arguments heap t copy := by
  constructor
  · rintro (⟨⟨i, made⟩, member, writes, found, rfl⟩ | ⟨⟨i, j, made⟩, member, writes, found, rfl⟩)
    · obtain ⟨k, v, v', rfl, atBackup, atStack, original, rfl, half, rfl⟩ :=
        (copies.tensors i copy).mp member
      rw [Nat.zero_add] at found writes
      rw [atBackup] at found
      cases found
      exact ⟨k, _, _, atBackup, atStack, writes, by simp [IValue.tensors], half⟩
    · obtain ⟨k, v, v', rfl, atBackup, atStack, l, l', original, rfl, rfl, inList, half, inCopy⟩ :=
        (copies.lists i (j, copy)).mp member
      rw [Nat.zero_add] at found writes
      obtain ⟨given, same, inGiven⟩ := found
      rw [atBackup] at same
      cases same
      cases inGiven.symm.trans inList
      exact ⟨k, _, _, atBackup, atStack, writes, mem_zip_iff.mpr ⟨j, inList, inCopy⟩, half⟩
  · rintro ⟨i, v, v', atBackup, atStack, writes, pair, half⟩
    have inBackup : v ∈ backup := List.mem_of_getElem? atBackup
    have stored : Stored b heap called v v' := by
      refine zip_of_forall₂ alike (v, v') (mem_zip_iff.mpr ⟨i, atBackup, atStack⟩)
    cases v with
    | tensor u =>
      cases v' with
      | tensor u' =>
        simp only [IValue.tensors, List.zip_cons_cons, List.zip_nil_left, List.mem_singleton,
          Prod.mk.injEq] at pair
        obtain ⟨rfl, rfl⟩ := pair
        refine .inl ⟨(i, copy), (copies.tensors i copy).mpr ?_, writes, atBackup, rfl⟩
        exact ⟨i, _, _, (Nat.zero_add i).symm, atBackup, atStack, t, rfl, half, rfl⟩
      | _ => exact stored.elim
    | tensorList l =>
      cases v' with
      | tensorList l' =>
        obtain ⟨j, inList, inCopy⟩ := mem_zip_iff.mp pair
        refine .inr ⟨(i, j, copy), (copies.lists i (j, copy)).mpr ?_, writes,
          ⟨l, atBackup, inList⟩, rfl⟩
        exact ⟨i, _, _, (Nat.zero_add i).symm, atBackup, atStack, l, l', t, rfl, rfl, inList, half,
          inCopy⟩
      | _ => exact stored.elim
    | optionalTensorList l => exact absurd half (without _ inBackup rfl t (List.of_mem_zip pair).1)
    | other _ => simp [IValue.tensors] at pair

theorem unique_of_count {β : Type} [BEq β] [LawfulBEq β] {l l' : List β} {x y z : β}
    (once : l.count x = 1) (first : (x, y) ∈ l.zip l') (second : (x, z) ∈ l.zip l') : y = z := by
  induction l generalizing l' with
  | nil => simp at first
  | cons w l ih =>
    cases l' with
    | nil => simp at first
    | cons w' l' =>
      rw [List.zip_cons_cons, List.mem_cons] at first second
      by_cases same : w = x
      · subst same
        have gone : w ∉ l := by
          rw [List.count_cons_self] at once
          exact List.count_eq_zero.mp (by omega)
        have nowhere (u : β) : (w, u) ∉ l.zip l' := fun member => gone (List.of_mem_zip member).1
        have here : y = w' := by simpa [nowhere y] using first
        have here' : z = w' := by simpa [nowhere z] using second
        rw [here, here']
      · rw [List.count_cons_of_ne same] at once
        have later : (x, y) ∈ l.zip l' := by simpa [Ne.symm same] using first
        have later' : (x, z) ∈ l.zip l' := by simpa [Ne.symm same] using second
        exact ih once later later'

/-- What the kernel is called with is new, or not Half. -/
theorem arguments_origin (alike : List.Forall₂ (Stored b typed called) backup arguments)
    (without : ∀ v ∈ backup, v.NoHalfOptional typed) {w : IValue ω} (member : w ∈ arguments)
    {u : TensorId} (inArgument : some u ∈ w.tensors) : typed.next ≤ u ∨ ¬ IsHalf typed u := by
  obtain ⟨v, inBackup, stored⟩ := mem_of_forall₂ alike w member
  obtain fresh | ⟨-, other⟩ := stored.origin (without v inBackup) inArgument
  · exact .inl fresh
  · exact .inr other

/-- The kernel does not see the Half tensors. -/
theorem half_kept (alike : List.Forall₂ (Stored b typed called) backup arguments)
    (without : ∀ v ∈ backup, v.NoHalfOptional typed) (grown : Grown typed called)
    (lawful : Lawful (op.kernel isCpuCpuFallback))
    (computes : (op.kernel isCpuCpuFallback arguments).run called = .ok returns computed)
    {t : TensorId} (below : t < typed.next) (half : IsHalf typed t) :
    computed.contents t = typed.contents t := by
  obtain ⟨-, -, others, -⟩ := lawful _ _ _ _ computes
  rw [← grown.same t below]
  refine others t (Nat.lt_of_lt_of_le below grown.next) fun w member inArgument => ?_
  obtain fresh | other := arguments_origin alike without member inArgument
  · exact absurd below (Nat.not_lt.mpr fresh)
  · exact other half

theorem WrittenPair.copy (alike : List.Forall₂ (Stored b typed called) backup arguments)
    (without : ∀ v ∈ backup, v.NoHalfOptional typed) {t copy : TensorId}
    (pair : WrittenPair op backup arguments typed t copy) : FloatCopy b typed called t copy := by
  obtain ⟨i, v, v', atBackup, atStack, -, inZip, half⟩ := pair
  have stored : Stored b typed called v v' :=
    zip_of_forall₂ alike (v, v') (mem_zip_iff.mpr ⟨i, atBackup, atStack⟩)
  exact stored.copy (without v (List.mem_of_getElem? atBackup)) inZip half

theorem WrittenPair.below (there : ∀ v ∈ backup, v.Present typed) {t copy : TensorId}
    (pair : WrittenPair op backup arguments typed t copy) : t < typed.next := by
  obtain ⟨i, v, v', atBackup, -, -, inZip, -⟩ := pair
  exact there v (List.mem_of_getElem? atBackup) t (List.of_mem_zip inZip).1

theorem WrittenPair.half {t copy : TensorId} (pair : WrittenPair op backup arguments typed t copy) :
    IsHalf typed t := by
  obtain ⟨_, _, _, _, _, _, _, half⟩ := pair
  exact half

theorem writtenPairs_separate (alike : List.Forall₂ (Stored b typed called) backup arguments)
    (without : ∀ v ∈ backup, v.NoHalfOptional typed) (there : ∀ v ∈ backup, v.Present typed)
    (once : WrittenOnce op backup typed) (grown : Grown typed called)
    (lawful : Lawful (op.kernel isCpuCpuFallback))
    (computes : (op.kernel isCpuCpuFallback arguments).run called = .ok returns computed) :
    Separate (WrittenPair op backup arguments typed) computed := by
  obtain ⟨next, dtypes, -, -⟩ := lawful _ _ _ _ computes
  refine ⟨fun t copy pair => ?_, fun t copy pair => ?_, fun t copy pair => ?_,
    fun t copy copy' pair pair' => ?_, fun t copy copy' pair pair' => ?_⟩
  · have kept := half_kept alike without grown lawful computes (pair.below there) pair.half
    rw [IsHalf, kept]
    exact pair.half
  · have made := pair.copy alike without
    rw [dtypes copy made.below, made.contents]
    rfl
  · have made := pair.copy alike without
    exact ⟨Nat.lt_of_lt_of_le (pair.below there) (Nat.le_trans grown.next next),
      Nat.lt_of_lt_of_le made.below next⟩
  · obtain ⟨i, v, v', atBackup, atStack, writes, inZip, half⟩ := pair
    obtain ⟨i', w, w', atBackup', atStack', -, inZip', -⟩ := pair'
    obtain ⟨count, alone⟩ := once i v t atBackup writes (List.of_mem_zip inZip).1 half
    have same := alone i' w atBackup' (List.of_mem_zip inZip').1
    subst same
    cases atBackup.symm.trans atBackup'
    cases atStack.symm.trans atStack'
    exact Option.some.inj (unique_of_count count inZip inZip')
  · have made := pair.copy alike without
    exact absurd (pair'.below there) (Nat.not_lt.mpr made.fresh)

/-- What is at the end: the written Half tensors are written back, and the returns are repaired. -/
theorem RetryRun.ends
    (run : RetryRun b op isCpuCpuFallback backup before after metaStack typed promoted arguments
      called returns computed) (there : ∀ v ∈ backup, v.Present typed)
    (metaThere : ∀ m ∈ metaStack, m.Present typed)
    (lawful : Lawful (op.kernel isCpuCpuFallback))
    (without : ∀ v ∈ backup, v.NoHalfOptional typed) (once : WrittenOnce op backup typed) :
    ∃ stored, Assigned b (WrittenPair op backup arguments typed) computed stored ∧
      Grown stored after.heap ∧
      Alongside (RepairedValue b stored stored after.heap) returns metaStack after.stack := by
  have converted := run.converts there
  have alike : List.Forall₂ (Stored b typed called) backup arguments := converted.values
  have grown : Grown typed called := converted.grown
  have separate := writtenPairs_separate alike without there once grown lawful run.computes
  have pairs : ∀ t copy, PairsOf (TensorPair op backup) promoted.tensors t copy ∨
      PairsOf (EntryPair op backup) promoted.lists t copy ↔
      WrittenPair op backup arguments typed t copy := converted.copies.writtenPairs alike without
  obtain ⟨next, dtypes, -, returned⟩ := lawful _ _ _ _ run.computes
  obtain ⟨first, second, third, wroteTensors, wroteLists, wroteOptionals, repairs⟩ := run.finishes
  have start : Assigned b (fun _ _ => False) computed computed :=
    ⟨Nat.le_refl _, fun _ _ no => no.elim, fun _ _ _ => rfl⟩
  have tensors := wp_ok (writeBackTensors_assigns b op backup separate promoted.tensors _ computed
    (fun _ _ no => no.elim) (fun t copy pair => (pairs t copy).mp (.inl pair)) start) wroteTensors
  have lists := wp_ok (writeBackLists_assigns b op backup separate promoted.lists _ first
    (by
      rintro t copy (no | pair)
      · exact no.elim
      · exact (pairs t copy).mp (.inl pair))
    (fun t copy pair => (pairs t copy).mp (.inr pair)) tensors) wroteLists
  have assigned : Assigned b (WrittenPair op backup arguments typed) computed second :=
    lists.congr fun t copy => by rw [false_or]; exact pairs t copy
  rw [converted.copies.optionals without] at wroteOptionals
  cases wroteOptionals
  have repaired := wp_ok (repairStack_makes b second returns [] [] metaStack
    ⟨returns, second, (arguments, called) :: before.calls⟩ rfl rfl (.refl second)
    (fun v member t inValue => Nat.lt_of_lt_of_le (returned v member t inValue).1 assigned.next)
    (fun m member t inValue => Nat.lt_of_lt_of_le (metaThere m member t inValue)
      (Nat.le_trans (Nat.le_trans grown.next next) assigned.next))) repairs
  obtain ⟨-, grown', finals, stack, along⟩ := repaired
  have same : after.stack = finals := stack
  exact ⟨second, assigned, grown', same ▸ along⟩

theorem RetryRun.logged
    (run : RetryRun b op isCpuCpuFallback backup before after metaStack typed promoted arguments
      called returns computed) : after.calls = (arguments, called) :: before.calls := by
  obtain ⟨_, _, third, -, -, -, repairs⟩ := run.finishes
  have kept := repairStack_calls b metaStack ((arguments, called) :: before.calls) returns.length 0
    ⟨returns, third, (arguments, called) :: before.calls⟩ rfl
  have last := wp_ok kept repairs
  exact last

end run

/-- Where no Half tensor is in an optional tensor list, and no written Half tensor is given twice,
the retry does what it is for. It never does where a Half tensor is in an optional tensor list. -/
theorem half_retry (b : Backend α) (op : Operator α ω) (isCpuCpuFallback : Bool)
    (backup : List (IValue ω)) (before after : State α ω)
    (stack : before.stack.length = op.arguments.length)
    (length : backup.length = op.arguments.length)
    (there : ∀ v ∈ backup, v.Real before.heap) (lawful : Lawful (op.kernel isCpuCpuFallback))
    (lawfulMeta : LawfulMeta op.metaKernel)
    (ran : (xdeviceCpuFallbackWithConvert b op backup isCpuCpuFallback).run before =
      .ok () after) :
    (Retried b op isCpuCpuFallback backup before after →
      ∀ v ∈ backup, v.NoHalfOptional before.heap) ∧
    ((∀ v ∈ backup, v.NoHalfOptional before.heap) → WrittenOnce op backup before.heap →
      Retried b op isCpuCpuFallback backup before after) := by
  have present : ∀ v ∈ backup, v.Present before.heap := fun v member t inValue =>
    (there v member t inValue).1
  obtain ⟨metaStack, typed, promoted, arguments, called, returns, computed, run⟩ :=
    wp_ok (retry_runs b op isCpuCpuFallback backup before stack length present lawfulMeta) ran
  obtain ⟨next, metaThere, same⟩ := run.typed_same lawfulMeta
  have kept : ∀ v ∈ backup, ∀ t, some t ∈ v.tensors →
      typed.contents t = before.heap.contents t := fun v member t inValue =>
    same t (there v member t inValue).1 (there v member t inValue).2
  have presentTyped : ∀ v ∈ backup, v.Present typed := fun v member t inValue =>
    Nat.lt_of_lt_of_le (present v member t inValue) next
  have converted := run.converts presentTyped
  have alike : List.Forall₂ (Stored b typed called) backup arguments := converted.values
  have grown : Grown typed called := converted.grown
  have sameHalf : ∀ v ∈ backup, ∀ t, some t ∈ v.tensors →
      (IsHalf typed t ↔ IsHalf before.heap t) := fun v member t inValue => by
    rw [IsHalf, IsHalf, kept v member t inValue]
  constructor
  · rintro ⟨_, _, _, _, _, _, _, _, -, -, logged, -, retried⟩ v member
    cases logged.symm.trans run.logged
    obtain ⟨i, inside⟩ := List.mem_iff_getElem?.mp member
    obtain ⟨v', atStack⟩ : ∃ v', arguments[i]? = some v' := by
      have bound := (List.getElem?_eq_some_iff.mp inside).1
      exact ⟨_, List.getElem?_eq_getElem (alike.length_eq ▸ bound)⟩
    have pair := mem_zip_iff.mpr ⟨i, inside, atStack⟩
    exact (zip_of_forall₂ alike (v, v') pair).not_replaced (present v member)
      (zip_of_forall₂ retried.replaced (v, v') pair)
  · intro without once
    obtain ⟨metaArguments, metaHeap, metaRan, metaCalled⟩ := run.types
    refine ⟨metaArguments, metaHeap, metaStack, typed, arguments, called, returns, computed, metaRan,
      metaCalled, run.logged, run.computes, ?_⟩
    have withoutTyped : ∀ v ∈ backup, v.NoHalfOptional typed := fun v member isList t inValue half =>
      without v member isList t inValue ((sameHalf v member t inValue).mp half)
    have onceTyped : WrittenOnce op backup typed := fun i v t atBackup writes inValue half =>
      once i v t atBackup writes inValue
        ((sameHalf v (List.mem_of_getElem? atBackup) t inValue).mp half)
    obtain ⟨stored, assigned, grown', along⟩ :=
      run.ends presentTyped metaThere lawful withoutTyped onceTyped
    obtain ⟨computedNext, dtypes, -, returned⟩ := lawful _ _ _ _ run.computes
    have storedNext : typed.next ≤ stored.next :=
      Nat.le_trans (Nat.le_trans grown.next computedNext) assigned.next
    have halfKept : ∀ v ∈ backup, ∀ t, some t ∈ v.tensors → IsHalf before.heap t →
        after.heap.contents t = stored.contents t ∧
        computed.contents t = before.heap.contents t := by
      intro v member t inValue half
      have below := presentTyped v member t inValue
      refine ⟨grown'.same t (Nat.lt_of_lt_of_le below storedNext), ?_⟩
      rw [half_kept alike withoutTyped grown lawful run.computes below
        ((sameHalf v member t inValue).mpr half), kept v member t inValue]
    refine ⟨?_, ?_, ?_, ?_, ?_⟩
    · refine List.forall₂_iff_zip.mpr ⟨alike.length_eq, fun {v v'} pair => ?_⟩
      have member := (List.of_mem_zip pair).1
      exact (zip_of_forall₂ alike _ pair).replaced next (kept v member) (withoutTyped v member)
    · intro v member t inValue
      rw [grown.same t (presentTyped v member t inValue), kept v member t inValue]
    · intro i v v' t copy atBackup atStack writes inZip half
      have member := List.mem_of_getElem? atBackup
      have inValue := (List.of_mem_zip inZip).1
      obtain ⟨final, original⟩ := halfKept v member t inValue half
      have pair : WrittenPair op backup arguments typed t copy :=
        ⟨i, v, v', atBackup, atStack, writes, inZip, (sameHalf v member t inValue).mpr half⟩
      rw [final, assigned.written t copy pair, rounded, original]
    · intro i v t atBackup unwritten inValue half
      have member := List.mem_of_getElem? atBackup
      obtain ⟨final, original⟩ := halfKept v member t inValue half
      have below : t < computed.next := Nat.lt_of_lt_of_le (presentTyped v member t inValue)
        (Nat.le_trans grown.next computedNext)
      rw [final, assigned.same t below, original]
      rintro copy ⟨j, w, w', atBackup', -, writes, inZip, half'⟩
      have alone := (onceTyped j w t atBackup' writes (List.of_mem_zip inZip).1 half').2 i v atBackup
        inValue
      subst alone
      simp [writes] at unwritten
    · refine Alongside.imp _ _ _ (fun r inReturns m inMetas r' => ?_) along
      refine RepairedValue.transfer r m r' (fun u inValue => ?_) fun u inValue => ?_
      · obtain ⟨below, origin⟩ := returned r inReturns u inValue
        refine assigned.same u below fun copy pair => ?_
        obtain fresh | ⟨w, inArguments, inArgument⟩ := origin
        · exact absurd (Nat.lt_of_lt_of_le (pair.below presentTyped) grown.next)
            (Nat.not_lt.mpr fresh)
        · obtain fresh | other := arguments_origin alike withoutTyped inArguments inArgument
          · exact absurd (pair.below presentTyped) (Nat.not_lt.mpr fresh)
          · exact other pair.half
      · have below := metaThere m inMetas u inValue
        have type : (computed.contents u).dtype = (typed.contents u).dtype := by
          rw [dtypes u (Nat.lt_of_lt_of_le below grown.next), grown.same u below]
        rw [← type]
        by_cases target : ∃ copy, WrittenPair op backup arguments typed u copy
        · obtain ⟨copy, pair⟩ := target
          rw [assigned.written u copy pair, rounded]
        · rw [assigned.same u (Nat.lt_of_lt_of_le below (Nat.le_trans grown.next computedNext))
            fun copy pair => target ⟨copy, pair⟩]

/-- Doubles its argument in place, and has no returns. -/
def double : Kernel Nat Unit
  | [.tensor (some t)] => do
    let impl ← implOf t
    write t { impl with data := 2 * impl.data }
    return []
  | _ => return []

def doubleInPlace (written : Bool) : Operator Nat Unit where
  arguments := [some written]
  cpuFallback := double
  cpuKernel := double
  metaKernel _ := pure []
  leftover values := values

def countingBackend : Backend Nat where
  convert _ _ data := data
  currentDevice := 0
  same _ _ := rfl

/-- One Half tensor, on the device. -/
def oneHalf (v : IValue Unit) : State Nat Unit where
  stack := [v]
  heap := ⟨fun _ => { device := .privateUse1 0, dtype := .half, sizes := [], data := 3 }, 1⟩
  calls := []

theorem double_lawful : Lawful double := by
  intro arguments heap returns after ran
  unfold double at ran
  split at ran
  · next t =>
    cases ran
    refine ⟨Nat.le_refl _, fun u _ => ?_, fun u _ other => ?_, by simp⟩
    · show (if u = t then _ else heap.contents u).dtype = _
      split
      · next same => rw [same]
      · rfl
    · have differs : u ≠ t := by
        rintro rfl
        exact other _ List.mem_cons_self (by simp [IValue.tensors])
      exact if_neg differs
  · cases ran
    exact ⟨Nat.le_refl _, fun _ _ => rfl, fun _ _ _ => rfl, by simp⟩

/-- The retry of one Half tensor. -/
def retryOneHalf (written : Bool) (v : IValue Unit) : EStateM.Result Fault (State Nat Unit) Unit :=
  (xdeviceCpuFallbackWithConvert countingBackend (doubleInPlace written) [v] false).run (oneHalf v)

/-- With what the kernel was called, in a retry that returns. -/
def calledWith : EStateM.Result Fault (State Nat Unit) Unit → Option (List (List (IValue Unit)))
  | .ok _ s => some (s.calls.map Prod.fst)
  | .error _ _ => none

theorem calledWith_some {result : EStateM.Result Fault (State Nat Unit) Unit}
    {arguments : List (List (IValue Unit))} (called : calledWith result = some arguments) :
    ∃ after, result = .ok () after ∧ after.calls.map Prod.fst = arguments := by
  cases result with
  | ok _ after => exact ⟨after, rfl, Option.some.inj called⟩
  | error _ _ => simp [calledWith] at called

/-- The Float copy of a Half tensor takes its place on the stack, but not in an optional list. -/
theorem retryOneHalf_calledWith :
    calledWith (retryOneHalf true (.tensor (some 0))) = some [[.tensor (some 4)]] ∧
    calledWith (retryOneHalf false (.optionalTensorList [some (some 0)])) =
      some [[.optionalTensorList [some (some 0)]]] := by
  constructor <;>
  simp [retryOneHalf, xdeviceCpuFallbackWithConvert, doubleInPlace, oneHalf, countingBackend,
    calledWith, reloadBackup, setStackAt, stackAt, onHeap, zoom, convertToMeta, metaValue, metaTensor,
    metaOptionalList, metaOptionalOne, implOf, alloc, convertTensorToF32, promote,
    promoteOptionalList, convertInPlace, toDevice, toDtype, callBoxed, double, write,
    writeBackTensors, writeBackLists, writeBackOptionals, writeBack, copyFromAndResize, repairStack,
    Operator.writes, EStateM.run, bind, EStateM.bind, pure, EStateM.pure, get_apply, set_apply,
    modify_apply]

theorem double_retried :
    ∃ after, retryOneHalf true (.tensor (some 0)) = .ok () after ∧
      Retried countingBackend (doubleInPlace true) false [.tensor (some 0)]
        (oneHalf (.tensor (some 0))) after := by
  obtain ⟨after, ran, -⟩ := calledWith_some retryOneHalf_calledWith.1
  refine ⟨after, ran, (half_retry countingBackend (doubleInPlace true) false [.tensor (some 0)]
    (oneHalf (.tensor (some 0))) after rfl rfl ?_ double_lawful ?_ ran).2 ?_ ?_⟩
  · simp [IValue.Real, IValue.tensors, oneHalf]
  · intro arguments heap returns after ran
    cases ran
    exact ⟨Nat.le_refl _, fun _ _ _ => rfl, by simp⟩
  · simp [IValue.NoHalfOptional, IValue.isOptionalTensorList]
  · intro i v t found _ inValue _
    cases i with
    | zero =>
      cases found
      have same : t = 0 := by simpa [IValue.tensors] using inValue
      subst same
      refine ⟨by decide, fun other w there _ => ?_⟩
      cases other with
      | zero => rfl
      | succ other => simp at there
    | succ i => simp at found

/-- The kernel is called with the Half tensor of an optional tensor list. -/
theorem half_in_optional_list_not_retried :
    ∃ after, retryOneHalf false (.optionalTensorList [some (some 0)]) = .ok () after ∧
      ¬ Retried countingBackend (doubleInPlace false) false [.optionalTensorList [some (some 0)]]
        (oneHalf (.optionalTensorList [some (some 0)])) after := by
  obtain ⟨after, ran, given⟩ := calledWith_some retryOneHalf_calledWith.2
  refine ⟨after, ran, ?_⟩
  rintro ⟨_, _, _, _, arguments, called, _, _, -, -, logged, -, retried⟩
  simp only [logged, List.map_cons, List.cons.injEq] at given
  obtain ⟨rfl, -⟩ := given
  have each := List.forall₂_cons.mp retried.replaced
  obtain ⟨-, made⟩ | ⟨other, -⟩ := (List.forall₂_cons.mp each.1).1
  · exact absurd made.fresh (by simp [oneHalf])
  · exact other rfl

end TorchGcu.CpuFallback

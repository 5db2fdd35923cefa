import TorchGcu.CpuFallback.Promotion

/-! What the retry does to the returns: they get the types that the meta kernel gives. -/
namespace TorchGcu.CpuFallback
open ProgramLogic

variable {α ω : Type}

/-! ### The types of the returns -/

/-- A list and what became of it, each entry by the entry of another list at its position. -/
def Alongside {β : Type} (became : β → β → β → Prop) : List β → List β → List β → Prop
  | [], _, [] => True
  | v :: values, m :: others, v' :: values' => became v m v' ∧ Alongside became values others values'
  | _, _, _ => False

theorem Alongside.imp {β : Type} {became became' : β → β → β → Prop} :
    ∀ values others values', (∀ v ∈ values, ∀ m ∈ others, ∀ v', became v m v' → became' v m v') →
      Alongside became values others values' → Alongside became' values others values'
  | [], _, [], _, _ => trivial
  | _ :: _, _ :: _, _ :: _, implies, ⟨first, rest⟩ =>
    ⟨implies _ List.mem_cons_self _ List.mem_cons_self _ first,
      Alongside.imp _ _ _ (fun v inValues m inOthers => implies v (List.mem_cons_of_mem _ inValues) m
        (List.mem_cons_of_mem _ inOthers)) rest⟩

/-- The third tensor is the first with the type of the second: the values are from one heap, the
types from another. -/
def Repaired (b : Backend α) (values types after : Heap α) : Tensor → Tensor → Tensor → Prop
  | none, _, none => True
  | some t, some m, some t' => t' < after.next ∧
      after.contents t' = (values.contents t).converted b (types.contents m).dtype
  | _, _, _ => False

def RepairedOptional (b : Backend α) (values types after : Heap α) :
    Option Tensor → Option Tensor → Option Tensor → Prop
  | none, _, none => True
  | some t, some m, some t' => Repaired b values types after t m t'
  | _, _, _ => False

def RepairedValue (b : Backend α) (values types after : Heap α) :
    IValue ω → IValue ω → IValue ω → Prop
  | .tensor t, .tensor m, .tensor t' => Repaired b values types after t m t'
  | .tensorList l, .tensorList m, .tensorList l' => Alongside (Repaired b values types after) l m l'
  | .optionalTensorList l, .optionalTensorList m, .optionalTensorList l' =>
    Alongside (RepairedOptional b values types after) l m l'
  | .other v, _, .other v' => v' = v
  | _, _, _ => False

theorem Repaired.grown {b : Backend α} {values types after later : Heap α} (grown : Grown after later) :
    ∀ t m t', Repaired b values types after t m t' → Repaired b values types later t m t'
  | none, _, none, _ => trivial
  | some _, some _, some t', ⟨below, contents⟩ =>
    ⟨Nat.lt_of_lt_of_le below grown.next, by rw [grown.same t' below, contents]⟩

theorem RepairedOptional.grown {b : Backend α} {values types after later : Heap α}
    (grown : Grown after later) : ∀ t m t', RepairedOptional b values types after t m t' →
      RepairedOptional b values types later t m t'
  | none, _, none, _ => trivial
  | some t, some m, some t', repaired => Repaired.grown grown t m t' repaired

theorem RepairedValue.grown {b : Backend α} {values types after later : Heap α}
    (grown : Grown after later) : ∀ v m v' : IValue ω, RepairedValue b values types after v m v' →
      RepairedValue b values types later v m v'
  | .tensor t, .tensor m, .tensor t', repaired => Repaired.grown grown t m t' repaired
  | .tensorList l, .tensorList m, .tensorList l', repaired =>
    Alongside.imp l m l' (fun t _ u _ => Repaired.grown grown t u) repaired
  | .optionalTensorList l, .optionalTensorList m, .optionalTensorList l', repaired =>
    Alongside.imp l m l' (fun t _ u _ => RepairedOptional.grown grown t u) repaired
  | .other _, _, .other _, same => same

/-- It is the values and types of the tensors in question that matter. -/
theorem Repaired.transfer {b : Backend α} {values types values' types' after : Heap α} :
    ∀ t m t', (∀ u, t = some u → values.contents u = values'.contents u) →
      (∀ u, m = some u → (types.contents u).dtype = (types'.contents u).dtype) →
      Repaired b values types after t m t' → Repaired b values' types' after t m t'
  | none, _, none, _, _, _ => trivial
  | some t, some m, some _, same, same', ⟨below, contents⟩ =>
    ⟨below, by rw [contents, same t rfl, same' m rfl]⟩

theorem RepairedValue.transfer {b : Backend α} {values types values' types' after : Heap α} :
    ∀ v m v' : IValue ω, (∀ u, some u ∈ v.tensors → values.contents u = values'.contents u) →
      (∀ u, some u ∈ m.tensors → (types.contents u).dtype = (types'.contents u).dtype) →
      RepairedValue b values types after v m v' → RepairedValue b values' types' after v m v'
  | .tensor t, .tensor m, .tensor t', same, same', repaired =>
    Repaired.transfer t m t' (fun u given => same u (by simp [IValue.tensors, given]))
      (fun u given => same' u (by simp [IValue.tensors, given])) repaired
  | .tensorList l, .tensorList m, .tensorList l', same, same', repaired =>
    Alongside.imp l m l' (fun _ inList _ inMetas t' => Repaired.transfer _ _ t'
      (fun u given => same u (given ▸ inList)) fun u given => same' u (given ▸ inMetas)) repaired
  | .optionalTensorList l, .optionalTensorList m, .optionalTensorList l', same, same', repaired => by
    refine Alongside.imp l m l' (fun t inList n inMetas t' => ?_) repaired
    cases t with
    | none => exact fun repaired => by cases n <;> cases t' <;> exact repaired
    | some t =>
      cases n with
      | none => cases t' <;> exact False.elim
      | some n =>
        cases t' with
        | none => exact False.elim
        | some t' =>
          refine Repaired.transfer t n t' (fun u given => same u ?_) fun u given => same' u ?_
          · exact List.mem_map.mpr ⟨some t, inList, given⟩
          · exact List.mem_map.mpr ⟨some n, inMetas, given⟩
  | .other _, _, .other _, _, _, same => same

theorem repairTensor_makes (b : Backend α) (before heap : Heap α) (t m : Tensor)
    (grown : Grown before heap) (tThere : ∀ u, t = some u → u < before.next)
    (mThere : ∀ u, m = some u → u < before.next) :
    wp (repairTensor b t m) (fun t' after => Grown heap after ∧
      Repaired b before before after t m t') (fun _ _ => True) heap := by
  match t, m with
  | none, _ => exact ⟨.refl heap, trivial⟩
  | some _, none => exact trivial
  | some t, some m =>
    have tBelow := tThere t rfl
    have mBelow := mThere m rfl
    unfold repairTensor
    rw [wp_bind, wp_implOf, wp_bind, wp_implOf, wp_ite, grown.same t tBelow, grown.same m mBelow]
    refine ⟨fun same => ?_, fun _ => ?_⟩
    · refine ⟨.refl heap, Nat.lt_of_lt_of_le tBelow grown.next, ?_⟩
      rw [← same, TensorImpl.converted_same, grown.same t tBelow]
    · rw [wp_bind]
      refine wp_mono (convertInPlace_makes b t _ heap (Nat.lt_of_lt_of_le tBelow grown.next)) ?_
        fun _ _ no => no.elim
      rintro made after ⟨grown', -, below, contents⟩
      exact ⟨grown', below, by rw [contents, grown.same t tBelow]⟩

theorem repairList_makes (b : Backend α) (before : Heap α) (l : List Tensor) :
    ∀ (metas : List Tensor) (heap : Heap α), Grown before heap →
      (∀ t, some t ∈ l → t < before.next) → (∀ t, some t ∈ metas → t < before.next) →
      wp (repairList b l metas) (fun l' after => Grown heap after ∧
        Alongside (Repaired b before before after) l metas l') (fun _ _ => True) heap := by
  induction l with
  | nil => exact fun _ heap _ _ _ => ⟨.refl heap, trivial⟩
  | cons t l ih =>
    intro metas heap grown there metasThere
    cases metas with
    | nil => exact trivial
    | cons m metas =>
      unfold repairList
      rw [wp_bind]
      refine wp_mono (repairTensor_makes b before heap t m grown
        (fun u same => there u (same ▸ List.mem_cons_self))
        fun u same => metasThere u (same ▸ List.mem_cons_self)) ?_ fun _ _ _ => trivial
      rintro t' first ⟨grown', repaired⟩
      rw [wp_bind]
      refine wp_mono (ih metas first (grown.trans grown')
        (fun u member => there u (List.mem_cons_of_mem _ member))
        fun u member => metasThere u (List.mem_cons_of_mem _ member)) ?_ fun _ _ _ => trivial
      rintro others after ⟨grown'', rest⟩
      exact ⟨grown'.trans grown'', Repaired.grown grown'' t m t' repaired, rest⟩

theorem repairOptionalList_makes (b : Backend α) (before : Heap α) (l : List (Option Tensor)) :
    ∀ (metas : List (Option Tensor)) (heap : Heap α), Grown before heap →
      (∀ t, some t ∈ l.map (·.getD none) → t < before.next) →
      (∀ t, some t ∈ metas.map (·.getD none) → t < before.next) →
      wp (repairOptionalList b l metas) (fun l' after => Grown heap after ∧
        Alongside (RepairedOptional b before before after) l metas l') (fun _ _ => True) heap := by
  induction l with
  | nil => exact fun _ heap _ _ _ => ⟨.refl heap, trivial⟩
  | cons t l ih =>
    intro metas heap grown there metasThere
    rw [List.map_cons] at there
    match t, metas with
    | _, [] => cases t <;> exact trivial
    | none, m :: metas =>
      rw [List.map_cons] at metasThere
      unfold repairOptionalList
      rw [wp_bind]
      refine wp_mono (ih metas heap grown
        (fun u member => there u (List.mem_cons_of_mem _ member))
        fun u member => metasThere u (List.mem_cons_of_mem _ member)) ?_ fun _ _ _ => trivial
      rintro others after ⟨grown', rest⟩
      exact ⟨grown', trivial, rest⟩
    | some _, none :: _ => exact trivial
    | some t, some m :: metas =>
      rw [List.map_cons] at metasThere
      unfold repairOptionalList
      rw [wp_bind]
      refine wp_mono (repairTensor_makes b before heap t m grown
        (fun u same => there u (same ▸ List.mem_cons_self))
        fun u same => metasThere u (same ▸ List.mem_cons_self)) ?_ fun _ _ _ => trivial
      rintro t' first ⟨grown', repaired⟩
      rw [wp_bind]
      refine wp_mono (ih metas first (grown.trans grown')
        (fun u member => there u (List.mem_cons_of_mem _ member))
        fun u member => metasThere u (List.mem_cons_of_mem _ member)) ?_ fun _ _ _ => trivial
      rintro others after ⟨grown'', rest⟩
      exact ⟨grown'.trans grown'', Repaired.grown grown'' t m t' repaired, rest⟩

theorem repairValue_makes (b : Backend α) (before heap : Heap α) (v m : IValue ω)
    (grown : Grown before heap) (there : v.Present before) (metaThere : m.Present before) :
    wp (repairValue b v m) (fun v' after => Grown heap after ∧
      RepairedValue b before before after v m v') (fun _ _ => True) heap := by
  unfold repairValue
  split
  · rw [wp_bind]
    refine wp_mono (repairTensor_makes b before heap _ _ grown
      (fun u same => there u (by simp [IValue.tensors, same]))
      fun u same => metaThere u (by simp [IValue.tensors, same])) ?_ fun _ _ _ => trivial
    exact fun _ _ repaired => repaired
  · rw [wp_bind]
    exact wp_mono (repairList_makes b before _ _ heap grown there metaThere)
      (fun _ _ repaired => repaired) fun _ _ _ => trivial
  · rw [wp_bind]
    exact wp_mono (repairOptionalList_makes b before _ _ heap grown there metaThere)
      (fun _ _ repaired => repaired) fun _ _ _ => trivial
  · exact ⟨.refl heap, rfl⟩
  · exact trivial

theorem repairStack_makes (b : Backend α) (before : Heap α) (todo : List (IValue ω)) :
    ∀ (front metaFront metas : List (IValue ω)) (s : State α ω), s.stack = front ++ todo →
      metaFront.length = front.length → Grown before s.heap → (∀ v ∈ todo, v.Present before) →
      (∀ m ∈ metas, m.Present before) →
      wp (repairStack b (metaFront ++ metas) front.length todo.length) (fun _ after =>
        after.calls = s.calls ∧ Grown s.heap after.heap ∧ ∃ repaired,
          after.stack = front ++ repaired ∧
          Alongside (RepairedValue b before before after.heap) todo metas repaired)
        (fun _ _ => True) s := by
  induction todo with
  | nil =>
    intro front metaFront metas s stack _ grown _ _
    exact ⟨rfl, .refl _, [], stack, trivial⟩
  | cons v todo ih =>
    intro front metaFront metas s stack length grown there metasThere
    simp only [List.length_cons, repairStack]
    rw [wp_bind, wp_run (stackAt_here s front todo v stack)]
    have found : (metaFront ++ metas)[front.length]? = metas[0]? := by
      rw [List.getElem?_append_right (Nat.le_of_eq length), length, Nat.sub_self]
    rw [found]
    cases metas with
    | nil => exact trivial
    | cons m metas =>
      simp only [List.getElem?_cons_zero, onHeap]
      rw [wp_bind, wp_zoom]
      refine wp_mono (repairValue_makes b before s.heap v m grown (there v List.mem_cons_self)
        (metasThere m List.mem_cons_self)) ?_ fun _ _ _ => trivial
      rintro v' heap ⟨grown', repaired⟩
      rw [wp_bind, wp_run (setStackAt_here { s with heap } front todo v v' stack)]
      have rest := ih (front ++ [v']) (metaFront ++ [m]) metas
        ⟨front ++ v' :: todo, heap, s.calls⟩ (by simp) (by simp [length]) (grown.trans grown')
        (fun w member => there w (List.mem_cons_of_mem _ member))
        fun w member => metasThere w (List.mem_cons_of_mem _ member)
      have place : (front ++ [v']).length = front.length + 1 := by simp
      rw [place, List.append_assoc, List.singleton_append] at rest
      refine wp_mono rest ?_ fun _ _ _ => trivial
      rintro _ after ⟨calls, grown'', others, stack', along⟩
      refine ⟨calls, grown'.trans grown'', v' :: others, ?_, ?_, along⟩
      · rw [stack', List.append_assoc, List.singleton_append]
      · exact RepairedValue.grown grown'' v m v' repaired

theorem repairStack_calls (b : Backend α) (metaStack : List (IValue ω))
    (calls : List (List (IValue ω) × Heap α)) (count : Nat) :
    ∀ i, Preserves (fun s : State α ω => s.calls = calls) (repairStack b metaStack i count) := by
  induction count with
  | zero => exact fun i => .pure _
  | succ count ih =>
    intro i
    have read : Preserves (fun s : State α ω => s.calls = calls) (stackAt i) := by
      intro s same
      unfold stackAt
      rw [wp_bind, wp_get]
      cases s.stack[i]? <;> exact same
    have written (v : IValue ω) :
        Preserves (fun s : State α ω => s.calls = calls) (setStackAt i v) := by
      intro s same
      unfold setStackAt
      rw [wp_bind, wp_get, wp_ite]
      exact ⟨fun _ => same, fun _ => same⟩
    refine .bind read fun v => ?_
    cases metaStack[i]? with
    | none => exact .throw _
    | some m =>
      exact .bind (.zoom fun _ _ same => same) fun repaired =>
        .bind (written repaired) fun _ => ih (i + 1)

end TorchGcu.CpuFallback

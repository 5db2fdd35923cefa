import TorchGcu.CpuFallback.Copies

/-! The arguments of the retry: Half tensors give way to Float copies, whose positions are kept. -/
namespace TorchGcu.CpuFallback
open ProgramLogic

variable {α ω : Type}

/-! ### Positions of the stack -/

theorem stackAt_here (s : State α ω) (front rest : List (IValue ω)) (v : IValue ω)
    (stack : s.stack = front ++ v :: rest) :
    (stackAt front.length : StackM α ω (IValue ω)).run s = .ok v s := by
  have found : s.stack[front.length]? = some v := by
    rw [stack, List.getElem?_append_right (Nat.le_refl _), Nat.sub_self]
    rfl
  simp [stackAt, EStateM.run, bind, EStateM.bind, get_apply, found, pure, EStateM.pure]

theorem setStackAt_here (s : State α ω) (front rest : List (IValue ω)) (v v' : IValue ω)
    (stack : s.stack = front ++ v :: rest) :
    (setStackAt front.length v' : StackM α ω Unit).run s =
      .ok () { s with stack := front ++ v' :: rest } := by
  have inside : front.length < s.stack.length := by
    rw [stack, List.length_append, List.length_cons]
    omega
  have written : s.stack.set front.length v' = front ++ v' :: rest := by
    rw [stack, List.set_append_right _ _ (Nat.le_refl _), Nat.sub_self, List.set_cons_zero]
  simp [setStackAt, EStateM.run, bind, EStateM.bind, get_apply, inside, written, set_apply]

theorem callBoxed_ok {op : Operator α ω} {kernel : Kernel α ω} {arguments : List (IValue ω)}
    {heap : Heap α} {calls : List (List (IValue ω) × Heap α)} {after : State α ω}
    (length : arguments.length = op.arguments.length)
    (ran : (callBoxed op kernel).run ⟨arguments, heap, calls⟩ = .ok () after) :
    ∃ returns, (kernel arguments).run heap = .ok returns after.heap ∧
      after = ⟨returns, after.heap, calls⟩ := by
  simp only [EStateM.run, callBoxed, length, Nat.sub_self, List.drop_zero] at ran ⊢
  cases result : kernel arguments heap with
  | ok returns left =>
    simp only [result] at ran
    cases ran
    exact ⟨returns, rfl, by simp⟩
  | error fault left => simp [result] at ran

/-! ### The promotion -/

/-- What `convert_tensor_to_f32` has done from an argument on. -/
structure Converted (b : Backend α) (before : Heap α) (front todo : List (IValue ω))
    (s : State α ω) (promoted : Promoted) (after : State α ω) (stored : List (IValue ω)) : Prop where
  stack : after.stack = front ++ stored
  calls : after.calls = s.calls
  grown : Grown s.heap after.heap
  values : List.Forall₂ (Stored b before after.heap) todo stored
  copies : Copies before front.length todo stored promoted

theorem Converted.cons {b : Backend α} {before : Heap α} {front todo stored : List (IValue ω)}
    {s next after : State α ω} {v v' : IValue ω} {promoted : Promoted}
    {t : List (Nat × TensorId)} {l o : List (Nat × Nat × TensorId)}
    (rest : Converted b before (front ++ [v']) todo next promoted after stored)
    (calls : next.calls = s.calls) (grown : Grown s.heap next.heap)
    (value : Stored b before next.heap v v')
    (ofTensor : ∀ place entry, (place, entry) ∈ t ↔
      place = front.length ∧ TensorCopy before v v' entry)
    (ofList : ∀ place entry, (place, entry) ∈ l ↔
      place = front.length ∧ EntryCopy before v v' entry)
    (ofOptional : v.NoHalfOptional before → o = []) :
    Converted b before front (v :: todo) s
      ⟨t ++ promoted.tensors, l ++ promoted.lists, o ++ promoted.optionals⟩ after
      (v' :: stored) := by
  have place : (front ++ [v']).length = front.length + 1 := by simp
  have copies := place ▸ rest.copies
  refine ⟨?_, rest.calls.trans calls, grown.trans rest.grown,
    .cons (value.grown rest.grown) rest.values, copies.tensors.cons ofTensor,
    copies.lists.cons ofList, fun without => ?_⟩
  · rw [rest.stack, List.append_assoc, List.singleton_append]
  · simp [ofOptional (without v List.mem_cons_self),
      copies.optionals fun w member => without w (List.mem_cons_of_mem _ member)]

/-- The tensors of an argument are there. -/
def IValue.Present (heap : Heap α) (v : IValue ω) : Prop :=
  ∀ t, some t ∈ v.tensors → t < heap.next

theorem convertTensorToF32_makes (b : Backend α) (before : Heap α) (todo : List (IValue ω)) :
    ∀ (front : List (IValue ω)) (s : State α ω), s.stack = front ++ todo → Grown before s.heap →
      (∀ v ∈ todo, v.Present before) →
      wp (convertTensorToF32 b 0 front.length todo.length) (fun promoted after =>
        ∃ stored, Converted b before front todo s promoted after stored) (fun _ _ => False) s := by
  induction todo with
  | nil =>
    intro front s stack grown _
    refine ⟨[], stack, rfl, .refl _, .nil, ?_, ?_, fun _ => rfl⟩
    · intro place entry
      simp
    · intro place entry
      simp
  | cons v todo ih =>
    intro front s stack grown present
    have here := present v List.mem_cons_self
    have later : ∀ w ∈ todo, w.Present before := fun w member =>
      present w (List.mem_cons_of_mem _ member)
    have length (v' : IValue ω) : front.length + 1 = (front ++ [v']).length := by simp
    simp only [List.length_cons, convertTensorToF32, Nat.zero_add]
    rw [wp_bind, wp_run (stackAt_here s front todo v stack)]
    -- the rest of the loop, from a state in which the argument is replaced
    have continues (v' : IValue ω) (next : State α ω) (set : next.stack = front ++ v' :: todo)
        (grown' : Grown s.heap next.heap) :
        wp (convertTensorToF32 b 0 (front.length + 1) todo.length) (fun promoted after =>
          ∃ stored, Converted b before (front ++ [v']) todo next promoted after stored)
          (fun _ _ => False) next := by
      have same : next.stack = (front ++ [v']) ++ todo := by simp [set]
      rw [length v']
      exact ih (front ++ [v']) next same (grown.trans grown') later
    cases v with
    | tensor t =>
      simp only [onHeap]
      rw [wp_bind, wp_zoom]
      refine wp_mono (promote_makes b before s.heap t grown fun original given =>
        here original (by simp [IValue.tensors, given])) ?_ fun _ _ no => no
      rintro copy heap ⟨grown', promoted⟩
      have value := promoted.replaced
      cases copy with
      | none =>
        refine wp_mono (continues (.tensor t) { s with heap } stack grown') ?_ fun _ _ no => no
        rintro rest after ⟨stored, converted⟩
        refine ⟨_, converted.cons (t := []) (l := []) (o := []) rfl grown' value ?_ ?_
          fun _ => rfl⟩
        · intro place entry
          refine ⟨fun member => absurd member List.not_mem_nil, ?_⟩
          rintro ⟨-, original, given, half, -⟩
          cases given
          exact absurd half (promoted original rfl)
        · simp [EntryCopy]
      | some copy =>
        simp only
        rw [wp_bind, wp_run (setStackAt_here { s with heap } front todo (.tensor t) _ stack), wp_bind]
        refine wp_mono (continues (.tensor (some copy)) ⟨_, heap, s.calls⟩ rfl grown') ?_
          fun _ _ no => no
        rintro rest after ⟨stored, converted⟩
        refine ⟨_, converted.cons (t := [(front.length, copy)]) (l := []) (o := []) rfl grown' value
          ?_ ?_ fun _ => rfl⟩
        · intro place entry
          obtain ⟨original, rfl, half, -⟩ := promoted
          rw [List.mem_singleton, Prod.mk.injEq]
          refine and_congr_right fun _ => ⟨?_, ?_⟩
          · rintro rfl
            exact ⟨original, rfl, half, rfl⟩
          · rintro ⟨_, -, -, made⟩
            cases made
            rfl
        · simp [EntryCopy]
    | tensorList l =>
      simp only [onHeap]
      rw [wp_bind, wp_zoom]
      refine wp_mono (promoteList_makes b before front.length l 0 s.heap grown fun original given =>
        here original given) ?_ fun _ _ no => no
      rintro ⟨promoted, copies⟩ heap ⟨grown', replaced, listed⟩
      simp only
      rw [wp_bind, wp_run (setStackAt_here { s with heap } front todo (.tensorList l) _ stack), wp_bind]
      refine wp_mono (continues (.tensorList promoted) ⟨_, heap, s.calls⟩ rfl grown') ?_
        fun _ _ no => no
      rintro rest after ⟨stored, converted⟩
      refine ⟨_, converted.cons (t := []) (l := copies) (o := []) rfl grown' replaced ?_ ?_
        fun _ => rfl⟩
      · simp [TensorCopy]
      · rintro place ⟨position, copy⟩
        rw [listed]
        refine and_congr_right fun _ => ⟨?_, ?_⟩
        · rintro ⟨k, original, rfl, found, half, made⟩
          rw [Nat.zero_add]
          exact ⟨l, promoted, original, rfl, rfl, found, half, made⟩
        · rintro ⟨_, _, original, given, given', found, half, made⟩
          cases given
          cases given'
          exact ⟨position, original, (Nat.zero_add _).symm, found, half, made⟩
    | optionalTensorList l =>
      simp only [onHeap]
      rw [wp_bind, wp_zoom]
      refine wp_mono (promoteOptionalList_makes b before front.length l 0 s.heap grown
        fun original given => here original given) ?_ fun _ _ no => no
      rintro ⟨promoted, copies⟩ heap ⟨grown', none⟩
      simp only
      rw [wp_bind]
      refine wp_mono (continues (.optionalTensorList l) { s with heap } stack grown') ?_
        fun _ _ no => no
      rintro rest after ⟨stored, converted⟩
      refine ⟨_, converted.cons (t := []) (l := []) (o := copies) rfl grown' rfl ?_ ?_
        fun without => none (without rfl)⟩
      · simp [TensorCopy]
      · simp [EntryCopy]
    | other value =>
      refine wp_mono (continues (.other value) s stack (.refl _)) ?_ fun _ _ no => no
      rintro rest after ⟨stored, converted⟩
      refine ⟨_, converted.cons (t := []) (l := []) (o := []) rfl (.refl _) rfl ?_ ?_ fun _ => rfl⟩
      · simp [TensorCopy]
      · simp [EntryCopy]

end TorchGcu.CpuFallback

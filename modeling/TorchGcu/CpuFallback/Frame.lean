import TorchGcu.CpuFallback.Promotion

/-! What the fallback does to the values under its arguments. -/
namespace TorchGcu.CpuFallback
open ProgramLogic

variable {α ω : Type}

/-- The state with more values at the bottom of the stack. -/
def State.above (front : List (IValue ω)) (s : State α ω) : State α ω :=
  { s with stack := front ++ s.stack }

/-- What is reached with more values at the bottom of the stack. -/
def resultAbove {β : Type} (front : List (IValue ω)) :
    EStateM.Result Fault (State α ω) β → EStateM.Result Fault (State α ω) β
  | .ok a s => .ok a (s.above front)
  | .error fault s => .error fault (s.above front)

/-- The call with values under its arguments is the call without them. -/
def Framed (b : Backend α) (op : Operator α ω) (front arguments : List (IValue ω))
    (heap : Heap α) : Prop :=
  (gcuCpuFallback b op).run ⟨front ++ arguments, heap, []⟩ =
    resultAbove front ((gcuCpuFallback b op).run ⟨arguments, heap, []⟩)

/-! ### Conditions -/

/-- The tensors there are, of those that `copy_back_to_org_device` looks at, are on the device it
returns to. -/
def IValue.Returned (b : Backend α) (heap : Heap α) : IValue ω → Prop
  | .optionalTensorList l => ∀ t, some (some t) ∈ l → t < heap.next ∧
      (heap.contents t).device = .privateUse1 b.currentDevice
  | _ => True

/-- The kernel has no `Half`. -/
def FailsForHalf (kernel : Kernel α ω) (arguments : List (IValue ω)) (heap : Heap α) : Prop :=
  ∃ what after, (kernel arguments).run heap = .error (.notImplementedForHalf what) after

/-- Nothing of what is written by positions from the bottom is written. -/
def Spared (b : Backend α) (op : Operator α ω) (front arguments : List (IValue ω))
    (heap : Heap α) : Prop :=
  front = [] ∨
    (∀ v ∈ arguments, v.isOptionalTensorList = false) ∧
    (∀ v ∈ front, v.Returned b heap) ∧
    ¬ FailsForHalf op.cpuFallback arguments heap

/-- A tensor stays where it is. -/
def KeepsDevices (kernel : Kernel α ω) : Prop :=
  ∀ arguments heap returns after, (kernel arguments).run heap = .ok returns after →
    heap.next ≤ after.next ∧
    ∀ t, t < heap.next → (after.contents t).device = (heap.contents t).device

theorem IValue.Returned.kept {b : Backend α} {kernel : Kernel α ω} {heap after : Heap α}
    {arguments returns : List (IValue ω)} {v : IValue ω} (returned : v.Returned b heap)
    (keeps : KeepsDevices kernel) (ran : (kernel arguments).run heap = .ok returns after) :
    v.Returned b after := by
  obtain ⟨grows, same⟩ := keeps arguments heap returns after ran
  cases v with
  | optionalTensorList l =>
    intro t member
    obtain ⟨below, there⟩ := returned t member
    exact ⟨Nat.lt_of_lt_of_le below grows, by rw [same t below, there]⟩
  | _ => trivial

/-! ### The loops -/

theorem optionalListsToCpu_none {s : State α ω} (front arguments : List (IValue ω))
    (stack : s.stack = front ++ arguments)
    (without : ∀ v ∈ arguments, v.isOptionalTensorList = false) (count : Nat) :
    ∀ idx, idx + count ≤ arguments.length →
      (optionalListsToCpu front.length idx count).run s = .ok [] s := by
  induction count with
  | zero => intro idx _; rfl
  | succ count ih =>
    intro idx within
    have inside : idx < arguments.length := by omega
    have found : s.stack[front.length + idx]? = some arguments[idx] := by
      rw [stack, List.getElem?_append_right (by omega)]
      simp [inside]
    have other := without _ (List.getElem_mem inside)
    have next := ih (idx + 1) (by omega)
    simp only [EStateM.run] at next ⊢
    simp only [optionalListsToCpu, stackAt, bind, EStateM.bind, get_apply, found, pure, EStateM.pure]
    cases kind : arguments[idx] <;> simp_all [IValue.isOptionalTensorList]

theorem toReturnDeviceList_returned {b : Backend α} {heap : Heap α} (l : List (Option Tensor))
    (returned : ∀ t, some (some t) ∈ l → (heap.contents t).device = .privateUse1 b.currentDevice) :
    (toReturnDeviceList b l).run heap = .ok l heap := by
  induction l with
  | nil => rfl
  | cons entry l ih =>
    have rest := ih fun t member => returned t (List.mem_cons_of_mem _ member)
    have first : (toReturnDeviceOne b entry).run heap = .ok entry heap := by
      match entry with
      | none | some none => rfl
      | some (some t) =>
        have there := returned t List.mem_cons_self
        simp [toReturnDeviceOne, toDevice, implOf, there, EStateM.run, bind, EStateM.bind,
          get_apply, pure, EStateM.pure]
    simp only [EStateM.run] at first rest ⊢
    simp [toReturnDeviceList, bind, EStateM.bind, first, rest, pure, EStateM.pure]

theorem toReturnDevice_returned {b : Backend α} {heap : Heap α} {v : IValue ω}
    (returned : v.Returned b heap) : (toReturnDevice b v).run heap = .ok v heap := by
  cases v with
  | optionalTensorList l =>
    have moved := toReturnDeviceList_returned l fun t member => (returned t member).2
    simp only [EStateM.run] at moved ⊢
    simp [toReturnDevice, bind, EStateM.bind, moved, pure, EStateM.pure]
  | _ => rfl

theorem forStack_above (f : IValue ω → HeapM α (IValue ω)) (front : List (IValue ω)) (count : Nat) :
    ∀ (i : Nat) (s : State α ω), (forStack f (front.length + i) count).run (s.above front) =
      resultAbove front ((forStack f i count).run s) := by
  induction count with
  | zero => intro i s; rfl
  | succ count ih =>
    intro i s
    have found : (s.above front).stack[front.length + i]? = s.stack[i]? := by
      simp only [State.above]
      rw [List.getElem?_append_right (by omega), Nat.add_sub_cancel_left]
    simp only [EStateM.run] at ih ⊢
    simp only [forStack, stackAt, bind, EStateM.bind, get_apply, found]
    cases s.stack[i]? with
    | none => rfl
    | some v =>
      simp only [pure, EStateM.pure, onHeap, zoom, EStateM.run, State.above]
      cases f v s.heap with
      | error fault heap => rfl
      | ok changed heap =>
        have inside : front.length + i < (front ++ s.stack).length ↔ i < s.stack.length := by
          simp
        have written : (front ++ s.stack).set (front.length + i) changed =
            front ++ s.stack.set i changed := by
          rw [List.set_append_right _ _ (by omega), Nat.add_sub_cancel_left]
        simp only [setStackAt, bind, EStateM.bind, get_apply, inside, written]
        by_cases fits : i < s.stack.length
        · simp only [fits, if_true, set_apply]
          exact ih (i + 1) { s with stack := s.stack.set i changed, heap }
        · simp only [fits, if_false]
          rfl

/-- The loop over values that it does not change. -/
theorem forStack_same (f : IValue ω → HeapM α (IValue ω)) (s : State α ω) (count : Nat) :
    ∀ i, i + count ≤ s.stack.length →
      (∀ v ∈ s.stack.take (i + count), (f v).run s.heap = .ok v s.heap) →
      (forStack f i count).run s = .ok () s := by
  induction count with
  | zero => intro i _ _; rfl
  | succ count ih =>
    intro i within same
    have inside : i < s.stack.length := by omega
    have found : s.stack[i]? = some s.stack[i] := by simp [inside]
    have next := ih (i + 1) (by omega) (by rwa [Nat.add_right_comm, Nat.add_assoc])
    have first := same s.stack[i] (List.mem_take_iff_getElem.mpr ⟨i, by omega, rfl⟩)
    simp only [EStateM.run] at next first ⊢
    simp only [forStack, stackAt, bind, EStateM.bind, get_apply, found, pure, EStateM.pure, onHeap,
      zoom, EStateM.run, first, setStackAt, inside, if_true, set_apply, List.set_getElem_self]
    exact next

theorem forStack_add (f : IValue ω → HeapM α (IValue ω)) (first second : Nat) :
    ∀ i, (forStack f i (first + second) : StackM α ω Unit) =
      (do forStack f i first; forStack f (i + first) second) := by
  induction first with
  | zero => intro i; simp [forStack]
  | succ first ih =>
    intro i
    rw [Nat.add_right_comm]
    simp only [forStack, ih, bind_assoc]
    rw [Nat.add_right_comm, Nat.add_assoc]

/-! ### The call -/

theorem callBoxed_above (op : Operator α ω) (kernel : Kernel α ω) (front : List (IValue ω))
    (s : State α ω) (enough : op.arguments.length ≤ s.stack.length) :
    (callBoxed op kernel).run (s.above front) =
      resultAbove front ((callBoxed op kernel).run s) := by
  have position : (front ++ s.stack).length - op.arguments.length =
      front.length + (s.stack.length - op.arguments.length) := by
    rw [List.length_append]
    omega
  simp only [EStateM.run, callBoxed, State.above, position, List.take_length_add_append,
    List.drop_length_add_append]
  cases kernel (s.stack.drop (s.stack.length - op.arguments.length)) s.heap <;>
    simp [resultAbove, State.above, List.append_assoc]

theorem callBoxed_error {op : Operator α ω} {kernel : Kernel α ω} {arguments : List (IValue ω)}
    {heap : Heap α} {calls : List (List (IValue ω) × Heap α)} {fault : Fault} {after : State α ω}
    (length : arguments.length = op.arguments.length)
    (ran : (callBoxed op kernel).run ⟨arguments, heap, calls⟩ = .error fault after) :
    (kernel arguments).run heap = .error fault after.heap := by
  simp only [EStateM.run, callBoxed, length, Nat.sub_self, List.drop_zero] at ran ⊢
  cases result : kernel arguments heap with
  | ok returns left => simp [result] at ran
  | error fault left =>
    simp only [result] at ran
    cases ran
    rfl

theorem copyBackToOrgDevice_above (b : Backend α) (op : Operator α ω) (front : List (IValue ω))
    (s : State α ω) (returned : ∀ v ∈ front, v.Returned b s.heap) :
    (copyBackToOrgDevice b op []).run (s.above front) =
      resultAbove front ((copyBackToOrgDevice b op []).run s) := by
  have settled : (forStack (toReturnDevice b) 0 front.length).run (s.above front) =
      .ok () (s.above front) := by
    refine forStack_same _ _ _ 0 (by simp [State.above]) fun v member => ?_
    have inFront : v ∈ front := by simpa [State.above] using member
    exact toReturnDevice_returned (returned v inFront)
  have rest := forStack_above (toReturnDevice b) front s.stack.length 0 s
  have length : (s.above front).stack.length = front.length + s.stack.length := by
    simp [State.above]
  simp only [EStateM.run, Nat.add_zero] at settled rest ⊢
  simp only [copyBackToOrgDevice, copyBackArguments, onHeap, zoom, EStateM.run, bind, EStateM.bind,
    pure, EStateM.pure, get_apply]
  have same : ({ s.above front with heap := (s.above front).heap } : State α ω) = s.above front :=
    rfl
  rw [same, length, forStack_add]
  simp only [bind, EStateM.bind, settled, Nat.zero_add]
  exact rest

/-- What is done after the call of the kernel. -/
def afterCall (b : Backend α) (op : Operator α ω) (backup : List (IValue ω)) :
    EStateM.Result Fault (State α ω) Unit → EStateM.Result Fault (State α ω) Unit
  | .ok () s => (copyBackToOrgDevice b op []).run s
  | .error (.notImplementedForHalf _) s =>
    (do xdeviceCpuFallbackWithConvert b op backup false
        copyBackToOrgDevice b op []).run s
  | .error fault s => .error fault s

/-- Not the error that is answered by a retry. -/
def Final (fault : Fault) : Prop :=
  ∀ what, fault ≠ .notImplementedForHalf what

theorem toDevice_raises (t : TensorId) (device : Device) :
    Raises Final (toDevice t device : HeapM α TensorId) := by
  unfold toDevice implOf alloc
  refine .bind (.bind .get fun _ => .pure _) fun impl => .ite (.pure _) ?_
  exact .bind .get fun _ => .bind (.set _) fun _ => .pure _

theorem toReturnDeviceList_raises (b : Backend α) (l : List (Option Tensor)) :
    Raises Final (toReturnDeviceList b l) := by
  induction l with
  | nil => exact .pure _
  | cons entry l ih =>
    have first : Raises Final (toReturnDeviceOne b entry) := by
      match entry with
      | none | some none => exact .pure _
      | some (some t) => exact .bind (toDevice_raises t _) fun _ => .pure _
    exact .bind first fun _ => .bind ih fun _ => .pure _

theorem toReturnDevice_raises (b : Backend α) (v : IValue ω) :
    Raises Final (toReturnDevice b v) := by
  cases v with
  | optionalTensorList l => exact .bind (toReturnDeviceList_raises b l) fun _ => .pure _
  | _ => exact .pure _

theorem forStack_raises {f : IValue ω → HeapM α (IValue ω)} (inner : ∀ v, Raises Final (f v))
    (count : Nat) : ∀ i, Raises Final (forStack f i count : StackM α ω Unit) := by
  induction count with
  | zero => intro i; exact .pure _
  | succ count ih =>
    intro i
    have read : Raises Final (stackAt i : StackM α ω (IValue ω)) := by
      refine .bind .get fun s => ?_
      cases s.stack[i]? with
      | none => exact .throw (by simp [Final])
      | some v => exact .pure _
    have written (v : IValue ω) : Raises Final (setStackAt i v : StackM α ω Unit) :=
      .bind .get fun s => .ite (.set _) (.throw (by simp [Final]))
    exact .bind read fun v => .bind (.zoom (inner v)) fun changed =>
      .bind (written changed) fun _ => ih (i + 1)

theorem copyBackToOrgDevice_raises (b : Backend α) (op : Operator α ω) :
    Raises Final (copyBackToOrgDevice b op []) := by
  refine .bind (.zoom (.pure _)) fun _ => .bind .get fun s => ?_
  exact forStack_raises (toReturnDevice_raises b) _ 0

/-- A call without optional tensor lists among its arguments. -/
theorem gcuCpuFallback_without_lists (b : Backend α) (op : Operator α ω)
    (front arguments : List (IValue ω)) (heap : Heap α)
    (length : arguments.length = op.arguments.length)
    (without : ∀ v ∈ arguments, v.isOptionalTensorList = false) :
    (gcuCpuFallback b op).run ⟨front ++ arguments, heap, []⟩ =
      afterCall b op ((front ++ arguments).take op.arguments.length)
        ((callBoxed op op.cpuFallback).run ⟨front ++ arguments, heap, []⟩) := by
  have lists := optionalListsToCpu_none front arguments
    (s := ⟨front ++ arguments, heap, []⟩) rfl without op.arguments.length 0 (by omega)
  have begins : (front ++ arguments).length - op.arguments.length = front.length := by
    rw [List.length_append]
    omega
  have enough : op.arguments.length ≤ (front ++ arguments).length := by
    rw [List.length_append]
    omega
  simp only [EStateM.run] at lists
  simp only [EStateM.run, gcuCpuFallback, bind, EStateM.bind, get_apply, begins, lists,
    backupStack, enough, if_true, pure, EStateM.pure]
  cases callBoxed op op.cpuFallback (⟨front ++ arguments, heap, []⟩ : State α ω) with
  | ok value after =>
    have raises := copyBackToOrgDevice_raises b op after
    simp only [wp, EStateM.run] at raises
    simp only [afterCall, EStateM.run]
    cases ran : copyBackToOrgDevice b op [] after with
    | ok value after => rfl
    | error fault after =>
      simp only [ran] at raises
      cases fault <;> simp_all [Final]
  | error fault after => cases fault <;> rfl

/-- The call keeps what is under its arguments where nothing is written by positions from the
bottom, and does with its arguments what it does without. -/
theorem fallback_frame (b : Backend α) (op : Operator α ω) (front arguments : List (IValue ω))
    (heap : Heap α) (length : arguments.length = op.arguments.length)
    (keeps : KeepsDevices op.cpuFallback) (spared : Spared b op front arguments heap) :
    Framed b op front arguments heap := by
  obtain rfl | ⟨without, returned, hasHalf⟩ := spared
  · unfold Framed
    rw [List.nil_append]
    cases (gcuCpuFallback b op).run ⟨arguments, heap, []⟩ <;> rfl
  · unfold Framed
    have called := callBoxed_above op op.cpuFallback front ⟨arguments, heap, []⟩
      (Nat.le_of_eq length.symm)
    have plain := gcuCpuFallback_without_lists b op [] arguments heap length without
    rw [List.nil_append] at plain
    rw [gcuCpuFallback_without_lists b op front arguments heap length without, plain]
    simp only [State.above] at called
    rw [called]
    cases ran : (callBoxed op op.cpuFallback).run (⟨arguments, heap, []⟩ : State α ω) with
    | ok value after =>
      obtain ⟨returns, kernelRan, -⟩ := callBoxed_ok length ran
      refine copyBackToOrgDevice_above b op front after fun v member => ?_
      exact (returned v member).kept keeps kernelRan
    | error fault after =>
      have kernelRan := callBoxed_error length ran
      cases fault with
      | notImplementedForHalf what => exact absurd ⟨what, _, kernelRan⟩ hasHalf
      | _ => rfl

/-- An operator of one argument whose kernel has no returns. -/
def consumer : Operator Unit Nat where
  arguments := [none]
  cpuFallback _ := pure []
  cpuKernel _ := pure []
  metaKernel _ := pure []
  leftover _ := []

def oneDevice : Backend Unit where
  convert _ _ _ := ()
  currentDevice := 0
  same _ _ := rfl

/-- One tensor, on the device. -/
def oneTensor : Heap Unit where
  contents _ := { device := .privateUse1 0, dtype := .float, sizes := [2], data := () }
  next := 1

theorem consumer_above_number :
    Framed oneDevice consumer [.other 7] [.tensor (some 0)] oneTensor :=
  fallback_frame oneDevice consumer [.other 7] [.tensor (some 0)] oneTensor rfl
    (by
      intro arguments heap returns after ran
      cases ran
      exact ⟨Nat.le_refl _, fun _ _ => rfl⟩)
    (.inr ⟨by simp [IValue.isOptionalTensorList], by simp [IValue.Returned], by
      rintro ⟨what, after, ran⟩
      cases ran⟩)

/-- The copy on the CPU of an optional tensor list is written over the value under it. -/
theorem list_overwrites_number :
    ¬ Framed oneDevice consumer [.other 7] [.optionalTensorList [some (some 0)]] oneTensor := by
  intro framed
  have ends := congrArg (fun
    | .ok _ s => s.stack
    | .error _ _ => []) framed
  have differ : ([.optionalTensorList [some (some 2)]] : List (IValue Nat)) = [.other 7] := ends
  simp at differ

end TorchGcu.CpuFallback

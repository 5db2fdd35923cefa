import TorchGcu.Profiler.ExecutionTraceObserver

/-! The stacks of the execution trace observer over whole runs: which runs keep them balanced. -/
namespace TorchGcu.ExecutionTrace
open ProgramLogic

/-- A run, with the states in which its events happen and the one in which it ends. -/
inductive Run : List (Process × Event) → Option Process → Prop where
  | added : Run [] (some added)
  | next {taken : List (Process × Event)} {p : Process} {e : Event} (run : Run taken (some p))
      (possible : p.Possible e) : Run (taken ++ [(p, e)]) (step p e)

/-! ### Balance -/

/-- The id that its enter callback has pushed. -/
def Frame.pushed (frame : Frame) : Option ID :=
  frame.context.bind fun fc => if fc.opId = kUninitializedId then none else some fc.opId

/-- The innermost operator that is open and recorded. -/
def innermost (frames : List Frame) : Option ID := frames.findSome? Frame.pushed

def Node.isThread (tid : ThreadId) : Node → Bool
  | .thread _ tid' => tid' == tid
  | .operator .. => false

def Node.id : Node → ID
  | .thread id _ => id
  | .operator _ id .. => id

/-- The root node of a thread. -/
def ExecutionTraceObserver.threadNode (ob : ExecutionTraceObserver) (tid : ThreadId) : Option ID :=
  (ob.out.find? (Node.isThread tid)).map Node.id

/-- An exit callback that does not come to the stack has no id there; one that does pops its own,
and the operator it writes has the innermost open operator for its parent, or the root node of the
thread. -/
def PopsOwn (p q : Process) : Event → Prop
  | .onFunctionExit tid _ => ∀ frame ∈ (p.threads tid).frames.head?,
      (q.threads tid).phase = .running → frame.pushed = none
  | .recordOperatorEnd tid => ∃ frame rest id, (p.threads tid).frames = frame :: rest ∧
      frame.pushed = some id ∧ p.ob.opStack tid = id :: q.ob.opStack tid ∧
        (q.ob.out = p.ob.out ∨ ∃ name parent fwParent fwTid,
          some parent = (innermost rest).or (q.ob.threadNode tid) ∧
            q.ob.out = p.ob.out ++ [.operator name id parent fwParent tid fwTid])
  | _ => True

/-- What is to hold of an event: its behaviour is defined, and the stacks stay balanced. -/
def Sound (p : Process) (e : Event) : Prop := ∃ q, step p e = some q ∧ PopsOwn p q e

/-- An enter callback that comes so far names no forward thread or one with a stack; and an exit
callback comes to the stack if and only if its enter callback has recorded the operator. -/
def Meets (p : Process) : Event → Prop
  | .recordOperatorStart tid => ∀ fn, (p.threads tid).phase = .entering fn → fn.Records →
      fn.forwardThreadId = 0 ∨ fn.forwardThreadId = tid ∨ p.ob.opStack fn.forwardThreadId ≠ []
  | .onFunctionExit tid outputs => ∀ frame ∈ (p.threads tid).frames.head?, frame.context.isSome →
      frame.fn.Records → p.ob.state = .enabled ∧ outputs.numOutputs ≤ outputs.outputs.length
  | .recordOperatorEnd tid => ∀ frame ∈ (p.threads tid).frames.head?, frame.fn.Records
  | _ => True

/-! ### The invariant -/

variable {ob : ExecutionTraceObserver} {tid : ThreadId} {root : Option ID} {frames : List Frame}

/-- The ids that the open functions of a thread have pushed. -/
def pushedIds (frames : List Frame) : List ID := frames.filterMap Frame.pushed

/-- Every recorded function has the next one that is recorded for its parent. -/
def Nested (root : Option ID) : List Frame → Prop
  | [] => True
  | frame :: rest => (∀ fc, frame.context = some fc → frame.pushed.isSome →
      some fc.parentId = (innermost rest).or root) ∧ Nested root rest

/-- The stack of a thread has the ids of its open functions, above that of its root node. -/
structure Balanced (ob : ExecutionTraceObserver) (tid : ThreadId) (frames : List Frame) : Prop where
  stacked : ob.opStack tid = [] ∧ ob.threadNode tid = none ∧ pushedIds frames = [] ∨
    ∃ root, ob.threadNode tid = some root ∧ ob.opStack tid = pushedIds frames ++ [root]
  contexts : ∀ frame ∈ frames, frame.context.isSome → (frame.pushed.isSome ↔ frame.fn.Records)
  nested : Nested (ob.threadNode tid) frames

structure Inv (p : Process) : Prop where
  ids : 2 ≤ p.ob.nextId
  balanced : ∀ tid, Balanced p.ob tid (p.threads tid).frames
  exiting : ∀ tid outputs, (p.threads tid).phase = .exiting outputs →
    ∃ fn fc rest, (p.threads tid).frames = ⟨fn, some fc⟩ :: rest

theorem innermost_eq (frames : List Frame) : innermost frames = (pushedIds frames).head? := by
  rw [innermost, pushedIds, List.head?_filterMap]

theorem nested_unrecorded (none : pushedIds frames = []) : Nested root frames := by
  induction frames with
  | nil => trivial
  | cons frame rest ih =>
    simp only [pushedIds, List.filterMap_eq_nil_iff, List.forall_mem_cons] at none ih
    refine ⟨fun fc _ recorded => ?_, ih none.2⟩
    rw [none.1] at recorded
    cases recorded

theorem Inv.added : Inv added := by
  refine ⟨Nat.le_refl _, fun tid => ⟨.inl ⟨rfl, rfl, rfl⟩, fun frame member => ?_, trivial⟩,
    fun tid outputs phase => by cases phase⟩
  cases member

/-- An event of one thread. -/
theorem Inv.thread {p : Process} {thread : Thread} (inv : Inv p) (ids : p.ob.nextId ≤ ob.nextId)
    (others : ∀ other, other ≠ tid → ob.opStack other = p.ob.opStack other ∧
      ob.threadNode other = p.ob.threadNode other)
    (balanced : Balanced ob tid thread.frames)
    (exiting : ∀ outputs, thread.phase = .exiting outputs →
      ∃ fn fc rest, thread.frames = ⟨fn, some fc⟩ :: rest) :
    Inv ({ p with ob }.setThread tid thread) := by
  refine ⟨Nat.le_trans inv.ids ids, fun other => ?_, fun other outputs phase => ?_⟩
  · by_cases same : other = tid
    · subst same
      simpa [Process.setThread] using balanced
    · obtain ⟨stacked, contexts, nested⟩ := inv.balanced other
      obtain ⟨opStack, threadNode⟩ := others other same
      have kept : Balanced ob other (p.threads other).frames := by
        rw [← opStack, ← threadNode] at stacked
        rw [← threadNode] at nested
        exact ⟨stacked, contexts, nested⟩
      simpa [Process.setThread, same] using kept
  · by_cases same : other = tid
    · subst same
      simp only [Process.setThread, Function.update_self] at phase ⊢
      exact exiting outputs phase
    · simp only [Process.setThread, Function.update_of_ne same] at phase ⊢
      exact inv.exiting other outputs phase

/-! ### The root node -/

theorem threadNode_of_out {ob' : ExecutionTraceObserver} (out : ob'.out = ob.out) (tid : ThreadId) :
    ob'.threadNode tid = ob.threadNode tid := by
  rw [ExecutionTraceObserver.threadNode, out, ExecutionTraceObserver.threadNode]

theorem threadNode_operator {ob' : ExecutionTraceObserver} {name : String}
    {id parent fwParent : ID} {tid' fwTid : ThreadId}
    (out : ob'.out = ob.out ++ [.operator name id parent fwParent tid' fwTid]) (tid : ThreadId) :
    ob'.threadNode tid = ob.threadNode tid := by
  rw [ExecutionTraceObserver.threadNode, out, ExecutionTraceObserver.threadNode, List.find?_append]
  cases ob.out.find? (Node.isThread tid) <;> rfl

theorem withThreadNode_other {other : ThreadId} (differs : other ≠ tid) :
    (ob.withThreadNode tid).opStack other = ob.opStack other ∧
      (ob.withThreadNode tid).threadNode other = ob.threadNode other := by
  rw [ExecutionTraceObserver.withThreadNode]
  split
  · refine ⟨Function.update_of_ne differs _ _, ?_⟩
    have not : (Node.thread ob.nextId tid).isThread other = false := by
      simpa [Node.isThread] using Ne.symm differs
    simp only [ExecutionTraceObserver.threadNode, List.find?_append, List.find?_singleton, not]
    cases ob.out.find? (Node.isThread other) <;> rfl
  · exact ⟨rfl, rfl⟩

/-- The thread has a root node now, and is balanced as before. -/
theorem Balanced.withThreadNode (balanced : Balanced ob tid frames) :
    Balanced (ob.withThreadNode tid) tid frames ∧
      ∃ root, (ob.withThreadNode tid).threadNode tid = some root ∧
        (ob.withThreadNode tid).opStack tid = pushedIds frames ++ [root] := by
  rcases balanced.stacked with ⟨empty, unknown, none⟩ | ⟨root, known, stack⟩
  · have found : (ob.withThreadNode tid).threadNode tid = some ob.nextId := by
      have absent : ob.out.find? (Node.isThread tid) = Option.none := Option.map_eq_none_iff.mp unknown
      simp [ExecutionTraceObserver.withThreadNode, ExecutionTraceObserver.threadNode, empty,
        List.find?_append, absent, Node.isThread, Node.id]
    have stack : (ob.withThreadNode tid).opStack tid = pushedIds frames ++ [ob.nextId] := by
      simp [ExecutionTraceObserver.withThreadNode, empty, none]
    exact ⟨⟨.inr ⟨_, found, stack⟩, balanced.contexts, nested_unrecorded none⟩, _, found, stack⟩
  · have same : ob.withThreadNode tid = ob := by
      have nonempty : (ob.opStack tid).isEmpty = false := by
        rw [stack]
        cases pushedIds frames <;> rfl
      rw [ExecutionTraceObserver.withThreadNode, nonempty]
      rfl
    rw [same]
    exact ⟨balanced, root, known, stack⟩

/-! ### One event -/

theorem forwards_withThreadNode (fn : RecordFunction) :
    fn.Forwards (ob.withThreadNode tid) ↔
      fn.forwardThreadId = 0 ∨ fn.forwardThreadId = tid ∨ ob.opStack fn.forwardThreadId ≠ [] := by
  rw [RecordFunction.Forwards]
  by_cases same : fn.forwardThreadId = tid
  · obtain ⟨id, rest, stack⟩ := @withThreadNode_stack ob tid
    simp [same, stack]
  · rw [(withThreadNode_other same).1]
    simp [same]

/-- A function whose enter callback has not recorded it. -/
theorem Balanced.unrecorded (balanced : Balanced ob tid frames) {frame : Frame}
    (contexts : frame.context.isSome → ¬ frame.fn.Records) (none : frame.pushed = none) :
    Balanced ob tid (frame :: frames) := by
  obtain ⟨stacked, known, nested⟩ := balanced
  have same : pushedIds (frame :: frames) = pushedIds frames := by
    simp [pushedIds, none]
  rw [← same] at stacked
  refine ⟨stacked, List.forall_mem_cons.mpr ⟨fun given => ?_, known⟩, fun fc _ recorded => ?_, nested⟩
  · rw [none]
    exact ⟨fun recorded => (by cases recorded), fun records => absurd records (contexts given)⟩
  · rw [none] at recorded
    cases recorded

theorem Balanced.leave {frame : Frame} (balanced : Balanced ob tid (frame :: frames))
    (none : frame.pushed = none) : Balanced ob tid frames := by
  obtain ⟨stacked, contexts, nested⟩ := balanced
  have same : pushedIds (frame :: frames) = pushedIds frames := by
    simp [pushedIds, none]
  rw [same] at stacked
  exact ⟨stacked, (List.forall_mem_cons.mp contexts).2, nested.2⟩

theorem pushed_of_context {fn : RecordFunction} {fc : FunctionCallContext}
    (recorded : fc.opId ≠ kUninitializedId) : Frame.pushed ⟨fn, some fc⟩ = some fc.opId := by
  simp [Frame.pushed, recorded]

theorem pushed_uninitialized {fn : RecordFunction} {fc : FunctionCallContext}
    (unrecorded : fc.opId = kUninitializedId) : Frame.pushed ⟨fn, some fc⟩ = none := by
  simp [Frame.pushed, unrecorded]

/-- An enter callback that has pushed the id of its operator. -/
theorem Balanced.push {s : Recording} {fn : RecordFunction} {id : ID}
    (balanced : Balanced ob tid frames) (found : ob.threadNode tid = some id)
    (stack : ob.opStack tid = pushedIds frames ++ [id]) (ids : 2 ≤ ob.nextId) (records : fn.Records)
    (pushed : Pushed ob tid s) : Balanced s.ob tid (⟨fn, some s.fc⟩ :: frames) := by
  have recorded : s.fc.opId ≠ kUninitializedId :=
    Nat.ne_of_gt (Nat.lt_of_lt_of_le Nat.zero_lt_two (Nat.le_trans ids pushed.recorded))
  have own : Frame.pushed ⟨fn, some s.fc⟩ = some s.fc.opId := pushed_of_context recorded
  have nodes := threadNode_of_out pushed.out tid
  refine ⟨.inr ⟨id, nodes.trans found, ?_⟩, List.forall_mem_cons.mpr ⟨fun _ => ?_,
    balanced.contexts⟩, fun fc given _ => ?_, ?_⟩
  · have ids : pushedIds (⟨fn, some s.fc⟩ :: frames) = s.fc.opId :: pushedIds frames :=
      List.filterMap_cons_some own
    rw [pushed.opStack, Function.update_self, stack, ids]
    rfl
  · rw [own]
    exact ⟨fun _ => records, fun _ => rfl⟩
  · cases given
    obtain ⟨rest, parent⟩ := pushed.parent
    rw [nodes, found, innermost_eq]
    rw [stack] at parent
    cases known : pushedIds frames with
    | nil =>
      rw [known] at parent
      cases parent
      rfl
    | cons first ids =>
      rw [known] at parent
      cases parent
      rfl
  · rw [nodes]
    exact balanced.nested

theorem recordOperatorStart_step {p : Process} {fn : RecordFunction} (inv : Inv p)
    (phase : (p.threads tid).phase = .entering fn) :
    (Meets p (.recordOperatorStart tid) → ∃ q, step p (.recordOperatorStart tid) = some q ∧ Inv q) ∧
      (¬ Meets p (.recordOperatorStart tid) → step p (.recordOperatorStart tid) = none) := by
  have result := @recordOperatorStart_result p.ob tid fn
  obtain ⟨balanced, root, found, stack⟩ := (inv.balanced tid).withThreadNode
  have grows : p.ob.nextId ≤ (p.ob.withThreadNode tid).nextId := by
    rw [ExecutionTraceObserver.withThreadNode]
    split
    · exact Nat.le_succ _
    · exact Nat.le_refl _
  have meets : Meets p (.recordOperatorStart tid) ↔
      (fn.Records → fn.Forwards (p.ob.withThreadNode tid)) := by
    rw [forwards_withThreadNode]
    refine ⟨fun meets => meets fn phase, fun holds fn' phase' => ?_⟩
    rw [phase] at phase'
    cases phase'
    exact holds
  unfold wp at result
  cases ran : (recordOperatorStart tid fn).run { ob := p.ob } with
  | error e s =>
    rw [ran] at result
    refine ⟨fun holds => absurd (meets.mp holds result.1) result.2, fun _ => ?_⟩
    simp only [step, phase, ran]
  | ok u s =>
    rw [ran] at result
    refine ⟨fun _ => ⟨{ p with ob := s.ob }.setThread tid
      { frames := ⟨fn, some s.fc⟩ :: (p.threads tid).frames }, ?_, ?_⟩, fun not => ?_⟩
    · simp only [step, phase, ran]
    · rcases result with ⟨records, pushed, -⟩ | ⟨unrecorded, same, none⟩
      · refine inv.thread (Nat.le_trans grows pushed.nextId) (fun other differs => ?_)
          (balanced.push found stack (Nat.le_trans inv.ids grows) records pushed)
          fun outputs phase => by cases phase
        obtain ⟨opStack, threadNode⟩ := @withThreadNode_other p.ob tid other differs
        rw [pushed.opStack, Function.update_of_ne differs, threadNode_of_out pushed.out]
        exact ⟨opStack, threadNode⟩
      · refine inv.thread (Nat.le_trans grows same.nextId) (fun other differs => ?_)
          (Balanced.unrecorded ?_ (fun _ => unrecorded) (pushed_uninitialized none))
          fun outputs phase => by cases phase
        · rw [same.opStack, threadNode_of_out same.out]
          exact withThreadNode_other differs
        · have nodes := threadNode_of_out same.out tid
          refine ⟨.inr ⟨root, nodes.trans found, ?_⟩, balanced.contexts, ?_⟩
          · rw [same.opStack, stack]
          · rw [nodes]
            exact balanced.nested
    · refine absurd (meets.mpr fun records => ?_) not
      rcases result with ⟨-, -, forwards⟩ | ⟨unrecorded, -⟩
      · exact forwards
      · exact absurd records unrecorded

theorem Inv.setState {p : Process} (inv : Inv p) (state : RunState) : Inv (p.setState state) := by
  refine ⟨inv.ids, fun tid => ?_, inv.exiting⟩
  obtain ⟨stacked, contexts, nested⟩ := inv.balanced tid
  exact ⟨stacked, contexts, nested⟩

theorem Inv.enter {p : Process} {fn : RecordFunction} (inv : Inv p)
    (phase : (p.threads tid).phase = .running) :
    ∃ q, step p (.onFunctionEnter tid fn) = some q ∧ Inv q := by
  by_cases enabled : p.ob.state = .enabled
  · refine ⟨p.setThread tid { p.threads tid with phase := .entering fn }, ?_, ?_⟩
    · simp only [step, if_pos enabled]
    · exact inv.thread (Nat.le_refl _) (fun _ _ => ⟨rfl, rfl⟩) (inv.balanced tid)
        fun outputs phase => by cases phase
  · refine ⟨p.setThread tid { p.threads tid with frames := ⟨fn, none⟩ :: (p.threads tid).frames },
      ?_, ?_⟩
    · simp only [step, if_neg enabled]
    · have outside : Balanced p.ob tid (⟨fn, none⟩ :: (p.threads tid).frames) :=
        (inv.balanced tid).unrecorded (fun given => by cases given) rfl
      refine inv.thread (Nat.le_refl _) (fun _ _ => ⟨rfl, rfl⟩) outside fun outputs phase' => ?_
      rw [phase] at phase'
      cases phase'

/-- A function that has not been recorded has pushed nothing. -/
theorem Balanced.pushed_none {frame : Frame} (balanced : Balanced ob tid (frame :: frames))
    (unrecorded : frame.context.isSome → ¬ frame.fn.Records) : frame.pushed = none := by
  cases given : frame.context with
  | none => simp [Frame.pushed, given]
  | some fc =>
    have known := (List.forall_mem_cons.mp balanced.contexts).1 (by rw [given]; rfl)
    cases pushed : frame.pushed with
    | none => rfl
    | some id =>
      rw [pushed] at known
      exact absurd (known.mp rfl) (unrecorded (by rw [given]; rfl))

theorem onFunctionExit_step {p : Process} {outputs : Outputs} (inv : Inv p)
    (open_ : (p.threads tid).frames ≠ []) :
    (Meets p (.onFunctionExit tid outputs) → ∃ q, step p (.onFunctionExit tid outputs) = some q ∧
      PopsOwn p q (.onFunctionExit tid outputs) ∧ Inv q) ∧
    (Sound p (.onFunctionExit tid outputs) → Meets p (.onFunctionExit tid outputs)) := by
  have balanced := inv.balanced tid
  cases frames : (p.threads tid).frames with
  | nil => exact absurd frames open_
  | cons frame rest =>
    rw [frames] at balanced
    simp only [Sound, PopsOwn, Meets, step, frames, List.head?_cons, Option.mem_some_iff]
    by_cases early : p.returnsEarly frame outputs = true
    · simp only [if_pos early]
      refine ⟨fun meets => ⟨_, rfl, ?_⟩, ?_⟩
      · have none : frame.pushed = none := by
          refine balanced.pushed_none fun given records => ?_
          obtain ⟨enabled, present⟩ := meets frame rfl given records
          have context : frame.context.isNone = false := by
            rw [← Option.not_isSome, given]
            rfl
          simp [Process.returnsEarly, context, enabled, Nat.not_lt.mpr present] at early
        refine ⟨fun frame' same _ => ?_, inv.thread (Nat.le_refl _) (fun _ _ => ⟨rfl, rfl⟩)
          (balanced.leave none) fun outputs phase => by cases phase⟩
        rw [← same]
        exact none
      · rintro ⟨q, taken, pops⟩ frame' same given records
        cases taken
        subst same
        have none := pops frame rfl (by simp [Process.setThread])
        have known := (List.forall_mem_cons.mp balanced.contexts).1 given
        rw [none] at known
        exact absurd (known.mpr records) Bool.false_ne_true
    · simp only [if_neg early]
      have passed : frame.context.isSome ∧ p.ob.state = .enabled ∧
          outputs.numOutputs ≤ outputs.outputs.length := by
        simpa [Process.returnsEarly, Option.isSome_iff_ne_none, and_assoc] using early
      obtain ⟨given, enabled, present⟩ := passed
      refine ⟨fun _ => ⟨_, rfl, fun _ _ phase => ?_, ?_⟩, fun _ _ _ _ _ => ⟨enabled, present⟩⟩
      · simp [Process.setThread] at phase
      · refine inv.thread (Nat.le_refl _) (fun _ _ => ⟨rfl, rfl⟩) balanced fun _ _ => ?_
        obtain ⟨fn, context⟩ := frame
        obtain ⟨fc, rfl⟩ := Option.isSome_iff_exists.mp given
        exact ⟨fn, fc, rest, rfl⟩

theorem recordOperatorEnd_step {p : Process} {outputs : Outputs} (inv : Inv p)
    (phase : (p.threads tid).phase = .exiting outputs) :
    (Meets p (.recordOperatorEnd tid) → ∃ q, step p (.recordOperatorEnd tid) = some q ∧
      PopsOwn p q (.recordOperatorEnd tid) ∧ Inv q) ∧
    (Sound p (.recordOperatorEnd tid) → Meets p (.recordOperatorEnd tid)) := by
  obtain ⟨fn, fc, rest, frames⟩ := inv.exiting tid outputs phase
  have balanced := inv.balanced tid
  rw [frames] at balanced
  have known := (List.forall_mem_cons.mp balanced.contexts).1 rfl
  constructor
  · intro meets
    have records : fn.Records := meets ⟨fn, some fc⟩ (by rw [frames]; rfl)
    obtain ⟨id, pushed⟩ := Option.isSome_iff_exists.mp (known.mpr records)
    have own : id = fc.opId := by
      rw [Frame.pushed, Option.bind_some] at pushed
      split at pushed <;> cases pushed
      rfl
    have ids : pushedIds (⟨fn, some fc⟩ :: rest) = id :: pushedIds rest :=
      List.filterMap_cons_some pushed
    rcases balanced.stacked with ⟨-, -, none⟩ | ⟨root, found, stack⟩
    · rw [ids] at none
      cases none
    rw [ids, List.cons_append] at stack
    have result := @recordOperatorEnd_result p.ob tid fn fc outputs
    unfold wp at result
    cases ran : (recordOperatorEnd tid fn fc outputs).run p.ob with
    | error e ob =>
      rw [ran, stack] at result
      cases result
    | ok u ob =>
      rw [ran] at result
      obtain ⟨top, below, stack', opStack, -, nextId, out⟩ := result
      rw [stack] at stack'
      cases stack'
      have nodes : ∀ other, ob.threadNode other = p.ob.threadNode other := fun other =>
        out.elim (fun same => threadNode_of_out same other) fun written =>
          threadNode_operator written other
      have parent := balanced.nested.1 fc rfl (by rw [pushed]; rfl)
      refine ⟨{ p with ob }.setThread tid { frames := rest }, ?_, ?_, ?_⟩
      · simp only [step, phase, frames, ran]
      · refine ⟨_, rest, _, frames, pushed, ?_, out.imp_right fun written => ?_⟩
        · rw [stack, Process.setThread, opStack, Function.update_self]
        · refine ⟨fc.name, fc.parentId, fc.fwParentId, fn.forwardThreadId, ?_, ?_⟩
          · rw [parent, Process.setThread, nodes]
          · rw [own]
            exact written
      · refine inv.thread nextId (fun other differs => ⟨?_, nodes other⟩) ?_
          fun outputs phase => by cases phase
        · rw [opStack, Function.update_of_ne differs]
        · refine ⟨.inr ⟨root, (nodes tid).trans found, ?_⟩,
            (List.forall_mem_cons.mp balanced.contexts).2, ?_⟩
          · rw [opStack, Function.update_self]
          · rw [nodes]
            exact balanced.nested.2
  · rintro ⟨q, -, frame, rest', id, frames', pushed, -⟩ frame' here
    rw [frames] at frames' here
    cases frames'
    cases here
    exact known.mp (by rw [pushed]; rfl)

theorem event_spec {p : Process} {e : Event} (inv : Inv p) (possible : p.Possible e) :
    (Meets p e → ∃ q, step p e = some q ∧ PopsOwn p q e ∧ Inv q) ∧ (Sound p e → Meets p e) := by
  cases e with
  | enableExecutionTraceObserver =>
    exact ⟨fun _ => ⟨_, rfl, trivial, inv.setState _⟩, fun _ => trivial⟩
  | disableExecutionTraceObserver =>
    exact ⟨fun _ => ⟨_, rfl, trivial, inv.setState _⟩, fun _ => trivial⟩
  | onFunctionEnter tid fn =>
    obtain ⟨q, taken, inv'⟩ := @Inv.enter tid p fn inv possible
    exact ⟨fun _ => ⟨q, taken, trivial, inv'⟩, fun _ => trivial⟩
  | recordOperatorStart tid =>
    obtain ⟨fn, phase⟩ := possible
    obtain ⟨defined, undefined⟩ := recordOperatorStart_step inv phase
    constructor
    · intro meets
      obtain ⟨q, taken, inv'⟩ := defined meets
      exact ⟨q, taken, trivial, inv'⟩
    · rintro ⟨q, taken, -⟩
      by_contra not
      rw [undefined not] at taken
      cases taken
  | onFunctionExit tid outputs => exact onFunctionExit_step inv possible.2
  | recordOperatorEnd tid =>
    obtain ⟨outputs, phase⟩ := possible
    exact recordOperatorEnd_step inv phase

/-! ### Runs -/

theorem Run.inv {taken : List (Process × Event)} {last : Option Process} (run : Run taken last)
    (meets : ∀ event ∈ taken, Meets event.1 event.2) : ∃ p, last = some p ∧ Inv p := by
  induction run with
  | added => exact ⟨_, rfl, Inv.added⟩
  | next run possible ih =>
    obtain ⟨earlier, now⟩ := List.forall_mem_append.mp meets
    obtain ⟨p, same, inv⟩ := ih earlier
    cases same
    obtain ⟨q, taken, -, inv'⟩ := (event_spec inv possible).1 (now _ (List.mem_singleton.mpr rfl))
    exact ⟨q, taken, inv'⟩

theorem sound_iff_meets {taken : List (Process × Event)} {last : Option Process}
    (run : Run taken last) : (∀ event ∈ taken, Sound event.1 event.2) ↔
      ∀ event ∈ taken, Meets event.1 event.2 := by
  induction run with
  | added => exact ⟨fun _ _ member => (by cases member), fun _ _ member => (by cases member)⟩
  | next run possible ih =>
    rw [List.forall_mem_append, List.forall_mem_append, List.forall_mem_singleton,
      List.forall_mem_singleton, ih, and_congr_right_iff]
    intro earlier
    obtain ⟨p, same, inv⟩ := run.inv earlier
    cases same
    obtain ⟨sound, meets⟩ := event_spec inv possible
    refine ⟨meets, fun now => ?_⟩
    obtain ⟨q, taken, pops, -⟩ := sound now
    exact ⟨q, taken, pops⟩

/-- The stacks of a run stay balanced if and only if all of its events meet the condition. -/
theorem stacks_balanced (taken : List (Process × Event)) (last : Option Process)
    (run : Run taken last) : (∀ event ∈ taken, Sound event.1 event.2) ↔
      ∀ event ∈ taken, Meets event.1 event.2 :=
  sound_iff_meets run

/-- The observer is enabled in the midst of a function, and an operator is recorded in it. -/
theorem stacks_balanced_run : ∃ taken p, Run taken (some p) ∧
    (∀ event ∈ taken, Sound event.1 event.2) ∧
    p.ob.out = [.thread 2 1, .operator "add" 3 2 0 1 0] := by
  have run := (((((((Run.added.next (e := .onFunctionEnter 1 { name := "module" }) rfl).next
    (e := .enableExecutionTraceObserver) trivial).next
      (e := .onFunctionEnter 1 { name := "add" }) rfl).next
        (e := .recordOperatorStart 1) ⟨_, rfl⟩).next
          (e := .onFunctionExit 1 {}) ⟨rfl, List.cons_ne_nil _ _⟩).next
            (e := .recordOperatorEnd 1) ⟨_, rfl⟩).next
              (e := .onFunctionExit 1 {}) ⟨rfl, List.cons_ne_nil _ _⟩)
  refine ⟨_, _, run, (stacks_balanced _ _ run).mpr ?_, rfl⟩
  simp only [List.forall_mem_append, List.forall_mem_singleton, List.nil_append, Meets]
  refine ⟨⟨⟨⟨⟨⟨trivial, trivial⟩, trivial⟩, ?_⟩, ?_⟩, ?_⟩, ?_⟩
  · rintro fn ⟨⟩ -
    exact .inl rfl
  · rintro frame ⟨⟩ - -
    exact ⟨rfl, Nat.le_refl _⟩
  · rintro frame ⟨⟩
    exact ⟨Nat.le_refl _, fun val member => (by cases member), fun given => absurd rfl given⟩
  · rintro frame ⟨⟩ given
    cases given

/-- An observer that is disabled in the midst of a function leaves its id on the stack; and a
forward thread on which nothing has been recorded has no top. -/
theorem stacks_unbalanced : (∃ taken p, Run taken (some p) ∧ ∃ event ∈ taken,
    ¬ Sound event.1 event.2) ∧ ∃ taken, Run taken none := by
  constructor
  · have run := ((((Run.added.next (e := .enableExecutionTraceObserver) trivial).next
      (e := .onFunctionEnter 1 {}) rfl).next (e := .recordOperatorStart 1) ⟨_, rfl⟩).next
        (e := .disableExecutionTraceObserver) trivial).next
          (e := .onFunctionExit 1 {}) ⟨rfl, List.cons_ne_nil _ _⟩
    refine ⟨_, _, run, _, List.mem_append_right _ (List.mem_singleton.mpr rfl), ?_⟩
    rintro ⟨q, taken, pops⟩
    cases taken
    cases pops _ rfl rfl
  · exact ⟨_, ((Run.added.next (e := .enableExecutionTraceObserver) trivial).next
      (e := .onFunctionEnter 1 { forwardThreadId := 2 }) rfl).next
        (e := .recordOperatorStart 1) ⟨_, rfl⟩⟩

end TorchGcu.ExecutionTrace

import TorchGcu.Logic.Runs
import TorchGcu.Logic.Totals
import TorchGcu.ProcessGroup.Work

/-! The counter of pending event queries against the work items that wait. Every step moves
one item between the hands of a call, a list and nowhere, and the counter with it; the test
in `workEnqueue` alone lets an item go without the counter. -/
namespace TorchGcu.ProcessGroup
open ProgramLogic
open GCUCachingAllocator (Err)

/-! ### What a method does to the list -/

def ProcessGroupECCL.works (group : ProcessGroupECCL) : Nat := group.workMetaList.length

/-- As many work items as before, of an instance that is destroyed or not as before. -/
def ProcessGroupECCL.Like (before group : ProcessGroupECCL) : Prop :=
  group.works = before.works ∧ group.destroyed = before.destroyed

variable {before group : ProcessGroupECCL}

theorem ProcessGroupECCL.Like.rfl : group.Like group := ⟨Eq.refl _, Eq.refl _⟩

theorem attempt_preserves {σ : Type} {P : σ → Prop} (answer : Option Err) :
    Preserves P (attempt answer) := by
  cases answer with
  | none => exact .pure _
  | some error => exact .throw _

theorem captureStatus_preserves {P : ProcessGroupECCL → Prop} (rt : CallRuntime) :
    Preserves P (captureStatus rt) := by
  unfold captureStatus
  split
  · exact .pure _
  · exact .throw _

theorem bumpSeq_like : Preserves before.Like (modify (·.bumpSeq) : GroupM Unit) := fun _ like => like

theorem coalesce_like (mark : CoalescingState → CoalescingState) :
    Preserves before.Like (modify (·.coalesce mark) : GroupM Unit) := by
  intro group like
  show before.Like (group.coalesce mark)
  unfold ProcessGroupECCL.coalesce
  split <;> exact like

theorem startCoalescing_like (rt : CallRuntime) : Preserves before.Like (startCoalescing rt) := by
  refine Preserves.bind (P := before.Like) (fun _ like => like) fun _ => ?_
  exact .bind (attempt_preserves _) fun _ => bumpSeq_like

theorem collective_like (rt : CallRuntime) : Preserves before.Like (collective rt) := by
  apply Preserves.bind (captureStatus_preserves rt)
  intro status
  apply Preserves.bind bumpSeq_like
  intro _
  apply Preserves.bind (attempt_preserves _)
  intro _
  apply Preserves.bind (coalesce_like _)
  intro _
  apply Preserves.bind .get
  intro _
  exact .bind (attempt_preserves _) fun _ => .pure _

theorem collectiveCoalesced_like (rt : CallRuntime) :
    Preserves before.Like (collectiveCoalesced rt) := by
  apply Preserves.bind (captureStatus_preserves rt)
  intro status
  apply Preserves.bind bumpSeq_like
  intro _
  apply Preserves.bind (attempt_preserves _)
  intro _
  apply Preserves.bind (attempt_preserves _)
  intro _
  exact .bind .get fun _ => .pure _

theorem pointToPoint_like (batchP2P : Bool) (rt : CallRuntime) :
    Preserves before.Like (pointToPoint batchP2P rt) := by
  refine Preserves.bind (P := before.Like) ?_ fun _ => ?_
  · intro group like
    show before.Like (if _ then group.bumpSeq else group)
    split <;> exact like
  apply Preserves.bind (attempt_preserves _)
  intro _
  apply Preserves.bind (coalesce_like _)
  intro _
  apply Preserves.bind (attempt_preserves _)
  intro _
  apply Preserves.bind (captureStatus_preserves rt)
  intro status
  exact .bind .get fun _ => .pure _

theorem endCoalescing_like (rt : CallRuntime) : Preserves before.Like (endCoalescing rt) := by
  apply Preserves.bind .get
  intro group
  apply Preserves.ite
  · apply Preserves.bind (attempt_preserves _)
    intro _
    exact .bind (P := before.Like) (fun _ like => like) fun _ => .pure _
  · apply Preserves.bind (captureStatus_preserves rt)
    intro status
    apply Preserves.bind (attempt_preserves _)
    intro _
    exact .bind (attempt_preserves _) fun _ => .pure _

theorem setException_like (position : Nat) (work : WorkECCL) :
    Preserves before.Like (modify (·.setException position work) : GroupM Unit) := by
  rintro group ⟨works, destroyed⟩
  constructor
  · simpa [ProcessGroupECCL.works, ProcessGroupECCL.setException] using works
  · exact destroyed

theorem checkAndSetException_like (position : Nat) (work : WorkECCL) (found : Except Err Bool) :
    Preserves before.Like (checkAndSetException position work found) := by
  apply Preserves.ite (.pure _)
  split
  · exact .throw _
  · exact .pure _
  · exact .bind (setException_like position work) fun _ => .pure _

theorem checkWhen_like (condition : Bool) (position : Nat) (work : WorkECCL)
    (found : Except Err Bool) : Preserves before.Like (checkWhen condition position work found) :=
  .ite (checkAndSetException_like position work found) (.pure _)

theorem checkTimeout_like (position : Nat) (work : WorkECCL) (timedOut : Bool) :
    Preserves before.Like (checkTimeout position work timedOut) := by
  refine Preserves.bind (P := before.Like) ?_ fun _ => .pure _
  intro group like
  show before.Like (if _ then group.setException position work else group)
  split
  · exact setException_like position work group like
  · exact like

theorem handleException_like (mode : ErrorHandlingMode) (carried : Err) :
    Preserves before.Like (handleException mode carried) := .ite (.throw _) (.pure _)

theorem isCompleted_like (rt : VisitRuntime) (position : Nat) (work : WorkECCL) :
    Preserves before.Like (isCompleted rt position work) := by
  apply Preserves.bind (checkAndSetException_like position work _)
  intro exception
  apply Preserves.ite (.pure _)
  split
  · exact .throw _
  · exact .pure _

theorem reactToException_like (rt : VisitRuntime) (mode : ErrorHandlingMode) (exception : Bool) :
    Preserves before.Like (reactToException rt mode exception) := by
  apply Preserves.ite
  · apply Preserves.bind (attempt_preserves _)
    intro _
    exact .bind (attempt_preserves _) fun _ => handleException_like mode _
  · exact .pure _

theorem retire_works {position : Nat} (listed : position < group.works) (work : WorkECCL) :
    (group.retire position work).works + 1 = group.works := by
  unfold ProcessGroupECCL.works ProcessGroupECCL.retire at *
  rw [List.length_eraseIdx_of_lt listed]
  omega

/-- A work item leaves the list, or it has as many as before. -/
theorem visitWork_spec (rt : VisitRuntime) {position : Nat} (listed : position < group.works)
    (work : WorkECCL) :
    wp (visitWork rt position work)
      (fun left t => t.works + (if left then 1 else 0) = group.works ∧
        t.destroyed = group.destroyed)
      (fun _ t => group.Like t) group := by
  have raised : ∀ (e : Err) (t : ProcessGroupECCL), group.Like t → group.Like t :=
    fun _ _ like => like
  unfold visitWork
  rw [wp_bind, wp_get]
  refine Preserves.seq (checkWhen_like _ position work _) .rfl raised ?_
  intro exception t like
  refine Preserves.seq (checkTimeout_like position _ _) like raised ?_
  intro exception t like
  refine Preserves.seq (reactToException_like rt _ _) like raised ?_
  intro _ t like
  refine Preserves.seq (checkWhen_like _ position _ _) like raised ?_
  intro exception t like
  refine Preserves.seq (attempt_preserves _) like raised ?_
  intro _ t like
  refine Preserves.seq (isCompleted_like rt position _) like raised ?_
  intro completed t ⟨works, destroyed⟩
  cases completed with
  | false => exact ⟨works, destroyed⟩
  | true =>
    have retired := retire_works (works.symm ▸ listed) work
    exact ⟨retired.trans works, destroyed⟩

/-! ### The books of the process -/

/-- A work item that its call has let go of without undoing the count. -/
def Call.lost (call : Call) : Nat :=
  match call.phase with
  | .declined => 1
  | _ => 0

/-- Work items that wait in the list of an instance. -/
def ProcessGroupECCL.waiting (group : ProcessGroupECCL) : Nat :=
  if group.destroyed then 0 else group.works

/-- Work items that were left in the list of an instance when it was destroyed. -/
def ProcessGroupECCL.abandoned (group : ProcessGroupECCL) : Nat :=
  if group.destroyed then group.works else 0

namespace Process

def waiting (p : Process) : Nat := total ProcessGroupECCL.waiting p.groups

def inHand (p : Process) : Nat := total Call.holds p.calls

/-- Work items that nobody is going to take off the counter. -/
def lost (p : Process) : Nat := total Call.lost p.calls + total ProcessGroupECCL.abandoned p.groups

/-- Each work item on the counter waits, is in hand or is lost. -/
def Balanced (p : Process) : Prop := p.pendingEventQueries = p.waiting + p.inHand + p.lost

/-- The same sums as before. -/
structure Same (p q : Process) : Prop where
  pending : q.pendingEventQueries = p.pendingEventQueries
  waiting : q.waiting = p.waiting
  inHand : q.inHand = p.inHand
  lost : q.lost = p.lost

end Process

variable {p q : Process} {i c : Nat} {call : Call}

theorem Process.Same.balanced (same : p.Same q) (balanced : p.Balanced) : q.Balanced := by
  unfold Process.Balanced at *
  rw [same.pending, same.waiting, same.inHand, same.lost]
  exact balanced

theorem ProcessGroupECCL.Like.sums (like : before.Like group) :
    group.waiting = before.waiting ∧ group.abandoned = before.abandoned := by
  obtain ⟨works, destroyed⟩ := like
  simp [ProcessGroupECCL.waiting, ProcessGroupECCL.abandoned, works, destroyed]

theorem alive_sums (alive : group.destroyed = false) :
    group.waiting = group.works ∧ group.abandoned = 0 := by
  simp [ProcessGroupECCL.waiting, ProcessGroupECCL.abandoned, alive]

theorem setGroup_same {after : ProcessGroupECCL} (found : p.groups[i]? = some group)
    (like : group.Like after) : p.Same (p.setGroup i after) := by
  constructor
  · rfl
  · exact total_set_of_eq found like.sums.1
  · rfl
  · exact congrArg (total Call.lost p.calls + ·) (total_set_of_eq found like.sums.2)

theorem onGroup_same {α : Type} {m : GroupM α} (found : p.groups[i]? = some group)
    (keeps : Preserves group.Like m) :
    wp (onGroup i group m) (fun _ q => p.Same q) (fun _ q => p.Same q) p := by
  unfold onGroup
  rw [wp_zoom]
  exact wp_mono (keeps group .rfl) (fun _ _ like => setGroup_same found like)
    fun _ _ like => setGroup_same found like

/-- What a step keeps: the balance, and on the steps of a condition also what is lost. -/
def Keeps (p : Process) (accounted : Prop) (q : Process) : Prop :=
  q.Balanced ∧ (accounted → q.lost = p.lost)

theorem Process.Same.keeps (same : p.Same q) (balanced : p.Balanced) {accounted : Prop} :
    Keeps p accounted q := ⟨same.balanced balanced, fun _ => same.lost⟩

variable {accounted : Prop}

theorem setGroup_keeps {after : ProcessGroupECCL} (balanced : p.Balanced)
    (found : p.groups[i]? = some group) (works : after.works = group.works)
    (destroyed : after.destroyed = group.destroyed) : Keeps p accounted (p.setGroup i after) :=
  (setGroup_same found ⟨works, destroyed⟩).keeps balanced

theorem wp_after {m : ProcessM Unit} {R : Process → Prop}
    (ends : wp m (fun _ q => R q) (fun _ q => R q) p) : R (.after (m.run p)) := by
  unfold wp at ends
  cases ran : m.run p <;> simpa only [ran, Process.after] using ends

theorem issue_keeps {m : GroupM (Option Counted)} (found : p.groups[i]? = some group)
    (keeps : Preserves group.Like m) (balanced : p.Balanced) :
    Keeps p accounted (.after ((issue i group m).run p)) := by
  apply wp_after
  unfold issue
  rw [wp_bind]
  refine wp_mono (onGroup_same found keeps) ?_ fun _ _ same => same.keeps balanced
  intro counted q same
  cases counted with
  | none => exact same.keeps balanced
  | some counted =>
    have after := same.balanced balanced
    constructor
    · unfold Process.Balanced Process.inHand Process.lost at *
      simp only [total_append, total_cons, total_nil, Call.holds, Call.lost]
      simp only [Process.waiting] at *
      omega
    · intro _
      simpa [Process.lost, Call.lost] using same.lost

theorem leave_like (counted : Counted) (like : before.Like group) :
    before.Like (counted.leave group) := by
  unfold Counted.leave
  split <;> exact like

/-- A call changes its phase and an instance its list. -/
theorem move_sums (phase : CallPhase) (after : ProcessGroupECCL)
    (called : p.calls[c]? = some call) (found : p.groups[i]? = some group) :
    ((p.setCall c { call with phase }).setGroup i after).waiting + group.waiting =
        p.waiting + after.waiting ∧
      ((p.setCall c { call with phase }).setGroup i after).inHand + call.holds =
        p.inHand + { call with phase }.holds ∧
      ((p.setCall c { call with phase }).setGroup i after).lost + call.lost + group.abandoned =
        p.lost + { call with phase }.lost + after.abandoned := by
  have waiting : total ProcessGroupECCL.waiting (p.groups.set i after) + group.waiting =
    total ProcessGroupECCL.waiting p.groups + after.waiting := total_set found
  have inHand : total Call.holds (p.calls.set c { call with phase }) + call.holds =
    total Call.holds p.calls + { call with phase }.holds := total_set called
  have lost : total Call.lost (p.calls.set c { call with phase }) + call.lost =
    total Call.lost p.calls + { call with phase }.lost := total_set called
  have abandoned : total ProcessGroupECCL.abandoned (p.groups.set i after) + group.abandoned =
    total ProcessGroupECCL.abandoned p.groups + after.abandoned := total_set found
  refine ⟨waiting, inHand, ?_⟩
  simp only [Process.lost, Process.setGroup, Process.setCall]
  omega

/-- The books after a move, with the counter changed by as much. -/
theorem move_keeps (phase : CallPhase) (after : ProcessGroupECCL) (pending : Int)
    (balanced : p.Balanced) (called : p.calls[c]? = some call)
    (found : p.groups[i]? = some group)
    (moved : pending + call.holds + call.lost + group.waiting + group.abandoned =
      p.pendingEventQueries + { call with phase }.holds + { call with phase }.lost +
        after.waiting + after.abandoned)
    (unlost : accounted →
      { call with phase }.lost + after.abandoned = call.lost + group.abandoned) :
    Keeps p accounted
      { (p.setCall c { call with phase }).setGroup i after with
        pendingEventQueries := pending } := by
  obtain ⟨waiting, inHand, lost⟩ := move_sums phase after called found
  unfold Process.Balanced at balanced
  constructor
  · show pending = ((p.setCall c { call with phase }).setGroup i after).waiting +
      ((p.setCall c { call with phase }).setGroup i after).inHand +
      ((p.setCall c { call with phase }).setGroup i after).lost
    omega
  · intro condition
    have same := unlost condition
    show ((p.setCall c { call with phase }).setGroup i after).lost = p.lost
    omega

theorem positive_of_held (balanced : p.Balanced) (called : p.calls[c]? = some call)
    (held : call.holds = 1) : 0 < p.pendingEventQueries := by
  have enough : call.holds ≤ p.inHand := le_total called
  unfold Process.Balanced at balanced
  omega

theorem discount_keeps (balanced : p.Balanced) (called : p.calls[c]? = some call)
    (found : p.groups[call.group]? = some group) (phase : call.phase = .counted) :
    Keeps p accounted (.after ((discount c call group).run p)) := by
  have held : call.holds = 1 := by simp [Call.holds, phase]
  have unlost : call.lost = 0 := by simp [Call.lost, phase]
  have like : group.Like (call.counted.leave group) := leave_like call.counted .rfl
  have sums := like.sums
  apply wp_after
  simp only [discount, decPendingEventQueries, wp_bind, wp_get,
    if_pos (positive_of_held balanced called held), wp_modify]
  apply move_keeps .discounted _ (p.pendingEventQueries - 1) balanced called found
  · simp only [Call.holds, Call.lost] at *
    omega
  · intro _
    simp only [Call.lost] at *
    omega

theorem workEnqueue_keeps (balanced : p.Balanced) (called : p.calls[c]? = some call)
    (found : p.groups[call.group]? = some group) (phase : call.phase = .counted)
    (running : accounted → group.terminateProcessGroup = false) :
    Keeps p accounted (.after ((workEnqueue c call group).run p)) := by
  have held : call.holds = 1 := by simp [Call.holds, phase]
  have unlost : call.lost = 0 := by simp [Call.lost, phase]
  apply wp_after
  unfold workEnqueue
  split
  case isTrue terminated =>
    have like : group.Like (call.counted.leave group) := leave_like call.counted .rfl
    have sums := like.sums
    apply move_keeps .declined _ p.pendingEventQueries balanced called found
    · simp only [Call.holds, Call.lost] at *
      omega
    · intro condition
      simp [running condition] at terminated
  case isFalse =>
    have same : p.Same (p.setCall c { call with phase := .admitted }) := by
      constructor
      · rfl
      · rfl
      · exact total_set_of_eq called held.symm
      · exact congrArg (· + total ProcessGroupECCL.abandoned p.groups)
          (total_set_of_eq called unlost.symm)
    exact same.keeps balanced

theorem workEnqueueLocked_keeps (balanced : p.Balanced) (called : p.calls[c]? = some call)
    (found : p.groups[call.group]? = some group) (alive : group.destroyed = false)
    (phase : call.phase = .admitted) :
    Keeps p accounted (.after ((workEnqueueLocked c call group).run p)) := by
  have held : call.holds = 1 := by simp [Call.holds, phase]
  have unlost : call.lost = 0 := by simp [Call.lost, phase]
  apply wp_after
  unfold workEnqueueLocked
  rw [wp_modify]
  generalize longer : { group with
    workMetaList := group.workMetaList ++ [call.counted.work]
    lastEnqueuedSeq := call.counted.work.seq } = added
  have one : added.works = group.works + 1 := by
    simp [← longer, ProcessGroupECCL.works]
  have still : added.destroyed = false := by
    simp [← longer, alive]
  have like : added.Like (call.counted.leave added) := leave_like call.counted .rfl
  have sums := like.sums
  have before := alive_sums alive
  have after := alive_sums still
  apply move_keeps .enqueued _ p.pendingEventQueries balanced called found
  · simp only [Call.holds, Call.lost] at *
    omega
  · intro _
    simp only [Call.lost] at *
    omega

/-- A visit takes a work item off the list together with the counter. -/
theorem visit_keeps {rt : VisitRuntime} {position : Nat} {work : WorkECCL} (balanced : p.Balanced)
    (found : p.groups[i]? = some group) (alive : group.destroyed = false)
    (listed : position < group.works) :
    Keeps p accounted (.afterVisit i ((visit rt i group position work).run p)) := by
  have waits : group.works ≤ p.waiting := by
    have part : group.waiting ≤ p.waiting := le_total found
    have here := alive_sums alive
    omega
  have positive : 0 < p.pendingEventQueries := by
    unfold Process.Balanced at balanced
    omega
  have ends : wp (visit rt i group position work) (fun _ q => Keeps p accounted q)
      (fun _ q => ∃ t, group.Like t ∧ q = p.setGroup i t) p := by
    unfold visit onGroup
    rw [wp_bind, wp_zoom]
    refine wp_mono (visitWork_spec rt listed work) ?_ fun _ t like => ⟨t, like, rfl⟩
    rintro left t ⟨works, destroyed⟩
    have before := alive_sums alive
    have after := alive_sums (destroyed.trans alive)
    have waiting : total ProcessGroupECCL.waiting (p.groups.set i t) + group.waiting =
      total ProcessGroupECCL.waiting p.groups + t.waiting := total_set found
    have abandoned : total ProcessGroupECCL.abandoned (p.groups.set i t) =
      total ProcessGroupECCL.abandoned p.groups := total_set_of_eq found (after.2.trans before.2.symm)
    cases left with
    | false =>
      have like : group.Like t := ⟨by simpa using works, destroyed⟩
      exact (setGroup_same found like).keeps balanced
    | true =>
      have step : 0 < (p.setGroup i t).pendingEventQueries := positive
      simp only [decPendingEventQueries, wp_bind, wp_get, if_pos step, wp_modify, if_true]
      constructor
      · unfold Process.Balanced Process.lost Process.waiting Process.inHand at *
        simp only [Process.setGroup, if_true] at *
        omega
      · intro _
        simp only [Process.lost, Process.setGroup]
        omega
  unfold wp at ends
  cases ran : (visit rt i group position work).run p with
  | ok _ q => simpa only [ran, Process.afterVisit] using ends
  | error e q =>
    simp only [ran] at ends
    obtain ⟨t, like, rfl⟩ := ends
    have same := setGroup_same found like
    have bound : i < p.groups.length := (List.getElem?_eq_some_iff.mp found).1
    have here : (p.setGroup i t).groups[i]? = some t := List.getElem?_set_self bound
    simp only [Process.afterVisit, here]
    have again : (p.setGroup i t).Same ((p.setGroup i t).setGroup i { t with watchdog := .exited }) :=
      setGroup_same here ⟨rfl, rfl⟩
    exact ⟨again.balanced (same.balanced balanced), fun _ => again.lost.trans same.lost⟩

theorem construct_keeps (balanced : p.Balanced) (blockingWait desyncDebug : Bool)
    (mode : ErrorHandlingMode) : Keeps p accounted
      { p with groups := p.groups ++ [.construct blockingWait desyncDebug mode] } := by
  have empty : (ProcessGroupECCL.construct blockingWait desyncDebug mode).works = 0 := by
    unfold ProcessGroupECCL.construct
    split <;> rfl
  have alive : (ProcessGroupECCL.construct blockingWait desyncDebug mode).destroyed = false := by
    unfold ProcessGroupECCL.construct
    split <;> rfl
  have sums := alive_sums alive
  unfold Keeps Process.Balanced Process.lost Process.waiting Process.inHand at *
  simp only [total_append, total_cons, total_nil]
  omega

/-- What was still listed is lost when the instance goes. -/
theorem destroy_keeps (balanced : p.Balanced) (found : p.groups[i]? = some group)
    (alive : group.destroyed = false) (empty : accounted → group.workMetaList = []) :
    Keeps p accounted (p.setGroup i { group with destroyed := true }) := by
  have before := alive_sums alive
  have waiting : total ProcessGroupECCL.waiting (p.groups.set i { group with destroyed := true }) +
    group.waiting = total ProcessGroupECCL.waiting p.groups + 0 := total_set found
  have abandoned :
    total ProcessGroupECCL.abandoned (p.groups.set i { group with destroyed := true }) +
      group.abandoned = total ProcessGroupECCL.abandoned p.groups + group.works := total_set found
  unfold Keeps Process.Balanced Process.lost Process.waiting Process.inHand at *
  simp only [Process.setGroup]
  refine ⟨by omega, fun condition => ?_⟩
  have none : group.works = 0 := by simp [ProcessGroupECCL.works, empty condition]
  omega

/-! ### Runs -/

/-- No call comes to enqueue its work after the instance has been shut down, and none is
destroyed with work in its list. -/
def Accounted (p : Process) : ProcessAction → Prop
  | .workEnqueue c => ∀ call group, p.calls[c]? = some call → p.groups[call.group]? = some group →
      group.terminateProcessGroup = false
  | .destroy i => ∀ group, p.groups[i]? = some group → group.workMetaList = []
  | _ => True

theorem ProcessStep.keeps {action : ProcessAction} (balanced : p.Balanced)
    (taken : ProcessStep p action q) : Keeps p (Accounted p action) q := by
  cases taken with
  | construct blockingWait desyncDebug mode => exact construct_keeps balanced _ _ _
  | registerOnCompletionHook found => exact setGroup_keeps balanced found rfl rfl
  | startCoalescing rt found _ =>
    have same := onGroup_same found (startCoalescing_like rt)
    exact wp_after (wp_mono same (fun _ _ same => same.keeps balanced)
      fun _ _ same => same.keeps balanced)
  | collective rt found _ => exact issue_keeps found (collective_like rt) balanced
  | collectiveCoalesced rt found _ => exact issue_keeps found (collectiveCoalesced_like rt) balanced
  | pointToPoint batchP2P rt found _ =>
    exact issue_keeps found (pointToPoint_like batchP2P rt) balanced
  | endCoalescing rt found _ => exact issue_keeps found (endCoalescing_like rt) balanced
  | discount called found _ phase _ => exact discount_keeps balanced called found phase
  | workEnqueue called found _ phase _ =>
    exact workEnqueue_keeps balanced called found phase fun accounted =>
      accounted _ _ called found
  | workEnqueueLocked called found alive phase _ =>
    exact workEnqueueLocked_keeps balanced called found alive phase
  | testLoop found _ => exact setGroup_keeps balanced found rfl rfl
  | wake found _ => exact setGroup_keeps balanced found rfl rfl
  | visit rt found alive _ listed =>
    exact visit_keeps balanced found alive (List.getElem?_eq_some_iff.mp listed).1
  | endPass found _ _ => exact setGroup_keeps balanced found rfl rfl
  | shutdown found => exact setGroup_keeps balanced found rfl rfl
  | destroy found alive _ _ _ =>
    exact destroy_keeps balanced found alive fun accounted => accounted _ found

/-- The counter is the number of work items that wait or are in the hands of a call: the next
decrement of each of them finds it above zero, and when there are none a capture can begin. -/
structure PendingTrue (p : Process) : Prop where
  counts : p.pendingEventQueries = p.waiting + p.inHand
  nonneg : 0 ≤ p.pendingEventQueries
  ofCall : ∀ {c : Nat} {call : Call}, p.calls[c]? = some call → call.holds = 1 → 0 < p.pendingEventQueries
  ofWork : ∀ {i : Nat} {group : ProcessGroupECCL} {work : WorkECCL},
    p.groups[i]? = some group → group.destroyed = false → work ∈ group.workMetaList → 0 < p.pendingEventQueries
  settles : p.waiting = 0 → p.inHand = 0 → p.pendingEventQueries = 0

theorem PendingTrue.of_balanced (balanced : p.Balanced) (lost : p.lost = 0) : PendingTrue p := by
  have counts : p.pendingEventQueries = p.waiting + p.inHand := by
    unfold Process.Balanced at balanced
    omega
  constructor
  · exact counts
  · omega
  · exact positive_of_held balanced
  · intro i group work found alive member
    have part : group.waiting ≤ p.waiting := le_total found
    have here := alive_sums alive
    have some : 0 < group.works := List.length_pos_of_mem member
    omega
  · omega

theorem balanced_of_run (run : Reaches ProcessStep {} p) : p.Balanced :=
  run.invariant (P := Process.Balanced) (fun balanced taken => (taken.keeps balanced).1) rfl

/-- In every run, the counter is true exactly while no work item has been lost. -/
theorem pending_true_iff (run : Reaches ProcessStep {} p) : PendingTrue p ↔ p.lost = 0 := by
  have balanced := balanced_of_run run
  constructor
  · intro holds
    have counts := holds.counts
    unfold Process.Balanced at balanced
    omega
  · exact PendingTrue.of_balanced balanced

/-- No work item is lost in a run whose steps are all accounted for. -/
theorem pending_event_queries_true (run : Reaches (Meeting Accounted ProcessStep) {} p) :
    PendingTrue p := by
  have kept := run.invariant (P := fun p => p.Balanced ∧ p.lost = 0)
    (fun holds taken =>
      have keeps := taken.2.keeps holds.1
      ⟨keeps.1, (keeps.2 taken.1).trans holds.2⟩)
    ⟨rfl, rfl⟩
  exact .of_balanced kept.1 kept.2

theorem accounted_workEnqueue {call : Call} {group : ProcessGroupECCL}
    (called : p.calls[c]? = some call) (found : p.groups[call.group]? = some group)
    (running : group.terminateProcessGroup = false) : Accounted p (.workEnqueue c) := by
  intro call' group' called' found'
  cases called.symm.trans called'
  cases found.symm.trans found'
  exact running

/-- A collective whose work item is counted, enqueued and retired. -/
theorem pending_event_queries_true_run : ∃ p, PendingTrue p ∧ p.pendingEventQueries = 0 ∧
    p.calls.length = 1 := by
  have constructed : Reaches (Meeting Accounted ProcessStep) {} _ :=
    Reaches.refl.next ⟨(by trivial), .construct false false .skipCleanUp⟩
  have counted := constructed.next (a := .collective 0 {}) ⟨(by trivial), .collective {} rfl rfl⟩
  have admitted := counted.next (a := .workEnqueue 0)
    ⟨accounted_workEnqueue rfl rfl rfl, .workEnqueue rfl rfl rfl rfl rfl⟩
  have enqueued := admitted.next (a := .workEnqueueLocked 0)
    ⟨(by trivial), .workEnqueueLocked rfl rfl rfl rfl id⟩
  have tested := enqueued.next (a := .testLoop 0) ⟨(by trivial), .testLoop rfl rfl⟩
  have woken := tested.next (a := .wake 0) ⟨(by trivial), .wake rfl rfl⟩
  have visited := woken.next (a := .visit 0 { query := .ok true })
    ⟨(by trivial), .visit { query := .ok true } rfl rfl rfl rfl⟩
  exact ⟨_, pending_event_queries_true visited, by decide +kernel, by decide +kernel⟩

/-- A work item counted before `shutdown` and declined after it stays on the counter. -/
theorem declined_work_stays_pending : ¬ ∀ p, Reaches ProcessStep {} p → PendingTrue p := by
  intro always
  have constructed : Reaches ProcessStep {} _ :=
    Reaches.refl.next (.construct false false .skipCleanUp)
  have counted := constructed.next (a := .collective 0 {}) (.collective {} rfl rfl)
  have terminated := counted.next (a := .shutdown 0) (.shutdown rfl)
  have declined := terminated.next (a := .workEnqueue 0) (.workEnqueue rfl rfl rfl rfl rfl)
  have settles := (always _ declined).settles
  revert settles
  decide +kernel

end TorchGcu.ProcessGroup

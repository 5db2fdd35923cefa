import TorchGcu.Initialization.LazyInit

/-! What each thread knows at each statement, in runs without errors of deferred calls: one thread is
under the lock, and the device is initialised when it leaves. -/
namespace TorchGcu.LazyInit
variable {s s' : State} {a : Action} {t t' : Nat} {call : Deferred} {kind : Kind} {thread : Thread}
  {doing : Doing} {initialized : Bool} {raised : Option Failure}

@[simp] theorem put_threads (s : State) (t t' : Nat) (thread : Thread) :
    (s.put t thread).threads t' = if t' = t then thread else s.threads t' :=
  Function.update_apply ..

/-- The statements under the lock. -/
def Doing.Critical : Doing → Prop
  | .inner | .start | .getCalls | .seeds _ | .drain _ | .finish _ | .set | .leave _ => True
  | .code | .check _ | .append _ | .enter | .acquire => False

/-- The statements of code that a callable from the queue may run. -/
def Doing.Free : Doing → Prop
  | .code | .check _ | .append _ | .enter => True
  | _ => False

def Thread.Holds (thread : Thread) : Prop := thread.doing.Critical ∨ thread.queued ≠ []

/-- What a thread knows at each statement. -/
def Thread.Tidy (initialized : Bool) (thread : Thread) : Prop :=
  match thread.doing with
  | .code | .check _ | .append _ | .enter =>
    thread.queued = [] ∨
      (∃ next, thread.queued = [next]) ∧ thread.isInitializing = true ∧ initialized = false
  | .acquire | .inner => thread.queued = []
  | .start | .set => thread.queued = [] ∧ initialized = false
  | .getCalls | .seeds _ | .drain _ =>
    thread.queued = [] ∧ thread.isInitializing = true ∧ initialized = false
  | .finish raised => thread.queued = [] ∧ raised = none ∧ initialized = false
  | .leave none => thread.queued = [] ∧ initialized = true
  | .leave (some failure) => thread.queued = [] ∧ failure = .initError

structure Control (s : State) : Prop where
  holds : ∀ t, (s.threads t).Holds → s.initializationLock = some t
  tidy : ∀ t, (s.threads t).Tidy s.initialized
  returned : s.returned = true → s.initialized = true
  failures : ∀ failure ∈ s.failures, failure = .initError

theorem Control.put (control : Control s) (holds : thread.Holds → s.initializationLock = some t)
    (tidy : thread.Tidy s.initialized) : Control (s.put t thread) := by
  refine ⟨fun t' => ?_, fun t' => ?_, control.returned, control.failures⟩
  · rw [put_threads]
    split
    · next same => exact same ▸ holds
    · exact control.holds t'
  · rw [put_threads]
    split
    · exact tidy
    · exact control.tidy t'

theorem Thread.tidy_of_free (free : thread.doing.Free) (tidy : thread.Tidy initialized)
    (free' : doing.Free) : Thread.Tidy initialized { thread with doing := doing } := by
  unfold Thread.Tidy at tidy
  unfold Thread.Tidy
  cases here : thread.doing <;> simp only [here, Doing.Free] at free tidy <;>
    cases doing <;> simp only [Doing.Free] at free' <;> exact tidy

theorem Thread.holds_of_free (free : doing.Free) (holds : Holds { thread with doing := doing }) :
    thread.Holds := by
  rcases holds with critical | queued
  · cases doing <;> simp_all [Doing.Free, Doing.Critical]
  · exact Or.inr queued

theorem Control.goTo_free (control : Control s) (free : (s.threads t).doing.Free)
    (free' : doing.Free) : Control (s.goTo t doing) :=
  control.put (fun holds => control.holds t (Thread.holds_of_free free' holds))
    (Thread.tidy_of_free free (control.tidy t) free')

theorem Control.lock (control : Control s) (critical : (s.threads t).doing.Critical) :
    s.initializationLock = some t := control.holds t (Or.inl critical)

/-- A thread that does not hold the lock knows nothing of the initialisation. -/
theorem Thread.tidy_set (tidy : thread.Tidy initialized) (apart : ¬ thread.Holds) :
    thread.Tidy true := by
  obtain ⟨outside, queued⟩ := not_or.mp apart
  rw [not_not] at queued
  unfold Tidy at tidy ⊢
  split <;> simp_all [Doing.Critical]

theorem Control.enter (control : Control s) (here : (s.threads t).doing = .enter) :
    Control (proceed s t) := by
  have free : (s.threads t).doing.Free := by simp [here, Doing.Free]
  have tidy := control.tidy t
  unfold LazyInit.proceed
  simp only [here]
  split
  · next done =>
    have control : Control { s with returned := true } :=
      ⟨control.holds, control.tidy, fun _ => done, control.failures⟩
    exact control.goTo_free free trivial
  · split
    · exact control.goTo_free free trivial
    · next waits =>
      have apart : (s.threads t).queued = [] := by
        simp only [Thread.Tidy, here] at tidy
        rcases tidy with none | ⟨_, marked, _⟩
        · exact none
        · exact absurd marked waits
      refine control.put (fun holds => control.holds t ?_) apart
      rcases holds with critical | queued
      · exact critical.elim
      · exact Or.inr queued

theorem Control.acquire (control : Control s) (here : (s.threads t).doing = .acquire)
    (unlocked : s.initializationLock = none) : Control (proceed s t) := by
  have tidy := control.tidy t
  simp only [Thread.Tidy, here] at tidy
  unfold LazyInit.proceed
  simp only [here]
  refine ⟨fun t' => ?_, fun t' => ?_, control.returned, control.failures⟩
  · simp only [State.goTo, put_threads]
    split
    · next same => exact fun _ => same ▸ rfl
    · intro holds
      have locked := control.holds t' holds
      simp [unlocked] at locked
  · simp only [State.goTo, put_threads]
    split
    · exact tidy
    · exact control.tidy t'

theorem Control.set (control : Control s) (here : (s.threads t).doing = .set) :
    Control (proceed s t) := by
  have tidy := control.tidy t
  simp only [Thread.Tidy, here] at tidy
  have locked := control.lock (t := t) (by simp [here, Doing.Critical])
  unfold LazyInit.proceed
  simp only [here]
  refine ⟨fun t' => ?_, fun t' => ?_, fun _ => rfl, control.failures⟩
  · simp only [State.goTo, put_threads]
    split
    · next same => exact fun _ => same ▸ locked
    · exact control.holds t'
  · simp only [State.goTo, put_threads]
    split
    · exact ⟨tidy.1, rfl⟩
    · next other =>
      refine Thread.tidy_set (control.tidy t') fun holds => other ?_
      exact Option.some.inj ((control.holds t' holds).symm.trans locked)

theorem Control.leave (control : Control s) (here : (s.threads t).doing = .leave raised) :
    Control (proceed s t) := by
  have tidy := control.tidy t
  have locked := control.lock (t := t) (by simp [here, Doing.Critical])
  have apart : (s.threads t).queued = [] := by
    cases raised <;> simp only [Thread.Tidy, here] at tidy <;> exact tidy.1
  unfold LazyInit.proceed
  simp only [here]
  refine ⟨fun t' => ?_, fun t' => ?_, ?_, ?_⟩
  · simp only [State.goTo, put_threads]
    split
    · rintro (critical | queued)
      · exact critical.elim
      · exact absurd apart queued
    · next other =>
      exact fun holds => absurd (Option.some.inj ((control.holds t' holds).symm.trans locked)) other
  · simp only [State.goTo, put_threads]
    split
    · exact Or.inl apart
    · exact control.tidy t'
  · cases raised with
    | none =>
      simp only [Thread.Tidy, here] at tidy
      exact fun _ => tidy.2
    | some failure => simpa [State.goTo, State.put] using control.returned
  · cases raised with
    | none => simpa [State.goTo, State.put] using control.failures
    | some failure =>
      simp only [Thread.Tidy, here] at tidy
      intro failure' member
      rcases List.mem_append.mp member with before | last
      · exact control.failures failure' before
      · rw [List.mem_singleton.mp last]
        exact tidy.2

/-- The statements under the lock that leave the lock and the flag of the module alone. -/
theorem Control.locked (control : Control s) (critical : (s.threads t).doing.Critical)
    (alone : ∀ raised, (s.threads t).doing ≠ .leave raised) (unset : (s.threads t).doing ≠ .set) :
    Control (proceed s t) := by
  have tidy := control.tidy t
  unfold LazyInit.proceed
  cases here : (s.threads t).doing with
  | code | check | append | enter | acquire => simp [here, Doing.Critical] at critical
  | set => exact absurd here unset
  | leave raised => exact absurd here (alone raised)
  | inner =>
    simp only [Thread.Tidy, here] at tidy
    refine control.put (fun _ => control.lock critical) ?_
    split
    · next done => exact ⟨tidy, done⟩
    · next early => exact ⟨tidy, by simpa using early⟩
  | start =>
    simp only [Thread.Tidy, here] at tidy
    exact control.put (fun _ => control.lock critical) ⟨tidy.1, rfl, tidy.2⟩
  | getCalls =>
    simp only [Thread.Tidy, here] at tidy
    exact control.put (fun _ => control.lock critical) tidy
  | seeds rest =>
    simp only [Thread.Tidy, here] at tidy
    cases rest with
    | nil => exact control.put (fun _ => control.lock critical) tidy
    | cons call rest =>
      have control : Control { s with queuedCalls := s.queuedCalls ++ [call] } :=
        ⟨control.holds, control.tidy, control.returned, control.failures⟩
      exact control.put (fun _ => control.lock critical) tidy
  | drain next =>
    simp only [Thread.Tidy, here] at tidy
    simp only
    split
    · next call found =>
      have control : Control (s.execute call) :=
        ⟨control.holds, control.tidy, control.returned, control.failures⟩
      refine control.put (fun _ => control.lock critical) ?_
      refine Or.inr ⟨⟨next + 1, ?_⟩, tidy.2⟩
      simpa [Thread.queued, Body.next] using tidy.1
    · exact control.put (fun _ => control.lock critical) ⟨tidy.1, rfl, tidy.2.2⟩
  | finish raised =>
    simp only [Thread.Tidy, here] at tidy
    obtain ⟨apart, rfl, early⟩ := tidy
    exact control.put (fun _ => control.lock critical) ⟨apart, early⟩

theorem Control.proceed (control : Control s)
    (waits : (s.threads t).doing = .acquire → s.initializationLock = none) :
    Control (proceed s t) := by
  cases here : (s.threads t).doing with
  | code =>
    unfold LazyInit.proceed
    simpa only [here] using control
  | check call =>
    have free : (s.threads t).doing.Free := by simp [here, Doing.Free]
    unfold LazyInit.proceed
    simp only [here]
    split
    · have apart : Control (s.goTo t .code) := control.goTo_free free trivial
      have tidy := apart.tidy t
      have holds := apart.holds t
      simp only [State.goTo, put_threads, if_true] at tidy holds
      have control : Control { s.execute call with ordered := s.ordered ++ [call] } :=
        ⟨control.holds, control.tidy, control.returned, control.failures⟩
      exact control.put holds tidy
    · exact control.goTo_free free trivial
  | append call =>
    have free : (s.threads t).doing.Free := by simp [here, Doing.Free]
    unfold LazyInit.proceed
    simp only [here, State.enqueue]
    have control : Control (s.enqueue call) := by
      unfold State.enqueue
      split <;> exact ⟨control.holds, control.tidy, control.returned, control.failures⟩
    refine control.goTo_free ?_ trivial
    simpa [State.enqueue, apply_ite State.threads] using free
  | enter => exact control.enter here
  | acquire => exact control.acquire here (waits here)
  | set => exact control.set here
  | leave raised => exact control.leave here
  | inner | start | getCalls | seeds | drain | finish =>
    exact control.locked (by simp [here, Doing.Critical]) (by simp [here]) (by simp [here])

theorem control_next (control : Control s) (timely : Timely s a) (enabled : Enabled s a) :
    Control (next s a) := by
  obtain ⟨t, move⟩ := a
  cases move with
  | lazyCall kind =>
    have control : Control { s with passed := s.passed ++ [⟨kind, s.passed.length⟩] } :=
      ⟨control.holds, control.tidy, control.returned, control.failures⟩
    have here : (s.threads t).doing = .code := enabled
    exact control.goTo_free (by simp [here, Doing.Free]) trivial
  | lazyInit =>
    have here : (s.threads t).doing = .code := enabled
    exact control.goTo_free (by simp [here, Doing.Free]) trivial
  | proceed => exact control.proceed enabled.2
  | fail =>
    have here : (s.threads t).doing = .start := enabled
    have tidy := control.tidy t
    simp only [Thread.Tidy, here] at tidy
    exact control.put (fun _ => control.lock (by simp [here, Doing.Critical])) ⟨tidy.1, rfl⟩
  | bodyReturns =>
    have here : (s.threads t).doing = .code := enabled.1
    have tidy := control.tidy t
    have holds := control.holds t
    simp only [Thread.Tidy, Thread.Holds, Thread.queued, here] at tidy holds
    simp only [next]
    split
    · exact control
    · next call rest bodies =>
      have control : Control { s with succeeded := s.succeeded ++ [call] } :=
        ⟨control.holds, control.tidy, control.returned, control.failures⟩
      simp only [bodies, List.filterMap_cons, Body.next] at tidy holds
      refine control.put ?_ ?_
      · simpa [Thread.Holds, Thread.queued, here] using holds
      · simpa [Thread.Tidy, Thread.queued, here] using tidy
    · next next call rest bodies =>
      have control : Control { s with succeeded := s.succeeded ++ [call] } :=
        ⟨control.holds, control.tidy, control.returned, control.failures⟩
      simp only [bodies, List.filterMap_cons, Body.next] at tidy holds
      rcases tidy with none | ⟨⟨_, one⟩, known⟩
      · cases none
      · exact control.put (fun _ => holds (Or.inr (List.cons_ne_nil _ _)))
          ⟨(List.cons.inj one).2, known⟩
  | bodyRaises =>
    have here : (s.threads t).doing = .code := enabled.1
    have tidy := control.tidy t
    have holds := control.holds t
    simp only [Thread.Tidy, Thread.Holds, Thread.queued, here] at tidy holds
    simp only [next]
    split
    · exact control
    · next call rest bodies =>
      simp only [bodies, List.filterMap_cons, Body.next] at tidy holds
      refine control.put ?_ ?_
      · simpa [Thread.Holds, Thread.queued, here] using holds
      · simpa [Thread.Tidy, Thread.queued, here] using tidy
    · next next call rest bodies => exact absurd bodies (timely.returns rfl next call rest)

end TorchGcu.LazyInit

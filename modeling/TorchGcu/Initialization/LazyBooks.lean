import TorchGcu.Initialization.LockHolder
import TorchGcu.Initialization.QueuedCalls

/-! The steps of the threads on the calls: how far the holder of the lock is with the queue says what
has been run. -/
namespace TorchGcu.LazyInit
variable {s s' : State} {a : Action} {t t' : Nat} {call : Deferred} {kind : Kind} {thread : Thread}
  {doing : Doing} {initialized : Bool} {raised : Option Failure}

/-! ### The phase of a state -/

/-- How far the holder of the lock is with the queue. -/
def State.phase (s : State) : Option Phase :=
  s.initializationLock.bind fun t => (s.threads t).phase

def State.books (s : State) : Books :=
  ⟨s.initialized, s.phase, s.queuedCalls, s.lazySeedTracker, s.ordered, s.executed⟩

theorem phase_put_same (same : thread.phase = (s.threads t).phase) :
    (s.put t thread).phase = s.phase := by
  have threads (holder : Nat) : ((s.put t thread).threads holder).phase =
      (s.threads holder).phase := by
    rw [put_threads]
    split
    · next equal => rw [same, equal]
    · rfl
  exact congrArg (s.initializationLock.bind ·) (funext threads)

theorem phase_put (locked : s.initializationLock = some t) :
    (s.put t thread).phase = thread.phase := by
  have same : (s.put t thread).initializationLock = some t := locked
  rw [State.phase, same, Option.bind_some, put_threads, if_pos rfl]

theorem phase_of_holder (locked : s.initializationLock = some t) :
    s.phase = (s.threads t).phase := by
  rw [State.phase, locked, Option.bind_some]

theorem State.collected_of_phase (some : s.phase ≠ none) : s.Collected := by
  obtain ⟨phase, same⟩ := Option.ne_none_iff_exists'.mp some
  obtain ⟨t, _, inside⟩ := Option.bind_eq_some_iff.mp same
  exact Or.inr ⟨t, by simp [inside]⟩

theorem State.drained_of_phase (same : s.phase = some .drained) : s.Drained := by
  obtain ⟨t, _, inside⟩ := Option.bind_eq_some_iff.mp same
  exact Or.inr ⟨t, inside⟩

theorem Thread.phase_free (thread : Thread) (free : thread.doing.Free) :
    thread.phase = thread.queued.head?.map .draining := by
  unfold Thread.phase
  cases here : thread.doing <;> simp_all [Doing.Free]

theorem Thread.phase_immediate {rest : List Body} (free : thread.doing.Free)
    (bodies : thread.bodies = .immediate call :: rest) :
    Thread.phase { thread with bodies := rest } = thread.phase := by
  rw [phase_free thread free, phase_free { thread with bodies := rest } free, Thread.queued,
    Thread.queued, bodies]
  rfl

/-- The statements at which a phase comes from a callable only. -/
def Doing.Apart : Doing → Prop
  | .seeds _ | .drain _ | .finish _ | .set => False
  | _ => True

theorem Thread.phase_apart (apart : thread.doing.Apart) (outside : thread.queued = []) :
    thread.phase = none := by
  unfold Thread.phase
  cases here : thread.doing <;> simp_all [Doing.Apart]

/-- The books of a state in which the holder of the lock has come to a phase. -/
theorem books_put (locked : s.initializationLock = some t) :
    (s.put t thread).books = { s.books with phase := thread.phase } := by
  unfold State.books
  rw [phase_put locked]
  rfl

theorem books_of_holder {stage : Option Phase} (locked : s.initializationLock = some t)
    (inside : (s.threads t).phase = stage) : s.books.phase = stage :=
  (phase_of_holder locked).trans inside

theorem kept_put {stage : Option Phase} (locked : s.initializationLock = some t)
    (after : thread.phase = stage) (kept : Books.Kept { s.books with phase := stage }) :
    (s.put t thread).books.Kept := by
  rw [books_put locked, after]
  exact kept

theorem kept_same (kept : s.books.Kept) (same : thread.phase = (s.threads t).phase) :
    (s.put t thread).books.Kept := by
  have books : (s.put t thread).books = s.books := by
    unfold State.books
    rw [phase_put_same same]
    rfl
  rw [books]
  exact kept

/-- A step of a thread outside the initialisation does not change the books. -/
theorem kept_free (kept : s.books.Kept) (free : (s.threads t).doing.Free) (free' : doing.Free) :
    (s.goTo t doing).books.Kept := by
  refine kept_same kept ?_
  rw [Thread.phase_free _ free]
  exact Thread.phase_free { s.threads t with doing := doing } free'

theorem kept_apart (kept : s.books.Kept) (locked : s.initializationLock = some t)
    (before : (s.threads t).phase = none) (after : thread.phase = none) :
    (s.put t thread).books.Kept := by
  have same := books_of_holder locked before
  rw [books_put locked, after, ← same]
  exact kept

@[simp] theorem enqueue_threads (s : State) (call : Deferred) :
    (s.enqueue call).threads = s.threads := by
  unfold State.enqueue
  split <;> rfl

theorem kept_append (kept : s.books.Kept) (timely : Timely s ⟨t, .proceed⟩)
    (here : (s.threads t).doing = .append call) : (proceed s t).books.Kept := by
  have free : ((s.enqueue call).threads t).doing.Free := by simp [here, Doing.Free]
  have enqueued : (s.enqueue call).books.Kept := by
    unfold State.enqueue
    split
    · next kind =>
      have before := timely.plain rfl call here kind
      have early : s.initialized = false := by simpa using fun done => before (Or.inl done)
      exact kept.append_plain early (fun ended => before (s.drained_of_phase ended)) kind
    · next kind =>
      have before := timely.seed rfl call here kind
      have early : s.initialized = false := by simpa using fun done => before (Or.inl done)
      have unasked : s.phase = none := by
        by_contra some
        exact before (s.collected_of_phase some)
      exact kept.append_seed early unasked kind
  unfold LazyInit.proceed
  simp only [here]
  exact kept_free enqueued free trivial

/-- The steps of the holder of the lock. -/
theorem kept_locked (kept : s.books.Kept) (control : Control s)
    (critical : (s.threads t).doing.Critical) : (proceed s t).books.Kept := by
  have tidy := control.tidy t
  have locked := control.lock critical
  unfold LazyInit.proceed
  cases here : (s.threads t).doing with
  | code | check | append | enter | acquire => simp [here, Doing.Critical] at critical
  | inner =>
    simp only [Thread.Tidy, here] at tidy
    refine kept_apart kept locked (Thread.phase_apart (by simp [here, Doing.Apart]) tidy)
      (Thread.phase_apart ?_ tidy)
    simp only
    split <;> trivial
  | start =>
    simp only [Thread.Tidy, here] at tidy
    exact kept_apart kept locked (Thread.phase_apart (by simp [here, Doing.Apart]) tidy.1)
      (Thread.phase_apart (by simp [Doing.Apart]) tidy.1)
  | getCalls =>
    simp only [Thread.Tidy, here] at tidy
    have before := books_of_holder locked (Thread.phase_apart (by simp [here, Doing.Apart]) tidy.1)
    exact kept_put locked rfl (kept.collect tidy.2.2 before)
  | seeds rest =>
    simp only [Thread.Tidy, here] at tidy
    have before : s.books.phase = some (.collecting rest) :=
      books_of_holder locked (by simp only [Thread.phase, here])
    cases rest with
    | nil =>
      exact kept_put locked rfl (kept.begin_drain tidy.2.2 before)
    | cons call rest =>
      exact kept_put locked rfl (kept.queue_seed tidy.2.2 before)
  | drain next =>
    simp only [Thread.Tidy, here] at tidy
    have before : s.books.phase = some (.draining next) :=
      books_of_holder locked (by simp only [Thread.phase, here])
    simp only
    split
    · next call found =>
      exact kept_put locked rfl (kept.drain tidy.2.2 before found)
    · next ended =>
      exact kept_put locked rfl (kept.end_drain tidy.2.2 before ended)
  | finish raised =>
    simp only [Thread.Tidy, here] at tidy
    obtain ⟨_, rfl, _⟩ := tidy
    have before : s.books.phase = some .drained :=
      books_of_holder locked (by simp only [Thread.phase, here])
    simp only
    rw [books_put locked]
    have same : s.books = { s.books with phase := some .drained } := by rw [← before]
    rw [same] at kept
    exact kept
  | set =>
    simp only [Thread.Tidy, here] at tidy
    have before : s.books.phase = some .drained :=
      books_of_holder locked (by simp only [Thread.phase, here])
    exact kept_put locked rfl (kept.set tidy.2 before _)
  | leave raised =>
    have apart : (s.threads t).queued = [] := by
      cases raised <;> simp only [Thread.Tidy, here] at tidy <;> exact tidy.1
    have before := books_of_holder locked (Thread.phase_apart (by simp [here, Doing.Apart]) apart)
    have same : s.books = { s.books with phase := none } := by rw [← before]
    rw [same] at kept
    exact kept

theorem kept_proceed (kept : s.books.Kept) (control : Control s) (timely : Timely s ⟨t, .proceed⟩)
    (waits : (s.threads t).doing = .acquire → s.initializationLock = none) :
    (proceed s t).books.Kept := by
  cases here : (s.threads t).doing with
  | code =>
    unfold LazyInit.proceed
    simpa only [here] using kept
  | check call =>
    have free : (s.threads t).doing.Free := by simp [here, Doing.Free]
    unfold LazyInit.proceed
    simp only [here]
    split
    · next done => exact (kept.run_now done).any_phase done _
    · exact kept_free kept free trivial
  | append call => exact kept_append kept timely here
  | enter =>
    have free : (s.threads t).doing.Free := by simp [here, Doing.Free]
    unfold LazyInit.proceed
    simp only [here]
    split
    · exact kept_free kept free trivial
    · split
      · exact kept_free kept free trivial
      · exact kept_same kept (Thread.phase_free _ free).symm
  | acquire =>
    have tidy := control.tidy t
    simp only [Thread.Tidy, here] at tidy
    have unasked : s.books.phase = none := by
      simp only [State.books, State.phase, waits here, Option.bind_none]
    rw [show s.books = { s.books with phase := none } by rw [← unasked]] at kept
    unfold LazyInit.proceed
    simp only [here]
    exact kept_put (s := { s with initializationLock := some t }) rfl
      (Thread.phase_apart (by simp [Doing.Apart]) tidy) kept
  | inner | start | getCalls | seeds | drain | finish | set | leave =>
    exact kept_locked kept control (by simp [here, Doing.Critical])

theorem kept_next (kept : s.books.Kept) (control : Control s) (timely : Timely s a)
    (enabled : Enabled s a) : (next s a).books.Kept := by
  obtain ⟨t, move⟩ := a
  cases move with
  | lazyCall kind =>
    have here : (s.threads t).doing = .code := enabled
    have free : (s.threads t).doing.Free := by simp [here, Doing.Free]
    exact kept_free (s := { s with passed := _ }) kept free trivial
  | lazyInit =>
    have here : (s.threads t).doing = .code := enabled
    have free : (s.threads t).doing.Free := by simp [here, Doing.Free]
    exact kept_free kept free trivial
  | proceed => exact kept_proceed kept control timely enabled.2
  | fail =>
    have here : (s.threads t).doing = .start := enabled
    have tidy := control.tidy t
    simp only [Thread.Tidy, here] at tidy
    have locked := control.lock (t := t) (by simp [here, Doing.Critical])
    exact kept_apart kept locked (Thread.phase_apart (by simp [here, Doing.Apart]) tidy.1)
      (Thread.phase_apart (by simp [Doing.Apart]) tidy.1)
  | bodyReturns =>
    have here : (s.threads t).doing = .code := enabled.1
    have free : (s.threads t).doing.Free := by simp [here, Doing.Free]
    simp only [next]
    split
    · exact kept
    · next call rest bodies => exact kept_same kept (Thread.phase_immediate free bodies)
    · next next call rest bodies =>
      have before : (s.threads t).phase = some (.draining next) := by
        rw [Thread.phase_free _ free, Thread.queued, bodies]
        rfl
      exact kept_same kept before.symm
  | bodyRaises =>
    have here : (s.threads t).doing = .code := enabled.1
    have free : (s.threads t).doing.Free := by simp [here, Doing.Free]
    simp only [next]
    split
    · exact kept
    · next call rest bodies => exact kept_same kept (Thread.phase_immediate free bodies)
    · next next call rest bodies => exact absurd bodies (timely.returns rfl next call rest)

end TorchGcu.LazyInit

import Mathlib.Logic.Function.Basic
import TorchGcu.Logic.Runs

/-! Lazy initialisation: calls that are passed before the device is initialised are queued, and the
thread that initialises it runs the queue. Threads interleave at every statement on the queue, the
lock and the flags, in a process that was not forked from one with a device. -/
namespace TorchGcu.LazyInit
open ProgramLogic

inductive Kind where
  | plain
  | seed
  | seedAll
deriving DecidableEq

/-- One call of `_lazy_call`, by the order in which they were made. -/
structure Deferred where
  kind : Kind
  id : Nat
deriving DecidableEq

inductive Failure where
  /-- What `_lazy_init` raises before it runs the queue. -/
  | initError
  /-- `DeferredGcuCallError`, from the error of a deferred call. -/
  | deferredGcuCallError (call : Deferred)
  /-- name 'DeferredGCUCallError' is not defined -/
  | nameError (call : Deferred)
deriving DecidableEq

/-- Where a thread is: in code of its own, or at a statement of `_lazy_call` or `_lazy_init`. -/
inductive Doing where
  | code
  /-- `is_initialized()` -/
  | check (call : Deferred)
  /-- What queues the call. -/
  | append (call : Deferred)
  /-- The test before the lock. -/
  | enter
  | acquire
  /-- The test under the lock. -/
  | inner
  /-- The calls that may raise, and the flag of the thread after them. -/
  | start
  | getCalls
  /-- The loop that queues the seed calls, with those that are left. -/
  | seeds (rest : List Deferred)
  /-- The loop over the queue, at its next element. -/
  | drain (next : Nat)
  /-- `finally` -/
  | finish (raised : Option Failure)
  /-- `_initialized = True` -/
  | set
  /-- The end of the lock. -/
  | leave (raised : Option Failure)
deriving DecidableEq

/-- A callable that is running: called by `_lazy_call`, or from the queue. -/
inductive Body where
  | immediate (call : Deferred)
  | queued (next : Nat) (call : Deferred)
deriving DecidableEq

def Body.call : Body → Deferred
  | .immediate call | .queued _ call => call

structure Thread where
  doing : Doing
  /-- The callables that the thread is in, the innermost first. -/
  bodies : List Body
  /-- `hasattr(_tls, "is_initializing")` -/
  isInitializing : Bool
deriving DecidableEq

structure State where
  initialized : Bool
  queuedCalls : List Deferred
  /-- The most recent seed call and the most recent seed_all call, in the order of the calls. -/
  lazySeedTracker : List Deferred
  initializationLock : Option Nat
  threads : Nat → Thread
  /-- The calls passed to `_lazy_call`. -/
  passed : List Deferred
  /-- The calls in the order in which they were queued, or run at once. -/
  ordered : List Deferred
  executed : List Deferred
  succeeded : List Deferred
  /-- The calls that were run after they had succeeded. -/
  repeated : List Deferred
  /-- What reached the callers of `_lazy_init`. -/
  failures : List Failure
  /-- A `_lazy_init` has returned that was not called while the same thread was initialising. -/
  returned : Bool

inductive Move where
  | lazyCall (kind : Kind)
  | lazyInit
  /-- The statement that the thread is at. -/
  | proceed
  /-- What raises at the start of `_lazy_init`. -/
  | fail
  | bodyReturns
  | bodyRaises
deriving DecidableEq

structure Action where
  thread : Nat
  move : Move
deriving DecidableEq

/-- `queue_seed` and `queue_seed_all`: the latest call of each, in the order of the calls. -/
def queueSeed (tracker : List Deferred) (call : Deferred) : List Deferred :=
  tracker.filter (·.kind ≠ call.kind) ++ [call]

namespace State

def put (s : State) (t : Nat) (thread : Thread) : State :=
  { s with threads := Function.update s.threads t thread }

def goTo (s : State) (t : Nat) (doing : Doing) : State :=
  s.put t { s.threads t with doing := doing }

def execute (s : State) (call : Deferred) : State :=
  { s with
    executed := s.executed ++ [call]
    repeated := if call ∈ s.succeeded then s.repeated ++ [call] else s.repeated }

/-- The calls other than seeds are queued at once. -/
def enqueue (s : State) (call : Deferred) : State :=
  if call.kind = .plain then
    { s with queuedCalls := s.queuedCalls ++ [call], ordered := s.ordered ++ [call] }
  else
    { s with
      lazySeedTracker := queueSeed s.lazySeedTracker call
      ordered := s.ordered ++ [call] }

def runNow (s : State) (t : Nat) (call : Deferred) : State :=
  { s.execute call with ordered := s.ordered ++ [call] }.put t
    { s.threads t with doing := .code, bodies := .immediate call :: (s.threads t).bodies }

def runQueued (s : State) (t next : Nat) (call : Deferred) : State :=
  (s.execute call).put t
    { s.threads t with doing := .code, bodies := .queued (next + 1) call :: (s.threads t).bodies }

end State

/-- One statement of `_lazy_call` or `_lazy_init`. -/
def proceed (s : State) (t : Nat) : State :=
  match (s.threads t).doing with
  | .code => s
  | .check call => if s.initialized then s.runNow t call else s.goTo t (.append call)
  | .append call => (s.enqueue call).goTo t .code
  | .enter =>
    if s.initialized then { s with returned := true }.goTo t .code
    else if (s.threads t).isInitializing then s.goTo t .code
    else s.goTo t .acquire
  | .acquire => { s with initializationLock := some t }.goTo t .inner
  | .inner => s.goTo t (if s.initialized then .leave none else .start)
  | .start => s.put t { s.threads t with doing := .getCalls, isInitializing := true }
  | .getCalls => s.goTo t (.seeds s.lazySeedTracker)
  | .seeds [] => s.goTo t (.drain 0)
  | .seeds (call :: rest) =>
    { s with queuedCalls := s.queuedCalls ++ [call] }.goTo t (.seeds rest)
  | .drain next =>
    match s.queuedCalls[next]? with
    | some call => s.runQueued t next call
    | none => s.goTo t (.finish none)
  | .finish raised =>
    s.put t { s.threads t with
      doing := match raised with | none => .set | some failure => .leave (some failure)
      isInitializing := false }
  | .set => { s with initialized := true }.goTo t (.leave none)
  | .leave raised =>
    { s with
      initializationLock := none
      returned := s.returned || raised.isNone
      failures := s.failures ++ raised.toList }.goTo t .code

def next (s : State) (a : Action) : State :=
  let thread := s.threads a.thread
  match a.move with
  | .lazyCall kind =>
    let call : Deferred := ⟨kind, s.passed.length⟩
    { s with passed := s.passed ++ [call] }.goTo a.thread (.check call)
  | .lazyInit => s.goTo a.thread .enter
  | .proceed => proceed s a.thread
  | .fail => s.goTo a.thread (.leave (some .initError))
  | .bodyReturns =>
    match thread.bodies with
    | [] => s
    | .immediate call :: rest =>
      { s with succeeded := s.succeeded ++ [call] }.put a.thread { thread with bodies := rest }
    | .queued next call :: rest =>
      { s with succeeded := s.succeeded ++ [call] }.put a.thread
        { thread with doing := .drain next, bodies := rest }
  | .bodyRaises =>
    match thread.bodies with
    | [] => s
    | .immediate _ :: rest => s.put a.thread { thread with bodies := rest }
    | .queued _ call :: rest =>
      s.put a.thread { thread with doing := .finish (some (.nameError call)), bodies := rest }

/-- A thread calls out of code of its own, a callable ends where it is running, and a thread waits for
the lock. -/
def Enabled (s : State) (a : Action) : Prop :=
  let thread := s.threads a.thread
  match a.move with
  | .lazyCall _ | .lazyInit => thread.doing = .code
  | .bodyReturns | .bodyRaises => thread.doing = .code ∧ thread.bodies ≠ []
  | .fail => thread.doing = .start
  | .proceed => thread.doing ≠ .code ∧ (thread.doing = .acquire → s.initializationLock = none)

instance (s : State) : (a : Action) → Decidable (Enabled s a)
  | ⟨_, .lazyCall _⟩ | ⟨_, .lazyInit⟩ | ⟨_, .fail⟩ => inferInstanceAs (Decidable (_ = _))
  | ⟨_, .bodyReturns⟩ | ⟨_, .bodyRaises⟩ | ⟨_, .proceed⟩ => inferInstanceAs (Decidable (_ ∧ _))

def step (s : State) (a : Action) (s' : State) : Prop := Enabled s a ∧ s' = next s a

def initial : State where
  initialized := false
  queuedCalls := []
  lazySeedTracker := []
  initializationLock := none
  threads _ := ⟨.code, [], false⟩
  passed := []
  ordered := []
  executed := []
  succeeded := []
  repeated := []
  failures := []
  returned := false

/-! ### The law -/

def lastOf (kind : Kind) (calls : List Deferred) : Option Deferred :=
  (calls.filter (·.kind = kind)).getLast?

/-- The call that was passed to `_lazy_call`, neither queued nor run yet. -/
def Doing.pending : Doing → Option Deferred
  | .check call | .append call => some call
  | _ => none

/-- A `_lazy_init` has returned, and every `_lazy_call` has queued its call or run it. -/
def State.Settled (s : State) : Prop :=
  s.returned = true ∧ ∀ t, (s.threads t).doing.pending = none

structure Law (s : State) : Prop where
  plain : s.Settled → ∀ call ∈ s.passed, call.kind = .plain → s.executed.count call = 1
  seed : s.Settled → ∀ kind ≠ .plain, ∀ call ∈ lastOf kind s.ordered, call ∈ s.executed
  order : s.Settled → ∀ kind ≠ .plain, ∀ call ∈ lastOf kind s.ordered,
    ∀ kind' ≠ .plain, ∀ call' ∈ lastOf kind' s.ordered,
      [call, call'].Sublist s.ordered → [call, call'].Sublist s.executed
  failure : ∀ failure ∈ s.failures, failure ≠ .initError →
    ∃ call, failure = .deferredGcuCallError call
  again : s.repeated = []

/-! ### What goes wrong -/

/-- How far a thread is with the queue, once it has asked for the seed calls. -/
inductive Phase where
  | collecting (rest : List Deferred)
  | draining (next : Nat)
  | drained
deriving DecidableEq

def Body.next : Body → Option Nat
  | .immediate _ => none
  | .queued next _ => some next

/-- Where the thread is in the queue, by the callables from the queue that it is in. -/
def Thread.queued (thread : Thread) : List Nat := thread.bodies.filterMap Body.next

def Thread.phase (thread : Thread) : Option Phase :=
  match thread.doing with
  | .seeds rest => some (.collecting rest)
  | .drain next => some (.draining next)
  | .finish _ | .set => some .drained
  | _ => thread.queued.head?.map .draining

/-- The seed calls have been collected. -/
def State.Collected (s : State) : Prop :=
  s.initialized = true ∨ ∃ t, (s.threads t).phase ≠ none

/-- The loop over the queue has ended. -/
def State.Drained (s : State) : Prop :=
  s.initialized = true ∨ ∃ t, (s.threads t).phase = some .drained

/-- No deferred call raises, and no call is queued too late: a plain one when the loop over the queue
has ended, or a seed when the seeds have been collected. -/
structure Timely (s : State) (a : Action) : Prop where
  returns : a.move = .bodyRaises →
    ∀ next call rest, (s.threads a.thread).bodies ≠ .queued next call :: rest
  plain : a.move = .proceed → ∀ call, (s.threads a.thread).doing = .append call →
    call.kind = .plain → ¬ s.Drained
  seed : a.move = .proceed → ∀ call, (s.threads a.thread).doing = .append call →
    call.kind ≠ .plain → ¬ s.Collected

end TorchGcu.LazyInit

import Mathlib.Data.List.Perm.Subperm
import TorchGcu.Initialization.LazyBooks

/-! Timely runs, in which every call is run once. -/
namespace TorchGcu.LazyInit
open ProgramLogic
variable {s s' : State} {a : Action} {t t' : Nat} {call : Deferred} {kind : Kind} {thread : Thread}
  {doing : Doing} {initialized : Bool} {raised : Option Failure}

/-! ### Each call is pending, or it was queued or run once -/

structure Ledger (pending : Nat → Option Deferred) (passed ordered : List Deferred) :
    Prop where
  waiting : ∀ t, ∀ call ∈ pending t, call ∈ passed ∧ call ∉ ordered
  alone : ∀ t t', ∀ call ∈ pending t, call ∈ pending t' → t = t'
  settled : ∀ call ∈ passed, call ∈ ordered ∨ ∃ t, call ∈ pending t
  nodup : ordered.Nodup
  subset : ordered ⊆ passed
  fresh : ∀ call ∈ passed, call.id < passed.length

section
variable {pending : Nat → Option Deferred} {passed ordered : List Deferred}

theorem Ledger.pass (ledger : Ledger pending passed ordered) (idle : pending t = none) :
    Ledger (Function.update pending t (some ⟨kind, passed.length⟩))
      (passed ++ [⟨kind, passed.length⟩]) ordered := by
  have new : (⟨kind, passed.length⟩ : Deferred) ∉ passed := fun member =>
    Nat.lt_irrefl _ (ledger.fresh _ member)
  refine ⟨?_, ?_, ?_, ledger.nodup, ?_, ?_⟩
  · intro t' call waits
    rw [Function.update_apply] at waits
    split at waits
    · obtain rfl := Option.some.inj waits
      exact ⟨by simp, fun member => new (ledger.subset member)⟩
    · have known := ledger.waiting t' call waits
      exact ⟨List.mem_append_left _ known.1, known.2⟩
  · intro t₁ t₂ call waits waits'
    rw [Option.mem_def, Function.update_apply] at waits waits'
    split at waits <;> split at waits'
    · next first second => exact first.trans second.symm
    · obtain rfl := Option.some.inj waits
      exact absurd (ledger.waiting t₂ _ waits').1 new
    · obtain rfl := Option.some.inj waits'
      exact absurd (ledger.waiting t₁ _ waits).1 new
    · exact ledger.alone t₁ t₂ call waits waits'
  · intro call member
    rcases List.mem_append.mp member with before | last
    · rcases ledger.settled call before with done | ⟨t', waits⟩
      · exact Or.inl done
      · have other : t' ≠ t := by
          rintro rfl
          simp [idle] at waits
        exact Or.inr ⟨t', by rwa [Function.update_of_ne other]⟩
    · rw [List.mem_singleton.mp last]
      exact Or.inr ⟨t, by simp⟩
  · exact fun call member => List.mem_append_left _ (ledger.subset member)
  · intro call member
    rw [List.length_append, List.length_singleton]
    rcases List.mem_append.mp member with before | last
    · exact Nat.lt_succ_of_lt (ledger.fresh call before)
    · rw [List.mem_singleton.mp last]
      exact Nat.lt_succ_self _

theorem Ledger.order (ledger : Ledger pending passed ordered)
    (waits : pending t = some call) :
    Ledger (Function.update pending t none) passed (ordered ++ [call]) := by
  have known := ledger.waiting t call waits
  have others (t' : Nat) (call' : Deferred) (member : call' ∈ Function.update pending t none t') :
      t' ≠ t ∧ call' ∈ pending t' := by
    rw [Function.update_apply] at member
    split at member
    · simp at member
    · next other => exact ⟨other, member⟩
  refine ⟨?_, ?_, ?_, ?_, ?_, ledger.fresh⟩
  · intro t' call' member
    obtain ⟨other, member⟩ := others t' call' member
    refine ⟨(ledger.waiting t' call' member).1, fun found => ?_⟩
    rcases List.mem_append.mp found with before | last
    · exact (ledger.waiting t' call' member).2 before
    · rw [List.mem_singleton.mp last] at member
      exact other (ledger.alone t' t call member waits)
  · intro t₁ t₂ call' first second
    exact ledger.alone t₁ t₂ call' (others t₁ call' first).2 (others t₂ call' second).2
  · intro call' member
    rcases ledger.settled call' member with done | ⟨t', pends⟩
    · exact Or.inl (List.mem_append_left _ done)
    · by_cases same : t' = t
      · rw [same, waits] at pends
        exact Or.inl (by simp [Option.some.inj pends])
      · exact Or.inr ⟨t', by rwa [Function.update_of_ne same]⟩
  · rw [← List.concat_eq_append]
    exact ledger.nodup.concat known.2
  · intro call' member
    rcases List.mem_append.mp member with before | last
    · exact ledger.subset before
    · rw [List.mem_singleton.mp last]
      exact known.1

end

def State.Accounted (s : State) : Prop :=
  Ledger (fun t => (s.threads t).doing.pending) s.passed s.ordered

theorem pending_put (s : State) (t : Nat) (thread : Thread) :
    (fun t' => ((s.put t thread).threads t').doing.pending) =
      Function.update (fun t' => (s.threads t').doing.pending) t thread.doing.pending := by
  funext t'
  rw [put_threads, Function.update_apply]
  split <;> rfl

theorem State.Accounted.put_same (accounted : s.Accounted)
    (same : thread.doing.pending = (s.threads t).doing.pending) : (s.put t thread).Accounted := by
  unfold State.Accounted
  rw [pending_put, same, Function.update_eq_self]
  exact accounted

theorem State.Accounted.put_ordered (accounted : s.Accounted)
    (waits : (s.threads t).doing.pending = some call) (after : thread.doing.pending = none)
    (put : s'.threads = (s.put t thread).threads) (passed : s'.passed = s.passed)
    (ordered : s'.ordered = s.ordered ++ [call]) : s'.Accounted := by
  unfold State.Accounted
  rw [put, pending_put, after, passed, ordered]
  exact Ledger.order accounted waits

/-- The statements at which the thread has no call that waits. -/
theorem accounted_idle (accounted : s.Accounted) (idle : (s.threads t).doing.pending = none) :
    (proceed s t).Accounted := by
  have same := idle.symm
  unfold LazyInit.proceed
  cases here : (s.threads t).doing with
  | code => exact accounted
  | check | append => simp [here, Doing.pending] at idle
  | enter =>
    simp only
    split
    · exact State.Accounted.put_same (s := { s with returned := true }) accounted same
    · split
      · exact accounted.put_same same
      · exact accounted.put_same same
  | acquire =>
    exact State.Accounted.put_same (s := { s with initializationLock := some t }) accounted same
  | inner =>
    refine accounted.put_same (Eq.trans ?_ same)
    simp only
    split <;> rfl
  | start | getCalls => exact accounted.put_same same
  | seeds rest =>
    cases rest with
    | nil => exact accounted.put_same same
    | cons call rest =>
      exact State.Accounted.put_same (s := { s with queuedCalls := _ }) accounted same
  | drain next =>
    simp only
    split
    · next call _ => exact State.Accounted.put_same (s := s.execute call) accounted same
    · exact accounted.put_same same
  | finish raised => cases raised <;> exact accounted.put_same same
  | set => exact State.Accounted.put_same (s := { s with initialized := true }) accounted same
  | leave raised =>
    exact State.Accounted.put_same (s := { s with initializationLock := none }) accounted same

theorem accounted_proceed (accounted : s.Accounted) : (proceed s t).Accounted := by
  cases here : (s.threads t).doing with
  | check call =>
    have waits : (s.threads t).doing.pending = some call := congrArg Doing.pending here
    unfold LazyInit.proceed
    simp only [here]
    split
    · exact accounted.put_ordered waits rfl rfl rfl rfl
    · exact accounted.put_same waits.symm
  | append call =>
    have waits : (s.threads t).doing.pending = some call := congrArg Doing.pending here
    unfold LazyInit.proceed
    simp only [here, State.enqueue]
    split
    · exact accounted.put_ordered waits rfl rfl rfl rfl
    · exact accounted.put_ordered waits rfl rfl rfl rfl
  | _ => exact accounted_idle accounted (by rw [here]; rfl)

theorem accounted_next (accounted : s.Accounted) (enabled : Enabled s a) :
    (next s a).Accounted := by
  obtain ⟨t, move⟩ := a
  cases move with
  | lazyCall kind =>
    have here : (s.threads t).doing = .code := enabled
    have idle : (s.threads t).doing.pending = none := congrArg Doing.pending here
    unfold State.Accounted
    simp only [next, State.goTo]
    rw [pending_put]
    exact Ledger.pass accounted idle
  | lazyInit =>
    have here : (s.threads t).doing = .code := enabled
    exact accounted.put_same (congrArg Doing.pending here).symm
  | proceed => exact accounted_proceed accounted
  | fail =>
    have here : (s.threads t).doing = .start := enabled
    exact accounted.put_same (congrArg Doing.pending here).symm
  | bodyReturns =>
    have here : (s.threads t).doing = .code := enabled.1
    have idle : (s.threads t).doing.pending = none := congrArg Doing.pending here
    simp only [next]
    split
    · exact accounted
    · exact State.Accounted.put_same (s := { s with succeeded := _ }) accounted rfl
    · exact State.Accounted.put_same (s := { s with succeeded := _ }) accounted idle.symm
  | bodyRaises =>
    have here : (s.threads t).doing = .code := enabled.1
    have idle : (s.threads t).doing.pending = none := congrArg Doing.pending here
    simp only [next]
    split
    · exact accounted
    · exact accounted.put_same rfl
    · exact accounted.put_same idle.symm

/-! ### No call is run again -/

structure Ran (s : State) : Prop where
  bodies : ∀ t, ∀ body ∈ (s.threads t).bodies, body.call ∈ s.executed
  succeeded : s.succeeded ⊆ s.executed
  repeated : s.repeated = []

theorem Ran.put (ran : Ran s) (bodies : ∀ body ∈ thread.bodies, body.call ∈ s.executed) :
    Ran (s.put t thread) := by
  refine ⟨fun t' => ?_, ran.succeeded, ran.repeated⟩
  rw [put_threads]
  split
  · exact bodies
  · exact ran.bodies t'

theorem Ran.execute (ran : Ran s) (fresh : call ∉ s.executed) : Ran (s.execute call) := by
  have unfinished : call ∉ s.succeeded := fun done => fresh (ran.succeeded done)
  refine ⟨fun t body member => List.mem_append_left _ (ran.bodies t body member),
    fun call done => List.mem_append_left _ (ran.succeeded done), ?_⟩
  simp only [State.execute, if_neg unfinished, ran.repeated]

/-- The callable that a thread starts is one that runs. -/
theorem Ran.start (body : Body) (ran : Ran s)
    (fresh : body.call ∉ s.executed) (bodies : thread.bodies = body :: (s.threads t).bodies) :
    Ran ((s.execute body.call).put t thread) := by
  refine (ran.execute fresh).put fun body' member => ?_
  rw [bodies] at member
  rcases List.mem_cons.mp member with rfl | before
  · exact List.mem_append_right _ (List.mem_singleton_self _)
  · exact (ran.execute fresh).bodies t body' before

theorem Ran.raises {body : Body} {rest : List Body} (ran : Ran s)
    (bodies : (s.threads t).bodies = body :: rest) (after : thread.bodies = rest) :
    Ran (s.put t thread) := by
  have before := ran.bodies t
  rw [bodies, List.forall_mem_cons] at before
  exact ran.put (after ▸ before.2)

theorem Ran.returns {body : Body} {rest : List Body} (ran : Ran s)
    (bodies : (s.threads t).bodies = body :: rest) (after : thread.bodies = rest) :
    Ran ({ s with succeeded := s.succeeded ++ [body.call] }.put t thread) := by
  have started : body.call ∈ s.executed := ran.bodies t body (by simp [bodies])
  have returned : Ran { s with succeeded := s.succeeded ++ [body.call] } :=
    ⟨ran.bodies, List.append_subset.mpr ⟨ran.succeeded, by simpa using started⟩, ran.repeated⟩
  exact returned.raises bodies after

theorem ran_proceed (ran : Ran s) (control : Control s) (kept : s.books.Kept)
    (accounted : s.Accounted) : Ran (proceed s t) := by
  have tidy := control.tidy t
  have bodies := ran.bodies t
  unfold LazyInit.proceed
  cases here : (s.threads t).doing with
  | code => exact ran
  | check call =>
    have fresh : call ∉ s.executed := fun member =>
      (accounted.waiting t call (congrArg Doing.pending here)).2 (kept.executed_subset member)
    simp only
    split
    · have started : Ran ((s.execute call).put t { s.threads t with
          doing := .code, bodies := .immediate call :: (s.threads t).bodies }) :=
        .start (.immediate call) ran fresh rfl
      exact ⟨started.bodies, started.succeeded, started.repeated⟩
    · exact ran.put bodies
  | append call =>
    simp only [State.enqueue]
    split
    · exact Ran.put (s := { s with queuedCalls := _, ordered := _ })
        ⟨ran.bodies, ran.succeeded, ran.repeated⟩ bodies
    · exact Ran.put (s := { s with lazySeedTracker := _, ordered := _ })
        ⟨ran.bodies, ran.succeeded, ran.repeated⟩ bodies
  | enter =>
    simp only
    split
    · exact Ran.put (s := { s with returned := true })
        ⟨ran.bodies, ran.succeeded, ran.repeated⟩ bodies
    · split
      · exact ran.put bodies
      · exact ran.put bodies
  | acquire =>
    exact Ran.put (s := { s with initializationLock := some t })
      ⟨ran.bodies, ran.succeeded, ran.repeated⟩ bodies
  | inner | start | getCalls | finish => exact ran.put bodies
  | seeds rest =>
    cases rest with
    | nil => exact ran.put bodies
    | cons call rest =>
      exact Ran.put (s := { s with queuedCalls := _ })
        ⟨ran.bodies, ran.succeeded, ran.repeated⟩ bodies
  | drain next =>
    simp only [Thread.Tidy, here] at tidy
    have before : s.books.phase = some (.draining next) :=
      books_of_holder (t := t) (control.lock (by simp [here, Doing.Critical]))
        (by simp only [Thread.phase, here])
    simp only
    split
    · next call found =>
      exact .start (.queued (next + 1) call) ran
        (kept.next_fresh tidy.2.2 before found accounted.nodup) rfl
    · exact ran.put bodies
  | set =>
    exact Ran.put (s := { s with initialized := true })
      ⟨ran.bodies, ran.succeeded, ran.repeated⟩ bodies
  | leave raised =>
    exact Ran.put (s := { s with initializationLock := none, returned := _, failures := _ })
      ⟨ran.bodies, ran.succeeded, ran.repeated⟩ bodies

theorem ran_next (ran : Ran s) (control : Control s) (kept : s.books.Kept)
    (accounted : s.Accounted) : Ran (next s a) := by
  obtain ⟨t, move⟩ := a
  cases move with
  | lazyCall kind =>
    exact Ran.put (s := { s with passed := _ }) ⟨ran.bodies, ran.succeeded, ran.repeated⟩
      (ran.bodies t)
  | lazyInit => exact ran.put (ran.bodies t)
  | proceed => exact ran_proceed ran control kept accounted
  | fail => exact ran.put (ran.bodies t)
  | bodyReturns =>
    simp only [next]
    split
    · exact ran
    · next bodies => exact ran.returns bodies rfl
    · next bodies => exact ran.returns bodies rfl
  | bodyRaises =>
    simp only [next]
    split
    · exact ran
    · next bodies => exact ran.raises bodies rfl
    · next bodies => exact ran.raises bodies rfl

/-! ### Timely runs -/

structure Sound (s : State) : Prop where
  control : Control s
  kept : s.books.Kept
  accounted : s.Accounted
  ran : Ran s

theorem sound_initial : Sound initial where
  control := ⟨fun _ holds =>
      (by simp [initial, Thread.Holds, Doing.Critical, Thread.queued] at holds),
    fun _ => Or.inl rfl, fun returned => by simp [initial] at returned, by simp [initial]⟩
  kept := Books.kept_of_early rfl ⟨rfl, rfl, rfl, rfl⟩
  accounted := ⟨by simp [initial, Doing.pending], by simp [initial, Doing.pending],
    by simp [initial], List.nodup_nil, List.Subset.refl _, by simp [initial]⟩
  ran := ⟨by simp [initial], List.Subset.refl _, rfl⟩

theorem sound_step (sound : Sound s) (taken : Meeting Timely step s a s') : Sound s' := by
  obtain ⟨timely, enabled, rfl⟩ := taken
  obtain ⟨control, kept, accounted, ran⟩ := sound
  exact ⟨control_next control timely enabled, kept_next kept control timely enabled,
    accounted_next accounted enabled, ran_next ran control kept accounted⟩

theorem sound_of_reaches (run : Reaches (Meeting Timely step) initial s) : Sound s :=
  run.invariant sound_step sound_initial

/-- Two elements in the order of a list without repetitions are in that order in a part of it. -/
theorem pair_sublist {x y : Deferred} {part whole : List Deferred} (inside : part.Sublist whole)
    (distinct : whole.Nodup) (first : x ∈ part) (second : y ∈ part)
    (order : [x, y].Sublist whole) : [x, y].Sublist part := by
  have same : whole.filter (· ∈ part) = part := by
    have shorter : part.Sublist (whole.filter (· ∈ part)) := by
      have kept := inside.filter (· ∈ part)
      rwa [List.filter_eq_self.mpr fun z member => by simpa using member] at kept
    have bound : (whole.filter (· ∈ part)).length ≤ part.length :=
      ((distinct.filter _).subperm fun z member => by simpa using (List.mem_filter.mp member).2
        ).length_le
    exact (shorter.eq_of_length_le bound).symm
  have kept := order.filter (· ∈ part)
  rw [same, List.filter_eq_self.mpr (by simp [first, second])] at kept
  exact kept

theorem law_of_sound (sound : Sound s) : Law s := by
  obtain ⟨control, kept, accounted, ran⟩ := sound
  refine ⟨?_, ?_, ?_, ?_, ran.repeated⟩
  · rintro ⟨returned, idle⟩ call passed kind
    have done := control.returned returned
    have ordered : call ∈ s.ordered := by
      rcases accounted.settled call passed with ordered | ⟨t, waits⟩
      · exact ordered
      · simp [idle t] at waits
    exact List.count_eq_one_of_mem (kept.executed_nodup done accounted.nodup)
      (kept.executed_of_plain done ordered kind)
  · rintro ⟨returned, _⟩ kind seed call last
    exact (kept.recent_executed (control.returned returned)).subset (mem_recent seed last)
  · rintro ⟨returned, _⟩ kind seed call last kind' seed' call' last' order
    have recent := pair_sublist (recent_sublist s.ordered) accounted.nodup (mem_recent seed last)
      (mem_recent seed' last') order
    exact recent.trans (kept.recent_executed (control.returned returned))
  · intro failure member other
    exact absurd (control.failures failure member) other

theorem law_of_timely (run : Reaches (Meeting Timely step) initial s) : Law s :=
  law_of_sound (sound_of_reaches run)

/-! ### Given runs -/

theorem proceed_other (other : t' ≠ t) : (proceed s t).threads t' = s.threads t' := by
  unfold LazyInit.proceed
  cases (s.threads t).doing with
  | seeds rest => cases rest <;> simp [State.goTo, other]
  | drain next =>
    simp only
    split <;> simp [State.goTo, State.runQueued, State.execute, other]
  | check | enter =>
    simp only [State.goTo, State.runNow, State.execute]
    repeat' split
    all_goals simp [other]
  | _ => simp [State.goTo, other]

/-- A step of one thread leaves the others where they are. -/
theorem next_other (other : t ≠ a.thread) : (next s a).threads t = s.threads t := by
  obtain ⟨t', move⟩ := a
  cases move with
  | proceed => exact proceed_other other
  | lazyCall | lazyInit | fail => simp [next, State.goTo, other]
  | bodyReturns | bodyRaises =>
    simp only [next]
    split <;> simp [other]

theorem runAll_other {acts : List Action} (other : ∀ a ∈ acts, t ≠ a.thread) :
    (runAll next s acts).threads t = s.threads t := by
  induction acts generalizing s with
  | nil => rfl
  | cons a acts ih =>
    rw [List.forall_mem_cons] at other
    rw [runAll, ih other.2, next_other other.1]

def Doing.Queues : Doing → Bool
  | .append _ => true
  | _ => false

/-- A step at which no call is queued and none raises. -/
def Quiet (s : State) (a : Action) : Prop :=
  Enabled s a ∧ a.move ≠ .bodyRaises ∧ (s.threads a.thread).doing.Queues = false

instance (s : State) (a : Action) : Decidable (Quiet s a) :=
  inferInstanceAs (Decidable (_ ∧ _ ∧ _))

theorem meeting_of_quiet (quiet : Quiet s a) : Meeting Timely step s a (next s a) := by
  obtain ⟨enabled, returns, queues⟩ := quiet
  refine ⟨⟨fun raises => absurd raises returns, fun _ call here => ?_, fun _ call here => ?_⟩,
    enabled, rfl⟩
  · simp [here, Doing.Queues] at queues
  · simp [here, Doing.Queues] at queues

/-- What holds of the only two threads that have made steps, and of one that has made none. -/
theorem forall_threads {P : Thread → Prop} {acts : List Action}
    (two : ∀ a ∈ acts, a.thread = 0 ∨ a.thread = 1)
    (first : P ((runAll next initial acts).threads 0))
    (second : P ((runAll next initial acts).threads 1)) (idle : P (initial.threads t)) :
    P ((runAll next initial acts).threads t) := by
  by_cases zero : t = 0
  · exact zero ▸ first
  by_cases one : t = 1
  · exact one ▸ second
  rw [runAll_other fun a member same => (two a member).elim (fun own => zero (same.trans own))
    fun own => one (same.trans own)]
  exact idle

/-- Neither of two threads has asked for the seed calls. -/
theorem not_collected {acts : List Action} (two : ∀ a ∈ acts, a.thread = 0 ∨ a.thread = 1)
    (early : (runAll next initial acts).initialized = false)
    (first : ((runAll next initial acts).threads 0).phase = none)
    (second : ((runAll next initial acts).threads 1).phase = none) :
    ¬ (runAll next initial acts).Collected := by
  rintro (done | ⟨t, collects⟩)
  · exact absurd (early.symm.trans done) (by decide)
  · exact collects (forall_threads (P := fun thread => thread.phase = none) two first second rfl)

theorem meeting_of_not_collected (enabled : Enabled s a) (returns : a.move ≠ .bodyRaises)
    (early : ¬ s.Collected) : Meeting Timely step s a (next s a) := by
  refine ⟨⟨fun raises => absurd raises returns, fun _ _ _ _ drained => early ?_,
    fun _ _ _ _ => early⟩, enabled, rfl⟩
  exact drained.imp_right fun ⟨t, ended⟩ => ⟨t, by simp [ended]⟩

/-- Two threads pass a call and a seed call at the same time, and the seed call is queued first. -/
def passing : List Action :=
  [⟨0, .lazyCall .plain⟩, ⟨1, .lazyCall .seed⟩, ⟨0, .proceed⟩, ⟨1, .proceed⟩]

/-- Both initialise the device then, and the second one waits for the lock. -/
def initialising : List Action :=
  [⟨0, .lazyInit⟩, ⟨1, .lazyInit⟩, ⟨0, .proceed⟩, ⟨1, .proceed⟩] ++
    List.replicate 6 ⟨0, .proceed⟩ ++ [⟨0, .proceed⟩, ⟨0, .bodyReturns⟩] ++
    [⟨0, .proceed⟩, ⟨0, .bodyReturns⟩] ++ List.replicate 4 ⟨0, .proceed⟩ ++
    List.replicate 3 ⟨1, .proceed⟩

def initialised : State :=
  runAll next initial (passing ++ [⟨1, .proceed⟩, ⟨0, .proceed⟩] ++ initialising)

theorem law_of_timely_two : Law initialised ∧ initialised.Settled ∧
    initialised.executed = [⟨.plain, 0⟩, ⟨.seed, 1⟩] := by
  have passed : Reaches (Meeting Timely step) initial (runAll next initial passing) :=
    Allowed.reaches (fun _ _ => meeting_of_quiet) (by decide)
  have early : ¬ (runAll next initial passing).Collected :=
    not_collected (by decide) (by decide) (by decide) (by decide)
  have later : ¬ (runAll next initial (passing ++ [⟨1, .proceed⟩])).Collected :=
    not_collected (by decide) (by decide) (by decide) (by decide)
  have seeded : Reaches (Meeting Timely step) initial
      (runAll next initial (passing ++ [⟨1, .proceed⟩])) :=
    passed.next (meeting_of_not_collected (a := ⟨1, .proceed⟩) (by decide) (by decide) early)
  have queued : Reaches (Meeting Timely step) initial
      (runAll next initial (passing ++ [⟨1, .proceed⟩, ⟨0, .proceed⟩])) :=
    seeded.next (meeting_of_not_collected (a := ⟨0, .proceed⟩) (by decide) (by decide) later)
  have run : Reaches (Meeting Timely step) initial initialised := by
    rw [initialised, runAll_append]
    exact queued.trans (Allowed.reaches (fun _ _ => meeting_of_quiet) (by decide))
  refine ⟨law_of_timely run, ⟨by decide, fun t => ?_⟩, by decide⟩
  exact forall_threads (P := fun thread => thread.doing.pending = none) (by decide) (by decide)
    (by decide) rfl

/-- A call that tests the flag before another thread initialises the device is queued when the queue
has been run. -/
def lateCall : List Action :=
  [⟨1, .lazyCall .plain⟩, ⟨1, .proceed⟩, ⟨0, .lazyInit⟩] ++ List.replicate 10 ⟨0, .proceed⟩ ++
    [⟨1, .proceed⟩]

theorem not_law : ¬ ∀ s, Reaches step initial s → Law s := by
  intro law
  have run : Reaches step initial (runAll next initial lateCall) :=
    Allowed.reaches (fun _ _ enabled => ⟨enabled, rfl⟩) (by decide)
  have settled : (runAll next initial lateCall).Settled := by
    refine ⟨by decide, fun t => ?_⟩
    exact forall_threads (P := fun thread => thread.doing.pending = none) (by decide) (by decide)
      (by decide) rfl
  have once := (law _ run).plain settled ⟨.plain, 0⟩ (by decide) rfl
  exact absurd once (by decide)

end TorchGcu.LazyInit

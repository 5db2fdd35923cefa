import Mathlib.Data.List.Nodup
import TorchGcu.HostCallbacks.Worker

/-! The records of callbacks: who may still use one, when one is deleted, and what a call of
`enqueueCallback` can rely on when it returns. -/
namespace TorchGcu.PythonCallbackWorker
open ProgramLogic
open Function (update_apply update_self update_of_ne)

/-- The entry in the worker's hands. -/
def WorkerPhase.held : WorkerPhase → List Entry
  | .executing entry | .completing entry => [entry]
  | _ => []

/-- The entries that are not served yet, the first to be served first. -/
def Worker.entries (s : Worker) : List Entry := s.phase.held ++ s.callbackQueue

/-- A record that a call in progress, the worker or one of the queues may still use. -/
def Worker.Used (s : Worker) (d : DataId) : Prop :=
  (∃ c phase, s.calls c = some ⟨d, phase⟩) ∨ d ∈ s.entries.map Entry.data ∨
    s.phase = .notifying d ∨ d ∈ s.cachedCallbackQueue

/-- A call that has pushed its entry, and can come to return: the worker has still to serve the
entry and has not exited, or the record is completed. -/
def Worker.Served (s : Worker) (c : CallId) (d : DataId) : Prop :=
  (⟨c, d⟩ ∈ s.entries ∧ s.phase ≠ .exited) ∨ (s.data d).completed = true

/-- What is promised of the records and of the calls. -/
structure Sound (s : Worker) : Prop where
  once : ∀ d, (s.data d).deleted ≤ 1
  unused : ∀ d, s.Used d → (s.data d).deleted = 0
  returned : ∀ r ∈ s.returned, r.executed = true ∨ r.stopped = true
  served : ∀ c d, s.calls c = some ⟨d, .waiting⟩ → s.Served c d
  cachedOnce : s.cachings.Nodup

/-- The condition on the steps: a call begins on a record that was not deleted and that no other
call is on, it pushes its entry before the worker exits, the worker executes a callback while the
interpreter is there or the worker was told to stop, and the cache is cleared while no call is on a
cached record. -/
def Orderly (s : Worker) : Action → Prop
  | .enqueueBegin d => (s.data d).deleted = 0 ∧ ∀ c phase, s.calls c ≠ some ⟨d, phase⟩
  | .enqueuePush _ => s.phase ≠ .exited
  | .execute alive => alive = true ∨ s.shouldStop = true
  | .stopClear _ => ∀ c d phase, s.calls c = some ⟨d, phase⟩ → d ∉ s.cachedCallbackQueue
  | _ => True

/-! ### What every step keeps -/

/-- A callback that was executed, or that need not be. -/
def Worker.Done (s : Worker) (c : CallId) : Prop := c ∈ s.executed ∨ s.shouldStop = true

/-- Each call is on a record of its own. -/
structure Calls (s : Worker) : Prop where
  fresh : ∀ {c call}, s.calls c = some call → c < s.nextCall
  alone : ∀ {c c' d phase phase'}, s.calls c = some ⟨d, phase⟩ → s.calls c' = some ⟨d, phase'⟩ →
    c = c'
  born : ∀ {c d phase}, s.calls c = some ⟨d, phase⟩ → d < s.nextData ∧ (s.data d).deleted = 0

/-- An entry belongs to a waiting call, which the worker has not completed. A call without an
entry has been served. -/
structure Entries (s : Worker) : Prop where
  distinct : (s.entries.map Entry.call).Nodup
  waiting : ∀ {entry}, entry ∈ s.entries →
    s.calls entry.call = some ⟨entry.data, .waiting⟩ ∧ (s.data entry.data).completed = false
  reset : ∀ {c d}, s.calls c = some ⟨d, .enqueuing⟩ → (s.data d).completed = false
  executed : ∀ {entry}, s.phase = .completing entry → s.Done entry.call
  done : ∀ {c d phase}, s.calls c = some ⟨d, phase⟩ → phase ≠ .enqueuing →
    ⟨c, d⟩ ∈ s.entries ∨ (s.Done c ∧ (s.data d).completed = true)
  valid : ∀ {d}, (s.data d).isValid = false → s.shouldStop = true
  returned : ∀ {r}, r ∈ s.returned → r.executed = true ∨ r.stopped = true

/-- A record is put in the cache once, by the call that claimed its place. -/
structure Cache (s : Worker) : Prop where
  nodup : s.cachedCallbackQueue.Nodup
  once : s.cachings.Nodup
  subset : ∀ {d}, d ∈ s.cachedCallbackQueue → d ∈ s.cachings ∧ (s.data d).deleted = 0
  claimed : ∀ {d}, d ∈ s.cachings → (s.data d).cached = true ∧ d < s.nextData
  claiming : ∀ {c d}, s.calls c = some ⟨d, .caching⟩ → d ∉ s.cachings ∧ (s.data d).cached = true

/-- Records are deleted by a failed launch and after the worker has exited, when nothing is
queued any more. -/
structure Stopping (s : Worker) : Prop where
  exited : s.phase = .exited → s.callbackQueue = []
  joined : s.stop = .draining ∨ s.stop = .clearing ∨ s.stop = .stopped → s.phase = .exited
  told : s.stop ≠ .notCalled → s.shouldStop = true
  once : ∀ {d}, (s.data d).deleted ≤ 1
  notifying : ∀ {d}, s.phase = .notifying d → (s.data d).deleted = 0 ∧ d < s.nextData
  launched : ∀ {d}, (s.data d).launched = true → d < s.nextData

structure Inv (s : Worker) : Prop where
  calls : Calls s
  entries : Entries s
  cache : Cache s
  stopping : Stopping s

variable {s t : Worker} {a : Action}

/-- Deletion of a list of records changes the records of the list. -/
theorem delete_eq (alive : DataId → Bool) (s : Worker) (ds : List DataId) :
    ds.foldl (Worker.deletePythonData alive) s = { s with data := fun d =>
      { s.data d with
        isValid := (s.data d).isValid && decide (d ∉ ds)
        deleted := (s.data d).deleted + if alive d then ds.count d else 0 } } := by
  induction ds generalizing s with
  | nil => simp
  | cons first ds ih =>
    simp only [List.foldl_cons, ih, Worker.deletePythonData, Worker.modifyData, Worker.mk.injEq,
      and_true]
    funext d
    by_cases same : d = first
    · subst same
      by_cases deleted : alive d = true
      · simp [deleted]
        omega
      · simp [deleted]
    · have other : first ≠ d := fun eq => same eq.symm
      simp [same, List.count_cons_of_ne other]

/-- Once the worker can be joined nothing is queued. -/
theorem Stopping.drained (stopping : Stopping s) (joined : s.stop = .draining) :
    s.callbackQueue = [] :=
  stopping.exited (stopping.joined (.inl joined))

theorem Stopping.drain_eq (stopping : Stopping s) (joined : s.stop = .draining)
    (alive : DataId → Bool) : s.stopDrain alive = { s with stop := .clearing } := by
  have empty := stopping.drained joined
  simp [Worker.stopDrain, empty]

/-! ### What a step can do -/

/-- A change of one record is no change of what it leaves alone. -/
theorem modifyData_keeps {β : Type} (get : CallbackData → β) {f : CallbackData → CallbackData}
    {changed : DataId} (same : get (f (s.data changed)) = get (s.data changed)) (d : DataId) :
    get ((s.modifyData changed f).data d) = get (s.data d) := by
  simp only [Worker.modifyData, update_apply]
  split
  · next here => exact here ▸ same
  · rfl

theorem setCall_cases {c c' : CallId} {new : Option Call} {call : Call}
    (found : (s.setCall c new).calls c' = some call) :
    (c' = c ∧ new = some call) ∨ (c' ≠ c ∧ s.calls c' = some call) := by
  simp only [Worker.setCall, update_apply] at found
  split at found
  · next here => exact .inl ⟨here, found⟩
  · next other => exact .inr ⟨other, found⟩

/-- A call goes on with its record, or leaves; only its begin makes a new one. -/
theorem Step.calls_cases (step : Step s a t) {c : CallId} {call : Call}
    (found : t.calls c = some call) : (∃ phase, s.calls c = some ⟨call.data, phase⟩) ∨
      (a = .enqueueBegin call.data ∧ c = s.nextCall ∧ t.nextCall = s.nextCall + 1 ∧
        (s.data call.data).launched = true) := by
  -- the call of the step has a record, and that of another call is untouched
  have moved {c' : CallId} {d : DataId} {phase : CallPhase} {new : Option Call}
      (before : s.calls c' = some ⟨d, phase⟩) (keeps : ∀ call, new = some call → call.data = d)
      (found : (s.setCall c' new).calls c = some call) :
      ∃ phase, s.calls c = some ⟨call.data, phase⟩ := by
    rcases setCall_cases found with ⟨rfl, rfl⟩ | ⟨_, old⟩
    · exact ⟨phase, keeps call rfl ▸ before⟩
    · exact ⟨call.phase, old⟩
  cases step with
  | enqueueBegin launched =>
    rcases setCall_cases found with ⟨rfl, begun⟩ | ⟨_, old⟩
    · cases begun
      exact .inr ⟨rfl, rfl, rfl, launched⟩
    · exact .inl ⟨call.phase, old⟩
  | enqueuePush before => exact .inl (moved before (fun _ new => by cases new; rfl) found)
  | enqueueWake before => exact .inl (moved before (fun _ new => by cases new; rfl) found)
  | @enqueueClaim c' d before =>
    unfold Worker.enqueueClaim at found
    split at found
    · exact .inl (moved before (fun _ new => by cases new) found)
    · exact .inl (moved before (fun _ new => by cases new; rfl) found)
  | enqueueCache before => exact .inl (moved before (fun _ new => by cases new) found)
  | stopDrain joined alive =>
    simp only [Worker.stopDrain, delete_eq] at found
    exact .inl ⟨call.phase, found⟩
  | stopClear drained alive =>
    simp only [Worker.stopClear, delete_eq] at found
    exact .inl ⟨call.phase, found⟩
  | _ => exact .inl ⟨call.phase, found⟩

theorem Step.next_le (step : Step s a t) : s.nextCall ≤ t.nextCall ∧ s.nextData ≤ t.nextData := by
  cases step with
  | launch fails => exact ⟨Nat.le_refl _, Nat.le_succ _⟩
  | enqueueBegin launched => exact ⟨Nat.le_succ _, Nat.le_refl _⟩
  | enqueueClaim found =>
    unfold Worker.enqueueClaim
    split <;> exact ⟨Nat.le_refl _, Nat.le_refl _⟩
  | stopDrain joined alive =>
    simp only [Worker.stopDrain, delete_eq]
    exact ⟨Nat.le_refl _, Nat.le_refl _⟩
  | stopClear drained alive =>
    simp only [Worker.stopClear, delete_eq]
    exact ⟨Nat.le_refl _, Nat.le_refl _⟩
  | _ => exact ⟨Nat.le_refl _, Nat.le_refl _⟩

/-- What a step does to a record that there is: only clearing the cache deletes it, and it stays
cached. -/
theorem Step.record (stopping : Stopping s) (step : Step s a t) {d : DataId} (there : d < s.nextData) :
    ((∀ alive, a = .stopClear alive → d ∉ s.cachedCallbackQueue) →
      (t.data d).deleted = (s.data d).deleted) ∧
    ((s.data d).cached = true → (t.data d).cached = true) := by
  cases step with
  | launch fails =>
    have other : d ≠ s.nextData := Nat.ne_of_lt there
    have same : (s.launchHostFunc fails).data d = s.data d := update_of_ne other _ _
    exact ⟨fun _ => congrArg _ same, (congrArg _ same).trans⟩
  | @enqueueBegin begun launched =>
    have same := @modifyData_keeps s _ (fun record => (record.deleted, record.cached))
      (fun record => { record with completed := false }) begun rfl d
    exact ⟨fun _ => congrArg Prod.fst same, (congrArg Prod.snd same).trans⟩
  | @enqueueClaim c d' found =>
    unfold Worker.enqueueClaim
    split
    · exact ⟨fun _ => rfl, id⟩
    · refine ⟨fun _ => @modifyData_keeps s _ CallbackData.deleted
        (fun record => { record with cached := true }) d' rfl d, fun cached => ?_⟩
      simp only [Worker.setCall, Worker.modifyData, update_apply]
      split
      · rfl
      · exact cached
  | @complete entry executed =>
    have same := @modifyData_keeps s _ (fun record => (record.deleted, record.cached))
      (fun record => { record with completed := true }) entry.data rfl d
    exact ⟨fun _ => congrArg Prod.fst same, (congrArg Prod.snd same).trans⟩
  | stopBegin joinable =>
    simp only [Worker.stopBegin]
    split <;> exact ⟨fun _ => rfl, id⟩
  | stopDrain joined alive =>
    rw [stopping.drain_eq joined]
    exact ⟨fun _ => rfl, id⟩
  | stopClear drained alive =>
    simp only [Worker.stopClear, delete_eq]
    refine ⟨fun uncached => ?_, id⟩
    simp [List.count_eq_zero.mpr (uncached alive rfl)]
  | _ => exact ⟨fun _ => rfl, id⟩

theorem Calls.step (inv : Inv s) (orderly : Orderly s a) (step : Step s a t) : Calls t := by
  obtain ⟨⟨fresh, alone, born⟩, entries, cache, stopping⟩ := inv
  have free {c : CallId} {d : DataId} {phase : CallPhase} (begun : a = .enqueueBegin d)
      (before : s.calls c = some ⟨d, phase⟩) : False := by
    subst begun
    exact orderly.2 c phase before
  constructor
  · intro c call found
    rcases step.calls_cases found with ⟨_, before⟩ | ⟨_, rfl, next, _⟩
    · exact Nat.lt_of_lt_of_le (fresh before) step.next_le.1
    · rw [next]
      exact Nat.lt_succ_self _
  · intro c c' d phase phase' found found'
    rcases step.calls_cases found with ⟨_, before⟩ | ⟨begun, rfl, _⟩ <;>
      rcases step.calls_cases found' with ⟨_, before'⟩ | ⟨begun', rfl, _⟩
    · exact alone before before'
    · exact (free begun' before).elim
    · exact (free begun before').elim
    · rfl
  · intro c d phase found
    have uncleared (alive : DataId → Bool) (clears : a = .stopClear alive) :
        d ∉ s.cachedCallbackQueue := by
      rcases step.calls_cases found with ⟨_, before⟩ | ⟨begun, _⟩
      · subst clears
        exact orderly c d _ before
      · exact absurd (begun.symm.trans clears) (by simp)
    have alive : d < s.nextData ∧ (s.data d).deleted = 0 := by
      rcases step.calls_cases found with ⟨_, before⟩ | ⟨begun, _, _, launched⟩
      · exact born before
      · subst begun
        exact ⟨stopping.launched launched, orderly.1⟩
    refine ⟨Nat.lt_of_lt_of_le alive.1 step.next_le.2, ?_⟩
    rw [(step.record stopping alive.1).1 uncleared]
    exact alive.2

/-- A call that has no entry any more moves on, or returns. -/
theorem Entries.moved {c : CallId} {d : DataId} {phase : CallPhase} {new : Option Call}
    (entries : Entries s) (found : s.calls c = some ⟨d, phase⟩) (asked : phase ≠ .enqueuing)
    (gone : ∀ entry ∈ s.entries, entry.call ≠ c) (calls : t.calls = Function.update s.calls c new)
    (moves : ∀ call, new = some call → call.data = d ∧ call.phase ≠ .enqueuing)
    (same : t.entries = s.entries ∧ t.phase = s.phase ∧ t.shouldStop = s.shouldStop ∧
      t.executed = s.executed)
    (data : ∀ d, (t.data d).completed = (s.data d).completed ∧
      (t.data d).isValid = (s.data d).isValid)
    (returned : ∀ r ∈ t.returned, r ∈ s.returned ∨
      (s.Done c → r.executed = true ∨ r.stopped = true)) : Entries t := by
  obtain ⟨sameEntries, samePhase, sameStop, sameExecuted⟩ := same
  have doneSame (c' : CallId) : t.Done c' ↔ s.Done c' := by
    rw [Worker.Done, Worker.Done, sameExecuted, sameStop]
  have finished : s.Done c ∧ (s.data d).completed = true :=
    (entries.done found asked).resolve_left fun member => gone _ member rfl
  have other {c' : CallId} (differs : c' ≠ c) : t.calls c' = s.calls c' := by
    rw [calls, update_of_ne differs]
  have here {call : Call} (at_ : t.calls c = some call) : call.data = d ∧ call.phase ≠ .enqueuing := by
    rw [calls, update_self] at at_
    exact moves call at_
  constructor
  · exact sameEntries ▸ entries.distinct
  · intro entry member
    rw [sameEntries] at member
    rw [other (gone entry member), (data entry.data).1]
    exact entries.waiting member
  · intro c' d' at_
    by_cases same : c' = c
    · subst same
      exact absurd rfl (here at_).2
    · rw [(data d').1]
      exact entries.reset ((other same).symm.trans at_)
  · intro entry completing
    rw [doneSame]
    exact entries.executed (samePhase.symm.trans completing)
  · intro c' d' phase' at_ notEnqueuing
    rw [doneSame, sameEntries, (data d').1]
    by_cases same : c' = c
    · subst same
      obtain rfl : d' = d := (here at_).1
      exact .inr finished
    · exact entries.done ((other same).symm.trans at_) notEnqueuing
  · intro d' invalid
    rw [sameStop]
    exact entries.valid ((data d').2.symm.trans invalid)
  · intro r member
    obtain before | new := returned r member
    · exact entries.returned before
    · exact new finished.1

/-- A call that does not wait has no entry. -/
theorem Entries.gone {c : CallId} {d : DataId} {phase : CallPhase} (entries : Entries s)
    (found : s.calls c = some ⟨d, phase⟩)
    (passed : phase ≠ .waiting ∨ (s.data d).completed = true) :
    ∀ entry ∈ s.entries, entry.call ≠ c := by
  rintro entry member rfl
  obtain ⟨waits, incomplete⟩ := entries.waiting member
  cases found.symm.trans waits
  obtain notWaiting | completed := passed
  · exact notWaiting rfl
  · simp [incomplete] at completed

theorem returned_leave {c : CallId} (r : Return) (member : r ∈ (s.leave c).returned) :
    r ∈ s.returned ∨ (s.Done c → r.executed = true ∨ r.stopped = true) := by
  obtain rfl | before := List.mem_cons.mp member
  · exact .inr fun done => done.imp (fun executed => decide_eq_true executed) id
  · exact .inl before

/-- The worker goes on with the same entries before it. -/
theorem Entries.worked (entries : Entries s) (calls : t.calls = s.calls) (data : t.data = s.data)
    (same : t.entries = s.entries) (stop : t.shouldStop = s.shouldStop)
    (returned : t.returned = s.returned) (grows : ∀ c, c ∈ s.executed → c ∈ t.executed)
    (completing : ∀ entry, t.phase = .completing entry → t.Done entry.call) : Entries t := by
  have kept (c : CallId) (done : s.Done c) : t.Done c :=
    done.imp (grows c) fun told => stop.trans told
  constructor
  · exact same ▸ entries.distinct
  · intro entry member
    rw [calls, data]
    exact entries.waiting (same ▸ member)
  · intro c d found
    rw [data]
    exact entries.reset (calls ▸ found)
  · exact fun {entry} now => completing entry now
  · intro c d phase found asked
    rw [same, data]
    exact (entries.done (calls ▸ found) asked).imp id fun ⟨done, completed⟩ =>
      ⟨kept c done, completed⟩
  · intro d invalid
    rw [stop]
    exact entries.valid (data ▸ invalid)
  · intro r member
    exact entries.returned (returned ▸ member)

theorem Entries.launched (calls : Calls s) (entries : Entries s) (fails : Bool) :
    Entries (s.launchHostFunc fails) := by
  obtain ⟨fresh, alone, born⟩ := calls
  obtain ⟨distinct, waiting, reset, executed, done, valid, returned⟩ := entries
  constructor <;> intros <;>
    simp only [Worker.launchHostFunc, Worker.modifyData, Worker.entries, Worker.Done,
      update_apply] at * <;> grind -ring -linarith

theorem Entries.begun {d : DataId} (calls : Calls s) (entries : Entries s)
    (free : ∀ c phase, s.calls c ≠ some ⟨d, phase⟩) : Entries (s.enqueueBegin d) := by
  obtain ⟨fresh, alone, born⟩ := calls
  obtain ⟨distinct, waiting, reset, executed, done, valid, returned⟩ := entries
  constructor <;> intros <;>
    simp only [Worker.enqueueBegin, Worker.modifyData, Worker.setCall, Worker.entries, Worker.Done,
      update_apply] at * <;> grind -ring -linarith

theorem Entries.pushed {c : CallId} {d : DataId} (entries : Entries s)
    (found : s.calls c = some ⟨d, .enqueuing⟩) : Entries (s.enqueuePush c d) := by
  obtain ⟨distinct, waiting, reset, executed, done, valid, returned⟩ := entries
  constructor <;> intros <;>
    simp only [Worker.enqueuePush, Worker.setCall, Worker.entries, Worker.Done, update_apply,
      List.map_append] at * <;> grind -ring -linarith

theorem Entries.completed {entry : Entry} (calls : Calls s) (entries : Entries s)
    (now : s.phase = .completing entry) : Entries (s.complete entry) := by
  obtain ⟨fresh, alone, born⟩ := calls
  obtain ⟨distinct, waiting, reset, executed, done, valid, returned⟩ := entries
  constructor <;> intros <;>
    simp only [Worker.complete, Worker.modifyData, Worker.entries, Worker.Done, now,
      WorkerPhase.held, update_apply] at * <;> grind -ring -linarith

theorem Entries.stopped (entries : Entries s) : Entries s.stopBegin := by
  obtain ⟨distinct, waiting, reset, executed, done, valid, returned⟩ := entries
  constructor <;> intros <;>
    simp only [Worker.stopBegin, Worker.entries, Worker.Done] at * <;> grind -ring -linarith

theorem Entries.step (inv : Inv s) (orderly : Orderly s a) (step : Step s a t) : Entries t := by
  obtain ⟨calls, whole, cache, stopping⟩ := inv
  cases step with
  | launch fails => exact whole.launched calls fails
  | enqueueBegin _ => exact whole.begun calls orderly.2
  | enqueuePush found => exact whole.pushed found
  | enqueueWake found completed =>
    exact whole.moved found nofun (whole.gone found (.inr completed)) rfl
      (fun call given => by cases given; exact ⟨rfl, nofun⟩) ⟨rfl, rfl, rfl, rfl⟩
      (fun _ => ⟨rfl, rfl⟩) fun _ before => .inl before
  | @enqueueClaim c d found =>
    have gone := whole.gone found (.inl nofun)
    by_cases cached : (s.data d).cached = true
    · simp only [Worker.enqueueClaim, if_pos cached]
      exact whole.moved found nofun gone rfl nofun ⟨rfl, rfl, rfl, rfl⟩ (fun _ => ⟨rfl, rfl⟩)
        returned_leave
    · simp only [Worker.enqueueClaim, if_neg cached]
      refine whole.moved found nofun gone rfl (fun call given => ?_) ⟨rfl, rfl, rfl, rfl⟩
        (fun d' => ?_) fun _ before => .inl before
      · cases given
        exact ⟨rfl, nofun⟩
      · simp only [Worker.modifyData, Worker.setCall, update_apply]
        split
        · next same => exact same ▸ ⟨rfl, rfl⟩
        · exact ⟨rfl, rfl⟩
  | @enqueueCache c d found =>
    exact whole.moved found nofun (whole.gone found (.inl nofun)) rfl nofun ⟨rfl, rfl, rfl, rfl⟩
      (fun _ => ⟨rfl, rfl⟩) returned_leave
  | take idle front =>
    exact whole.worked rfl rfl (by simp [Worker.entries, idle, front, WorkerPhase.held]) rfl rfl
      (fun _ member => member) nofun
  | exit idle told empty =>
    exact whole.worked rfl rfl (by simp [Worker.entries, idle, WorkerPhase.held]) rfl rfl
      (fun _ member => member) nofun
  | @execute entry taken alive =>
    refine whole.worked rfl rfl (by
      simp [Worker.executePythonCallback, Worker.entries, taken, WorkerPhase.held]) rfl rfl
      (fun c member => ?_) fun completing now => ?_
    · simp only [Worker.executePythonCallback]
      split
      · exact List.mem_cons_of_mem _ member
      · exact member
    · cases now
      rcases orderly with rfl | told
      · by_cases runs : (s.data entry.data).isValid = true
        · exact .inl (by simp [Worker.executePythonCallback, runs])
        · exact .inr (whole.valid (by simpa using runs))
      · exact .inr told
  | complete executed => exact whole.completed calls executed
  | notify completed =>
    exact whole.worked rfl rfl (by simp [Worker.entries, completed, WorkerPhase.held]) rfl rfl
      (fun _ member => member) nofun
  | stopBegin joinable => exact whole.stopped
  | stopJoin joining exited =>
    exact whole.worked rfl rfl rfl rfl rfl (fun _ member => member) fun _ => whole.executed
  | stopDrain joined alive =>
    rw [stopping.drain_eq joined]
    exact whole.worked rfl rfl rfl rfl rfl (fun _ member => member) fun _ => whole.executed
  | stopClear drained alive =>
    simp only [Worker.stopClear, delete_eq]
    have told := stopping.told (by simp [drained])
    exact ⟨whole.distinct, whole.waiting, whole.reset, whole.executed, whole.done, fun _ => told,
      whole.returned⟩

/-- What a step does to the cache. -/
theorem Step.cache_cases (step : Step s a t) :
    (t.cachedCallbackQueue = s.cachedCallbackQueue ∧ t.cachings = s.cachings) ∨
      (∃ c d, s.calls c = some ⟨d, .caching⟩ ∧ a = .enqueueCache c ∧
        t.cachedCallbackQueue = s.cachedCallbackQueue ++ [d] ∧ t.cachings = d :: s.cachings) ∨
      (t.cachedCallbackQueue = [] ∧ t.cachings = s.cachings) := by
  cases step with
  | enqueueClaim found =>
    unfold Worker.enqueueClaim
    split <;> exact .inl ⟨rfl, rfl⟩
  | @enqueueCache c d found => exact .inr (.inl ⟨c, d, found, rfl, rfl, rfl⟩)
  | stopDrain joined alive => exact .inl (by simp [Worker.stopDrain, delete_eq])
  | stopClear drained alive => exact .inr (.inr (by simp [Worker.stopClear, delete_eq]))
  | _ => exact .inl ⟨rfl, rfl⟩

theorem Step.clears {alive : DataId → Bool} (step : Step s (.stopClear alive) t) :
    t.cachedCallbackQueue = [] := by
  cases step
  rfl

/-- A call that is about to cache its record was so before, or has just claimed its place. -/
theorem Step.caching_cases (step : Step s a t) {c : CallId} {d : DataId}
    (found : t.calls c = some ⟨d, .caching⟩) :
    (s.calls c = some ⟨d, .caching⟩ ∧ a ≠ .enqueueCache c) ∨
      ((s.data d).cached = false ∧ (t.data d).cached = true ∧ t.cachings = s.cachings) := by
  -- no other section makes a call cache its record
  have other (c' : CallId) (new : Option Call) (differs : new ≠ some ⟨d, .caching⟩)
      (found : (s.setCall c' new).calls c = some ⟨d, .caching⟩) :
      c ≠ c' ∧ s.calls c = some ⟨d, .caching⟩ :=
    (setCall_cases found).resolve_left fun same => differs same.2
  cases step with
  | @enqueueBegin begun launched =>
    exact .inl ⟨(other s.nextCall (some ⟨begun, .enqueuing⟩) (by simp) found).2, nofun⟩
  | @enqueuePush c' d' before =>
    exact .inl ⟨(other c' (some ⟨d', .waiting⟩) (by simp) found).2, nofun⟩
  | @enqueueWake c' d' before =>
    exact .inl ⟨(other c' (some ⟨d', .claiming⟩) (by simp) found).2, nofun⟩
  | @enqueueClaim c' d' before =>
    cases cached : (s.data d').cached with
    | true =>
      simp only [Worker.enqueueClaim, cached, if_true] at found
      exact .inl ⟨(other c' none nofun found).2, nofun⟩
    | false =>
      simp only [Worker.enqueueClaim, cached] at found ⊢
      rcases setCall_cases found with ⟨rfl, same⟩ | ⟨_, old⟩
      · cases same
        exact .inr ⟨cached, by simp [Worker.setCall, Worker.modifyData], rfl⟩
      · exact .inl ⟨old, nofun⟩
  | @enqueueCache c' d' before =>
    obtain ⟨apart, old⟩ := other c' none nofun found
    exact .inl ⟨old, fun same => apart (by cases same; rfl)⟩
  | stopDrain joined alive =>
    simp only [Worker.stopDrain, delete_eq] at found
    exact .inl ⟨found, nofun⟩
  | stopClear drained alive =>
    simp only [Worker.stopClear, delete_eq] at found
    exact .inl ⟨found, nofun⟩
  | _ => exact .inl ⟨found, nofun⟩

theorem Cache.step (inv : Inv s) (step : Step s a t) : Cache t := by
  obtain ⟨⟨fresh, alone, born⟩, entries, ⟨nodup, once, subset, claimed, claiming⟩, stopping⟩ := inv
  have undeleted {d : DataId} (there : d < s.nextData) (member : d ∈ t.cachedCallbackQueue)
      (before : (s.data d).deleted = 0) : (t.data d).deleted = 0 := by
    refine ((step.record stopping there).1 fun alive clears => ?_).trans before
    subst clears
    rw [step.clears] at member
    cases member
  constructor
  · rcases step.cache_cases with ⟨queue, -⟩ | ⟨c, d, found, -, queue, -⟩ | ⟨queue, -⟩
    · exact queue ▸ nodup
    · have queued : d ∉ s.cachedCallbackQueue := fun member => (claiming found).1 (subset member).1
      rw [queue]
      exact List.nodup_append.mpr ⟨nodup, List.nodup_singleton d, by
        rintro e member _ new rfl
        exact queued (List.mem_singleton.mp new ▸ member)⟩
    · exact queue ▸ .nil
  · rcases step.cache_cases with ⟨-, same⟩ | ⟨c, d, found, -, -, more⟩ | ⟨-, same⟩
    · exact same ▸ once
    · exact more ▸ List.nodup_cons.mpr ⟨(claiming found).1, once⟩
    · exact same ▸ once
  · intro d member
    rcases step.cache_cases with ⟨queue, same⟩ | ⟨c, d', found, -, queue, more⟩ | ⟨queue, -⟩
    · obtain ⟨before, deleted⟩ := subset (queue ▸ member)
      exact ⟨same ▸ before, undeleted (claimed before).2 member deleted⟩
    · rcases List.mem_append.mp (queue ▸ member) with old | new
      · obtain ⟨before, deleted⟩ := subset old
        exact ⟨more ▸ List.mem_cons_of_mem _ before, undeleted (claimed before).2 member deleted⟩
      · obtain rfl := List.mem_singleton.mp new
        obtain ⟨there, deleted⟩ := born found
        exact ⟨more ▸ List.mem_cons_self, undeleted there member deleted⟩
    · rw [queue] at member
      cases member
  · intro d member
    have before : (s.data d).cached = true ∧ d < s.nextData := by
      rcases step.cache_cases with ⟨-, same⟩ | ⟨c, d', found, -, -, more⟩ | ⟨-, same⟩
      · exact claimed (same ▸ member)
      · rcases List.mem_cons.mp (more ▸ member) with rfl | old
        · exact ⟨(claiming found).2, (born found).1⟩
        · exact claimed old
      · exact claimed (same ▸ member)
    exact ⟨(step.record stopping before.2).2 before.1,
      Nat.lt_of_lt_of_le before.2 step.next_le.2⟩
  · intro c d found
    rcases step.caching_cases found with ⟨old, goesOn⟩ | ⟨unclaimed, now, same⟩
    · obtain ⟨new, cached⟩ := claiming old
      refine ⟨fun member => ?_, (step.record stopping (born old).1).2 cached⟩
      rcases step.cache_cases with ⟨-, same⟩ | ⟨c', d', found', rfl, -, more⟩ | ⟨-, same⟩
      · exact new (same ▸ member)
      · rcases List.mem_cons.mp (more ▸ member) with rfl | before
        · exact goesOn (by rw [alone old found'])
        · exact new before
      · exact new (same ▸ member)
    · refine ⟨fun member => ?_, now⟩
      rw [same] at member
      rw [(claimed member).1] at unclaimed
      cases unclaimed

theorem Stopping.step (inv : Inv s) (orderly : Orderly s a) (step : Step s a t) : Stopping t := by
  obtain ⟨⟨fresh, alone, born⟩, entries, cache, stopping⟩ := inv
  have waiting := @entries.waiting
  have drain_eq := stopping.drain_eq
  obtain ⟨exited, joined, told, once, notifying, launched⟩ := stopping
  cases step with
  | launch fails =>
    constructor <;> intros <;>
      simp only [Worker.launchHostFunc, Worker.modifyData, update_apply] at * <;>
        grind -ring -linarith
  | enqueueBegin launched =>
    constructor <;> intros <;>
      simp only [Worker.enqueueBegin, Worker.modifyData, Worker.setCall, update_apply] at * <;>
        grind -ring -linarith
  | enqueuePush found =>
    simp only [Orderly] at orderly
    constructor <;> intros <;>
      simp only [Worker.enqueuePush, Worker.setCall] at * <;> grind -ring -linarith
  | @enqueueClaim c d found =>
    by_cases cached : (s.data d).cached = true
    · simp only [Worker.enqueueClaim, if_pos cached]
      exact ⟨exited, joined, told, once, notifying, launched⟩
    · simp only [Worker.enqueueClaim, if_neg cached]
      constructor <;> intros <;>
        simp only [Worker.modifyData, Worker.setCall, update_apply] at * <;> grind -ring -linarith
  | take idle front =>
    constructor <;> intros <;> simp only [idle] at * <;> grind -ring -linarith
  | exit idle told empty =>
    constructor <;> intros <;> simp only [idle] at * <;> grind -ring -linarith
  | execute taken alive =>
    constructor <;> intros <;> simp only [Worker.executePythonCallback, taken] at * <;>
      grind -ring -linarith
  | complete executed =>
    simp only [Worker.entries, executed, WorkerPhase.held] at waiting
    constructor <;> intros <;>
      simp only [Worker.complete, Worker.modifyData, executed, update_apply] at * <;>
        grind -ring -linarith
  | notify completed =>
    constructor <;> intros <;> simp only [completed] at * <;> grind -ring -linarith
  | stopBegin joinable =>
    constructor <;> intros <;> simp only [Worker.stopBegin] at * <;> grind -ring -linarith
  | stopJoin joining exited' =>
    constructor <;> intros <;> simp only [exited'] at * <;> grind -ring -linarith
  | stopDrain joined' alive =>
    rw [drain_eq joined' alive]
    have gone := joined (.inl joined')
    exact ⟨exited, fun _ => gone, fun _ => told (by simp [joined']), once, notifying, launched⟩
  | stopClear drained alive =>
    have gone := joined (.inr (.inl drained))
    simp only [Worker.stopClear, delete_eq]
    refine ⟨exited, fun _ => gone, fun _ => told (by simp [drained]), ?_, ?_, launched⟩
    · intro d
      -- a record of the cache is there once and was not deleted before
      by_cases mem : d ∈ s.cachedCallbackQueue
      · have here := List.count_eq_one_of_mem cache.nodup mem
        have before := (cache.subset mem).2
        simp only [here, before]
        split <;> omega
      · have absent := List.count_eq_zero.mpr mem
        have before := once (d := d)
        simpa [absent] using before
    · intro d notified
      exact absurd (gone.symm.trans notified) nofun
  | _ => exact ⟨exited, joined, told, once, notifying, launched⟩

theorem Inv.step (inv : Inv s) (orderly : Orderly s a) (step : Step s a t) : Inv t :=
  ⟨.step inv orderly step, .step inv orderly step, .step inv step, .step inv orderly step⟩

theorem Inv.start : Inv {} where
  calls := ⟨nofun, nofun, nofun⟩
  entries := ⟨.nil, nofun, nofun, nofun, nofun, nofun, nofun⟩
  cache := ⟨.nil, .nil, nofun, nofun, nofun⟩
  stopping := ⟨nofun, by simp, by simp, Nat.zero_le _, nofun, nofun⟩

theorem Inv.sound (inv : Inv s) : Sound s := by
  obtain ⟨calls, entries, cache, stopping⟩ := inv
  refine ⟨fun d => stopping.once, ?_, fun r mem => entries.returned mem, ?_, cache.once⟩
  · rintro d (⟨c, phase, found⟩ | queued | notified | cached)
    · exact (calls.born found).2
    · obtain ⟨entry, mem, rfl⟩ := List.mem_map.mp queued
      exact (calls.born (entries.waiting mem).1).2
    · exact (stopping.notifying notified).1
    · exact (cache.subset cached).2
  · intro c d waits
    rcases entries.done waits (by decide) with queued | ⟨_, completed⟩
    · refine .inl ⟨queued, fun gone => ?_⟩
      simp [Worker.entries, gone, stopping.exited gone, WorkerPhase.held] at queued
    · exact .inr completed

/-! ### Every call returns -/

/-- The sections that the worker has before it once it is left alone. -/
def Worker.rank (s : Worker) : Nat :=
  4 * s.callbackQueue.length +
    match s.phase with
    | .executing _ => 3
    | .completing _ => 2
    | .notifying _ => 1
    | .idle | .exited => 0

/-- While an entry is not served the worker has a section to go through, which brings it nearer
to the end of the queue. -/
theorem worker_steps {entry : Entry} (queued : entry ∈ s.entries) (there : s.phase ≠ .exited) :
    ∃ a t, Orderly s a ∧ Step s a t ∧ t.calls = s.calls ∧ t.rank < s.rank := by
  cases phase : s.phase with
  | exited => exact absurd phase there
  | idle =>
    cases queue : s.callbackQueue with
    | nil => simp [Worker.entries, phase, queue, WorkerPhase.held] at queued
    | cons first rest =>
      refine ⟨.take, _, trivial, .take phase queue, rfl, ?_⟩
      simp only [Worker.rank, phase, queue, List.length_cons]
      omega
  | executing taken =>
    refine ⟨.execute true, _, .inl rfl, .execute phase true, rfl, ?_⟩
    simp only [Worker.rank, Worker.executePythonCallback, phase]
    omega
  | completing taken =>
    refine ⟨.complete, _, trivial, .complete phase, rfl, ?_⟩
    simp only [Worker.rank, Worker.complete, Worker.modifyData, phase]
    omega
  | notifying d =>
    refine ⟨.notify, _, trivial, .notify phase, rfl, ?_⟩
    simp only [Worker.rank, phase]
    omega

abbrev OrderlyStep : Worker → Action → Worker → Prop := Meeting Orderly Step

/-- A call that has pushed its entry comes to be completed. -/
theorem waiting_completes (inv : Inv s) {c : CallId} {d : DataId}
    (waits : s.calls c = some ⟨d, .waiting⟩) :
    ∃ t, Reaches OrderlyStep s t ∧ t.calls c = some ⟨d, .waiting⟩ ∧
      (t.data d).completed = true := by
  induction rank : s.rank using Nat.strongRecOn generalizing s with
  | ind n ih =>
    rcases inv.sound.served c d waits with ⟨queued, there⟩ | completed
    · obtain ⟨a, t, orderly, step, calls, less⟩ := worker_steps queued there
      obtain ⟨u, run, waits, completed⟩ :=
        ih t.rank (rank ▸ less) (inv.step orderly step) (calls ▸ waits) rfl
      exact ⟨u, .trans (.next .refl ⟨orderly, step⟩) run, waits, completed⟩
    · exact ⟨s, .refl, waits, completed⟩

theorem goOn {u : Worker} (run : Reaches OrderlyStep s t) (step : Step t a u)
    (orderly : Orderly t a) : Reaches OrderlyStep s u :=
  run.next ⟨orderly, step⟩

def Worker.HasReturned (s : Worker) (c : CallId) : Prop := ∃ r ∈ s.returned, r.call = c

theorem caching_returns {c : CallId} {d : DataId} (found : s.calls c = some ⟨d, .caching⟩) :
    ∃ t, Reaches OrderlyStep s t ∧ t.HasReturned c :=
  ⟨_, goOn .refl (.enqueueCache found) trivial, _, List.mem_cons_self, rfl⟩

theorem claiming_returns {c : CallId} {d : DataId} (found : s.calls c = some ⟨d, .claiming⟩) :
    ∃ t, Reaches OrderlyStep s t ∧ t.HasReturned c := by
  have claim : OrderlyStep s (.enqueueClaim c) (s.enqueueClaim c d) := ⟨trivial, .enqueueClaim found⟩
  by_cases cached : (s.data d).cached = true
  · refine ⟨_, .next .refl claim, ?_⟩
    simp [Worker.enqueueClaim, cached, Worker.HasReturned, Worker.leave]
  · have caching : (s.enqueueClaim c d).calls c = some ⟨d, .caching⟩ := by
      simp [Worker.enqueueClaim, cached, Worker.setCall]
    obtain ⟨t, run, returned⟩ := caching_returns caching
    exact ⟨t, .trans (.next .refl claim) run, returned⟩

theorem waiting_returns (inv : Inv s) {c : CallId} {d : DataId}
    (found : s.calls c = some ⟨d, .waiting⟩) :
    ∃ t, Reaches OrderlyStep s t ∧ t.HasReturned c := by
  obtain ⟨t, run, waits, completed⟩ := waiting_completes inv found
  have claiming : (t.enqueueWake c d).calls c = some ⟨d, .claiming⟩ := by
    simp [Worker.enqueueWake, Worker.setCall]
  obtain ⟨u, rest, returned⟩ := claiming_returns claiming
  exact ⟨u, .trans (goOn run (.enqueueWake waits completed) trivial) rest, returned⟩

/-- Every call in progress can come to its end, unless it has not pushed its entry yet and the
worker is gone. -/
theorem call_returns (inv : Inv s) {c : CallId} {d : DataId} {phase : CallPhase}
    (found : s.calls c = some ⟨d, phase⟩) (there : phase = .enqueuing → s.phase ≠ .exited) :
    ∃ t, Reaches OrderlyStep s t ∧ t.HasReturned c := by
  cases phase with
  | enqueuing =>
    have push : OrderlyStep s (.enqueuePush c) (s.enqueuePush c d) :=
      ⟨there rfl, .enqueuePush found⟩
    have waits : (s.enqueuePush c d).calls c = some ⟨d, .waiting⟩ := by
      simp [Worker.enqueuePush, Worker.setCall]
    obtain ⟨t, run, returned⟩ := waiting_returns (inv.step push.1 push.2) waits
    exact ⟨t, .trans (.next .refl push) run, returned⟩
  | waiting => exact waiting_returns inv found
  | claiming => exact claiming_returns found
  | caching => exact caching_returns found

/-- In every interleaving whose steps meet the condition, a record is deleted at most once and
not while anything may still use it, a call returns only when its callback was executed or the
worker was told to stop, a record is cached once, and calls in progress can return. -/
theorem callback_records_sound (run : Reaches OrderlyStep {} s) :
    Sound s ∧ ∀ c d phase, s.calls c = some ⟨d, phase⟩ →
      (phase = .enqueuing → s.phase ≠ .exited) →
      ∃ t, Reaches OrderlyStep s t ∧ t.HasReturned c := by
  have inv : Inv s := run.invariant (fun inv taken => inv.step taken.1 taken.2) .start
  exact ⟨inv.sound, fun c d phase found there => call_returns inv found there⟩

/-! ### A replayed record, and a late push -/

theorem no_calls (run : Reaches OrderlyStep {} s) (none : ∀ c < s.nextCall, s.calls c = none)
    (c : CallId) (call : Call) : s.calls c ≠ some call := by
  have inv : Inv s := run.invariant (fun inv taken => inv.step taken.1 taken.2) .start
  intro found
  exact absurd ((none c (inv.calls.fresh found)).symm.trans found) nofun

/-- A record is enqueued, enqueued again when the graph is replayed, and deleted by `stop`. -/
theorem callback_records_sound_replay : ∃ s,
    (Sound s ∧ ∀ c d phase, s.calls c = some ⟨d, phase⟩ →
      (phase = .enqueuing → s.phase ≠ .exited) →
      ∃ t, Reaches OrderlyStep s t ∧ t.HasReturned c) ∧
    s.cachings = [0] ∧ (s.data 0).deleted = 1 ∧
    s.returned = [⟨1, true, false⟩, ⟨0, true, false⟩] := by
  have launched := goOn (s := {}) .refl (.launch false) trivial
  have begun := goOn launched (.enqueueBegin (d := 0) rfl) ⟨rfl, nofun⟩
  have pushed := goOn begun (.enqueuePush (c := 0) rfl) nofun
  have executed := goOn (goOn pushed (.take rfl rfl) trivial) (.execute rfl true) (.inl rfl)
  have notified := goOn (goOn executed (.complete rfl) trivial) (.notify rfl) trivial
  have woken := goOn notified (.enqueueWake (c := 0) rfl rfl) trivial
  have cached := goOn (goOn woken (.enqueueClaim (c := 0) rfl) trivial)
    (.enqueueCache (c := 0) (d := 0) rfl) trivial
  have again := goOn cached (.enqueueBegin (d := 0) rfl)
    ⟨rfl, fun c phase => no_calls cached (by decide) c _⟩
  have pushed' := goOn again (.enqueuePush (c := 1) rfl) nofun
  have executed' := goOn (goOn pushed' (.take rfl rfl) trivial) (.execute rfl true) (.inl rfl)
  have notified' := goOn (goOn executed' (.complete rfl) trivial) (.notify rfl) trivial
  have woken' := goOn notified' (.enqueueWake (c := 1) rfl rfl) trivial
  have returned := goOn woken' (.enqueueClaim (c := 1) (d := 0) rfl) trivial
  have exited := goOn (goOn returned (.stopBegin rfl) trivial) (.exit rfl rfl rfl) trivial
  have drained := goOn (goOn exited (.stopJoin rfl rfl) trivial) (.stopDrain rfl fun _ => true) trivial
  have cleared := goOn drained (.stopClear rfl fun _ => true)
    fun c d phase found => absurd found (no_calls drained (by decide) c _)
  exact ⟨_, callback_records_sound cleared, by decide, by decide, by decide⟩

/-- A call pushes its entry when the worker has exited, and `stop` deletes the record that the
call waits on. -/
theorem late_push_is_deleted : ∃ s, Reaches Step {} s ∧ ¬ Sound s := by
  have launched : Reaches Step {} _ := .next .refl (.launch false)
  have begun := launched.next (.enqueueBegin (d := 0) rfl)
  have exited := (begun.next (.stopBegin rfl)).next (.exit rfl rfl rfl)
  have pushed := (exited.next (.stopJoin rfl rfl)).next (.enqueuePush (c := 0) (d := 0) rfl)
  refine ⟨_, pushed.next (.stopDrain rfl fun _ => true), fun sound => ?_⟩
  have unused := sound.unused 0 (.inl ⟨0, .waiting, rfl⟩)
  exact absurd unused (by decide)

end TorchGcu.PythonCallbackWorker

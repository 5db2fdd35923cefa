import TorchGcu.Profiler.EventRuns

/-! When an event starts below a finished one. An end takes a frame from the stack of its own thread
only, and puts the parent back there even if another thread has finished it. -/
namespace TorchGcu.EventTree

/-- The frames that `pop_event` finishes, up to the event itself. -/
def unwound (results : Nat → Result) : Nat → Nat → Nat → List Nat
  | 0, _, _ => []
  | steps + 1, frame, event =>
    if frame = event then [event]
    else match (results frame).parent with
      | none => [frame]
      | some parent => frame :: unwound results steps parent event

/-- What an end finishes is not on the stack of another thread, and what it puts back is not
finished. -/
def Clear (count : Nat) (s : State) : Action → Prop
  | .pop event => (s.results event).finished = false →
      (∀ frame, s.stackOf (s.results event).startTid = some frame →
        ∀ e ∈ unwound s.results (enoughFuel count) frame event,
          ∀ tid, tid ≠ (s.results event).startTid → s.stackOf tid ≠ some e) ∧
      ∀ parent, (s.results event).parent = some parent → (s.results parent).finished = false
  | .push _ | .finish => True

theorem unwound_path {results : Nat → Result} {steps frame event : Nat} {above below : List Nat}
    (path : Path results (some frame) (above ++ event :: below))
    (apart : (above ++ [event]).Nodup) (enough : above.length < steps) :
    unwound results steps frame event = above ++ [event] := by
  induction above generalizing frame steps with
  | nil =>
    obtain ⟨steps, rfl⟩ := Nat.exists_eq_succ_of_ne_zero (Nat.ne_of_gt enough)
    obtain rfl := Option.some.inj path.1
    simp [unwound]
  | cons first above ih =>
    obtain ⟨steps, rfl⟩ := Nat.exists_eq_succ_of_ne_zero (Nat.ne_of_gt (Nat.zero_lt_of_lt enough))
    obtain ⟨top, rest⟩ := path
    obtain rfl := Option.some.inj top
    rw [List.cons_append, List.nodup_cons] at apart
    have other : frame ≠ event := by
      rintro rfl
      exact apart.1 (List.mem_append_right _ (List.mem_singleton_self _))
    obtain ⟨parent, next⟩ : ∃ parent, (results frame).parent = some parent := by
      cases above with
      | nil => exact ⟨event, rest.1⟩
      | cons second above => exact ⟨second, rest.1⟩
    rw [next] at rest
    simp only [unwound, if_neg other, next,
      ih rest apart.2 (Nat.lt_of_succ_lt_succ enough), List.cons_append]

section
variable {count : Nat} {init : Nat → Result} {frames : Nat → List Nat} {s : State} {event : Nat}
  {above below : List Nat}

theorem Inv.unwound_eq (inv : Inv count init frames s)
    (split : frames (init event).startTid = above ++ event :: below) {frame : Nat}
    (top : s.stackOf (s.results event).startTid = some frame) :
    EventTree.unwound s.results (enoughFuel count) frame event = above ++ [event] := by
  have path := inv.path (init event).startTid
  rw [inv.links.startTid] at top
  rw [split, top] at path
  exact unwound_path path (inv.nodup_unwound split) (inv.length_above split)

/-- The parent of an event that ends is not one of the frames above it. -/
theorem Inv.parent_outside (inv : Inv count init frames s) (member : event ∈ s.endEvents)
    (split : frames (init event).startTid = above ++ event :: below) {parent : Nat}
    (linked : (s.results event).parent = some parent) : parent ∉ above ++ [event] := by
  have fresh : Fresh count init event :=
    ⟨Nat.lt_of_lt_of_le (inv.ends event member).1 inv.bound, (inv.ends event member).2.1⟩
  have earlier : parent < event := by
    rcases inv.links.edges _ _ linked with ⟨stale, -⟩ | ⟨-, -, earlier⟩
    · exact absurd fresh stale
    · exact earlier
  intro inside
  rcases List.mem_append.mp inside with inside | last
  · have ordered := inv.apart (init event).startTid
    rw [split] at ordered
    have later := (List.pairwise_append.mp ordered).2.2 parent inside event List.mem_cons_self
    exact Nat.lt_asymm later earlier
  · exact Nat.ne_of_lt earlier (List.mem_singleton.mp last)

/-- No stack has a finished frame. -/
def Live (s : State) : Prop := ∀ tid f, s.stackOf tid = some f → (s.results f).finished = false

/-- What an end leaves, in a state in which it is unfinished. -/
theorem Inv.popped (inv : Inv count init frames s) (member : event ∈ s.endEvents)
    (split : frames (init event).startTid = above ++ event :: below) {s' : State}
    (acted : act count s (.pop event) = .ok s') :
    (∀ tid, s'.stackOf tid =
      if tid = (init event).startTid then (s.results event).parent else s.stackOf tid) ∧
    (∀ e, s'.results e =
      if e ∈ above ++ [event] then { s.results e with finished := true } else s.results e) := by
  obtain ⟨stackOf, -⟩ := s.markAll_kept (above ++ [event])
  simp only [act, inv.popEvent member split, Except.map] at acted
  obtain rfl := Except.ok.inj acted
  refine ⟨fun tid => ?_, s.markAll_results (above ++ [event])⟩
  simp only [State.setFrame, stackOf, Function.update_apply]

theorem Inv.live_pop (inv : Inv count init frames s) (live : Live s)
    (takes : Takes count s (.pop event)) (clear : Clear count s (.pop event)) {s' : State}
    (acted : act count s (.pop event) = .ok s') : Live s' := by
  obtain ⟨-, ⟨member, -⟩, -⟩ := takes
  cases finished : (s.results event).finished with
  | true =>
    simp only [act, State.popEvent, finished, Except.map] at acted
    obtain rfl := Except.ok.inj acted
    exact live
  | false =>
    obtain ⟨above, below, split⟩ := inv.split member finished
    obtain ⟨stackOf, results⟩ := inv.popped member split acted
    obtain ⟨apart, putBack⟩ := clear finished
    intro tid f top
    rw [stackOf] at top
    rw [results]
    split at top
    · rw [if_neg (inv.parent_outside member split top)]
      exact putBack f top
    · rename_i other
      have outside : f ∉ above ++ [event] := by
        intro inside
        obtain ⟨frame, onTop⟩ : ∃ frame, s.stackOf (s.results event).startTid = some frame := by
          have path := inv.path (init event).startTid
          rw [split, ← inv.links.startTid] at path
          cases above with
          | nil => exact ⟨event, path.1⟩
          | cons first above => exact ⟨first, path.1⟩
        refine apart frame onTop f ?_ tid ?_ top
        · rw [inv.unwound_eq split onTop]
          exact inside
        · rw [inv.links.startTid]
          exact other
      rw [if_neg outside]
      exact live tid f top

theorem Inv.live_push (inv : Inv count init frames s) (live : Live s) {s' : State}
    (pushed : Pushed s s') : Live s' := by
  intro tid f top
  rcases pushed.stackOf tid f top with old | ⟨-, -, unfinished⟩
  · rw [pushed.finished f (Nat.ne_of_lt (inv.stackOf tid f old).1)]
    exact live tid f old
  · exact unfinished

end

/-! ### Runs -/

theorem Run.inv {count : Nat} {results : Nat → Result} {Meets : State → Action → Prop} {s : State}
    (prepared : Prepared count results) (run : Run count results Meets s)
    (building : s.building = true) :
    ∃ frames, Inv count (setInTreeBuilding count results true) frames s := by
  cases run.reached prepared with
  | inside inv => exact ⟨_, inv⟩
  | done => simp [finish] at building

theorem Run.live {count : Nat} {results : Nat → Result} {s : State}
    (prepared : Prepared count results) (run : Run count results (Clear count) s)
    (building : s.building = true) : Live s := by
  induction run with
  | begin => exact fun _ _ top => by cases top
  | @next s s' action before takes clear acted ih =>
    cases action with
    | pop event =>
      obtain ⟨frames, inv⟩ := before.inv prepared takes.1
      exact inv.live_pop (ih takes.1) takes clear acted
    | push event =>
      obtain ⟨frames, inv⟩ := before.inv prepared takes.1
      obtain ⟨after, -, ok, -, -, pushed⟩ := inv.act_push (prepared.setInTreeBuilding true) takes
      obtain rfl := Except.ok.inj (ok.symm.trans acted)
      exact inv.live_push (ih takes.1) pushed
    | finish =>
      cases acted
      cases building

/-! ### Without links between threads -/

/-- Every stack holds unfinished events of its own thread, and so do their parents. -/
structure Separate (count : Nat) (init : Nat → Result) (s : State) : Prop where
  stackOf : ∀ tid f, s.stackOf tid = some f →
    (init f).startTid = tid ∧ (s.results f).finished = false
  parents : ∀ e < count, (s.results e).finished = false →
    ∀ parent, (s.results e).parent = some parent →
      (init parent).startTid = (init e).startTid ∧ (s.results parent).finished = false

section Separate
variable {count : Nat} {init : Nat → Result} {frames : Nat → List Nat} {s : State} {event : Nat}

/-- The parent of an unfinished event started before it. -/
theorem Inv.linked_before (inv : Inv count init frames s) (prepared : Prepared count init)
    (inside : event < count) (unfinished : (s.results event).finished = false) {parent : Nat}
    (linked : (s.results event).parent = some parent) : event < s.next ∧ parent < event := by
  have fresh : (init event).finished = false := by
    rw [← Bool.not_eq_true]
    intro finished
    rw [(inv.finished event).mpr (.inl finished)] at unfinished
    cases unfinished
  refine ⟨?_, ?_⟩
  · by_contra after
    rw [inv.pending event (Nat.not_lt.mp after), prepared.root event inside fresh] at linked
    cases linked
  · rcases inv.links.edges _ _ linked with ⟨stale, -⟩ | ⟨-, -, earlier⟩
    · exact absurd ⟨inside, fresh⟩ stale
    · exact earlier

theorem Inv.clear (inv : Inv count init frames s) (separate : Separate count init s)
    (member : event ∈ s.endEvents) : Clear count s (.pop event) := by
  intro unfinished
  obtain ⟨above, below, split⟩ := inv.split member unfinished
  have inside := Nat.lt_of_lt_of_le (inv.ends event member).1 inv.bound
  refine ⟨fun frame top e inUnwound tid other onStack => ?_, fun parent linked =>
    (separate.parents event inside unfinished parent linked).2⟩
  rw [inv.unwound_eq split top] at inUnwound
  rw [inv.links.startTid] at other
  exact other ((separate.stackOf tid e onStack).1.symm.trans (inv.unwound split inUnwound).1)

/-- A parent that another thread does not share is finished after its children. -/
theorem Inv.separate_pop (inv : Inv count init frames s) (prepared : Prepared count init)
    (separate : Separate count init s) (takes : Takes count s (.pop event)) {s' : State}
    (acted : act count s (.pop event) = .ok s') : Separate count init s' := by
  obtain ⟨-, ⟨member, -⟩, -⟩ := takes
  cases finished : (s.results event).finished with
  | true =>
    simp only [act, State.popEvent, finished, Except.map] at acted
    obtain rfl := Except.ok.inj acted
    exact ⟨separate.stackOf, separate.parents⟩
  | false =>
    obtain ⟨above, below, split⟩ := inv.split member finished
    obtain ⟨stackOf, results⟩ := inv.popped member split acted
    have inside := Nat.lt_of_lt_of_le (inv.ends event member).1 inv.bound
    refine ⟨fun tid f top => ?_, fun e before unfinished parent linked => ?_⟩
    · rw [stackOf] at top
      rw [results]
      split at top
      · rename_i own
        obtain ⟨thread, unfinished⟩ := separate.parents event inside finished f top
        rw [if_neg (inv.parent_outside member split top)]
        exact ⟨thread.trans own.symm, unfinished⟩
      · rename_i other
        obtain ⟨thread, unfinished⟩ := separate.stackOf tid f top
        rw [if_neg fun inUnwound => other (thread.symm.trans (inv.unwound split inUnwound).1)]
        exact ⟨thread, unfinished⟩
    · rw [results] at unfinished linked
      split at unfinished
      · cases unfinished
      · rename_i outside
        rw [if_neg outside] at linked
        obtain ⟨thread, above⟩ := separate.parents e before unfinished parent linked
        refine ⟨thread, ?_⟩
        rw [results, if_neg]
        · exact above
        · -- the event would be a frame below its parent
          intro inUnwound
          obtain ⟨started, earlier⟩ := inv.linked_before prepared before unfinished linked
          have frame := inv.unfinished e started unfinished
          rw [← thread, (inv.unwound split inUnwound).1, split, List.append_cons] at frame
          have under := (List.mem_append.mp frame).resolve_left outside
          have ordered := inv.apart (init event).startTid
          rw [split, List.append_cons] at ordered
          have later := (List.pairwise_append.mp ordered).2.2 parent inUnwound e under
          exact Nat.lt_asymm later earlier

theorem Inv.separate_push (inv : Inv count init frames s) (prepared : Prepared count init)
    (unlinked : ∀ e < count, (init e).forwardTid = 0) (separate : Separate count init s)
    (inside : s.next < count) {s' : State} (pushed : Pushed s s') : Separate count init s' := by
  have own : s.parentFrame s.next = s.stackOf (init s.next).startTid := by
    have none : (s.results s.next).forwardTid = 0 := by
      rw [inv.pending _ (Nat.le_refl _)]
      exact unlinked s.next inside
    simp only [State.parentFrame, none, inv.links.startTid]
    cases s.stackOf (init s.next).startTid <;> simp
  refine ⟨fun tid f top => ?_, fun e before unfinished parent linked => ?_⟩
  · rcases pushed.stackOf tid f top with old | ⟨-, thread, unfinished⟩
    · rw [pushed.finished f (Nat.ne_of_lt (inv.stackOf tid f old).1)]
      exact separate.stackOf tid f old
    · rw [← inv.links.startTid]
      exact ⟨thread, unfinished⟩
  · have stillOpen : (s.results e).finished = false := by
      rw [← Bool.not_eq_true]
      intro finished
      rw [pushed.kept e finished] at unfinished
      cases unfinished
    rw [pushed.parent] at linked
    split at linked
    · rename_i new
      obtain ⟨rfl, -⟩ := new
      rw [own] at linked
      obtain ⟨thread, above⟩ := separate.stackOf _ _ linked
      rw [pushed.finished parent (Nat.ne_of_lt (inv.stackOf _ _ linked).1)]
      exact ⟨thread, above⟩
    · obtain ⟨started, earlier⟩ := inv.linked_before prepared before stillOpen linked
      rw [pushed.finished parent (Nat.ne_of_lt (Nat.lt_trans earlier started))]
      exact separate.parents e before stillOpen parent linked

end Separate

theorem forwardTid_start (count : Nat) (results : Nat → Result) (value : Bool) (e : Nat) :
    (setInTreeBuilding count results value e).forwardTid = (results e).forwardTid := by
  unfold setInTreeBuilding
  split
  · cases fields : (results e).extraFields <;>
      simp [Result.setInTreeBuilding, Result.forwardTid, fields]
  · rfl

theorem Run.separate {count : Nat} {results : Nat → Result} {Meets : State → Action → Prop}
    {s : State} (prepared : Prepared count results)
    (unlinked : ∀ e < count, (results e).forwardTid = 0) (run : Run count results Meets s)
    (building : s.building = true) :
    Separate count (setInTreeBuilding count results true) s := by
  have start := prepared.setInTreeBuilding true
  induction run with
  | begin =>
    refine ⟨fun _ _ top => (by cases top), fun e inside unfinished parent linked => ?_⟩
    rw [show (EventTree.begin count results).results e = EventTree.setInTreeBuilding count results true e
      from rfl] at unfinished linked
    rw [start.root e inside unfinished] at linked
    cases linked
  | @next s s' action before takes _ acted ih =>
    cases action with
    | pop event =>
      obtain ⟨frames, inv⟩ := before.inv prepared takes.1
      exact inv.separate_pop start (ih takes.1) takes acted
    | push event =>
      obtain ⟨frames, inv⟩ := before.inv prepared takes.1
      obtain ⟨after, -, ok, -, -, pushed⟩ := inv.act_push start takes
      obtain rfl := Except.ok.inj (ok.symm.trans acted)
      refine inv.separate_push start (fun e inside => ?_) (ih takes.1) takes.2.1 pushed
      rw [forwardTid_start]
      exact unlinked e inside
    | finish =>
      cases acted
      cases building

/-- No end of such a run goes wrong. -/
theorem Run.clear {count : Nat} {results : Nat → Result} {Meets : State → Action → Prop}
    {s : State} (prepared : Prepared count results)
    (unlinked : ∀ e < count, (results e).forwardTid = 0) (run : Run count results Meets s) :
    Run count results (Clear count) s := by
  induction run with
  | begin => exact .begin
  | @next s s' action before takes _ acted ih =>
    refine .next ih takes ?_ acted
    cases action with
    | pop event =>
      obtain ⟨frames, inv⟩ := before.inv prepared takes.1
      exact inv.clear (before.separate prepared unlinked takes.1) takes.2.1.1
    | push event => trivial
    | finish => trivial

theorem parentFrame_live {s : State} (live : Live s) {event parent : Nat}
    (found : s.parentFrame event = some parent) : (s.results parent).finished = false := by
  obtain ⟨tid, top⟩ := parentFrame_stack found
  exact live tid parent top

/-- Every state of every run is well formed. An event is put below an unfinished one in the runs in
which each end meets `Clear`, which are all runs of events without a forward thread. -/
theorem buildTree_forest {count : Nat} {results : Nat → Result}
    (prepared : Prepared count results) :
    (∀ s, Run count results (fun _ _ => True) s → Sound count results s) ∧
      (∀ s s' parent, Run count results (Clear count) s → Takes count s (.push s.next) →
        act count s (.push s.next) = .ok s' → (s.results s.next).finished = false →
        (s'.results s.next).parent = some parent → (s.results parent).finished = false) ∧
      ((∀ e < count, (results e).forwardTid = 0) → ∀ s,
        Run count results (fun _ _ => True) s → Run count results (Clear count) s) := by
  refine ⟨fun s run => (run.reached prepared).sound prepared,
    fun s s' parent run takes acted unfinished linked => ?_,
    fun unlinked s run => run.clear prepared unlinked⟩
  obtain ⟨frames, inv⟩ := run.inv prepared takes.1
  obtain ⟨after, -, ok, -, -, pushed⟩ := inv.act_push (prepared.setInTreeBuilding true) takes
  obtain rfl := Except.ok.inj (ok.symm.trans acted)
  rw [pushed.parent, if_pos ⟨rfl, unfinished⟩] at linked
  exact parentFrame_live (run.live prepared takes.1) linked

theorem Run.anyway {count : Nat} {results : Nat → Result} {Meets : State → Action → Prop}
    {s : State} (run : Run count results Meets s) : Run count results (fun _ _ => True) s := by
  induction run with
  | begin => exact .begin
  | next _ takes _ acted ih => exact .next ih takes trivial acted

theorem prepared_of_roots {count : Nat} {results : Nat → Result}
    (fresh : ∀ e, (results e).finished = false ∧ (results e).parent = none ∧
      (results e).children = []) : Prepared count results where
  kineto e _ finished := by
    rw [(fresh e).1] at finished
    cases finished
  root e _ _ := (fresh e).2.1
  below e _ _ child member := by
    rw [(fresh e).2.2] at member
    cases member
  forest :=
    { inverse parent child := by
        rw [(fresh parent).2.2, (fresh child).2.1]
        simp
      once parent := by
        rw [(fresh parent).2.2]
        exact List.nodup_nil
      acyclic e cycle := by
        obtain ⟨parent, linked, -⟩ := Relation.TransGen.head'_iff.mp cycle
        rw [(fresh e).2.1] at linked
        cases linked }

theorem takes_push {count : Nat} {s : State} (building : s.building = true)
    (inside : s.next < count)
    (later : ∀ e ∈ s.endEvents,
      s.endsBefore (enoughFuel count) e (s.results s.next).startTimeNs = false) :
    Takes count s (.push s.next) :=
  ⟨building, inside, rfl, fun top isTop => later top isTop.1⟩

theorem takes_pop {count : Nat} {s : State} {event : Nat} (building : s.building = true)
    (member : event ∈ s.endEvents)
    (first : ∀ e ∈ s.endEvents, s.resultGreater (enoughFuel count) event e = false)
    (before : s.endsBefore (enoughFuel count) event (s.results s.next).startTimeNs = true) :
    Takes count s (.pop event) :=
  ⟨building, ⟨member, first⟩, fun _ => before⟩

/-- The end of an event that is the frame of its own thread only. -/
theorem clear_of_frame {count : Nat} {s : State} {event : Nat}
    (top : s.stackOf (s.results event).startTid = some event)
    (only : ∀ tid, s.stackOf tid = some event → tid = (s.results event).startTid)
    (above : ∀ parent, (s.results event).parent = some parent →
      (s.results parent).finished = false) : Clear count s (.pop event) := by
  refine fun _ => ⟨fun frame isTop e member tid other isFrame => ?_, above⟩
  obtain rfl := Option.some.inj (top.symm.trans isTop)
  simp only [enoughFuel, unwound, if_true, List.mem_singleton] at member
  exact other (only tid (member ▸ isFrame))

theorem frame_only {stackOf : Nat → Option Nat} {event : Nat} (zero : stackOf 0 ≠ some event)
    {tid : Nat} (threads : tid = 1 ∧ stackOf 2 ≠ some event ∨ tid = 2 ∧ stackOf 1 ≠ some event)
    (none : ∀ n, stackOf (n + 3) = none) (n : Nat) (isFrame : stackOf n = some event) :
    n = tid := by
  rcases n with _ | _ | _ | n
  · exact absurd isFrame zero
  · rcases threads with ⟨rfl, -⟩ | ⟨-, other⟩
    · rfl
    · exact absurd isFrame other
  · rcases threads with ⟨-, other⟩ | ⟨rfl, -⟩
    · exact absurd isFrame other
    · rfl
  · rw [none] at isFrame
    cases isFrame

/-- Two operators of thread 1, one of thread 2 without an end that is linked to them, and a later one
of thread 2. -/
def openOperator : Nat → Result
  | 0 => { startTimeNs := 0, startTid := 1, extraFields := .torchOp 0 10 }
  | 1 => { startTimeNs := 1, startTid := 1, extraFields := .torchOp 0 4 }
  | 2 => { startTimeNs := 2, startTid := 2, extraFields := .torchOp 1 minTime }
  | _ => { startTimeNs := 20, startTid := 2, extraFields := .torchOp 0 30 }

/-- The frame of thread 2 has no end, so that the later operator is put below an unfinished one. -/
theorem openOperator_sound : ∃ s s' last,
    Run 4 openOperator (Clear 4) s ∧ act 4 s (.push s.next) = .ok s' ∧
      (s'.results s.next).parent = some 2 ∧ (s.results 2).finished = false ∧
      Run 4 openOperator (Clear 4) last ∧ last.building = false ∧
      Sound 4 openOperator last ∧ last.marks = [1, 0, 3] := by
  have prepared : Prepared 4 openOperator := by
    refine prepared_of_roots fun e => ?_
    unfold openOperator
    split <;> exact ⟨rfl, rfl, rfl⟩
  obtain ⟨sound, below, -⟩ := buildTree_forest prepared
  have outer : Run 4 openOperator (Clear 4) _ :=
    .next .begin (takes_push rfl (by decide) (by decide)) trivial rfl
  have inner : Run 4 openOperator (Clear 4) _ :=
    .next outer (takes_push rfl (by decide) (by decide)) trivial rfl
  have linked : Run 4 openOperator (Clear 4) _ :=
    .next inner (takes_push rfl (by decide) (by decide)) trivial rfl
  have innerEnds : Run 4 openOperator (Clear 4) _ :=
    .next linked (@takes_pop 4 _ 1 rfl (by decide) (by decide) (by decide))
      (clear_of_frame rfl (frame_only (by decide) (.inl ⟨rfl, by decide⟩) fun _ => rfl)
        fun _ above => Option.some.inj above ▸ rfl) rfl
  have outerEnds : Run 4 openOperator (Clear 4) _ :=
    .next innerEnds (@takes_pop 4 _ 0 rfl (by decide) (by decide) (by decide))
      (clear_of_frame rfl (frame_only (by decide) (.inl ⟨rfl, by decide⟩) fun _ => rfl)
        fun _ above => absurd above.symm (Option.some_ne_none _)) rfl
  have laterBegins : Run 4 openOperator (Clear 4) _ :=
    .next outerEnds (takes_push rfl (by decide) (by decide)) trivial rfl
  have laterEnds : Run 4 openOperator (Clear 4) _ :=
    @Run.next _ _ _ _ _ (.pop 3) laterBegins
      ⟨rfl, ⟨by decide, by decide⟩, fun inside => absurd inside (by decide)⟩
      (clear_of_frame rfl (frame_only (by decide) (.inr ⟨rfl, by decide⟩) fun _ => rfl)
        fun _ above => Option.some.inj above ▸ rfl) rfl
  have ends : Run 4 openOperator (Clear 4) _ :=
    @Run.next _ _ _ _ _ .finish laterEnds ⟨rfl, rfl, rfl⟩ trivial rfl
  exact ⟨_, _, _, outerEnds, rfl, rfl,
    below _ _ 2 outerEnds (takes_push rfl (by decide) (by decide)) rfl rfl rfl, ends, rfl,
    sound _ ends.anyway, rfl⟩

/-- An operator of thread 1, one of thread 2 that is linked to it, and a later one of thread 2. -/
def laterOperator : Nat → Result
  | 0 => { startTimeNs := 0, startTid := 1, extraFields := .torchOp 0 10 }
  | 1 => { startTimeNs := 1, startTid := 2, extraFields := .torchOp 1 5 }
  | _ => { startTimeNs := 20, startTid := 2, extraFields := .torchOp 0 30 }

/-- Thread 2 gets the operator of thread 1 back as its frame when the linked one ends, and keeps it
after its end: the later operator becomes a child of it. -/
theorem later_operator_adopted : Prepared 3 laterOperator ∧ ∃ s s',
    Run 3 laterOperator (fun _ _ => True) s ∧ Takes 3 s (.push s.next) ∧
      act 3 s (.push s.next) = .ok s' ∧ (s.results s.next).finished = false ∧
      (s'.results s.next).parent = some 0 ∧ (s.results 0).finished = true := by
  refine ⟨prepared_of_roots fun e => ?_, ?_⟩
  · unfold laterOperator
    split <;> exact ⟨rfl, rfl, rfl⟩
  have first : Run 3 laterOperator (fun _ _ => True) _ :=
    .next .begin (takes_push rfl (by decide) (by decide)) trivial rfl
  have second : Run 3 laterOperator (fun _ _ => True) _ :=
    .next first (takes_push rfl (by decide) (by decide)) trivial rfl
  have linkedEnds : Run 3 laterOperator (fun _ _ => True) _ :=
    .next second (@takes_pop 3 _ 1 rfl (by decide) (by decide) (by decide)) trivial rfl
  have firstEnds : Run 3 laterOperator (fun _ _ => True) _ :=
    .next linkedEnds (@takes_pop 3 _ 0 rfl (by decide) (by decide) (by decide)) trivial rfl
  exact ⟨_, _, firstEnds, takes_push rfl (by decide) (by decide), rfl, rfl, rfl, rfl⟩

end TorchGcu.EventTree

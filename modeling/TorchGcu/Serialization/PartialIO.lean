import Mathlib.Algebra.GroupWithZero.Nat
import Mathlib.Algebra.BigOperators.Group.List.Basic
import Mathlib.Data.List.Range
import Mathlib.Tactic.Common

/-! The loops that read and write a buffer in parts, over whatever the partial calls answer. -/
namespace TorchGcu.PartialIO

inductive Errno where
  | zero
  | eagain
  | eintr
  | other (code : Nat)
deriving DecidableEq, Repr

/-- What a partial read or write answers. -/
inductive Answer where
  | moved (count : Nat)
  | failed (errno : Errno)
  | pythonError
deriving DecidableEq, Repr

inductive Fault where
  | noErrno
  | wouldBlock
  | failed (code : Nat)
  | tooMany
  | unexpectedEof (missing : Nat)
  | pythonError
deriving DecidableEq, Repr

/-- A partial call that moved bytes: between the buffer from `offset` on and the file from
`position` on. -/
structure Transfer where
  offset : Nat
  position : Nat
  asked : Nat
  count : Nat
deriving DecidableEq, Repr

/-- `buf` counts from the begin of the buffer. -/
structure Loop where
  nbytes : Nat
  position : Nat
  buf : Nat := 0
  calls : Nat := 0
  log : List Transfer := []
deriving DecidableEq, Repr

inductive Next where
  | again (s : Loop)
  | done (s : Loop)
  | raised (fault : Fault) (s : Loop)

/-- Both loops go in blocks of 1 GB. -/
def chunkLimit : Nat := 1073741824

/-- The branch on `errno`. -/
def onError (errno : Errno) (s : Loop) : Next :=
  match errno with
  | .zero => .raised .noErrno s
  | .eagain => .raised .wouldBlock s
  | .eintr => .again s
  | .other code => .raised (.failed code) s

/-- One round. Only the loop of `doRead` breaks when no byte was moved. -/
def next (breaksAtZero : Bool) (answers : Nat → Answer) (s : Loop) : Next :=
  if s.nbytes = 0 then .done s
  else
    let asked := min s.nbytes chunkLimit
    let s' := { s with calls := s.calls + 1 }
    match answers s.calls with
    | .pythonError => .raised .pythonError s'
    | .failed errno => onError errno s'
    | .moved count =>
      let s' := { s' with
        position := s.position + count
        log := s.log ++ [⟨s.buf, s.position, asked, count⟩] }
      if breaksAtZero ∧ count = 0 then .raised (.unexpectedEof s.nbytes) s'
      else
        let s' := { s' with buf := s.buf + count }
        if count ≤ s.nbytes then .again { s' with nbytes := s.nbytes - count }
        else .raised .tooMany s'

/-- The loop, for as many rounds as there is fuel. -/
def run (breaksAtZero : Bool) (answers : Nat → Answer) :
    Nat → Loop → Option (Except Fault Unit × Loop)
  | 0, _ => none
  | fuel + 1, s =>
    match next breaksAtZero answers s with
    | .again s' => run breaksAtZero answers fuel s'
    | .done s' => some (.ok (), s')
    | .raised fault s' => some (.error fault, s')

def doRead (answers : Nat → Answer) (nbytes position fuel : Nat) :
    Option (Except Fault Unit × Loop) := run true answers fuel { nbytes, position }

def doWrite (answers : Nat → Answer) (nbytes position fuel : Nat) :
    Option (Except Fault Unit × Loop) := run false answers fuel { nbytes, position }

/-! ### What the loops are for -/

/-- The bytes that a call moved: where each is in the buffer and in the file. -/
def Transfer.bytes (t : Transfer) : List (Nat × Nat) :=
  (List.range t.count).map fun i => (t.offset + i, t.position + i)

/-- Each byte of a buffer and where it belongs, in order. -/
def wholeBuffer (nbytes position : Nat) : List (Nat × Nat) :=
  (List.range nbytes).map fun i => (i, position + i)

/-- What a loop does with a buffer, by its runs with any fuel. -/
structure Lawful (nbytes position : Nat) (io : Nat → Option (Except Fault Unit × Loop)) : Prop where
  ends : ∃ fuel outcome, io fuel = some outcome
  exact : ∀ {fuel s}, io fuel = some (.ok (), s) →
    s.log.flatMap Transfer.bytes = wholeBuffer nbytes position ∧ s.position = position + nbytes
  short : ∀ {fuel result s}, io fuel = some (result, s) → (∃ t ∈ s.log, t.count = 0) →
    ∃ fault, result = .error fault
  inside : ∀ {fuel result s}, io fuel = some (result, s) →
    ∀ t ∈ s.log, t.asked ≤ chunkLimit ∧ t.offset + t.asked ≤ nbytes

/-! ### Answers that are met -/

def Answer.count : Answer → Nat
  | .moved count => count
  | _ => 0

/-- The bytes outstanding after `calls` answers. -/
def outstanding (answers : Nat → Answer) (nbytes calls : Nat) : Nat :=
  nbytes - ((List.range calls).map fun call => (answers call).count).sum

/-- An answer after which a loop goes on: bytes that were outstanding, or an interruption. -/
def Answer.Passes (left : Nat) : Answer → Prop
  | .moved count => count ≤ left
  | .failed errno => errno = .eintr
  | .pythonError => False

/-- A call is made: every answer before it passes, and bytes are outstanding. -/
def Made (answers : Nat → Answer) (nbytes call : Nat) : Prop :=
  0 < outstanding answers nbytes call ∧
    ∀ earlier < call, (answers earlier).Passes (outstanding answers nbytes earlier)

variable {breaksAtZero : Bool} {answers : Nat → Answer} {nbytes position call : Nat} {s : Loop}

theorem outstanding_succ (answers : Nat → Answer) (nbytes call : Nat) :
    outstanding answers nbytes (call + 1) =
      outstanding answers nbytes call - (answers call).count := by
  rw [outstanding, List.range_succ, List.map_append, List.sum_append, List.map_singleton,
    List.sum_singleton, outstanding, Nat.sub_sub]

theorem outstanding_antitone {later : Nat} (order : call ≤ later) :
    outstanding answers nbytes later ≤ outstanding answers nbytes call := by
  induction order with
  | refl => exact le_rfl
  | step _ ih =>
    rw [Nat.succ_eq_add_one, outstanding_succ]
    exact (Nat.sub_le _ _).trans ih

theorem Made.earlier {earlier : Nat} (made : Made answers nbytes call) (order : earlier ≤ call) :
    Made answers nbytes earlier :=
  ⟨made.1.trans_le (outstanding_antitone order), fun first before => made.2 first (before.trans_le order)⟩

/-! ### One round -/

/-- What holds at the begin of each round. -/
structure Inv (breaksAtZero : Bool) (answers : Nat → Answer) (nbytes position : Nat) (s : Loop) :
    Prop where
  left : s.nbytes = outstanding answers nbytes s.calls
  buffer : s.buf + s.nbytes = nbytes
  moved : s.position = position + s.buf
  exact : s.log.flatMap Transfer.bytes = wholeBuffer s.buf position
  inside : ∀ t ∈ s.log, t.asked ≤ chunkLimit ∧ t.offset + t.asked ≤ nbytes
  made : ∀ call < s.calls, Made answers nbytes call ∧
    (answers call).Passes (outstanding answers nbytes call)
  zeros : (∃ t ∈ s.log, t.count = 0) ↔ ∃ call < s.calls, answers call = .moved 0
  breaks : breaksAtZero = true → ∀ call < s.calls, answers call ≠ .moved 0

/-- A call at which a loop raises. -/
def Raises (breaksAtZero : Bool) (answers : Nat → Answer) (nbytes call : Nat) : Prop :=
  Made answers nbytes call ∧
    (¬ (answers call).Passes (outstanding answers nbytes call) ∨
      breaksAtZero = true ∧ answers call = .moved 0)

theorem Inv.start (breaksAtZero : Bool) (answers : Nat → Answer) (nbytes position : Nat) :
    Inv breaksAtZero answers nbytes position { nbytes, position } where
  left := rfl
  buffer := Nat.zero_add _
  moved := rfl
  exact := rfl
  inside _ member := absurd member List.not_mem_nil
  made _ before := absurd before (Nat.not_lt_zero _)
  zeros := ⟨fun some => (by obtain ⟨_, member, _⟩ := some; cases member),
    fun some => (by obtain ⟨_, before, _⟩ := some; cases before)⟩
  breaks _ _ before := absurd before (Nat.not_lt_zero _)

theorem Inv.current (inv : Inv breaksAtZero answers nbytes position s) (some : s.nbytes ≠ 0) :
    Made answers nbytes s.calls :=
  ⟨inv.left ▸ Nat.pos_of_ne_zero some, fun call before => (inv.made call before).2⟩

theorem wholeBuffer_append (buf count position : Nat) :
    wholeBuffer buf position ++ (List.range count).map (fun i => (buf + i, position + buf + i)) =
      wholeBuffer (buf + count) position := by
  simp only [wholeBuffer, List.range_add, List.map_append, List.map_map, Function.comp_def,
    Nat.add_assoc]

/-- A round after which the loop goes on. -/
theorem Inv.goOn (inv : Inv breaksAtZero answers nbytes position s) (some : s.nbytes ≠ 0)
    (passes : (answers s.calls).Passes s.nbytes)
    (nonzero : breaksAtZero = true → answers s.calls ≠ .moved 0) :
    ∃ s', next breaksAtZero answers s = .again s' ∧ Inv breaksAtZero answers nbytes position s' ∧
      s'.calls = s.calls + 1 := by
  have made := inv.current some
  have madeBefore (call : Nat) (before : call < s.calls + 1) : Made answers nbytes call ∧
      (answers call).Passes (outstanding answers nbytes call) := by
    rcases Nat.lt_succ_iff_lt_or_eq.mp before with early | rfl
    · exact inv.made call early
    · exact ⟨made, inv.left ▸ passes⟩
  have unbroken (breaks : breaksAtZero = true) (call : Nat) (before : call < s.calls + 1) :
      answers call ≠ .moved 0 := by
    rcases Nat.lt_succ_iff_lt_or_eq.mp before with early | rfl
    · exact inv.breaks breaks call early
    · exact nonzero breaks
  cases answer : answers s.calls with
  | pythonError =>
    rw [answer] at passes
    exact passes.elim
  | failed errno =>
    have interrupted : errno = .eintr := by simpa only [answer, Answer.Passes] using passes
    subst interrupted
    refine ⟨{ s with calls := s.calls + 1 }, by simp only [next, if_neg some, answer, onError], ?_, rfl⟩
    refine ⟨?_, inv.buffer, inv.moved, inv.exact, inv.inside, madeBefore, ?_, unbroken⟩
    · change s.nbytes = outstanding answers nbytes (s.calls + 1)
      rw [outstanding_succ, answer, inv.left]
      rfl
    · rw [inv.zeros]
      refine ⟨fun zero => ?_, fun zero => ?_⟩
      · obtain ⟨call, before, moved⟩ := zero
        exact ⟨call, Nat.lt_succ_of_lt before, moved⟩
      · obtain ⟨call, before, moved⟩ := zero
        rcases Nat.lt_succ_iff_lt_or_eq.mp before with early | rfl
        · exact ⟨call, early, moved⟩
        · rw [answer] at moved
          cases moved
  | moved count =>
    have fits : count ≤ s.nbytes := by simpa only [answer, Answer.Passes] using passes
    have goesOn : ¬ (breaksAtZero = true ∧ count = 0) := by
      rintro ⟨breaks, rfl⟩
      exact nonzero breaks answer
    refine ⟨{ s with
        calls := s.calls + 1
        position := s.position + count
        log := s.log ++ [⟨s.buf, s.position, min s.nbytes chunkLimit, count⟩]
        buf := s.buf + count
        nbytes := s.nbytes - count },
      by simp only [next, if_neg some, answer, if_neg goesOn, if_pos fits], ?_, rfl⟩
    have buffer := inv.buffer
    refine ⟨?_, ?_, ?_, ?_, fun t member => ?_, madeBefore, ?_, unbroken⟩
    · change s.nbytes - count = outstanding answers nbytes (s.calls + 1)
      rw [outstanding_succ, answer, inv.left]
      rfl
    · change s.buf + count + (s.nbytes - count) = nbytes
      omega
    · change s.position + count = position + (s.buf + count)
      rw [inv.moved, Nat.add_assoc]
    · change (s.log ++ [_]).flatMap Transfer.bytes = wholeBuffer (s.buf + count) position
      rw [List.flatMap_append, inv.exact, List.flatMap_singleton, Transfer.bytes, inv.moved]
      exact wholeBuffer_append s.buf count position
    · rcases List.mem_append.mp member with old | new
      · exact inv.inside t old
      · obtain rfl := List.mem_singleton.mp new
        refine ⟨Nat.min_le_right _ _, ?_⟩
        change s.buf + min s.nbytes chunkLimit ≤ nbytes
        have block := Nat.min_le_left s.nbytes chunkLimit
        omega
    · constructor
      · rintro ⟨t, member, zero⟩
        rcases List.mem_append.mp member with old | new
        · obtain ⟨call, before, moved⟩ := inv.zeros.mp ⟨t, old, zero⟩
          exact ⟨call, Nat.lt_succ_of_lt before, moved⟩
        · obtain rfl := List.mem_singleton.mp new
          exact ⟨s.calls, Nat.lt_succ_self _, by rw [answer, show count = 0 from zero]⟩
      · rintro ⟨call, before, moved⟩
        rcases Nat.lt_succ_iff_lt_or_eq.mp before with early | rfl
        · obtain ⟨t, member, zero⟩ := inv.zeros.mpr ⟨call, early, moved⟩
          exact ⟨t, List.mem_append_left _ member, zero⟩
        · rw [answer, Answer.moved.injEq] at moved
          exact ⟨_, List.mem_append_right _ (List.mem_singleton_self _), moved⟩

/-- A round in which the loop raises. -/
theorem Inv.raises (inv : Inv breaksAtZero answers nbytes position s) (some : s.nbytes ≠ 0)
    (raises : Raises breaksAtZero answers nbytes s.calls) :
    ∃ fault s', next breaksAtZero answers s = .raised fault s' ∧
      ∀ t ∈ s'.log, t.asked ≤ chunkLimit ∧ t.offset + t.asked ≤ nbytes := by
  obtain ⟨-, why⟩ := raises
  have last (count : Nat) : ∀ t ∈ s.log ++ [⟨s.buf, s.position, min s.nbytes chunkLimit, count⟩],
      t.asked ≤ chunkLimit ∧ t.offset + t.asked ≤ nbytes := by
    intro t member
    rcases List.mem_append.mp member with old | new
    · exact inv.inside t old
    · obtain rfl := List.mem_singleton.mp new
      refine ⟨Nat.min_le_right _ _, ?_⟩
      change s.buf + min s.nbytes chunkLimit ≤ nbytes
      have block := Nat.min_le_left s.nbytes chunkLimit
      have buffer := inv.buffer
      omega
  rw [← inv.left] at why
  simp only [next, if_neg some]
  cases answer : answers s.calls with
  | pythonError => exact ⟨_, _, rfl, inv.inside⟩
  | failed errno =>
    cases errno with
    | zero => exact ⟨_, _, rfl, inv.inside⟩
    | eagain => exact ⟨_, _, rfl, inv.inside⟩
    | other code => exact ⟨_, _, rfl, inv.inside⟩
    | eintr => simp [answer, Answer.Passes] at why
  | moved count =>
    by_cases breaks : breaksAtZero = true ∧ count = 0
    · simp only [if_pos breaks]
      exact ⟨_, _, rfl, last count⟩
    · have many : ¬ count ≤ s.nbytes := by
        rcases why with stops | ⟨yes, zero⟩
        · simpa only [answer, Answer.Passes] using stops
        · rw [answer, Answer.moved.injEq] at zero
          exact absurd ⟨yes, zero⟩ breaks
      simp only [if_neg breaks, if_neg many]
      exact ⟨_, _, rfl, last count⟩

/-! ### Runs -/

/-- How a run ends. -/
structure Ended (breaksAtZero : Bool) (answers : Nat → Answer) (nbytes position : Nat)
    (result : Except Fault Unit) (s : Loop) : Prop where
  complete : result = .ok () → Inv breaksAtZero answers nbytes position s ∧ s.nbytes = 0
  raised : ∀ fault, result = .error fault → ∃ call, Raises breaksAtZero answers nbytes call
  inside : ∀ t ∈ s.log, t.asked ≤ chunkLimit ∧ t.offset + t.asked ≤ nbytes

theorem raises_or_goOn (inv : Inv breaksAtZero answers nbytes position s) (some : s.nbytes ≠ 0) :
    Raises breaksAtZero answers nbytes s.calls ∨
      (answers s.calls).Passes s.nbytes ∧ (breaksAtZero = true → answers s.calls ≠ .moved 0) := by
  by_cases passes : (answers s.calls).Passes s.nbytes
  · by_cases breaks : breaksAtZero = true ∧ answers s.calls = .moved 0
    · exact .inl ⟨inv.current some, .inr breaks⟩
    · exact .inr ⟨passes, fun yes zero => breaks ⟨yes, zero⟩⟩
  · exact .inl ⟨inv.current some, .inl (inv.left ▸ passes)⟩

section
variable {s' : Loop} {fault : Fault}

theorem run_done (fuel : Nat) (none : s.nbytes = 0) :
    run breaksAtZero answers (fuel + 1) s = some (.ok (), s) := by
  rw [run, show next breaksAtZero answers s = .done s by rw [next, if_pos none]]

theorem run_again (fuel : Nat) (goes : next breaksAtZero answers s = .again s') :
    run breaksAtZero answers (fuel + 1) s = run breaksAtZero answers fuel s' := by
  rw [run, goes]

theorem run_raised (fuel : Nat) (raised : next breaksAtZero answers s = .raised fault s') :
    run breaksAtZero answers (fuel + 1) s = some (.error fault, s') := by
  rw [run, raised]

end

theorem run_ended {fuel : Nat} {result : Except Fault Unit} {final : Loop}
    (inv : Inv breaksAtZero answers nbytes position s)
    (ran : run breaksAtZero answers fuel s = some (result, final)) :
    Ended breaksAtZero answers nbytes position result final := by
  induction fuel generalizing s with
  | zero => cases ran
  | succ fuel ih =>
    by_cases done : s.nbytes = 0
    · rw [run_done fuel done] at ran
      cases ran
      exact ⟨fun _ => ⟨inv, done⟩, fun _ never => (by cases never), inv.inside⟩
    · rcases raises_or_goOn inv done with raises | ⟨passes, nonzero⟩
      · obtain ⟨fault, s', raised, inside⟩ := inv.raises done raises
        rw [run_raised fuel raised] at ran
        cases ran
        exact ⟨fun never => (by cases never), fun _ _ => ⟨s.calls, raises⟩, inside⟩
      · obtain ⟨s', goes, inv', -⟩ := inv.goOn done passes nonzero
        rw [run_again fuel goes] at ran
        exact ih inv' ran

/-- A loop comes to the call at which it raises. -/
theorem ends_at_raise (raises : Raises breaksAtZero answers nbytes call)
    (inv : Inv breaksAtZero answers nbytes position s) (before : s.calls ≤ call) :
    ∃ fuel outcome, run breaksAtZero answers fuel s = some outcome := by
  induction rest : call - s.calls generalizing s with
  | zero =>
    obtain rfl : s.calls = call := by omega
    have some : s.nbytes ≠ 0 := Nat.ne_of_gt (inv.left ▸ raises.1.1)
    obtain ⟨fault, s', raised, -⟩ := inv.raises some raises
    exact ⟨1, _, run_raised 0 raised⟩
  | succ rest ih =>
    have some : s.nbytes ≠ 0 := Nat.ne_of_gt (inv.left ▸ (raises.1.earlier before).1)
    rcases raises_or_goOn inv some with here | ⟨passes, nonzero⟩
    · obtain ⟨fault, s', raised, -⟩ := inv.raises some here
      exact ⟨1, _, run_raised 0 raised⟩
    · obtain ⟨s', goes, inv', moved⟩ := inv.goOn some passes nonzero
      obtain ⟨fuel, outcome, ran⟩ := ih inv' (by omega) (by omega)
      exact ⟨fuel + 1, outcome, (run_again fuel goes).trans ran⟩

/-- Where every call that moves nothing makes a loop raise, a round ends it, leaves less
outstanding or was interrupted. -/
theorem ends_or_less
    (nonzero : ∀ call, Made answers nbytes call → answers call = .moved 0 → breaksAtZero = true)
    (inv : Inv breaksAtZero answers nbytes position s) :
    (∃ outcome, run breaksAtZero answers 1 s = some outcome) ∨
      ∃ s', next breaksAtZero answers s = .again s' ∧ Inv breaksAtZero answers nbytes position s' ∧
        s'.calls = s.calls + 1 ∧
        (s'.nbytes < s.nbytes ∨ s'.nbytes = s.nbytes ∧ answers s.calls = .failed .eintr) := by
  by_cases done : s.nbytes = 0
  · exact .inl ⟨_, run_done 0 done⟩
  rcases raises_or_goOn inv done with raises | ⟨passes, goesOn⟩
  · obtain ⟨fault, s', raised, -⟩ := inv.raises done raises
    exact .inl ⟨_, run_raised 0 raised⟩
  obtain ⟨s', goes, inv', moved⟩ := inv.goOn done passes goesOn
  have less : s'.nbytes = s.nbytes - (answers s.calls).count := by
    rw [inv'.left, moved, outstanding_succ, inv.left]
  refine .inr ⟨s', goes, inv', moved, ?_⟩
  cases answer : answers s.calls with
  | pythonError =>
    rw [answer] at passes
    exact passes.elim
  | failed errno =>
    rw [answer] at less passes
    exact .inr ⟨less, congrArg Answer.failed passes⟩
  | moved count =>
    have positive : count ≠ 0 := by
      rintro rfl
      exact goesOn (nonzero _ (inv.current done) answer) answer
    rw [answer] at less
    change s'.nbytes = s.nbytes - count at less
    omega

/-- It ends when no interruption lasts. -/
theorem ends_without_zero (interrupted : ∀ call, ∃ later, call ≤ later ∧ answers later ≠ .failed .eintr)
    (nonzero : ∀ call, Made answers nbytes call → answers call = .moved 0 → breaksAtZero = true)
    (inv : Inv breaksAtZero answers nbytes position s) :
    ∃ fuel outcome, run breaksAtZero answers fuel s = some outcome := by
  induction left : s.nbytes using Nat.strong_induction_on generalizing s with
  | _ left less =>
    obtain ⟨later, order, other⟩ := interrupted s.calls
    -- the next answer that is no interruption comes nearer with every round
    induction rest : later - s.calls generalizing s with
    | zero =>
      obtain rfl : s.calls = later := by omega
      rcases ends_or_less nonzero inv with ends | ⟨s', goes, inv', -, smaller | ⟨-, interruption⟩⟩
      · exact ⟨1, ends⟩
      · obtain ⟨fuel, outcome, ran⟩ := less _ (left ▸ smaller) inv' rfl
        exact ⟨fuel + 1, outcome, (run_again fuel goes).trans ran⟩
      · exact absurd interruption other
    | succ rest ih =>
      rcases ends_or_less nonzero inv with ends | ⟨s', goes, inv', moved, smaller | ⟨same, -⟩⟩
      · exact ⟨1, ends⟩
      · obtain ⟨fuel, outcome, ran⟩ := less _ (left ▸ smaller) inv' rfl
        exact ⟨fuel + 1, outcome, (run_again fuel goes).trans ran⟩
      · obtain ⟨fuel, outcome, ran⟩ := ih inv' (same.trans left) (by omega) (by omega)
        exact ⟨fuel + 1, outcome, (run_again fuel goes).trans ran⟩

/-! ### Both loops -/

theorem Inv.lawful_exact (inv : Inv breaksAtZero answers nbytes position s) (none : s.nbytes = 0) :
    s.log.flatMap Transfer.bytes = wholeBuffer nbytes position ∧ s.position = position + nbytes := by
  have whole : s.buf = nbytes := by
    have buffer := inv.buffer
    omega
  exact ⟨whole ▸ inv.exact, whole ▸ inv.moved⟩

/-- A loop is lawful when it ends and no run of it completes behind a call that moved nothing. -/
theorem lawful_of (ends : ∃ fuel outcome, run breaksAtZero answers fuel { nbytes, position } =
      some outcome)
    (nonzero : ∀ {s : Loop}, Inv breaksAtZero answers nbytes position s → s.nbytes = 0 →
      ∀ call < s.calls, answers call ≠ .moved 0) :
    Lawful nbytes position fun fuel => run breaksAtZero answers fuel { nbytes, position } where
  ends := ends
  exact ran := by
    obtain ⟨inv, none⟩ := (run_ended (.start ..) ran).complete rfl
    exact inv.lawful_exact none
  short {fuel result s} ran zero := by
    cases result with
    | error fault => exact ⟨fault, rfl⟩
    | ok value =>
      obtain ⟨inv, none⟩ := (run_ended (.start ..) ran).complete rfl
      obtain ⟨call, before, moved⟩ := inv.zeros.mp zero
      exact absurd moved (nonzero inv none call before)
  inside ran := (run_ended (.start ..) ran).inside

theorem doRead_lawful (interrupted : ∀ call, ∃ later, call ≤ later ∧ answers later ≠ .failed .eintr) :
    Lawful nbytes position (doRead answers nbytes position) :=
  lawful_of (ends_without_zero interrupted (fun _ _ _ => rfl) (.start ..))
    fun inv _ => inv.breaks rfl

/-- All calls that `doWrite` makes before it is done. -/
theorem Inv.made_of_done (inv : Inv breaksAtZero answers nbytes position s) (none : s.nbytes = 0)
    (made : Made answers nbytes call) : call < s.calls := by
  by_contra order
  have less := @outstanding_antitone answers nbytes _ _ (Nat.le_of_not_lt order)
  rw [← inv.left, none] at less
  exact absurd made.1 (Nat.not_lt.mpr less)

theorem raises_doWrite_iff : Raises false answers nbytes call ↔
    Made answers nbytes call ∧ ¬ (answers call).Passes (outstanding answers nbytes call) := by
  simp [Raises]

theorem doWrite_lawful_iff
    (interrupted : ∀ call, ∃ later, call ≤ later ∧ answers later ≠ .failed .eintr) :
    Lawful nbytes position (doWrite answers nbytes position) ↔
      (∃ call, Made answers nbytes call ∧
        ¬ (answers call).Passes (outstanding answers nbytes call)) ∨
      ∀ call, Made answers nbytes call → answers call ≠ .moved 0 := by
  constructor
  · intro lawful
    by_contra neither
    obtain ⟨passing, zero⟩ := not_or.mp neither
    push Not at zero
    obtain ⟨call, made, moved⟩ := zero
    obtain ⟨fuel, ⟨result, s⟩, ran⟩ := lawful.ends
    have ended := run_ended (.start ..) ran
    have noRaise (fault : Fault) : result ≠ .error fault := by
      intro raised
      obtain ⟨failing, raises⟩ := ended.raised fault raised
      exact passing ⟨failing, raises_doWrite_iff.mp raises⟩
    have completed : result = .ok () := by
      cases result with
      | ok => rfl
      | error fault => exact absurd rfl (noRaise fault)
    obtain ⟨inv, none⟩ := ended.complete completed
    have logged := inv.zeros.mpr ⟨call, inv.made_of_done none made, moved⟩
    obtain ⟨fault, raised⟩ := lawful.short ran logged
    exact noRaise fault raised
  · rintro (⟨call, fails⟩ | nonzero)
    · refine lawful_of (ends_at_raise (raises_doWrite_iff.mpr fails) (.start ..) (Nat.zero_le _))
        fun inv none _ _ _ => ?_
      exact fails.2 (inv.made call (inv.made_of_done none fails.1)).2
    · exact lawful_of
        (ends_without_zero interrupted (fun call made zero => absurd zero (nonzero call made))
          (.start ..))
        fun inv _ call before => nonzero call (inv.made call before).1

/-- Both loops transfer a buffer exactly or raise, for every sequence of answers in which no
interruption lasts, exactly when `doWrite` comes to an answer that makes it raise or to none
that moves nothing. -/
theorem chunked_io_exact
    (interrupted : ∀ call, ∃ later, call ≤ later ∧ answers later ≠ .failed .eintr) :
    (Lawful nbytes position (doRead answers nbytes position) ∧
        Lawful nbytes position (doWrite answers nbytes position)) ↔
      (∃ call, Made answers nbytes call ∧
        ¬ (answers call).Passes (outstanding answers nbytes call)) ∨
      ∀ call, Made answers nbytes call → answers call ≠ .moved 0 := by
  rw [← doWrite_lawful_iff interrupted]
  exact and_iff_right (doRead_lawful interrupted)

theorem chunked_io_exact_bytes :
    Lawful 3 0 (doRead (fun _ => .moved 1) 3 0) ∧ Lawful 3 0 (doWrite (fun _ => .moved 1) 3 0) :=
  (chunked_io_exact fun call => ⟨call, le_rfl, show Answer.moved 1 ≠ .failed .eintr by decide⟩).mpr
    (.inr fun _ _ => show Answer.moved 1 ≠ .moved 0 by decide)

/-- Where nothing is ever moved, `doWrite` does not end; and where one call moves nothing and the
next the whole buffer, it completes. -/
theorem doWrite_ignores_zero :
    ¬ Lawful 1 0 (doWrite (fun _ => .moved 0) 1 0) ∧
      ¬ Lawful 1 0 (doWrite (fun call => .moved call) 1 0) := by
  constructor
  · intro lawful
    obtain ⟨fuel, outcome, ran⟩ := lawful.ends
    have goes : ∀ fuel s, s.nbytes = 1 → run false (fun _ => .moved 0) fuel s = none := by
      intro fuel
      induction fuel with
      | zero => exact fun _ _ => rfl
      | succ fuel ih =>
        intro s one
        rw [run_again fuel (by simp only [next, one]; rfl)]
        exact ih _ rfl
    exact absurd (ran.symm.trans (goes fuel _ rfl)) (Option.some_ne_none _)
  · intro lawful
    have done : doWrite (fun call => .moved call) 1 0 3 = some (.ok (),
      { nbytes := 0, position := 1, buf := 1, calls := 2, log := [⟨0, 0, 1, 0⟩, ⟨0, 0, 1, 1⟩] }) := rfl
    obtain ⟨fault, raised⟩ := lawful.short done ⟨_, List.mem_cons_self, rfl⟩
    cases raised

end TorchGcu.PartialIO

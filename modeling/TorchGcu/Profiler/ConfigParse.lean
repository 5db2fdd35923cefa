import TorchGcu.Profiler.ConfigOptions

/-! The parse of a configuration: the options of the lines are applied one by one, and the settings
are validated in the end. -/
namespace TorchGcu.ProfilerConfig

/-! ### Validation -/

/-- `Config::alignUp`. -/
def alignUp (duration alignment : Int) : Except Failure Int := do
  let duration ← int64 (duration + alignment)
  int64 (duration - (← modulo duration alignment))

def hasProfileStartIteration (c : Config) : Bool :=
  decide (c.profileStartIteration ≥ 0) && decide (c.activitiesRunIterations > 0)

def hasProfileStartTime (c : Config) : Bool :=
  decide (c.requestTimestamp > 0) || decide (c.profileStartTime > 0)

def validateSamplePeriod (c : Config) : Config :=
  if c.samplePeriod = 0 then { c with samplePeriod := 1 } else c

def clampMultiplexPeriod (c : Config) : Config :=
  if c.multiplexPeriod < c.samplePeriod then { c with multiplexPeriod := c.samplePeriod } else c

def validateMultiplexPeriod (c : Config) : Except Failure Config := do
  if (← modulo c.multiplexPeriod c.samplePeriod) ≠ 0 then
    return { c with multiplexPeriod := ← alignUp c.multiplexPeriod c.samplePeriod }
  else return c

def validateReportPeriod (c : Config) : Except Failure Config := do
  if (← modulo c.reportPeriod c.multiplexPeriod) ≠ 0 ∨ c.reportPeriod = 0 then
    return { c with reportPeriod := ← alignUp c.reportPeriod c.multiplexPeriod }
  else return c

/-- `max_samples_per_report`, an `int`. -/
def maxSamplesPerReport (c : Config) : Except Failure Int :=
  if c.samplePeriod = 0 then .error .divisionByZero
  else .ok ((c.reportPeriod.tdiv c.samplePeriod).bmod (2 ^ 32))

def raiseSamplesPerReport (c : Config) : Config :=
  if c.samplesPerReport < 1 then { c with samplesPerReport := 1 } else c

def validateSamplesPerReport (c : Config) : Except Failure Config := do
  let most ← maxSamplesPerReport c
  if c.samplesPerReport > most then return { c with samplesPerReport := most } else return c

/-- Twice `kControllerIntervalMsecs`. -/
def startBuffer : Int := 2 * 1000 * 10 ^ 6

def validateStartTime (fallbackProfileStartTime : Int) (c : Config) : Except Failure Config :=
  if hasProfileStartTime c then .ok c
  else do
    let warm ← int64 (fallbackProfileStartTime + c.activitiesWarmupDuration * 10 ^ 9)
    return { c with profileStartTime := ← int64 (warm + startBuffer) }

def validateIterations (c : Config) : Config :=
  let c := if c.profileStartIterationRoundUp = 0 then
    { c with profileStartIterationRoundUp := -1 } else c
  if c.profileStartIterationRoundUp > 0 && !hasProfileStartIteration c then
    { c with profileStartIteration := 0 }
  else c

def validateActivityTypes (c : Config) : Config :=
  if c.selectedActivityTypes = ∅ then
    { c with selectedActivityTypes := defaultActivityTypes.toFinset }
  else c

/-- `Config::validate`. -/
def validate (fallbackProfileStartTime : Int) (c : Config) : Except Failure Config := do
  let c ← validateMultiplexPeriod (clampMultiplexPeriod (validateSamplePeriod c))
  let c ← validateReportPeriod c
  let c ← validateSamplesPerReport (raiseSamplesPerReport c)
  let c ← validateStartTime fallbackProfileStartTime c
  return validateActivityTypes (validateIterations c)

/-! ### Parsing -/

/-- The lines that are not blank, without their comments. -/
def lines (conf : Text) : List Text :=
  ((conf.splitOn (Char.ofNat 10)).map stripComment).filter fun line => !line.all isWhitespace

/-- The name and the value of an option. -/
def entry (line : Text) : Option (Text × Text) :=
  match splitAndTrim line '=' with
  | [name, val] => some (name, val)
  | _ => none

def parseLine (processId : Text) (now : Int) (c : Config) (line : Text) :
    Except Rejected Config :=
  match entry line with
  | some (name, val) => handleOption processId now c name val
  | none => .error ⟨c, .invalidArgument⟩

/-- The clock is read again for every line. -/
def parseLines (processId : Text) : List Int → Config → List Text → Except Rejected Config
  | _, c, [] => .ok c
  | clock, c, line :: rest => do
    let c ← parseLine processId (clock.headD 0) c line
    parseLines processId clock.tail c rest

inductive Outcome where
  | parsed (c : Config)
  | rejected (c : Config)
  /-- The code has no defined result. -/
  | undefined (failure : Failure)
deriving DecidableEq

/-- `AbstractConfig::parse`, with the times that it reads at its start, at each line and at its
end. -/
def parse (processId : Text) (first : Int) (clock : List Int) (last : Int) (config : Config)
    (conf : Text) : Outcome :=
  match parseLines processId clock { config with timestamp := first } (lines conf) with
  | .error ⟨c, .invalidArgument⟩ => .rejected c
  | .error ⟨_, failure⟩ => .undefined failure
  | .ok c =>
    match validate first c with
    | .ok c => .parsed { c with source := conf, timestamp := last }
    | .error failure => .undefined failure

/-- `setMaxBufferSize`, which counts buffers of `kBufSize` bytes. -/
def maxGcuBufferCount (size : Int) : Int := 1 + size.tdiv (4 * 1024 * 1024)

/-! ### What is promised -/

/-- The options of a text. -/
def entries (conf : Text) : List (Text × Text) := (lines conf).filterMap entry

/-- The megabytes that an option asks for. -/
def megabytes (option : Text × Text) : Option Int :=
  if keys.lookup option.1 = some .activitiesMaxGcuBufferSize then (toInt32 option.2).toOption
  else none

/-- The last request for a size of the buffers. -/
def requestedMegabytes (options : List (Text × Text)) : Option Int :=
  (options.filterMap megabytes).getLast?

/-- The value of an option stays an `int` in bytes, or a time in nanoseconds. -/
structure Modest (option : Text × Text) : Prop where
  buffer : keys.lookup option.1 = some .activitiesMaxGcuBufferSize →
    ∀ n, toInt32 option.2 = .ok n → n < 2048
  time : keys.lookup option.1 = some .requestTimestamp ∨
      keys.lookup option.1 = some .profileStartTime →
    ∀ ms, toInt64 option.2 = .ok ms → ms * 10 ^ 6 ≤ int64Max

/-- Settings as constructors and setters leave them. -/
structure Usual (c : Config) : Prop where
  samplePeriod : 0 ≤ c.samplePeriod ∧ c.samplePeriod < 2 ^ 61
  multiplexPeriod : 0 ≤ c.multiplexPeriod ∧ c.multiplexPeriod < 2 ^ 61
  reportPeriod : 0 ≤ c.reportPeriod ∧ c.reportPeriod < 2 ^ 61
  warmup : 0 ≤ c.activitiesWarmupDuration ∧ c.activitiesWarmupDuration < 2 ^ 31
  buffer : 0 ≤ c.activitiesMaxGcuBufferSize

/-- The size of the buffers that the options ask for, or the one before. -/
def bufferSize (c : Config) (options : List (Text × Text)) : Int :=
  (requestedMegabytes options).elim c.activitiesMaxGcuBufferSize (· * 1024 * 1024)

/-- Settings that the profiler can work with. -/
structure Valid (c : Config) : Prop where
  samplePeriod : 0 < c.samplePeriod
  multiplexPeriod : 0 < c.multiplexPeriod ∧ c.samplePeriod ∣ c.multiplexPeriod
  reportPeriod : 0 < c.reportPeriod ∧ c.multiplexPeriod ∣ c.reportPeriod
  samplesPerReport : c.reportPeriod / c.samplePeriod < 2 ^ 31 →
    1 ≤ c.samplesPerReport ∧ c.samplesPerReport ≤ c.reportPeriod / c.samplePeriod
  buffers : 0 < maxGcuBufferCount c.activitiesMaxGcuBufferSize

/-- The activities of a list before the first unknown one. -/
def knownActivities (activities : List Text) : Finset Text :=
  ((activities.takeWhile fun activity =>
    activity.isEmpty || activityTypes.contains activity).filter (· ≠ [])).toFinset

/-- The settings that an option leaves which is not taken. -/
def leftBy (c : Config) (key : Key) (val : Text) : Config :=
  if key = .activityTypes then
    { c with selectedActivityTypes := knownActivities (splitAndTrim (toLower val) ',') }
  else c

/-- The settings that a rejected line leaves. -/
def leftByLine (c : Config) (line : Text) : Config :=
  (entry line).elim c fun option =>
    (keys.lookup option.1).elim c fun key => leftBy c key option.2

/-- What the lines before the rejected one leave, cut short by it if it names activity types. Whether
the settings are then validated is left open. -/
structure StoppedAt (processId : Text) (first : Int) (clock : List Int) (before : Config)
    (all : List Text) (after : Config) : Prop where
  line : ∃ done line rest c, all = done ++ line :: rest ∧
    parseLines processId clock before done = .ok c ∧
    (∃ r, parseLine processId ((clock.drop done.length).headD 0) c line = .error r ∧
      r.failure = .invalidArgument) ∧
    (after = leftByLine c line ∨ validate first (leftByLine c line) = .ok after)

/-! ### Values -/

theorem toIntRange_ok {val : Text} {least most n : Int} (read : toIntRange val least most = .ok n) :
    least ≤ n ∧ n ≤ most := by
  unfold toIntRange at read
  generalize strtoll val = parts at read
  obtain ⟨res, rest⟩ := parts
  simp only at read
  split at read
  · cases read
  · split at read
    · cases read
    · cases read
      omega

theorem toIntRange_error {val : Text} {least most : Int} {failure : Failure}
    (read : toIntRange val least most = .error failure) : failure = .invalidArgument := by
  unfold toIntRange at read
  generalize strtoll val = parts at read
  obtain ⟨res, rest⟩ := parts
  simp only at read
  split at read
  · cases read
    rfl
  · split at read
    · cases read
      rfl
    · cases read

theorem toBool_error {val : Text} {failure : Failure} (read : toBool val = .error failure) :
    failure = .invalidArgument := by
  unfold toBool at read
  split at read
  · cases read
  · cases read
    rfl

theorem int32_ok {n m : Int} : int32 n = .ok m ↔ m = n ∧ -2 ^ 31 ≤ n ∧ n < 2 ^ 31 := by
  unfold int32
  split
  · rename_i inside
    exact ⟨fun same => ⟨(Except.ok.inj same).symm, inside⟩, fun both => by rw [both.1]⟩
  · rename_i outside
    exact ⟨fun never => (by cases never), fun both => absurd both.2 outside⟩

theorem int64_ok {n m : Int} : int64 n = .ok m ↔ m = n ∧ -2 ^ 63 ≤ n ∧ n < 2 ^ 63 := by
  unfold int64 int64Min int64Max
  split
  · rename_i inside
    exact ⟨fun same => ⟨(Except.ok.inj same).symm, by omega⟩, fun both => by rw [both.1]⟩
  · rename_i outside
    exact ⟨fun never => (by cases never), fun both => absurd both.2 (by omega)⟩

theorem int64_of_bounds {n : Int} (above : -2 ^ 63 ≤ n) (below : n < 2 ^ 63) :
    int64 n = .ok n := int64_ok.mpr ⟨rfl, above, below⟩

theorem int32_of_bounds {n : Int} (above : -2 ^ 31 ≤ n) (below : n < 2 ^ 31) :
    int32 n = .ok n := int32_ok.mpr ⟨rfl, above, below⟩

theorem createDeviceMask_error {val : Text} {failure : Failure}
    (read : createDeviceMask val = .error failure) : failure = .invalidArgument := by
  unfold createDeviceMask at read
  generalize (0 : BitVec 8) = mask at read
  generalize splitAndTrim val ',' = devices at read
  induction devices generalizing mask with
  | nil => cases read
  | cons d rest ih =>
    rw [List.foldlM_cons] at read
    cases value : toIntRange d 0 7 with
    | error other =>
      rw [value] at read
      cases read
      exact toIntRange_error value
    | ok n =>
      rw [value] at read
      exact ih _ read

/-- A time that is not early enough for `int64_t` overflows, and nothing else does. -/
theorem handleRequestTimestamp_error {now ms : Int} {failure : Failure} (clock : 0 ≤ now)
    (least : 0 ≤ ms) (modest : ms * 10 ^ 6 ≤ int64Max) (later : now < 2 ^ 62)
    (read : handleRequestTimestamp now ms = .error failure) : failure = .invalidArgument := by
  unfold int64Max at modest
  unfold handleRequestTimestamp at read
  rw [int64_of_bounds (by omega) (by omega)] at read
  simp only [bind, Except.bind] at read
  split at read
  · cases read
    rfl
  · rw [int64_of_bounds (by omega) (by omega)] at read
    simp only at read
    split at read
    · cases read
      rfl
    · cases read

theorem handleProfileStartTime_error {now ms : Int} {failure : Failure} (clock : 0 ≤ now)
    (least : 0 ≤ ms) (modest : ms * 10 ^ 6 ≤ int64Max) (later : now < 2 ^ 62)
    (read : handleProfileStartTime now ms = .error failure) : failure = .invalidArgument := by
  unfold int64Max at modest
  unfold handleProfileStartTime at read
  split at read
  · cases read
  rw [int64_of_bounds (by omega) (by omega)] at read
  simp only [bind, Except.bind] at read
  rw [int64_of_bounds (by omega) (by omega)] at read
  simp only at read
  split at read
  · cases read
    rfl
  · cases read

/-! ### Options -/

variable {processId : Text} {now : Int} {c c' : Config} {key : Key} {val : Text}

theorem store_ok {α : Type} {value : Except Failure α} {set : α → Config} :
    store c value set = .ok c' ↔ ∃ a, value = .ok a ∧ c' = set a := by
  cases value with
  | ok a => simp [store, eq_comm]
  | error failure => simp [store]

theorem store_error {α : Type} {value : Except Failure α} {set : α → Config} {r : Rejected} :
    store c value set = .error r ↔ ∃ failure, value = .error failure ∧ r = ⟨c, failure⟩ := by
  cases value with
  | ok a => simp [store]
  | error failure => simp [store, eq_comm]

/-- The activity types are the only setting that `setActivityTypes` changes, also when it stops. -/
theorem insertActivityTypes_ok {activities : List Text} {c c' : Config}
    (inserted : insertActivityTypes c activities = .ok c') :
    c' = { c with selectedActivityTypes := c'.selectedActivityTypes } := by
  induction activities generalizing c with
  | nil =>
    cases inserted
    rfl
  | cons activity activities ih =>
    rw [insertActivityTypes] at inserted
    split at inserted
    · exact ih inserted
    · split at inserted
      · have rest := ih inserted
        exact rest
      · cases inserted

theorem insertActivityTypes_error {activities : List Text} {c : Config} {r : Rejected}
    (inserted : insertActivityTypes c activities = .error r) :
    r.failure = .invalidArgument ∧ r.config =
      { c with selectedActivityTypes := c.selectedActivityTypes ∪ knownActivities activities } := by
  induction activities generalizing c with
  | nil => cases inserted
  | cons activity activities ih =>
    rw [insertActivityTypes] at inserted
    split at inserted
    · rename_i blank
      subst blank
      exact ih inserted
    · rename_i named
      split at inserted
      · rename_i known
        have both : knownActivities (activity :: activities) =
            insert activity (knownActivities activities) := by
          simp [knownActivities, known, named]
        rw [both, Finset.union_insert, ← Finset.insert_union]
        exact ih inserted
      · rename_i unknown
        cases inserted
        have none : knownActivities (activity :: activities) = ∅ := by
          simp [knownActivities, unknown, named]
        rw [none, Finset.union_empty]
        exact ⟨rfl, rfl⟩

/-- The settings that are validated, and those that options do not touch, stay as they are. -/
structure SameBounds (c c' : Config) : Prop where
  samplePeriod : c'.samplePeriod = c.samplePeriod
  multiplexPeriod : c'.multiplexPeriod = c.multiplexPeriod
  reportPeriod : c'.reportPeriod = c.reportPeriod
  warmup : c'.activitiesWarmupDuration = c.activitiesWarmupDuration
  buffer : c'.activitiesMaxGcuBufferSize = c.activitiesMaxGcuBufferSize

theorem Usual.same (usual : Usual c) (same : SameBounds c c') : Usual c' := by
  obtain ⟨samplePeriod, multiplexPeriod, reportPeriod, warmup, buffer⟩ := same
  exact ⟨samplePeriod ▸ usual.samplePeriod, multiplexPeriod ▸ usual.multiplexPeriod,
    reportPeriod ▸ usual.reportPeriod, warmup ▸ usual.warmup, buffer ▸ usual.buffer⟩

/-- The options that set something that is not bounded here. -/
theorem handleKey_same (handled : handleKey processId now c key val = .ok c')
    (other : key ≠ .samplePeriod ∧ key ≠ .multiplexPeriod ∧ key ≠ .reportPeriod ∧
      key ≠ .activitiesWarmupDurationSecs ∧ key ≠ .activitiesMaxGcuBufferSize) :
    SameBounds c c' := by
  cases key with
  | samplePeriod => exact absurd rfl other.1
  | multiplexPeriod => exact absurd rfl other.2.1
  | reportPeriod => exact absurd rfl other.2.2.1
  | activitiesWarmupDurationSecs => exact absurd rfl other.2.2.2.1
  | activitiesMaxGcuBufferSize => exact absurd rfl other.2.2.2.2
  | activityTypes =>
    have changed := insertActivityTypes_ok handled
    rw [changed]
    exact ⟨rfl, rfl, rfl, rfl, rfl⟩
  | _ =>
    first
      | obtain ⟨_, _, rfl⟩ := store_ok.mp handled
        exact ⟨rfl, rfl, rfl, rfl, rfl⟩
      | cases handled
        exact ⟨rfl, rfl, rfl, rfl, rfl⟩

/-- What an option asks for the buffers. -/
theorem handleKey_buffer (usual : Usual c) (handled : handleKey processId now c key val = .ok c') :
    Usual c' ∧ c'.activitiesMaxGcuBufferSize =
      (if key = .activitiesMaxGcuBufferSize then (toInt32 val).toOption else none).elim
        c.activitiesMaxGcuBufferSize (· * 1024 * 1024) := by
  by_cases other : key ≠ .samplePeriod ∧ key ≠ .multiplexPeriod ∧ key ≠ .reportPeriod ∧
      key ≠ .activitiesWarmupDurationSecs ∧ key ≠ .activitiesMaxGcuBufferSize
  · have same := handleKey_same handled other
    rw [if_neg other.2.2.2.2]
    exact ⟨usual.same same, same.buffer⟩
  cases key with
  | samplePeriod =>
    obtain ⟨n, value, rfl⟩ := store_ok.mp handled
    have bounds := toIntRange_ok value
    exact ⟨{ usual with samplePeriod := by constructor <;> (simp only; omega) }, rfl⟩
  | multiplexPeriod =>
    obtain ⟨n, value, rfl⟩ := store_ok.mp handled
    have bounds := toIntRange_ok value
    exact ⟨{ usual with multiplexPeriod := by constructor <;> (simp only; omega) }, rfl⟩
  | reportPeriod =>
    obtain ⟨n, value, rfl⟩ := store_ok.mp handled
    have bounds := toIntRange_ok value
    exact ⟨{ usual with reportPeriod := by constructor <;> (simp only; omega) }, rfl⟩
  | activitiesWarmupDurationSecs =>
    obtain ⟨n, value, rfl⟩ := store_ok.mp handled
    have bounds := toIntRange_ok value
    exact ⟨{ usual with warmup := by constructor <;> (simp only; omega) }, rfl⟩
  | activitiesMaxGcuBufferSize =>
    obtain ⟨n, value, rfl⟩ := store_ok.mp handled
    cases read : toInt32 val with
    | error failure => simp [read, bind, Except.bind] at value
    | ok mb =>
      have bounds := toIntRange_ok read
      simp only [read, bind, Except.bind] at value
      cases kilobytes : int32 (mb * 1024) with
      | error failure => simp [kilobytes] at value
      | ok kb =>
        simp only [kilobytes] at value
        have first := int32_ok.mp kilobytes
        have second := int32_ok.mp value
        rw [if_pos rfl]
        refine ⟨{ usual with buffer := ?_ }, ?_⟩
        · simp only
          omega
        · simp only [Except.toOption, Option.elim_some]
          omega
  | _ => exact absurd ⟨by decide, by decide, by decide, by decide, by decide⟩ other

theorem handleKey_error {r : Rejected} (handled : handleKey processId now c key val = .error r) :
    r.config = leftBy c key val := by
  cases key with
  | activityTypes =>
    rw [(insertActivityTypes_error handled).2, Finset.empty_union]
    rfl
  | _ =>
    first
      | obtain ⟨_, _, rfl⟩ := store_error.mp handled
        rfl
      | cases handled

/-- Only a size or a time that is too large overflows. -/
theorem handleKey_invalid {r : Rejected} (clock : 0 ≤ now ∧ now < 2 ^ 62)
    (buffer : key = .activitiesMaxGcuBufferSize → ∀ n, toInt32 val = .ok n → n < 2048)
    (time : key = .requestTimestamp ∨ key = .profileStartTime →
      ∀ ms, toInt64 val = .ok ms → ms * 10 ^ 6 ≤ int64Max)
    (handled : handleKey processId now c key val = .error r) : r.failure = .invalidArgument := by
  cases key with
  | activityTypes => exact (insertActivityTypes_error handled).1
  | activitiesMaxGcuBufferSize =>
    obtain ⟨failure, value, rfl⟩ := store_error.mp handled
    cases read : toInt32 val with
    | error other =>
      rw [read] at value
      cases value
      exact toIntRange_error read
    | ok mb =>
      have small := buffer rfl mb read
      have bounds := toIntRange_ok read
      simp only [read, bind, Except.bind] at value
      rw [int32_of_bounds (by omega) (by omega)] at value
      simp only at value
      rw [int32_of_bounds (by omega) (by omega)] at value
      cases value
  | requestTimestamp =>
    obtain ⟨failure, value, rfl⟩ := store_error.mp handled
    cases read : toInt64 val with
    | error other =>
      rw [read] at value
      cases value
      exact toIntRange_error read
    | ok ms =>
      have small := time (.inl rfl) ms read
      rw [read] at value
      exact handleRequestTimestamp_error clock.1 (toIntRange_ok read).1 small clock.2 value
  | profileStartTime =>
    obtain ⟨failure, value, rfl⟩ := store_error.mp handled
    cases read : toInt64 val with
    | error other =>
      rw [read] at value
      cases value
      exact toIntRange_error read
    | ok ms =>
      have small := time (.inr rfl) ms read
      rw [read] at value
      exact handleProfileStartTime_error clock.1 (toIntRange_ok read).1 small clock.2 value
  | eventsEnabledDevices =>
    obtain ⟨failure, value, rfl⟩ := store_error.mp handled
    exact createDeviceMask_error value
  | _ =>
    first
      | obtain ⟨failure, value, rfl⟩ := store_error.mp handled
        first
          | exact toIntRange_error value
          | exact toBool_error value
      | cases handled

theorem int32_error {n : Int} {failure : Failure} (raised : int32 n = .error failure) :
    failure = .overflow := by
  unfold int32 at raised
  split at raised
  · cases raised
  · cases raised
    rfl

theorem int64_error {n : Int} {failure : Failure} (raised : int64 n = .error failure) :
    failure = .overflow := by
  unfold int64 at raised
  split at raised
  · cases raised
  · cases raised
    rfl

/-- An age that is asked for is too great, or overflows. -/
theorem age_error {now t most : Int} {failure : Failure}
    (raised : (do
      let age ← int64 (now - t)
      if age > most then throw Failure.invalidArgument else return t : Except Failure Int) =
        .error failure) : failure ≠ .divisionByZero := by
  simp only [bind, Except.bind] at raised
  cases read : int64 (now - t) with
  | error other =>
    rw [read] at raised
    cases raised
    rw [int64_error read]
    simp
  | ok age =>
    rw [read] at raised
    simp only at raised
    split at raised
    · cases raised
      simp
    · cases raised

/-- No option divides. -/
theorem handleKey_defined {r : Rejected} (handled : handleKey processId now c key val = .error r) :
    r.failure ≠ .divisionByZero := by
  cases key with
  | activityTypes =>
    rw [(insertActivityTypes_error handled).1]
    simp
  | activitiesMaxGcuBufferSize =>
    obtain ⟨failure, value, rfl⟩ := store_error.mp handled
    simp only [bind, Except.bind] at value
    split at value
    · rename_i read
      cases value
      rw [toIntRange_error read]
      simp
    · split at value
      · rename_i read
        cases value
        rw [int32_error read]
        simp
      · rw [int32_error value]
        simp
  | requestTimestamp =>
    obtain ⟨failure, value, rfl⟩ := store_error.mp handled
    simp only [handleRequestTimestamp, bind, Except.bind] at value
    split at value
    · rename_i read
      cases value
      rw [toIntRange_error read]
      simp
    · split at value
      · rename_i read
        cases value
        rw [int64_error read]
        simp
      · split at value
        · cases value
          simp
        · exact age_error value
  | profileStartTime =>
    obtain ⟨failure, value, rfl⟩ := store_error.mp handled
    simp only [handleProfileStartTime, bind, Except.bind] at value
    split at value
    · rename_i read
      cases value
      rw [toIntRange_error read]
      simp
    · split at value
      · cases value
      · split at value
        · rename_i read
          cases value
          rw [int64_error read]
          simp
        · exact age_error value
  | eventsEnabledDevices =>
    obtain ⟨failure, value, rfl⟩ := store_error.mp handled
    rw [createDeviceMask_error value]
    simp
  | _ =>
    first
      | obtain ⟨failure, value, rfl⟩ := store_error.mp handled
        first
          | rw [toIntRange_error value]
            simp
          | rw [toBool_error value]
            simp
      | cases handled

end TorchGcu.ProfilerConfig
